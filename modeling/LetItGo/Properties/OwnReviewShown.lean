import LetItGo.Systems.OwnReview

/-!
# The own review, shown once

'Your Review' appears once the lookup has found a review, and nothing else makes it appear. The
lower list leaves the own review out in any case. So the own review is shown exactly once if the
lookup found it, and not at all if it came into the list later: that is, if the user submitted it
after the lookup had read the store and found none.
-/

set_option autoImplicit false

namespace LetItGo.Properties.OwnReviewShown

open LetItGo.Library.Js
open LetItGo.Library.DocumentStore
open LetItGo.Library.AsyncReads
open LetItGo.Library.Runs
open LetItGo.Components
open LetItGo.Components.SignIn (AuthState CheckCall GoogleUser User)
open LetItGo.Components.ReviewSubmissionScreen (ReviewDoc Timestamp)
open LetItGo.Components.DetailsScreen (Details LoadedReview loadReviews mem_loadReviews)
open LetItGo.Systems.ReviewStore
open LetItGo.Systems.OwnReview

/-- The review stands once under 'Your Review', and not in the list below. -/
def ShownOnce (v : Visit) (p : Page) (review : LoadedReview) : Prop :=
  ∃ view own, Reviews.render (p.props v) p.card (some v.user) = .ok view ∧
    view.middle = .yourReview own ∧ own.count review = 1 ∧ review ∉ view.reviews

/-- Neither the sign-in check nor the lookup is in flight. -/
def Quiet (p : Page) : Prop := p.check = none ∧ ∃ found, p.lookup = .answered found

/-- The condition on a step: the user does not submit after the lookup has read the store and found
no review. -/
def submitsInTime (p : Page) : Action → Bool
  | .submit _ _ _ => !p.lookup.foundNone
  | _ => true

/-! ## The user's document -/

section

variable {v : Visit}

theorem lastWrite_own (s : Submission) :
    (lastWrite (writes [s]) v.doc).isSome = true ↔
      s.title = v.title ∧ s.user.uid = v.user.uid := by
  have hlast := congrArg Option.isSome (lastWrite_writes [s] v.title v.user.uid)
  rw [Option.isSome_map, Option.isSome_map] at hlast
  have hone : lastSubmission [s] v.title v.user.uid =
      if s.title = v.title ∧ s.user.uid = v.user.uid then some s else none :=
    lastSubmission_concat [] s v.title v.user.uid
  rw [hone] at hlast
  rw [Visit.doc, hlast]
  by_cases h : s.title = v.title ∧ s.user.uid = v.user.uid <;> simp [h]

theorem get_otherSubmit {s : Submission} (h : s.user.uid ≠ v.user.uid) (db : Store ReviewDoc) :
    v.doc.get (commit (writes [s]) db) = v.doc.get db := by
  have hnone : lastWrite (writes [s]) v.doc = none := by
    rw [← Option.not_isSome_iff_eq_none, lastWrite_own]
    exact fun hs => h hs.2
  rw [get_commit, hnone]
  rfl

theorem get_submit (now : Timestamp) (text : String) (rating : Option ℕ) (db : Store ReviewDoc) :
    v.doc.get (commit (writes [v.submission now text rating]) db) ≠ none := by
  obtain ⟨doc, hdoc⟩ := Option.isSome_iff_exists.1
    ((@lastWrite_own v (v.submission now text rating)).2 ⟨rfl, rfl⟩)
  rw [get_commit, hdoc]
  exact Option.some_ne_none _

/-! ## The invariant -/

variable (v) in
/-- The user's reviews in a list. -/
def own (reviews : List LoadedReview) : List LoadedReview :=
  reviews.filter fun review => review.uid = v.user.uid

/-- What holds of the page in every run: the store is keyed, the card and the two flags are where
the check and the lookup have got to, a list never has two reviews of the user, and it has none
while the store has none. -/
structure Inv (v : Visit) (p : Page) : Prop where
  keyed : Keyed p.db
  collapsed : p.card.expandAll = false
  checking : p.check ≠ some (.finish false)
  checked : p.check = none → p.card.auth.isUserSignedIn = true
  lookedUp : p.card.hasReview = true ↔ p.lookup = .answered true
  taken : p.details.reads.Holds fun docs => (own v (loadReviews docs)).length ≤ 1
  listed : (own v p.details.state.reviews).length ≤ 1
  takenNone : v.doc.get p.db = none → p.details.reads.Holds fun docs => own v (loadReviews docs) = []
  listedNone : v.doc.get p.db = none → own v p.details.state.reviews = []

theorem inv_mount (ss : List Submission) : Inv v (Page.mount (commit (writes ss) ∅)) where
  keyed := keyed_writes ss keyed_empty
  collapsed := rfl
  checking := by simp [Page.mount]
  checked := by simp [Page.mount]
  lookedUp := by simp [Page.mount, Reviews.State.mounted]
  taken := (Reads.holds_idle _).issue
  listed := Nat.zero_le 1
  takenNone := fun _ => (Reads.holds_idle _).issue
  listedNone := fun _ => rfl

/-- Where Google has a session, the check ends with the user signed in. -/
theorem check_step {google : GoogleUser} {firebase : Option User} {auth auth' : AuthState}
    {c : CheckCall} {next : Option CheckCall} (hc : c ≠ .finish false)
    (h : c.step ⟨some google, firebase⟩ auth .resolve = some (auth', next)) :
    next ≠ some (.finish false) ∧ (next = none → auth'.isUserSignedIn = true) := by
  cases c with
  | awaitIsSignedIn =>
    -- Google has a session, so the silent sign-in is next
    cases h
    simp
  | awaitSignInSilently =>
    cases h
    simp
  | setUserInfo info =>
    cases h
    simp
  | finish isUserSignedIn =>
    cases h
    cases isUserSignedIn with
    | false => exact absurd rfl hc
    | true => exact ⟨by simp, fun _ => rfl⟩

/-- What a snapshot of a keyed store loads of the user. -/
theorem own_snapshot {db : Store ReviewDoc} (h : Keyed db) {docs : List ReviewDoc}
    (hdocs : docs.Perm (snapshot v.title db)) :
    (own v (loadReviews docs)).length ≤ 1 ∧
      (v.doc.get db = none → own v (loadReviews docs) = []) := by
  have hown : own v (loadReviews docs) =
      ((v.doc.get db).map DetailsScreen.loadReview).toList :=
    loadReviews_filter_uid h hdocs v.user.uid
  rw [hown]
  cases v.doc.get db <;> simp

/-- Until the lookup has found a review, `hasReview` is false. -/
theorem Inv.hasReview_eq_false {p : Page} (h : Inv v p) (hlookup : p.lookup ≠ .answered true) :
    p.card.hasReview = false := by
  rw [Bool.eq_false_iff]
  intro hyes
  exact hlookup (h.lookedUp.1 hyes)

theorem inv_next {p p' : Page} {a : Action} (h : Inv v p) (hnext : Page.Next v p a p') :
    Inv v p' := by
  cases hnext with
  | check c auth next hcheck hstep =>
    have hc : c ≠ .finish false := by
      rintro rfl
      exact h.checking hcheck
    obtain ⟨hchecking, hchecked⟩ := check_step hc hstep
    exact { h with checking := hchecking, checked := hchecked }
  | lookupRead hlookup =>
    have hno : p.card.hasReview = false := h.hasReview_eq_false (by simp [hlookup])
    exact { h with lookedUp := by simp [hno] }
  | lookupAnswer found hlookup =>
    have hno : p.card.hasReview = false := h.hasReview_eq_false (by simp [hlookup])
    cases found with
    | false => exact { h with lookedUp := by simp [Reviews.State.reviewLookedUp, hno] }
    | true =>
      exact { h with
        collapsed := h.collapsed
        checked := h.checked
        lookedUp := by simp [Reviews.State.reviewLookedUp] }
  | details e details hstep htake =>
    have htaken := Details.step_holds h.taken
      (fun i docs he => (own_snapshot h.keyed (htake i docs he)).1) hstep
    have htakenNone := fun hnone => Details.step_holds (h.takenNone hnone)
      (fun i docs he => (own_snapshot h.keyed (htake i docs he)).2 hnone) hstep
    refine { h with
      taken := htaken.1
      listed := ?_
      takenNone := fun hnone => (htakenNone hnone).1
      listedNone := fun hnone => ?_ }
    · rcases htaken.2 with hsame | ⟨docs, hdocs, hreviews⟩
      · rw [hsame]
        exact h.listed
      · rw [hreviews]
        exact hdocs
    · rcases (htakenNone hnone).2 with hsame | ⟨docs, hdocs, hreviews⟩
      · rw [hsame]
        exact h.listedNone hnone
      · rw [hreviews]
        exact hdocs
  | otherSubmit s hother =>
    refine { h with
      keyed := keyed_writes [s] h.keyed
      takenNone := fun hnone => ?_
      listedNone := fun hnone => ?_ }
    · rw [get_otherSubmit hother] at hnone
      exact h.takenNone hnone
    · rw [get_otherSubmit hother] at hnone
      exact h.listedNone hnone
  | submit now text rating =>
    -- the store has a review of the user from now on
    exact { h with
      keyed := keyed_writes [v.submission now text rating] h.keyed
      takenNone := fun hnone => absurd hnone (get_submit now text rating p.db)
      listedNone := fun hnone => absurd hnone (get_submit now text rating p.db) }
  | form a formOpen ha => exact { h with }

theorem inv_step {p p' : Page} {a : Action} (h : Inv v p) (hstep : p.step v a = some p') :
    Inv v p' :=
  inv_next h (Page.next_of_step hstep)

/-! ## A lookup that found none -/

/-- It stays so. -/
theorem foundNone_step {p p' : Page} {a : Action} (h : p.lookup.foundNone = true)
    (hstep : p.step v a = some p') : p'.lookup.foundNone = true := by
  cases Page.next_of_step hstep with
  | lookupRead hlookup =>
    rw [hlookup] at h
    cases h
  | lookupAnswer found hlookup =>
    rw [hlookup] at h
    exact h
  | check => exact h
  | details => exact h
  | otherSubmit => exact h
  | submit => exact h
  | form => exact h

/-- While the user does not submit, neither has the store a review of the user. -/
theorem getNone_step {p p' : Page} {a : Action}
    (h : p.lookup.foundNone = true → v.doc.get p.db = none) (ha : submitsInTime p a = true)
    (hstep : p.step v a = some p') : p'.lookup.foundNone = true → v.doc.get p'.db = none := by
  cases Page.next_of_step hstep with
  | lookupRead hlookup =>
    intro hnone
    simpa [Lookup.foundNone] using hnone
  | lookupAnswer found hlookup =>
    rw [hlookup] at h
    exact h
  | otherSubmit s hother =>
    intro hnone
    rw [get_otherSubmit hother]
    exact h hnone
  | submit now text rating =>
    intro hnone
    have hnot : p.lookup.foundNone = false := by simpa [submitsInTime] using ha
    rw [hnot] at hnone
    cases hnone
  | check => exact h
  | details => exact h
  | form => exact h

/-! ## What is shown -/

theorem own_eq_singleton {reviews : List LoadedReview} {review : LoadedReview}
    (h : (own v reviews).length ≤ 1) (hmem : review ∈ reviews) (hown : review.uid = v.user.uid) :
    own v reviews = [review] := by
  have hmem' : review ∈ own v reviews := List.mem_filter.2 ⟨hmem, decide_eq_true hown⟩
  obtain ⟨first, hfirst⟩ := List.length_eq_one_iff.1
    (Nat.le_antisymm h (List.length_pos_of_mem hmem'))
  rw [hfirst] at hmem' ⊢
  rw [List.mem_singleton.1 hmem']

/-- With the review found, it is shown once. -/
theorem shownOnce_of_found {p : Page} (h : Inv v p) (hcheck : p.check = none)
    (hlookup : p.lookup = .answered true) {review : LoadedReview}
    (hmem : review ∈ p.details.state.reviews) (hown : review.uid = v.user.uid) :
    ShownOnce v p review := by
  have hsigned : p.card.auth.isUserSignedIn = true := h.checked hcheck
  have hreview : p.card.hasReview = true := h.lookedUp.2 hlookup
  have hmiddle := Reviews.renderMiddle_yourReview (p.props v) hsigned hreview v.user
  have hlist := Reviews.renderReviews_collapsed (p.props v) h.collapsed v.user
  have hrender : Reviews.render (p.props v) p.card (some v.user) =
      .ok ⟨Reviews.reviewRatings (p.props v).avgRating, .yourReview (own v (p.props v).reviews),
        ((p.props v).reviews.take 5).filter fun review => review.uid ≠ v.user.uid,
        Reviews.buttonTitle (p.props v) p.card⟩ := by
    rw [Reviews.render, hmiddle, hlist]
    rfl
  refine ⟨_, own v p.details.state.reviews, hrender, rfl, ?_, ?_⟩
  · rw [own_eq_singleton h.listed hmem hown, List.count_singleton_self]
  · intro hlower
    have hother := (List.mem_filter.1 hlower).2
    simp [hown] at hother

/-- Without, it is not. -/
theorem found_of_shownOnce {p : Page} (h : Inv v p) {review : LoadedReview}
    (hshown : ShownOnce v p review) : p.lookup = .answered true := by
  obtain ⟨view, own, hrender, hmiddle, -⟩ := hshown
  apply h.lookedUp.1
  by_contra hreview
  unfold Reviews.render at hrender
  split at hrender
  · cases hrender
  · next middle hm =>
    split at hrender
    · cases hrender
    · cases hrender
      cases hmiddle
      -- no branch of `render` shows 'Your Review' while `hasReview` is false
      simp only [Reviews.renderMiddle, hreview, if_false] at hm
      split at hm
      · split at hm <;> cases hm
      · cases hm

/-- In every run, from a store of any submissions: in a state in which neither the check nor the
lookup is in flight and the loaded list has a review of the user, that review is shown exactly once
if and only if the user did not submit in the run after the lookup had read the store and found
none. -/
theorem shownOnce_iff_submitsInTime (v : Visit) (ss : List Submission) {as : List Action}
    {p : Page} (hrun : run (Page.step v) (Page.mount (commit (writes ss) ∅)) as = some p)
    (hquiet : Quiet p) {review : LoadedReview} (hmem : review ∈ p.details.state.reviews)
    (hown : review.uid = v.user.uid) :
    ShownOnce v p review ↔
      EveryStep (Page.step v) (fun p a => submitsInTime p a = true)
        (Page.mount (commit (writes ss) ∅)) as := by
  have hinv : Inv v p := run_invariant (fun _ _ _ h hstep => inv_step h hstep) (inv_mount ss) hrun
  obtain ⟨hcheck, found, hlookup⟩ := hquiet
  constructor
  · intro hshown
    have hfound : p.lookup = .answered true := found_of_shownOnce hinv hshown
    refine everyStep_of_not_end (Q := fun p : Page => p.lookup.foundNone = true)
      (fun _ _ _ h hstep => foundNone_step h hstep) ?_ hrun (by simp [hfound, Lookup.foundNone])
    intro p a
    cases hnone : p.lookup.foundNone with
    | true => exact Or.inl rfl
    | false => cases a <;> simp [submitsInTime, hnone]
  · intro htime
    have hnone : p.lookup.foundNone = true → v.doc.get p.db = none :=
      run_guarded (I := fun p : Page => p.lookup.foundNone = true → v.doc.get p.db = none)
        (fun _ _ _ h ha hstep => getNone_step h ha hstep) (by simp [Page.mount, Lookup.foundNone])
        htime hrun
    cases found with
    | true => exact shownOnce_of_found hinv hcheck hlookup hmem hown
    | false =>
      -- then the store has no review of the user, and the list would have none
      have hlist : own v p.details.state.reviews = [] :=
        hinv.listedNone (hnone (by rw [hlookup]; rfl))
      have hmem' : review ∈ own v p.details.state.reviews :=
        List.mem_filter.2 ⟨hmem, decide_eq_true hown⟩
      rw [hlist] at hmem'
      cases hmem'

end

/-- Ann, on the page of COM1. -/
def annOnCom1 : Visit := ⟨⟨"u1", some "Ann", none⟩, ⟨"1", "Ann", "ann.jpg"⟩, "COM1"⟩

/-- Ann's review of COM1, as it is loaded. -/
def annsReview : LoadedReview := ⟨none, ⟨0⟩, none, some "Ann", "clean", 3, "u1"⟩

/-- Ann's review was there when the page was opened: it is shown once. -/
theorem shownOnce_submitted_before :
    ∃ p, run (Page.step annOnCom1)
        (Page.mount (commit (writes [annOnCom1.submission ⟨0, 0⟩ "clean" none]) ∅))
        [.check, .check, .check, .check, .lookupRead, .lookupAnswer,
          .details (.take 0 [⟨⟨⟨0, 0⟩, none, some "Ann", none, "clean", 3, "u1"⟩⟩]),
          .details (.succeed 0)] = some p ∧
      ShownOnce annOnCom1 p annsReview :=
  ⟨_, rfl, (@shownOnce_iff_submitsInTime annOnCom1 [annOnCom1.submission ⟨0, 0⟩ "clean" none]
    [.check, .check, .check, .check, .lookupRead, .lookupAnswer,
      .details (.take 0 [⟨⟨⟨0, 0⟩, none, some "Ann", none, "clean", 3, "u1"⟩⟩]),
      .details (.succeed 0)] _ rfl ⟨rfl, true, rfl⟩ annsReview (by decide) rfl).2 (by decide)⟩

/-- Ann submits her first review after the lookup has found none, and comes back: the review is
loaded, and shown neither under 'Your Review' nor below. -/
theorem notShown_submitted_after :
    ∃ p view, run (Page.step annOnCom1) (Page.mount (commit (writes []) ∅))
        [.check, .check, .check, .check, .lookupRead, .lookupAnswer, .openForm,
          .submit ⟨0, 0⟩ "clean" none, .goBack,
          .details (.take 0 [⟨⟨⟨0, 0⟩, none, some "Ann", none, "clean", 3, "u1"⟩⟩]),
          .details (.succeed 0)] = some p ∧
      Quiet p ∧ p.details.state.reviews = [annsReview] ∧
      Reviews.render (p.props annOnCom1) p.card (some annOnCom1.user) = .ok view ∧
      view.middle = .rateAndReview "ann.jpg" ∧ view.reviews = [] ∧
      ¬ ShownOnce annOnCom1 p annsReview := by
  refine ⟨_, _, rfl, ⟨rfl, false, rfl⟩, rfl, rfl, rfl, rfl, ?_⟩
  rintro ⟨view, own, hrender, hmiddle, -⟩
  cases hrender
  cases hmiddle

end LetItGo.Properties.OwnReviewShown
