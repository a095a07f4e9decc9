import LetItGo.Systems.OwnReview
import LetItGo.Properties.PageShowsBoard

/-!
# Visits to a page within the app

`OwnReview` is about a user who stays on the details page of one toilet, signed in, and leaves
everything else out. On a phone, among any others, such a visit is a stretch of a run in which the page
stays, with the two sessions of the user (`Visiting`), and nothing happens that the visit does not speak
of (`partOfVisit`). Whatever else happens on this phone and on all others, the page is then at each
moment as in a run of `OwnReview` (`visit_run`), from a store that submissions have made.
-/

set_option autoImplicit false

namespace LetItGo.Properties.AppVisits

open LetItGo.Library.DocumentStore
open LetItGo.Library.Runs
open LetItGo.Library.Traces
open LetItGo.Components
open LetItGo.Components.FirstScreen (Coords Toilet)
open LetItGo.Components.ReviewSubmissionScreen (ReviewDoc Timestamp)
open LetItGo.Components.SignIn (AuthState CheckCall GoogleUser Outcome Sessions User)
open LetItGo.Properties.PageShowsBoard (Sound sound_run sound_start sound_step)
open LetItGo.Properties.Submissions
open LetItGo.Systems
open LetItGo.Systems.OwnReview (Visit)
open LetItGo.Systems.Navigator (onPress)
open LetItGo.Systems.ReviewBoard (WellFormed allWellFormed_empty)
open LetItGo.Systems.ReviewStore (Submission writes)
open LetItGo.Systems.SharedReviews
open LetItGo.Systems.WholeApp

universe u

variable {ι : Type u}

/-! ## The visit -/

/-- The user is on the page with the key, with a Google and a Firebase session. -/
def Visiting (v : Visit) (key : ℕ) (d : App) : Prop :=
  d.sessions = ⟨some v.google, some v.user⟩ ∧
    ∃ first p, d.screens = .ok ⟨first, some p⟩ ∧ p.key = key

/-- What can happen on the phone during the visit: the page stays the toilet's and is not signed in to
anew, its sign-in check succeeds, the server answers its reads, the list stays collapsed, and the user's
reviews that are written come from its submission screens. -/
def partOfVisit (v : Visit) (key : ℕ) (d : App) : Action → Prop
  | .pressRow _ => False
  | .page (.takeLocal _ _) => False
  | .page (.lookupLocal _) => False
  | .page .pressToggle => False
  | .pressSignIn owner => owner ≠ key
  | .settle i o => ∀ call, d.calls[i]? = some ⟨key, call⟩ → o = .resolve
  | .set (.commit i) => ∀ r, d.sets[i]? = some r → r.write.2.review.uid = v.user.uid → key < r.key
  | _ => True

/-- Nobody writes for the user on another phone. -/
def Visits [DecidableEq ι] (v : Visit) (i : ι) (key : ℕ) (w : World ι) (x : ι × Action) : Prop :=
  if x.1 = i then partOfVisit v key (w.phone i) x.2
  else ∀ write ∈ w.posts x, write.2.review.uid ≠ v.user.uid

/-! ## What it sees -/

/-- The lookup of the page, as the visit has it. -/
inductive SeesLookup (v : Visit) : Option PendingLookup → OwnReview.Lookup → Prop where
  | issued : SeesLookup v (some ⟨v.doc, none⟩) .issued
  | read (doc : DocRef) (found : Bool) : SeesLookup v (some ⟨doc, some found⟩) (.read found)
  | answered (found : Bool) : SeesLookup v none (.answered found)

/-- The page is the one of the visit. -/
structure Sees (v : Visit) (p : Page) (q : OwnReview.Page) : Prop where
  ref : p.ref = DetailsScreen.constructorRef (some v.title)
  title : p.params.title = some v.title
  details : q.details = p.details
  card : q.card = p.card
  lookup : SeesLookup v p.lookup q.lookup
  form : ∀ f, p.form = some f →
    q.formOpen = true ∧ f.screen.ref = DetailsScreen.constructorRef (some v.title)

/-- The phone, with the collection, is at this point of the visit: so are the page, its sign-in check,
and the `set`s of the submission screens that have been opened on it. -/
structure Follows (v : Visit) (key : ℕ) (db : Store ReviewDoc) (d : App) (q : OwnReview.Page) :
    Prop where
  db : q.db = db
  page : ∀ first p, d.screens = .ok ⟨first, some p⟩ → p.key = key → Sees v p q
  check : (d.calls.filter fun r => r.owner = key).Perm
    (q.check.map fun c => PendingCall.mk key (.check c)).toList
  sets : ∀ r ∈ d.sets, key < r.key → q.formOpen = true ∧
    ∃ now text rating, (v.submission now text rating).write = .ok r.write

section

variable {getDistance : Coords → Coords → ℚ → ℚ} {localeCompare : String → String → ℤ}
  {userOf : GoogleUser → User} {d d' : App} {db : Store ReviewDoc} {a : Action} {v : Visit}
  {key : ℕ} {p p' : Page} {q : OwnReview.Page}

/-! ## The page -/

/-- Only a tap on the stars of 'Rate n Review' opens a submission screen. -/
theorem signedIn_of_tapStar {count : ReviewSubmissionScreen.Star}
    (hstep : d.step getDistance localeCompare userOf db (.tapStar count) = some d')
    {first : FirstScreen.Mounted} (hscreens : d.screens = .ok ⟨first, some p⟩) :
    p.card.auth.isUserSignedIn = true ∧ p.card.hasReview = false := by
  have hpage := App.mountedPage_eq_some_iff.2 hscreens
  simp only [App.step, hpage, Option.bind_some] at hstep
  split at hstep
  · next photo hmiddle =>
    cases hsigned : p.card.auth.isUserSignedIn with
    | false => simp [Reviews.renderMiddle, hsigned] at hmiddle
    | true =>
      cases hreview : p.card.hasReview with
      | false => exact ⟨rfl, rfl⟩
      | true =>
        cases hfilter : Library.Js.filter (Reviews.isOwn d.sessions.firebase) p.props.reviews <;>
          simp [Reviews.renderMiddle, hsigned, hreview, hfilter, Except.map] at hmiddle
  · cases hstep

/-- Another form, of the same collection, or none. -/
theorem Sees.form_change (h : Sees v p q) {form : Option Form}
    (hform : ∀ f', form = some f' → ∃ f, p.form = some f ∧ f'.screen.ref = f.screen.ref) :
    Sees v { p with form } q where
  ref := h.ref
  title := h.title
  details := h.details
  card := h.card
  lookup := h.lookup
  form := by
    intro f' hf'
    obtain ⟨f, hf, href⟩ := hform f' hf'
    rw [href]
    exact h.form f hf

/-- What happens to the page is a step of the visit. -/
theorem Sees.page_step (h : Sees v p q) {known : List (DocRef × ReviewDoc)} {e : PageEvent}
    (hdb : q.db = db) (hpart : partOfVisit v key d (.page e)) (hstep : p.step db known e = some p') :
    ∃ e' q', q.step v e' = some q' ∧ Sees v p' q' ∧ q'.db = q.db ∧ q'.check = q.check ∧
      q'.formOpen = q.formOpen := by
  cases e with
  | details e =>
    obtain ⟨htakes, hdetails⟩ := Option.ite_none_right_eq_some.1 hstep
    obtain ⟨details, hevent, rfl⟩ := Option.map_eq_some_iff.1 hdetails
    have hvisit : q.detailsStep v e = some details := by
      rw [← h.details] at hevent
      cases e with
      | take i docs =>
        -- what the server answers is what the visit's store holds under the title
        have hperm : docs.Perm (ReviewStore.snapshot v.title q.db) := by
          have htaken := of_decide_eq_true htakes
          rw [h.ref, ← hdb] at htaken
          exact htaken
        exact (if_pos hperm).trans hevent
      | openOverlay => exact hevent
      | closeOverlay => exact hevent
      | navigationUpdate => exact hevent
      | succeed i => exact hevent
      | fail i => exact hevent
    refine ⟨.details e, { q with details }, by simp [OwnReview.Page.step, hvisit], ?_, rfl, rfl, rfl⟩
    exact ⟨h.ref, h.title, rfl, h.card, h.lookup, h.form⟩
  | takeLocal i docs => exact hpart.elim
  | pressToggle => exact hpart.elim
  | lookupLocal found => exact hpart.elim
  | lookupRead =>
    have hlookup := h.lookup
    simp only [Page.step] at hstep
    split at hstep
    · next doc hissued =>
      -- the lookup of the mounting is that of the user's own document
      cases hstep
      rw [hissued] at hlookup
      generalize hl : q.lookup = l at hlookup
      cases hlookup
      refine ⟨.lookupRead, { q with lookup := .read (v.doc.get db).isSome }, ?_, ?_, rfl, rfl, rfl⟩
      · simp [OwnReview.Page.step, hl, OwnReview.checkIfReviewExists_eq, hdb]
      · exact ⟨h.ref, h.title, h.details, h.card, .read _ _, h.form⟩
    · cases hstep
  | lookupAnswer =>
    have hlookup := h.lookup
    simp only [Page.step] at hstep
    split at hstep
    · next doc found hread =>
      cases hstep
      rw [hread] at hlookup
      generalize hl : q.lookup = l at hlookup
      cases hlookup
      refine ⟨.lookupAnswer,
        { q with card := q.card.reviewLookedUp found, lookup := .answered found }, ?_, ?_,
        rfl, rfl, rfl⟩
      · simp [OwnReview.Page.step, hl]
      · refine ⟨h.ref, h.title, h.details, ?_, .answered found, h.form⟩
        rw [h.card]
    · cases hstep

/-- So is any change of a page that stays, unless a call moves. -/
theorem Sees.change (h : Sees v p q) {known : List (DocRef × ReviewDoc)} {nextKey : ℕ}
    (hdb : q.db = db) (hpart : partOfVisit v key d a) (hsettle : ∀ i o, a ≠ .settle i o)
    (hrate : ∀ count, a = .tapStar count →
      p.card.auth.isUserSignedIn = true ∧ p.card.hasReview = false)
    (hchange : Page.Change db known nextKey p a p') :
    ∃ as q', run (OwnReview.Page.step v) q as = some q' ∧ Sees v p' q' ∧ q'.db = q.db ∧
      q'.check = q.check ∧ (q.formOpen = true → q'.formOpen = true) := by
  have hstays : ∀ p', Sees v p' q → ∃ as q', run (OwnReview.Page.step v) q as = some q' ∧
      Sees v p' q' ∧ q'.db = q.db ∧ q'.check = q.check ∧ (q.formOpen = true → q'.formOpen = true) :=
    fun p' hp' => ⟨[], q, rfl, hp', rfl, rfl, id⟩
  have hpage : ∀ e, a = .page e → p.step db known e = some p' →
      ∃ as q', run (OwnReview.Page.step v) q as = some q' ∧ Sees v p' q' ∧ q'.db = q.db ∧
        q'.check = q.check ∧ (q.formOpen = true → q'.formOpen = true) := by
    rintro e rfl hstep
    obtain ⟨e', q', hstep', hsees, hdb', hcheck, hopen⟩ := h.page_step hdb hpart hstep
    exact ⟨[e'], q', run_cons_iff.2 ⟨q', hstep', rfl⟩, hsees, hdb', hcheck, fun h => hopen.trans h⟩
  cases hchange with
  | stays => exact hstays p h
  | update item => exact hpart.elim
  | details e details htakes hdetails =>
    exact hpage _ rfl (by simp [Page.step, htakes, hdetails])
  | takeLocal i docs details => exact hpart.elim
  | card e card lookup hstep => exact hpage e rfl hstep
  | setAuth i o => exact absurd rfl (hsettle i o)
  | openForm count hform =>
    -- only the stars of 'Rate n Review' lead here, and the title is still the toilet's
    obtain ⟨hsigned, hreview⟩ := hrate count rfl
    refine ⟨[.openForm], { q with formOpen := true }, ?_, ?_, rfl, rfl, fun _ => rfl⟩
    · simp [run, OwnReview.Page.step, h.card, hsigned, hreview]
    · refine ⟨h.ref, h.title, h.details, h.card, h.lookup, ?_⟩
      intro f hf
      cases hf
      refine ⟨rfl, ?_⟩
      show DetailsScreen.constructorRef (some (p.params.title.getD "COM1")) = _
      rw [h.title]
      rfl
  | form _ f f' hform hf _ =>
    refine hstays _ (h.form_change ?_)
    intro f'' hf''
    obtain rfl := Option.some.inj hf''
    exact ⟨f, hform, hf.key_ref.2⟩
  | closed => exact hstays _ (h.form_change fun f' hf' => by cases hf')

/-! ## Its sign-in check -/

/-- As long as no call moves and its card is not signed in to, the calls of the page stay. -/
theorem calls_of_signsIn (h : App.SignsIn userOf d a d') (hkeys : d.Keys)
    {first : FirstScreen.Mounted} (hscreens : d.screens = .ok ⟨first, some p⟩) (hkey : p.key = key)
    (hpart : partOfVisit v key d a) (hsettle : ∀ i o, a ≠ .settle i o) :
    (d'.calls.filter fun r => r.owner = key) = d.calls.filter fun r => r.owner = key := by
  cases h with
  | stays _ hcalls _ _ => rw [hcalls]
  | mounts _ hcalls _ _ =>
    have hother : d.nextKey ≠ key := hkey ▸ (hkeys.page first p hscreens).ne'
    simp [hcalls, hother]
  | presses owner auth call _ _ _ hpress =>
    have hother : owner ≠ key := by
      rintro rfl
      rw [hpress first p hscreens hkey] at hpart
      exact hpart rfl
    simp [App.push, hother]
  | settles i o => exact absurd rfl (hsettle i o)

/-- A call that takes a step is replaced by what it goes on with. -/
theorem calls_advance_perm (i : ℕ) (r : PendingCall) (ss : Sessions) (auth : AuthState)
    (next : Option SignIn.Call) (hr : d.calls[i]? = some r) :
    (d.advance i r ss auth next).calls.Perm
      ((next.map fun call => PendingCall.mk r.owner call).toList ++ d.calls.eraseIdx i) := by
  obtain ⟨hi, -⟩ := List.getElem?_eq_some_iff.1 hr
  obtain ⟨-, -, -, hcalls⟩ := d.advance_eq i r ss auth next
  rw [hcalls]
  cases next with
  | none => exact List.Perm.refl _
  | some call => exact List.set_perm_cons_eraseIdx hi _

theorem calls_perm {i : ℕ} {r : PendingCall} (hr : d.calls[i]? = some r) :
    d.calls.Perm (r :: d.calls.eraseIdx i) := by
  obtain ⟨hi, rfl⟩ := List.getElem?_eq_some_iff.1 hr
  exact (List.getElem_cons_eraseIdx_perm hi).symm

/-- When the check of the page goes on, so does that of the visit. -/
theorem follows_check (h : Follows v key db d q) (hsessions : d.sessions = ⟨some v.google, some v.user⟩)
    {first : FirstScreen.Mounted} (hscreens : d.screens = .ok ⟨first, some p⟩) (hkey : p.key = key)
    {i : ℕ} {r : PendingCall} {ss : Sessions} {auth auth' : AuthState} {next : Option SignIn.Call}
    (hr : d.calls[i]? = some r) (howner : r.owner = key)
    (hauth : auth = (d.auth r.owner).getD AuthState.initial)
    (hcall : r.call.step userOf d.sessions auth .resolve = some (ss, auth', next)) :
    ∃ q', q.step v .check = some q' ∧ Follows v key db (d.advance i r ss auth' next) q' := by
  obtain ⟨owner, call⟩ := r
  obtain rfl : owner = key := howner
  have hsees := h.page first p hscreens hkey
  have hmem : (⟨owner, call⟩ : PendingCall) ∈ d.calls.filter fun r => r.owner = owner :=
    List.mem_filter.2 ⟨List.mem_of_getElem? hr, decide_eq_true rfl⟩
  rw [h.check.mem_iff, Option.mem_toList] at hmem
  obtain ⟨c, hcheck, heq⟩ := Option.map_eq_some_iff.1 hmem
  obtain rfl : SignIn.Call.check c = call := congrArg PendingCall.call heq
  -- the state that the call sees is the card's
  have hcard : auth = p.card.auth := by
    have hmounted : d.auth owner = some p.card.auth :=
      App.auth_eq_some_iff.2 ⟨first, p, hscreens, if_pos hkey⟩
    rw [hauth, hmounted]
    rfl
  obtain ⟨⟨st, next'⟩, hc, heq⟩ := Option.map_eq_some_iff.1 hcall
  cases heq
  rw [hsessions, hcard, ← hsees.card] at hc
  refine ⟨{ q with card := { q.card with auth := st }, check := next' }, ?_, ?_⟩
  · simp [OwnReview.Page.step, hcheck, hc]
  · refine ⟨h.db, ?_, ?_, ?_⟩
    · intro first' p' hscreens' _
      obtain ⟨p₀, hscreens₀, rfl⟩ := App.page_of_advance hscreens'
      rw [hscreens] at hscreens₀
      cases hscreens₀
      have hset : p.setAuth owner st = { p with card := { p.card with auth := st } } := if_pos hkey
      rw [hset]
      exact ⟨hsees.ref, hsees.title, hsees.details, by rw [hsees.card], hsees.lookup, hsees.form⟩
    · -- it was the only call of the page
      have hothers : (d.calls.eraseIdx i).filter (fun r => r.owner = owner) = [] := by
        have hperm := ((calls_perm hr).filter fun r => r.owner = owner).symm.trans h.check
        rw [hcheck, List.filter_cons_of_pos (by simp)] at hperm
        exact List.perm_nil.1 hperm.cons_inv
      have hperm := (calls_advance_perm i _ d.sessions st (next'.map .check) hr).filter
        fun r => r.owner = owner
      rw [List.filter_append, hothers, List.append_nil] at hperm
      refine hperm.trans (List.Perm.of_eq ?_)
      cases next' <;> simp
    · intro r hr' hlt
      rw [(d.advance_eq _ _ _ _ _).2.2.1] at hr'
      exact h.sets r hr' hlt

/-- Other calls are nothing to it. -/
theorem follows_otherCall (h : Follows v key db d q) {i : ℕ} {r : PendingCall} {ss : Sessions}
    {auth' : AuthState} {next : Option SignIn.Call} (hr : d.calls[i]? = some r)
    (howner : r.owner ≠ key) : Follows v key db (d.advance i r ss auth' next) q where
  db := h.db
  page := by
    intro first p' hscreens' hkey
    obtain ⟨p, hscreens, rfl⟩ := App.page_of_advance hscreens'
    have hset : p.key ≠ r.owner := by
      rintro heq
      rw [Page.setAuth, if_pos heq] at hkey
      exact howner (heq.symm.trans hkey)
    rw [Page.setAuth, if_neg hset] at hkey ⊢
    refine (h.page first p hscreens hkey).form_change ?_
    intro f' hf'
    obtain ⟨f, hf, rfl⟩ := Option.map_eq_some_iff.1 hf'
    refine ⟨f, hf, ?_⟩
    split <;> rfl
  check := by
    have hold := (calls_perm hr).filter fun r => r.owner = key
    have hnew := (calls_advance_perm i r ss auth' next hr).filter fun r => r.owner = key
    rw [List.filter_cons_of_neg (by simpa using howner)] at hold
    have hnone : (next.map fun call => PendingCall.mk r.owner call).toList.filter
        (fun r => r.owner = key) = [] := by
      cases next <;> simp [howner]
    rw [List.filter_append, hnone, List.nil_append] at hnew
    exact hnew.trans (hold.symm.trans h.check)
  sets := by
    intro r' hr' hlt
    rw [(d.advance_eq i r ss auth' next).2.2.1] at hr'
    exact h.sets r' hr' hlt

/-! ## What is written -/

/-- A well formed document is written by a submission of its author. -/
theorem exists_submission {w : DocRef × ReviewDoc} (h : WellFormed w) :
    ∃ s : Submission, s.write = .ok w ∧ s.user.uid = w.2.review.uid := by
  obtain ⟨ref, ⟨⟨date, id, name, photoURL, text, score, uid⟩⟩⟩ := w
  obtain ⟨title, hplace⟩ := h.place
  have hscore : score ≠ 0 := Nat.one_le_iff_ne_zero.1 h.score.1
  obtain rfl : id = none := h.id
  obtain rfl : ref = (DetailsScreen.constructorRef (some title)).doc uid := hplace
  refine ⟨⟨⟨uid, name, photoURL⟩, title, date, text, some score⟩, ?_, rfl⟩
  simp only [Submission.write, ReviewSubmissionScreen.submitReview, hscore, if_false]
  rfl

theorem writes_singleton {s : Submission} {w : DocRef × ReviewDoc} (h : s.write = .ok w) :
    writes [s] = [w] := by
  simp [writes, h, Except.toOption]

theorem exists_writes {ws : List (DocRef × ReviewDoc)} (h : ∀ w ∈ ws, WellFormed w) :
    ∃ ss, writes ss = ws := by
  induction ws with
  | nil => exact ⟨[], rfl⟩
  | cons w ws ih =>
    obtain ⟨s, hs, -⟩ := exists_submission (h w List.mem_cons_self)
    obtain ⟨ss, rfl⟩ := ih fun w' hw' => h w' (List.mem_cons_of_mem w hw')
    exact ⟨s :: ss, by simp [writes, hs, Except.toOption]⟩

/-- The visit takes what is written, the user's own from a form that has been opened. -/
theorem run_commit {ws : List (DocRef × ReviewDoc)}
    (h : ∀ w ∈ ws, WellFormed w ∧ (w.2.review.uid = v.user.uid → q.formOpen = true ∧
      ∃ now text rating, (v.submission now text rating).write = .ok w)) :
    ∃ as, run (OwnReview.Page.step v) q as = some { q with db := commit ws q.db } := by
  induction ws generalizing q with
  | nil => exact ⟨[], rfl⟩
  | cons w ws ih =>
    -- one write is one submission, of the user or of another
    obtain ⟨hw, hown⟩ := h w List.mem_cons_self
    have hfirst : ∃ a, q.step v a = some { q with db := commit [w] q.db } := by
      by_cases huid : w.2.review.uid = v.user.uid
      · obtain ⟨hopen, now, text, rating, hwrite⟩ := hown huid
        refine ⟨.submit now text rating, ?_⟩
        simp [OwnReview.Page.step, hopen, writes_singleton hwrite]
      · obtain ⟨s, hs, hauthor⟩ := exists_submission hw
        refine ⟨.otherSubmit s, ?_⟩
        simp [OwnReview.Page.step, hauthor, huid, writes_singleton hs]
    obtain ⟨a, ha⟩ := hfirst
    obtain ⟨as, has⟩ := @ih { q with db := commit [w] q.db }
      fun w' hw' => h w' (List.mem_cons_of_mem w hw')
    exact ⟨a :: as, run_cons_iff.2 ⟨_, ha, has⟩⟩

/-- What a submission screen of the visit sends is a submission of the user to the toilet. -/
theorem submission_of_pressSubmit {f : Form} {now : Timestamp} {write : DocRef × ReviewDoc}
    (href : f.screen.ref = DetailsScreen.constructorRef (some v.title))
    (hsubmit : f.screen.pressSubmit (some v.user) now = some (.ok write)) :
    ∃ text rating, (v.submission now text rating).write = .ok write := by
  unfold ReviewSubmissionScreen.Mounted.pressSubmit at hsubmit
  split at hsubmit
  · obtain ⟨text, -, hwrite⟩ := Option.map_eq_some_iff.1 hsubmit
    rw [href] at hwrite
    exact ⟨text, f.screen.state.rating, hwrite⟩
  · cases hsubmit

/-! ## Each step -/

/-- Whatever happens on the phone during the visit is a run of it. -/
theorem follows_step (h : Follows v key db d q) (hkeys : d.Keys) (hready : PhoneReady d)
    (hvisit : Visiting v key d) (hvisit' : Visiting v key d') (hpart : partOfVisit v key d a)
    (hstep : d.step getDistance localeCompare userOf db a = some d') :
    ∃ as q', run (OwnReview.Page.step v) q as = some q' ∧
      Follows v key (commit (d.posts a) db) d' q' := by
  obtain ⟨hsessions, first, p, hscreens, hkey⟩ := hvisit
  have hnext := App.next_of_step hstep
  by_cases hsettle : ∃ i o, a = .settle i o
  · obtain ⟨i, o, rfl⟩ := hsettle
    cases hnext with
    | @settle _ _ r ss auth auth' next hr hauth hcall =>
      by_cases howner : r.owner = key
      · obtain rfl : o = .resolve := hpart r.call (by rw [hr, ← howner])
        obtain ⟨q', hcheck, hfollows⟩ :=
          follows_check h hsessions hscreens hkey hr howner hauth hcall
        exact ⟨[.check], q', run_cons_iff.2 ⟨q', hcheck, rfl⟩, hfollows⟩
      · exact ⟨[], q, rfl, follows_otherCall h hr howner⟩
  · have hsettle : ∀ i o, a ≠ .settle i o := fun i o heq => hsettle ⟨i, o, heq⟩
    have hsession : a ≠ .sessionEnds := by
      -- the user still has the session afterwards
      rintro rfl
      cases hnext
      have hfirebase := congrArg Sessions.firebase hvisit'.1
      cases hfirebase
    obtain ⟨-, first', p', hscreens', hkey'⟩ := hvisit'
    -- the page is the one from before
    have hchange : Page.Change db d.known d.nextKey p a p' := by
      rcases App.page_of_next hnext hscreens' with
        ⟨item, doc, rfl, -⟩ | ⟨first₀, p₀, hscreens₀, hchange⟩
      · exact hpart.elim
      · rw [hscreens] at hscreens₀
        cases hscreens₀
        exact hchange
    have hsees := h.page first p hscreens hkey
    have hrate : ∀ count, a = .tapStar count →
        p.card.auth.isUserSignedIn = true ∧ p.card.hasReview = false := by
      rintro count rfl
      exact signedIn_of_tapStar hstep hscreens
    obtain ⟨as₁, q₁, hrun₁, hsees₁, hdb₁, hcheck₁, hopen⟩ :=
      hsees.change h.db hpart hsettle hrate hchange
    have hcalls := calls_of_signsIn (App.signsIn_of_next hnext hkeys hsession) hkeys hscreens hkey
      hpart hsettle
    have hposts : ∀ w ∈ d.posts a, WellFormed w ∧ (w.2.review.uid = v.user.uid →
        q₁.formOpen = true ∧ ∃ now text rating, (v.submission now text rating).write = .ok w) := by
      intro w hw
      obtain ⟨i, r, rfl, hset, rfl⟩ := App.mem_posts hw
      have hr : r ∈ d.sets := List.mem_of_getElem? hset
      refine ⟨hready.sets r hr, fun huid => ?_⟩
      obtain ⟨hopened, hwrite⟩ := h.sets r hr (hpart r hset huid)
      exact ⟨hopen hopened, hwrite⟩
    -- the step sees the collection without its own write
    obtain ⟨as₂, hrun₂⟩ := run_commit hposts
    refine ⟨as₁ ++ as₂, { q₁ with db := commit (d.posts a) q₁.db },
      run_append_iff.2 ⟨q₁, hrun₁, hrun₂⟩, ?_, ?_, ?_, ?_⟩
    · rw [hdb₁, h.db]
    · intro first'' p'' hscreens'' _
      rw [hscreens'] at hscreens''
      cases hscreens''
      exact ⟨hsees₁.ref, hsees₁.title, hsees₁.details, hsees₁.card, hsees₁.lookup, hsees₁.form⟩
    · rw [hcalls, hcheck₁]
      exact h.check
    · intro r' hr' hlt
      -- a set that has been sent before, or the one that this step sends
      rcases App.mem_sets_of_next hnext hr' with ⟨r, hr, hrkey, hwrite⟩ |
        ⟨first₀, p₀, f, now, rfl, hscreens₀, hform, -, hsubmit⟩
      · rw [hrkey] at hlt
        rw [hwrite]
        obtain ⟨hopened, hsent⟩ := h.sets r hr hlt
        exact ⟨hopen hopened, hsent⟩
      · rw [hscreens] at hscreens₀
        cases hscreens₀
        obtain ⟨hopened, href⟩ := hsees.form f hform
        rw [hsessions] at hsubmit
        exact ⟨hopen hopened, now, submission_of_pressSubmit href hsubmit⟩

/-- A visit begins when the row of the toilet is pressed. -/
theorem follows_mount (hkeys : d.Keys) {first : FirstScreen.Mounted} {item : Toilet}
    (hscreens : d.screens = .ok ⟨first, none⟩) (hitem : item.name = v.title)
    (hvisit' : Visiting v d.nextKey d')
    (hnext : App.Next getDistance localeCompare userOf db d (.pressRow item) d') :
    Follows v d.nextKey db d' (OwnReview.Page.mount db) := by
  obtain ⟨hsessions, first', p', hscreens', -⟩ := hvisit'
  cases hnext with
  | constructorFails => cases hscreens'
  | mountFails => cases hscreens'
  | pressAgain h =>
    rw [hscreens] at h
    cases h
  | @mountPage first₀ _ user doc _ _ hfirebase hdoc =>
    have huser : user = v.user := by
      have hsame : d.sessions.firebase = some v.user := congrArg Sessions.firebase hsessions
      rw [hfirebase] at hsame
      exact Option.some.inj hsame
    have hlookup : doc = v.doc := by
      rw [hitem, huser, OwnReview.checkIfReviewExists_eq] at hdoc
      cases hdoc
      rfl
    refine ⟨rfl, ?_, ?_, ?_⟩
    · intro first'' p'' hscreens'' _
      obtain ⟨heq, -⟩ := App.display_screens_eq_ok_iff.1 hscreens''
      cases heq
      have htitle : (onPress item).title = some v.title := congrArg some hitem
      refine ⟨congrArg DetailsScreen.constructorRef htitle, htitle, rfl, rfl, ?_, fun f hf => by cases hf⟩
      rw [hlookup]
      exact .issued
    · -- the check is the first call of the page
      have hothers : d.calls.filter (fun r => r.owner = d.nextKey) = [] :=
        List.filter_eq_nil_iff.2 fun r hr => by simpa using (hkeys.calls r hr).ne
      refine List.Perm.of_eq ?_
      show (d.calls ++ [PendingCall.mk d.nextKey (.check .awaitIsSignedIn)]).filter _ = _
      rw [List.filter_append, hothers]
      simp [OwnReview.Page.mount]
    · intro r hr hlt
      exact absurd (hkeys.sets r hr) (Nat.lt_asymm hlt)

end

/-! ## Every run -/

section

variable [DecidableEq ι] {getDistance : Coords → Coords → ℚ → ℚ}
  {localeCompare : String → String → ℤ} {userOf : GoogleUser → User} {v : Visit}

/-- A visit on the phone `i` is not disturbed by the others. -/
theorem follows_world {w w' : World ι} {i : ι} {key : ℕ} {x : ι × Action} {q : OwnReview.Page}
    (h : Follows v key w.db (w.phone i) q) (hkeys : (w.phone i).Keys)
    (hready : ∀ j, PhoneReady (w.phone j)) (hvisit : Visiting v key (w.phone i))
    (hvisit' : Visiting v key (w'.phone i)) (hpart : Visits v i key w x)
    (hstep : w.step getDistance localeCompare userOf x = some w') :
    ∃ as q', run (OwnReview.Page.step v) q as = some q' ∧ Follows v key w'.db (w'.phone i) q' := by
  obtain ⟨j, a⟩ := x
  have hwellFormed := posts_wellFormed hready (j, a)
  obtain ⟨d, hd, rfl⟩ := World.step_eq_some hstep
  by_cases hij : j = i
  · subst hij
    rw [Visits, if_pos rfl] at hpart
    simp only [Function.update_self] at hvisit' ⊢
    exact follows_step h hkeys (hready j) hvisit hvisit' hpart hd
  · rw [Visits, if_neg hij] at hpart
    obtain ⟨as, hrun⟩ := @run_commit v q (w.posts (j, a)) fun write hwrite =>
      ⟨hwellFormed write hwrite, fun huid => absurd huid (hpart write hwrite)⟩
    refine ⟨as, _, hrun, ?_⟩
    -- on the phone itself nothing changes
    simp only [Function.update_of_ne (Ne.symm hij)]
    refine ⟨congrArg (commit _) h.db, ?_, h.check, h.sets⟩
    intro first p hscreens hkey
    have hsees := h.page first p hscreens hkey
    exact ⟨hsees.ref, hsees.title, hsees.details, hsees.card, hsees.lookup, hsees.form⟩

/-- In every run on any phones from an empty collection: submissions have made the collection. -/
theorem exists_writes_run (ss : ι → Sessions) {xs : List (ι × Action)} {w : World ι}
    (hrun : run (World.step getDistance localeCompare userOf) (World.start ∅ ss) xs = some w) :
    ∃ subs, w.db = commit (writes subs) ∅ := by
  have hposts : ∀ write ∈ trace (World.step getDistance localeCompare userOf) World.posts
      (World.start ∅ ss) xs, WellFormed write :=
    forall_mem_trace (I := fun w : World ι => ∀ i, PhoneReady (w.phone i))
      (fun _ _ _ _ hready hstep => phonesReady_step hready hstep)
      (fun _ x _ _ hready _ => posts_wellFormed hready x) fun i => phoneReady_start (ss i)
  obtain ⟨subs, hsubs⟩ := exists_writes hposts
  refine ⟨subs, ?_⟩
  rw [hsubs]
  exact World.db_run hrun

/-- In every run on any phones from an empty collection, on from a press of the row of the toilet on the
phone `i`: as long as the user stays on the page that it opens, the page is as in a run of `OwnReview`
from a store of submissions. -/
theorem visit_run (ss : ι → Sessions) {xs zs : List (ι × Action)} {w₀ w₁ w : World ι} {i : ι}
    {item : Toilet} {first : FirstScreen.Mounted}
    (hbefore : run (World.step getDistance localeCompare userOf) (World.start ∅ ss) xs = some w₀)
    (hlist : (w₀.phone i).screens = .ok ⟨first, none⟩) (hitem : item.name = v.title)
    (hopen : w₀.step getDistance localeCompare userOf (i, .pressRow item) = some w₁)
    (hrun : run (World.step getDistance localeCompare userOf) w₁ zs = some w)
    (hstates : EveryState (World.step getDistance localeCompare userOf)
      (fun w => Visiting v (w₀.phone i).nextKey (w.phone i)) w₁ zs)
    (hsteps : EveryStep (World.step getDistance localeCompare userOf)
      (Visits v i (w₀.phone i).nextKey) w₁ zs) :
    ∃ subs as q, run (OwnReview.Page.step v) (OwnReview.Page.mount (commit (writes subs) ∅)) as =
      some q ∧ Follows v (w₀.phone i).nextKey w.db (w.phone i) q := by
  obtain ⟨subs, hsubs⟩ := exists_writes_run ss hbefore
  have hsound₀ : Sound w₀ := sound_run (sound_start allWellFormed_empty ss) hbefore
  have hmount : Follows v (w₀.phone i).nextKey w₁.db (w₁.phone i) (OwnReview.Page.mount w₀.db) := by
    have hvisit := hstates.head
    obtain ⟨d, hd, rfl⟩ := World.step_eq_some hopen
    simp only [Function.update_self] at hvisit ⊢
    exact follows_mount (hsound₀.keys i) hlist hitem hvisit (App.next_of_step hd)
  have hall : Sound w ∧ ∃ as q, run (OwnReview.Page.step v) (OwnReview.Page.mount w₀.db) as = some q ∧
      Follows v (w₀.phone i).nextKey w.db (w.phone i) q := by
    refine run_within (I := fun w => Sound w ∧ ∃ as q, run (OwnReview.Page.step v)
      (OwnReview.Page.mount w₀.db) as = some q ∧
        Follows v (w₀.phone i).nextKey w.db (w.phone i) q) ?_
      ⟨sound_step hsound₀ hopen, [], _, rfl, hmount⟩ hstates hsteps hrun
    rintro w x w' ⟨hsound, as, q, has, hfollows⟩ hvisit hvisit' hpart hstep
    obtain ⟨as', q', has', hfollows'⟩ :=
      follows_world hfollows (hsound.keys i) hsound.ready hvisit hvisit' hpart hstep
    exact ⟨sound_step hsound hstep, as ++ as', q', run_append_iff.2 ⟨q, has, has'⟩, hfollows'⟩
  obtain ⟨-, as, q, has, hfollows⟩ := hall
  rw [hsubs] at has
  exact ⟨subs, as, q, has, hfollows⟩

end

end LetItGo.Properties.AppVisits
