import LetItGo.Properties.CrashFreedom
import LetItGo.Systems.AppParts
import LetItGo.Systems.ReviewBoard
import LetItGo.Systems.SharedReviews

/-!
# From Submit to the collection

The reviews that are submitted, on any number of phones: what the server writes is well formed
(`allWellFormed_run`) and goes under the account that its author has signed in with
(`author_of_posts`).
-/

set_option autoImplicit false

namespace LetItGo.Properties.Submissions

open LetItGo.Library.DocumentStore
open LetItGo.Library.Runs
open LetItGo.Library.Traces
open LetItGo.Components
open LetItGo.Components.FirstScreen (Coords)
open LetItGo.Components.ReviewSubmissionScreen (ReviewDoc Star)
open LetItGo.Components.SignIn (GoogleUser Sessions User)
open LetItGo.Properties.CrashFreedom (annsSessions)
open LetItGo.Properties.ToiletLoading (oneToilet record)
open LetItGo.Systems.ReviewBoard
open LetItGo.Systems.SharedReviews
open LetItGo.Systems.WholeApp

universe u

variable {ι : Type u}

section

variable {getDistance : Coords → Coords → ℚ → ℚ} {localeCompare : String → String → ℤ}
  {userOf : GoogleUser → User} {d d' : App} {db : Store ReviewDoc} {a : Action} [DecidableEq ι]

/-! ## What is written -/

/-- The author of a write is the user. -/
structure AuthoredBy (w : DocRef × ReviewDoc) (user : User) : Prop where
  uid : w.2.review.uid = user.uid
  name : w.2.review.name = user.displayName
  photoURL : w.2.review.photoURL = user.photoURL

/-- A submission screen writes to some toilet's collection, and has a number of stars or none. -/
structure FormReady (f : Form) : Prop where
  ref : ∃ title, f.screen.ref = DetailsScreen.constructorRef (some title)
  rating : ∃ k : Option Star, f.screen.state.rating = k.map Star.val

theorem formReady_mount (key : ℕ) (params : ReviewSubmissionScreen.Params) :
    FormReady ⟨key, ReviewSubmissionScreen.Mounted.mount params⟩ where
  ref := ⟨params.title.getD "COM1", rfl⟩
  rating := ⟨none, rfl⟩

theorem FormReady.change {f f' : Form} (h : FormReady f) (hchange : f.Change f') : FormReady f' where
  ref := by
    rw [hchange.key_ref.2]
    exact h.ref
  rating := by
    rcases hchange.rating with hsame | ⟨k, hk⟩
    · rw [hsame]
      exact h.rating
    · exact ⟨some k, hk⟩

/-- What a press of Submit sends is well formed and by the current user. -/
theorem FormReady.submit {f : Form} (h : FormReady f) {currentUser : Option User}
    {now : ReviewSubmissionScreen.Timestamp} {write : DocRef × ReviewDoc}
    (hsubmit : f.screen.pressSubmit currentUser now = some (.ok write)) :
    WellFormed write ∧ ∃ user, currentUser = some user ∧ AuthoredBy write user := by
  unfold ReviewSubmissionScreen.Mounted.pressSubmit at hsubmit
  split at hsubmit
  · next photo name count hrender =>
    obtain ⟨text, htext, hwrite⟩ := Option.map_eq_some_iff.1 hsubmit
    obtain ⟨title, href⟩ := h.ref
    obtain ⟨k, hk⟩ := h.rating
    have hscore : write.2.review.score = (k.map Star.val).getD 3 := by
      rw [hk] at hwrite
      exact ReviewSubmissionScreen.submitReview_star hwrite
    cases currentUser with
    | none => cases hwrite
    | some user =>
      cases hwrite
      refine ⟨⟨⟨title, by rw [href]⟩, ?_, ?_, rfl⟩, user, rfl, rfl, rfl, rfl⟩
      · -- Submit is enabled
        rintro (rfl : text = "")
        unfold ReviewSubmissionScreen.render at hrender
        split at hrender
        · cases hrender
        · split at hrender
          · cases hrender
          · rw [htext] at hrender
            simp at hrender
      · rw [hscore]
        cases k with
        | none => exact ⟨by decide, by decide⟩
        | some k => exact ⟨k.one_le, k.le_five⟩
  · cases hsubmit

/-- What a phone writes, and what it may write: its submission screen is ready, and its `set`s are
well formed. -/
structure PhoneReady (d : App) : Prop where
  form : ∀ first p f, d.screens = .ok ⟨first, some p⟩ → p.form = some f → FormReady f
  sets : ∀ r ∈ d.sets, WellFormed r.write

theorem phoneReady_start (ss : Sessions) : PhoneReady (App.start ss) where
  form := by
    rintro first p f ⟨⟩
  sets := by
    intro r hr
    cases hr

theorem phoneReady_next (h : PhoneReady d)
    (hnext : App.Next getDistance localeCompare userOf db d a d') : PhoneReady d' where
  form := by
    intro first' p' f' hscreens' hform'
    rcases App.page_of_next hnext hscreens' with ⟨item, doc, -, -, -, rfl⟩ | ⟨first, p, hscreens, hchange⟩
    · cases hform'
    · rcases Page.form_of_change hchange hform' with ⟨count, -, -, rfl⟩ | ⟨f, hform, hchange⟩
      · exact formReady_mount _ _
      · exact (h.form first p f hscreens hform).change hchange
  sets := by
    intro r' hr'
    rcases App.mem_sets_of_next hnext hr' with ⟨r, hr, -, hwrite⟩ |
      ⟨first, p, f, now, -, hscreens, hform, -, hsubmit⟩
    · rw [hwrite]
      exact h.sets r hr
    · exact ((h.form first p f hscreens hform).submit hsubmit).1

/-! ## Who writes it -/

/-- What a phone writes is by users that satisfy `K`: so are the current user, the users for whom
Firebase is about to be signed in to, and the authors of what has been sent. -/
structure Accounts (userOf : GoogleUser → User) (K : User → Prop) (d : App) : Prop where
  current : ∀ user, d.sessions.firebase = some user → K user
  chosen : ∀ r ∈ d.calls, ∀ info, r.call = .signIn (.awaitCredential info) → K (userOf info.user)
  sets : ∀ r ∈ d.sets, ∃ user, K user ∧ AuthoredBy r.write user

/-- `signIn` waits for the credential of the Google user that has just been chosen. -/
theorem chosen_of_step {ss ss' : Sessions} {auth auth' : SignIn.AuthState} {o : SignIn.Outcome}
    {c : SignIn.Call} {info : SignIn.UserInfo}
    (hstep : c.step userOf ss auth o = some (ss', auth', some (.signIn (.awaitCredential info)))) :
    o = .resolveAs info.user := by
  cases c with
  | check c =>
    obtain ⟨⟨auth₁, next⟩, -, heq⟩ := Option.map_eq_some_iff.1 hstep
    cases next <;> cases heq
  | signOut c =>
    obtain ⟨⟨ss₁, next⟩, -, heq⟩ := Option.map_eq_some_iff.1 hstep
    cases next <;> cases heq
  | signIn c =>
    cases c <;> cases o <;> cases hstep
    rfl

theorem accounts_start {K : User → Prop} {ss : Sessions} (h : ∀ user, ss.firebase = some user → K user) :
    Accounts userOf K (App.start ss) where
  current := h
  chosen := by
    intro r hr
    cases hr
  sets := by
    intro r hr
    cases hr

/-- The users stay among those that satisfy `K` as long as the Google users that are chosen do. -/
theorem accounts_next {K : User → Prop} (h : Accounts userOf K d) (hready : PhoneReady d)
    (hchosen : ∀ i user, a = .settle i (.resolveAs user) → K (userOf user))
    (hnext : App.Next getDistance localeCompare userOf db d a d') : Accounts userOf K d' where
  current := by
    intro user hfirebase
    rcases App.firebase_of_next hnext with hsame | ⟨-, hgone⟩ | ⟨r, hr, info, hinfo, hnew⟩
    · rw [hsame] at hfirebase
      exact h.current user hfirebase
    · rw [hgone] at hfirebase
      cases hfirebase
    · rw [hnew] at hfirebase
      cases hfirebase
      exact h.chosen r hr info hinfo
  chosen := by
    intro r' hr' info hinfo
    rcases App.mem_calls_of_next hnext hr' with hmem | hcheck | ⟨hnew | hnew, -⟩ |
      ⟨i, o, r, ss, auth, auth', rfl, -, hstep⟩
    · exact h.chosen r' hmem info hinfo
    · rw [hinfo] at hcheck
      cases hcheck
    · rw [hinfo] at hnew
      cases hnew
    · rw [hinfo] at hnew
      cases hnew
    · rw [hinfo] at hstep
      rw [chosen_of_step hstep] at hchosen
      exact hchosen i info.user rfl
  sets := by
    intro r' hr'
    rcases App.mem_sets_of_next hnext hr' with ⟨r, hr, -, hwrite⟩ |
      ⟨first, p, f, now, -, hscreens, hform, -, hsubmit⟩
    · rw [hwrite]
      exact h.sets r hr
    · obtain ⟨-, user, hcurrent, hauthor⟩ := (hready.form first p f hscreens hform).submit hsubmit
      exact ⟨user, h.current user hcurrent, hauthor⟩

omit [DecidableEq ι] in
/-- What a step writes is well formed. -/
theorem posts_wellFormed {w : World ι} (h : ∀ i, PhoneReady (w.phone i)) (x : ι × Action) :
    ∀ write ∈ w.posts x, WellFormed write := by
  intro write hwrite
  obtain ⟨i, r, -, hr, rfl⟩ := App.mem_posts hwrite
  exact (h x.1).sets r (List.mem_of_getElem? hr)

theorem phonesReady_step {w w' : World ι} {x : ι × Action} (h : ∀ i, PhoneReady (w.phone i))
    (hstep : w.step getDistance localeCompare userOf x = some w') : ∀ i, PhoneReady (w'.phone i) :=
  World.phones_of_step (Q := fun _ d => PhoneReady d)
    (fun _ hready hnext => phoneReady_next hready hnext) h hstep

theorem allWellFormed_step {w w' : World ι} {x : ι × Action} (hdb : AllWellFormed w.db)
    (h : ∀ i, PhoneReady (w.phone i))
    (hstep : w.step getDistance localeCompare userOf x = some w') : AllWellFormed w'.db := by
  rw [World.db_of_step hstep]
  exact allWellFormed_commit hdb (posts_wellFormed h x)

/-- In every run on any phones, from a collection whose documents are all as the submission screen
writes them: each document of the collection is its author's document of some toilet, and its review
has a text, between one and five stars, and no id. -/
theorem allWellFormed_run {db : Store ReviewDoc} (h : AllWellFormed db) (ss : ι → Sessions)
    {xs : List (ι × Action)} {w : World ι}
    (hrun : run (World.step getDistance localeCompare userOf) (World.start db ss) xs = some w) :
    AllWellFormed w.db := by
  have hall : AllWellFormed w.db ∧ ∀ i, PhoneReady (w.phone i) := by
    refine run_invariant (I := fun w : World ι => AllWellFormed w.db ∧ ∀ i, PhoneReady (w.phone i))
      ?_ ⟨h, fun i => phoneReady_start (ss i)⟩ hrun
    rintro w₁ x w₂ ⟨hdb, hready⟩ hstep
    exact ⟨allWellFormed_step hdb hready hstep, phonesReady_step hready hstep⟩
  exact hall.1

/-- In every run on any phones: each write made for a phone goes to a document of the user who is its
author, and that user had the Firebase session when the app was started on this phone, or is the
account of a Google user who was chosen on it during the run. -/
theorem author_of_posts (db : Store ReviewDoc) (ss : ι → Sessions) (i : ι)
    (xs : List (ι × Action)) :
    ∀ write ∈ trace (World.step getDistance localeCompare userOf) (World.on App.posts i)
        (World.start db ss) xs,
      ∃ title user, write.1 = (DetailsScreen.constructorRef (some title)).doc user.uid ∧
        AuthoredBy write user ∧
        ((ss i).firebase = some user ∨
          ∃ j google, (i, .settle j (.resolveAs google)) ∈ xs ∧ user = userOf google) := by
  let K : User → Prop := fun user => (ss i).firebase = some user ∨
    ∃ j google, (i, .settle j (.resolveAs google)) ∈ xs ∧ user = userOf google
  refine forall_mem_trace
    (I := fun w : World ι => PhoneReady (w.phone i) ∧ Accounts userOf K (w.phone i)) ?_ ?_
    ⟨phoneReady_start (ss i), accounts_start fun user h => Or.inl h⟩
  · rintro w ⟨j, a⟩ hmem w' ⟨hready, haccounts⟩ hstep
    -- the step is one of this phone, or of another
    obtain ⟨d, hd, rfl⟩ := World.step_eq_some hstep
    show PhoneReady (Function.update w.phone j d i) ∧
      Accounts userOf K (Function.update w.phone j d i)
    by_cases hij : i = j
    · subst hij
      rw [Function.update_self]
      have hnext := App.next_of_step hd
      refine ⟨phoneReady_next hready hnext, accounts_next haccounts hready ?_ hnext⟩
      rintro k google rfl
      exact Or.inr ⟨k, google, hmem, rfl⟩
    · rw [Function.update_of_ne hij]
      exact ⟨hready, haccounts⟩
  · rintro w ⟨j, a⟩ - w' ⟨hready, haccounts⟩ - write hwrite
    unfold World.on at hwrite
    split at hwrite
    · obtain ⟨k, r, -, hset, rfl⟩ := App.mem_posts hwrite
      have hr : r ∈ (w.phone i).sets := List.mem_of_getElem? hset
      obtain ⟨title, hplace⟩ := (hready.sets r hr).place
      obtain ⟨user, huser, hauthor⟩ := haccounts.sets r hr
      exact ⟨title, user, by rw [hplace, hauthor.uid], hauthor, huser⟩
    · cases hwrite

end

/-- Ann opens the page of COM1 and the form on it; then she writes 'clean' and submits. -/
def annSubmits (phone : ι) : List (ι × Action) :=
  [.first (.position ⟨⟨1, 103⟩⟩), .first (.query [oneToilet]),
    .pressRow (record (fun _ _ _ => 0) ⟨⟨1, 103⟩⟩ oneToilet),
    .settle 0 .resolve, .settle 0 .resolve, .settle 0 .resolve, .settle 0 .resolve,
    .tapStar ⟨4, by decide, by decide⟩,
    .settle 0 .resolve, .settle 0 .resolve, .settle 0 .resolve, .settle 0 .resolve,
    .form (.editText "clean"), .pressSubmit ⟨1, 0⟩].map fun a => (phone, a)

/-- What she sends. -/
def annsWrite : DocRef × ReviewDoc :=
  ((DetailsScreen.constructorRef (some "COM1")).doc "u1",
    ⟨⟨⟨1, 0⟩, none, some "Ann", none, "clean", 3, "u1"⟩⟩)

/-- Ann is the author of what she writes. -/
theorem author_of_annsWrite :
    ∃ title user, annsWrite.1 = (DetailsScreen.constructorRef (some title)).doc user.uid ∧
      AuthoredBy annsWrite user ∧
      (annsSessions.firebase = some user ∨
        ∃ j google, (true, .settle j (.resolveAs google)) ∈
            annSubmits true ++ [(false, .first .changeState), (true, .set (.commit 0))] ∧
          user = ⟨google.id, some google.name, none⟩) := by
  have hposts : trace (World.step (fun _ _ _ => 0) (fun _ _ => 0)
      fun user => ⟨user.id, some user.name, none⟩) (World.on App.posts true)
      (World.start ∅ fun _ : Bool => annsSessions)
      (annSubmits true ++ [(false, .first .changeState), (true, .set (.commit 0))]) = [annsWrite] := rfl
  exact author_of_posts ∅ (fun _ : Bool => annsSessions) true _ annsWrite
    (hposts ▸ List.mem_singleton_self annsWrite)

/-- Ann's review is well formed. -/
theorem allWellFormed_ann :
    ∃ w, run (World.step (fun _ _ _ => 0) (fun _ _ => 0) fun user => ⟨user.id, some user.name, none⟩)
        (World.start ∅ fun _ : Bool => annsSessions)
        (annSubmits true ++ [(false, .first .changeState), (true, .set (.commit 0))]) = some w ∧
      AllWellFormed w.db := by
  obtain ⟨w, hw⟩ := Option.isSome_iff_exists.1 (show (run (World.step (fun _ _ _ => 0)
    (fun _ _ => 0) fun user => ⟨user.id, some user.name, none⟩)
    (World.start ∅ fun _ : Bool => annsSessions)
    (annSubmits true ++ [(false, .first .changeState), (true, .set (.commit 0))])).isSome = true
      from rfl)
  exact ⟨w, hw, allWellFormed_run allWellFormed_empty (fun _ : Bool => annsSessions) hw⟩

end LetItGo.Properties.Submissions
