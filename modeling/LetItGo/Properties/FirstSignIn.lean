import LetItGo.Properties.CrashFreedom
import LetItGo.Systems.AppParts

/-!
# Somebody who has never signed in

The Google button stands on the review card of a details page, and on the submission screen above
it. A details page that is opened without a Firebase session throws when it is mounted. So a phone
without a Firebase session never gets one: whatever happens on it, in whatever order, no page is
ever mounted, no call of `signIn` is ever made and no review is ever sent.
-/

set_option autoImplicit false

namespace LetItGo.Properties.FirstSignIn

open LetItGo.Library.DocumentStore
open LetItGo.Library.Runs
open LetItGo.Components
open LetItGo.Components.FirstScreen (Coords)
open LetItGo.Components.SignIn (GoogleUser Sessions User)
open LetItGo.Components.ReviewSubmissionScreen (ReviewDoc)
open LetItGo.Properties.CrashFreedom (Alive)
open LetItGo.Properties.ToiletLoading (oneToilet record)
open LetItGo.Systems.WholeApp

/-- No Firebase session, and nothing from which one could come: no page, and no call in flight but
sign-in checks. -/
structure Shut (d : App) : Prop where
  firebase : d.sessions.firebase = none
  noPage : d.mountedPage = none
  checks : ∀ r ∈ d.calls, ∃ point, r.call = .check point
  sets : d.sets = []

section

variable {getDistance : Coords → Coords → ℚ → ℚ} {localeCompare : String → String → ℤ}
  {userOf : GoogleUser → User} {d d' : App} {db : Store ReviewDoc} {a : Action}

theorem shut_start (google : Option GoogleUser) : Shut (App.start ⟨google, none⟩) where
  firebase := rfl
  noPage := rfl
  checks := by
    intro r hr
    cases hr
  sets := rfl

theorem Shut.screens_ne (h : Shut d) {first : FirstScreen.Mounted} {p : Page} :
    d.screens ≠ .ok ⟨first, some p⟩ := by
  intro hscreens
  have hpage := App.mountedPage_eq_some_iff.2 hscreens
  rw [h.noPage] at hpage
  cases hpage

theorem shut_next (h : Shut d) (hnext : App.Next getDistance localeCompare userOf db d a d') :
    Shut d' where
  firebase := by
    rcases App.firebase_of_next hnext with hsame | ⟨-, hgone⟩ | ⟨r, hr, info, hcall, -⟩
    · rw [hsame]
      exact h.firebase
    · exact hgone
    · -- the call would be one of `signIn`
      obtain ⟨point, hpoint⟩ := h.checks r hr
      rw [hpoint] at hcall
      cases hcall
  noPage := by
    rw [Option.eq_none_iff_forall_not_mem]
    rintro ⟨first', p'⟩ hpage
    rcases App.page_of_next hnext (App.mountedPage_eq_some_iff.1 hpage) with
      ⟨item, doc, -, hfirebase, -⟩ | ⟨first, p, hscreens, -⟩
    · rw [h.firebase] at hfirebase
      cases hfirebase
    · exact h.screens_ne hscreens
  checks := by
    intro r' hr'
    rcases App.mem_calls_of_next hnext hr' with hmem | hcheck | ⟨-, hpage⟩ |
      ⟨i, o, r, ss, auth, auth', -, hr, hstep⟩
    · exact h.checks r' hmem
    · exact ⟨.awaitIsSignedIn, hcheck⟩
    · rw [h.noPage] at hpage
      cases hpage
    · -- a check goes on as one
      obtain ⟨point, hpoint⟩ := h.checks r hr
      rw [hpoint] at hstep
      obtain ⟨⟨auth₁, next⟩, -, heq⟩ := Option.map_eq_some_iff.1 hstep
      simp only [Prod.mk.injEq] at heq
      obtain ⟨point', -, hpoint'⟩ := Option.map_eq_some_iff.1 heq.2.2
      exact ⟨point', hpoint'.symm⟩
  sets := by
    rw [List.eq_nil_iff_forall_not_mem]
    intro r' hr'
    rcases App.mem_sets_of_next hnext hr' with ⟨r, hr, -⟩ | ⟨first, p, f, now, -, hscreens, -⟩
    · rw [h.sets] at hr
      cases hr
    · exact h.screens_ne hscreens

/-- Screens that are gone stay gone. -/
theorem gone_next {e : Library.Js.Exception} (h : d.screens = .error e)
    (hnext : App.Next getDistance localeCompare userOf db d a d') : d'.screens = .error e := by
  have hno : ∀ {s : Screens}, d.screens ≠ .ok s := by
    intro s hs
    rw [h] at hs
    cases hs
  cases hnext with
  | first hscreens => exact absurd hscreens hno
  | constructorFails hscreens => exact absurd hscreens hno
  | mountFails hscreens => exact absurd hscreens hno
  | mountPage hscreens => exact absurd hscreens hno
  | pressAgain hscreens => exact absurd hscreens hno
  | page hscreens => exact absurd hscreens hno
  | formFails hscreens => exact absurd hscreens hno
  | openForm hscreens => exact absurd hscreens hno
  | tapAgain hscreens => exact absurd hscreens hno
  | form hscreens => exact absurd hscreens hno
  | submitFails hscreens => exact absurd hscreens hno
  | submit hscreens => exact absurd hscreens hno
  | commit => exact h
  | resolve _ hscreens => exact absurd hscreens hno
  | resolveUnseen => exact h
  | reject => exact h
  | pressSignIn => exact h
  | pressSignOut => exact h
  | settle => simp [App.advance, h]
  | sessionEnds => exact h
  | goBack hscreens => exact absurd hscreens hno

/-- In every run from no Firebase session, with or without a Google session: there is none in the
end, no page is mounted, nothing has been sent, and if a row has been pressed the screens are gone. -/
theorem shut_run (google : Option GoogleUser) {xs : List (Store ReviewDoc × Action)}
    (hrun : run (App.act getDistance localeCompare userOf) (App.start ⟨google, none⟩) xs = some d) :
    d.sessions.firebase = none ∧ d.mountedPage = none ∧ d.sets = [] ∧
      ∀ db item, (db, Action.pressRow item) ∈ xs → ¬ Alive d := by
  have hinv : ∀ {ys : List (Store ReviewDoc × Action)} {d₁ : App},
      run (App.act getDistance localeCompare userOf) (App.start ⟨google, none⟩) ys = some d₁ →
        Shut d₁ :=
    fun h => run_invariant (fun _ _ _ h hstep => shut_next h (App.next_of_step hstep))
      (shut_start google) h
  have hshut : Shut d := hinv hrun
  refine ⟨hshut.firebase, hshut.noPage, hshut.sets, ?_⟩
  intro db item hmem
  -- the press ends the screens, and so they stay
  obtain ⟨ys, zs, rfl⟩ := List.append_of_mem hmem
  obtain ⟨d₁, hys, hrest⟩ := run_append_iff.1 hrun
  obtain ⟨d₂, hpress, hzs⟩ := run_cons_iff.1 hrest
  have hgone : ∃ e, d₂.screens = .error e := by
    cases App.next_of_step hpress with
    | constructorFails => exact ⟨_, rfl⟩
    | mountFails => exact ⟨_, rfl⟩
    | mountPage _ _ hfirebase =>
      rw [(hinv hys).firebase] at hfirebase
      cases hfirebase
    | pressAgain hscreens => exact absurd hscreens (hinv hys).screens_ne
  have hend : ∃ e, d.screens = .error e :=
    run_invariant (I := fun d : App => ∃ e, d.screens = .error e)
      (fun _ _ _ ⟨e, he⟩ hstep => ⟨e, gone_next he (App.next_of_step hstep)⟩) hgone hzs
  rintro ⟨s, hs⟩
  obtain ⟨e, he⟩ := hend
  rw [he] at hs
  cases hs

end

/-- With a Google session only, as after a reinstallation: the page of COM1 is opened. -/
theorem shut_press_com1 :
    ∃ d, run (App.act (fun _ _ _ => 0) (fun _ _ => 0) fun user => ⟨user.id, some user.name, none⟩)
        (App.start ⟨some ⟨"1", "Ann", "ann.jpg"⟩, none⟩)
        [(∅, .first (.position ⟨⟨1, 103⟩⟩)), (∅, .first (.query [oneToilet])),
          (∅, .pressRow (record (fun _ _ _ => 0) ⟨⟨1, 103⟩⟩ oneToilet)), (∅, .settle 0 .resolve)] =
            some d ∧
      d.sessions.firebase = none ∧ ¬ Alive d :=
  have hrun : run (App.act (fun _ _ _ => 0) (fun _ _ => 0)
      fun user => ⟨user.id, some user.name, none⟩) (App.start ⟨some ⟨"1", "Ann", "ann.jpg"⟩, none⟩)
      [(∅, .first (.position ⟨⟨1, 103⟩⟩)), (∅, .first (.query [oneToilet])),
        (∅, .pressRow (record (fun _ _ _ => 0) ⟨⟨1, 103⟩⟩ oneToilet)), (∅, .settle 0 .resolve)] =
          some _ := rfl
  have hend := shut_run (some ⟨"1", "Ann", "ann.jpg"⟩) hrun
  ⟨_, hrun, hend.1,
    hend.2.2.2 ∅ (record (fun _ _ _ => 0) ⟨⟨1, 103⟩⟩ oneToilet) (.tail _ (.tail _ (.head _)))⟩

end LetItGo.Properties.FirstSignIn
