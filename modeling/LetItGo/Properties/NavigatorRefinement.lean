import LetItGo.Library.Traces
import LetItGo.Properties.Submissions

/-!
# The screens are the navigator's stack

The app keeps its screens as a list, a page on it and a submission screen on that, and each action
changes these by its own rule. The stack navigator knows only `navigate` and `goBack`. In every run
the screens are the routes on the navigator's stack, as long as they are there: the app refines the
navigator. What a sign-in call, a lookup, the form or the list does is not an action of the
navigator, and the answer to a `set` is one only while the submission screen that sent it is there.
-/

set_option autoImplicit false

namespace LetItGo.Properties.NavigatorRefinement

open LetItGo.Library.DocumentStore
open LetItGo.Library.Runs
open LetItGo.Library.Traces
open LetItGo.Components
open LetItGo.Components.FirstScreen (Coords)
open LetItGo.Components.ReviewSubmissionScreen (ReviewDoc)
open LetItGo.Components.SignIn (GoogleUser Sessions User)
open LetItGo.Properties.CrashFreedom (annsSessions)
open LetItGo.Properties.Submissions (annSubmits)
open LetItGo.Properties.ToiletLoading (oneToilet record)
open LetItGo.Systems
open LetItGo.Systems.Navigator (Stack)
open LetItGo.Systems.WholeApp

/-- The route of a submission screen. -/
def formRoute (f : Form) : Library.StackNavigator.Route Navigator.RouteName Navigator.Params
    Navigator.Screen where
  name := .Reviews
  params :=
    { Navigator.Params.empty with
      count := f.screen.params.count
      title := f.screen.params.title }
  screen := .submission f.screen.ref

/-- The routes of a page and of the submission screen on it. -/
def pageRoutes (p : Page) : Stack :=
  ⟨.Details, p.params, .details p.ref p.details⟩ :: (p.form.map formRoute).toList

/-- The screens as routes on a stack. -/
def stackOf (s : Screens) : Stack :=
  ⟨.First, Navigator.Params.empty, .first⟩ :: (s.page.map pageRoutes).getD []

/-- The answer to the `set` at position `i` closes the submission screen. -/
def closes (d : App) (i : ℕ) : Bool :=
  match d.sets[i]?, d.mountedForm with
  | some r, some (_, _, f) => f.key = r.key
  | _, _ => false

/-- What an action is to the navigator, as long as the screens are there. -/
def navActions (d : App) (x : Store ReviewDoc × Action) : List Navigator.Action :=
  match d.screens with
  | .error _ => []
  | .ok _ =>
    match x.2 with
    | .pressRow item => [.pressRow item]
    | .page (.details e) => [.details e]
    | .page (.takeLocal i docs) => [.details (.take i (docs.map Prod.snd))]
    | .tapStar count => [.tapStar count]
    | .set (.resolve i) => if closes d i then [.goBack] else []
    | .goBack => [.goBack]
    | _ => []

/-! ## What the navigator does on these stacks -/

section

variable {first : FirstScreen.Mounted} {p : Page}

theorem stackOf_page (first : FirstScreen.Mounted) (hform : p.form = none) :
    stackOf ⟨first, some p⟩ = [⟨.First, Navigator.Params.empty, .first⟩,
      ⟨.Details, p.params, .details p.ref p.details⟩] := by
  simp [stackOf, pageRoutes, hform]

theorem stackOf_form {f : Form} (first : FirstScreen.Mounted) (hform : p.form = some f) :
    stackOf ⟨first, some p⟩ = [⟨.First, Navigator.Params.empty, .first⟩,
      ⟨.Details, p.params, .details p.ref p.details⟩, formRoute f] := by
  simp [stackOf, pageRoutes, hform]

theorem step_openPage (first : FirstScreen.Mounted) (item : FirstScreen.Toilet) (key : ℕ)
    (doc : DocRef) :
    Stack.step (stackOf ⟨first, none⟩) (.pressRow item) =
      some (stackOf ⟨first, some (Page.mount key (Navigator.onPress item) Reviews.State.mounted
        doc)⟩) := by
  show some (Stack.navigate [⟨.First, Navigator.Params.empty, .first⟩] .Details
    (Navigator.onPress item)) = _
  rw [Navigator.navigate_push _ (by simp)]
  rfl

theorem step_pressAgain (first : FirstScreen.Mounted) (p : Page) (item : FirstScreen.Toilet) :
    Stack.step (stackOf ⟨first, some p⟩) (.pressRow item) =
      some (stackOf ⟨first, some (p.update (Navigator.onPress item))⟩) := by
  exact congrArg some (Navigator.navigate_page _ _ _ _ _ _)

theorem step_details {details : DetailsScreen.Details} {e : DetailsScreen.Event}
    (h : p.details.step e = some details) :
    Stack.step (stackOf ⟨first, some p⟩) (.details e) =
      some (stackOf ⟨first, some { p with details }⟩) := by
  simp [Stack.step, stackOf, pageRoutes, Stack.onDetails, h]

theorem step_openForm (first : FirstScreen.Mounted) (key : ℕ) (count : ReviewSubmissionScreen.Star)
    (hform : p.form = none) :
    Stack.step (stackOf ⟨first, some p⟩) (.tapStar count) =
      some (stackOf ⟨first, some { p with form := some ⟨key,
        ReviewSubmissionScreen.Mounted.mount (Reviews.onFinishRating p.params.title count)⟩ }⟩) := by
  have hparams : (stackOf ⟨first, some p⟩).detailsParams = some p.params := rfl
  simp only [Stack.step, hparams, Option.map_some]
  rw [stackOf_page first hform, Navigator.navigate_push _ (by simp), stackOf_form first rfl]
  rfl

theorem step_tapAgain {f : Form} (first : FirstScreen.Mounted)
    (count : ReviewSubmissionScreen.Star) (hform : p.form = some f) :
    Stack.step (stackOf ⟨first, some p⟩) (.tapStar count) =
      some (stackOf ⟨first, some { p with
        form := some (f.update (Reviews.onFinishRating p.params.title count)) }⟩) := by
  rw [stackOf_form first hform, stackOf_form first rfl]
  rfl

theorem step_goBack (s : Screens) :
    Stack.step (stackOf s) .goBack = some (stackOf s.goBack) := by
  obtain ⟨first, page⟩ := s
  cases page with
  | none => rfl
  | some p => cases hform : p.form <;> simp [Screens.goBack, stackOf, pageRoutes, hform, Stack.step,
      Library.StackNavigator.goBack]

end

/-! ## What the navigator does not see -/

theorem stackOf_setAuth (s : Screens) (owner : ℕ) (auth : SignIn.AuthState) :
    stackOf (s.setAuth owner auth) = stackOf s := by
  obtain ⟨first, page⟩ := s
  cases page with
  | none => rfl
  | some p =>
    have hroutes : pageRoutes (p.setAuth owner auth) = pageRoutes p := by
      unfold Page.setAuth
      split
      · rfl
      · simp only [pageRoutes, Option.map_map]
        congr 3
        funext f
        simp only [Function.comp]
        split <;> rfl
    simp [Screens.setAuth, stackOf, hroutes]

theorem formRoute_of_step {f f' : Form} {e : FormEvent} (h : f.step e = some f') :
    formRoute f' = formRoute f := by
  obtain ⟨screen, hscreen, rfl⟩ := Option.map_eq_some_iff.1 h
  cases e with
  | tapStar k =>
    simp only [FormEvent.event, ReviewSubmissionScreen.Mounted.step] at hscreen
    split at hscreen
    · cases hscreen
    · cases hscreen
      rfl
  | editText text =>
    simp only [FormEvent.event, ReviewSubmissionScreen.Mounted.step] at hscreen
    split at hscreen
    · cases hscreen
    · cases hscreen
      rfl

/-! ## The simulation -/

/-- The stack is that of the screens, where there are screens. -/
def Matches (d : App) (stk : Stack) : Prop := ∀ s, d.screens = .ok s → stk = stackOf s

theorem matches_display (d : App) {s : Screens} {stk : Stack} (h : stk = stackOf s) :
    Matches (d.display s) stk := by
  intro s' hs'
  rw [(App.display_screens_eq_ok_iff.1 hs').1]
  exact h

theorem matches_gone {d : App} {e : Library.Js.Exception} (h : d.screens = .error e) (stk : Stack) :
    Matches d stk := by
  intro s hs
  rw [h] at hs
  cases hs

/-- An answer that closes the submission screen is a way back. -/
theorem goBack_of_closes {d : App} {i : ℕ} {r : PendingSet} {s : Screens} (hset : d.sets[i]? = some r)
    (hscreens : d.screens = .ok s) (hclose : closes d i = true) :
    s.goBack = { s with page := s.page.map fun p => p.closeForm r.key } := by
  unfold closes at hclose
  rw [hset] at hclose
  split at hclose
  · next r' first p f hr hmounted =>
    cases hr
    obtain ⟨hs, hform⟩ := App.mountedForm_eq_some_iff.1 hmounted
    rw [hscreens] at hs
    cases hs
    have hkey : f.key = r.key := of_decide_eq_true hclose
    simp [Screens.goBack, Page.closeForm, hform, Option.filter, hkey]
  · cases hclose

/-- Any other leaves the screens as they are. -/
theorem closeForm_of_not_closes {d : App} {i : ℕ} {r : PendingSet} {s : Screens}
    (hset : d.sets[i]? = some r) (hscreens : d.screens = .ok s) (hclose : ¬ closes d i = true) :
    { s with page := s.page.map fun p => p.closeForm r.key } = s := by
  obtain ⟨first, page⟩ := s
  cases page with
  | none => rfl
  | some p =>
    have hsame : p.closeForm r.key = p := by
      obtain ⟨key, params, ref, details, card, lookup, form⟩ := p
      cases form with
      | none => rfl
      | some f =>
        have hmounted : d.mountedForm = some (first, _, f) :=
          App.mountedForm_eq_some_iff.2 ⟨hscreens, rfl⟩
        have hkey : f.key ≠ r.key := by
          intro hkey
          apply hclose
          simp [closes, hset, hmounted, hkey]
        simp [Page.closeForm, hkey]
    rw [Option.map_some, hsame]

section

variable {getDistance : Coords → Coords → ℚ → ℚ} {localeCompare : String → String → ℤ}
  {userOf : GoogleUser → User}

/-- A step that the navigator does not see. -/
theorem unseen {d d' : App} {x : Store ReviewDoc × Action} {stk : Stack}
    (hnone : navActions d x = []) (h : Matches d' stk) :
    ∃ stk', run Stack.step stk (navActions d x) = some stk' ∧ Matches d' stk' := by
  rw [hnone]
  exact ⟨stk, rfl, h⟩

/-- A step that is one of the navigator's. -/
theorem seen {d d' : App} {x : Store ReviewDoc × Action} {stk stk' : Stack} {a : Navigator.Action}
    (hone : navActions d x = [a]) (hstep : Stack.step stk a = some stk') (h : Matches d' stk') :
    ∃ stk', run Stack.step stk (navActions d x) = some stk' ∧ Matches d' stk' := by
  rw [hone]
  exact ⟨stk', run_cons_iff.2 ⟨stk', hstep, rfl⟩, h⟩

theorem matches_next {d d' : App} {db : Store ReviewDoc} {a : Action} {stk : Stack}
    (h : Matches d stk) (hnext : App.Next getDistance localeCompare userOf db d a d') :
    ∃ stk', run Stack.step stk (navActions d (db, a)) = some stk' ∧ Matches d' stk' := by
  cases hnext with
  | @first s first e hscreens =>
    obtain rfl := h s hscreens
    exact unseen (by simp [navActions, hscreens]) (matches_display d rfl)
  | @constructorFails first item e hscreens =>
    obtain rfl := h _ hscreens
    exact seen (by simp only [navActions, hscreens]) (step_openPage first item 0 ⟨[]⟩)
      (matches_gone rfl _)
  | @mountFails first item e hscreens =>
    obtain rfl := h _ hscreens
    exact seen (by simp only [navActions, hscreens]) (step_openPage first item 0 ⟨[]⟩)
      (matches_gone rfl _)
  | @mountPage first item user doc hscreens =>
    obtain rfl := h _ hscreens
    exact seen (by simp only [navActions, hscreens]) (step_openPage first item d.nextKey doc)
      (matches_display _ rfl)
  | @pressAgain first p item hscreens =>
    obtain rfl := h _ hscreens
    exact seen (by simp only [navActions, hscreens]) (step_pressAgain first p item)
      (matches_display _ rfl)
  | @page first p p' e hscreens hstep =>
    obtain rfl := h _ hscreens
    cases e with
    | details e =>
      obtain ⟨-, hmap⟩ := Option.ite_none_right_eq_some.1 hstep
      obtain ⟨details, hdetails, rfl⟩ := Option.map_eq_some_iff.1 hmap
      exact seen (by simp only [navActions, hscreens]) (step_details hdetails) (matches_display _ rfl)
    | takeLocal i docs =>
      obtain ⟨-, hmap⟩ := Option.ite_none_right_eq_some.1 hstep
      obtain ⟨details, hdetails, rfl⟩ := Option.map_eq_some_iff.1 hmap
      exact seen (by simp only [navActions, hscreens]) (step_details hdetails) (matches_display _ rfl)
    | pressToggle =>
      cases hstep
      exact unseen (by simp only [navActions, hscreens]) (matches_display _ rfl)
    | lookupRead =>
      simp only [Page.step] at hstep
      split at hstep
      · cases hstep
        exact unseen (by simp only [navActions, hscreens]) (matches_display _ rfl)
      · cases hstep
    | lookupLocal found =>
      simp only [Page.step] at hstep
      split at hstep
      · cases hstep
        exact unseen (by simp only [navActions, hscreens]) (matches_display _ rfl)
      · cases hstep
    | lookupAnswer =>
      simp only [Page.step] at hstep
      split at hstep
      · cases hstep
        exact unseen (by simp only [navActions, hscreens]) (matches_display _ rfl)
      · cases hstep
  | @formFails first p count e hscreens hform =>
    obtain rfl := h _ hscreens
    exact seen (by simp only [navActions, hscreens]) (step_openForm first 0 count hform)
      (matches_gone rfl _)
  | @openForm first p count hscreens hform =>
    obtain rfl := h _ hscreens
    exact seen (by simp only [navActions, hscreens]) (step_openForm first d.nextKey count hform)
      (matches_display _ rfl)
  | @tapAgain first p f count hscreens hform =>
    obtain rfl := h _ hscreens
    exact seen (by simp only [navActions, hscreens]) (step_tapAgain first count hform)
      (matches_display _ rfl)
  | @form first p f f' e hscreens hform hstep =>
    obtain rfl := h _ hscreens
    refine unseen (by simp only [navActions, hscreens]) (matches_display _ ?_)
    rw [stackOf_form first hform, stackOf_form first rfl, formRoute_of_step hstep]
  | submitFails hscreens => exact unseen (by simp only [navActions, hscreens]) (matches_gone rfl _)
  | submit hscreens => exact unseen (by simp only [navActions, hscreens]) h
  | commit => exact unseen (by unfold navActions; split <;> rfl) h
  | @resolve i key write s hset hscreens =>
    obtain rfl := h _ hscreens
    by_cases hclose : closes d i = true
    · -- the submission screen that sent the `set` is on top
      have hback : s.goBack = { s with page := s.page.map fun p => p.closeForm key } :=
        goBack_of_closes hset hscreens hclose
      refine seen (by simp only [navActions, hscreens, hclose, if_true]) (step_goBack s) ?_
      rw [hback]
      exact matches_display _ rfl
    · refine unseen (by simp [navActions, hscreens, hclose]) ?_
      rw [closeForm_of_not_closes hset hscreens hclose]
      exact matches_display _ rfl
  | resolveUnseen hset hscreens => exact unseen (by simp only [navActions, hscreens]) h
  | reject => exact unseen (by unfold navActions; split <;> rfl) h
  | pressSignIn => exact unseen (by unfold navActions; split <;> rfl) h
  | pressSignOut => exact unseen (by unfold navActions; split <;> rfl) h
  | @settle i o r ss auth auth' next =>
    refine unseen (by unfold navActions; split <;> rfl) ?_
    obtain ⟨calls, -, ⟨e, hscreens, heq⟩ | ⟨s, hscreens, heq⟩⟩ := d.advance_cases i r ss auth' next
    · rw [heq]
      exact h
    · rw [heq]
      exact matches_display _ (by rw [stackOf_setAuth, h s hscreens])
  | sessionEnds => exact unseen (by unfold navActions; split <;> rfl) h
  | @goBack s hscreens =>
    obtain rfl := h s hscreens
    exact seen (by simp only [navActions, hscreens]) (step_goBack s) (matches_display _ rfl)

/-- In every run of the app: the navigator runs through the actions that it sees, and the screens, as
long as they are there, are the routes on its stack. -/
theorem app_refines_navigator (ss : Sessions) {xs : List (Store ReviewDoc × Action)} {d : App}
    (hrun : run (App.act getDistance localeCompare userOf) (App.start ss) xs = some d) :
    ∃ stk, run Stack.step Stack.initial
        (trace (App.act getDistance localeCompare userOf) navActions (App.start ss) xs) = some stk ∧
      ∀ s, d.screens = .ok s → stk = stackOf s := by
  refine run_simulates (R := Matches) ?_ ?_ hrun
  · rintro d₁ ⟨db, a⟩ d₂ stk hmatches hstep
    exact matches_next hmatches (App.next_of_step hstep)
  · rintro s ⟨⟩
    rfl

end

/-- Ann opens the page of COM1 and the form, submits, and is taken back to the page. -/
theorem app_refines_navigator_ann :
    ∃ d, run (App.act (fun _ _ _ => 0) (fun _ _ => 0) fun user => ⟨user.id, some user.name, none⟩)
        (App.start annsSessions)
        (annSubmits ∅ ++ [(∅, .set (.commit 0)), (∅, .set (.resolve 0))]) = some d ∧
      ∃ stk, run Stack.step Stack.initial
          [.pressRow (record (fun _ _ _ => 0) ⟨⟨1, 103⟩⟩ oneToilet),
            .tapStar ⟨4, by decide, by decide⟩, .goBack] = some stk ∧
        ∀ s, d.screens = .ok s → stk = stackOf s := by
  have hrun : run (App.act (fun _ _ _ => 0) (fun _ _ => 0)
      fun user => ⟨user.id, some user.name, none⟩) (App.start annsSessions)
      (annSubmits ∅ ++ [(∅, .set (.commit 0)), (∅, .set (.resolve 0))]) = some _ := rfl
  exact ⟨_, hrun, app_refines_navigator annsSessions hrun⟩

end LetItGo.Properties.NavigatorRefinement
