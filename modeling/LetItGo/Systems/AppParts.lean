import LetItGo.Systems.WholeApp

/-!
# The parts of the app across a step

What a step of the app does to one part of it, whatever else it does: to the details page
(`App.page_of_next`), to the submission screen on it (`Page.form_of_change`), to the list
(`App.first_of_next`), to the calls in flight, to the Firebase session and to the `set`s. A page there
is after a step has just been mounted, or was there before and one of its parts has moved; the same for
the others.
-/

set_option autoImplicit false

namespace LetItGo.Systems.WholeApp

open LetItGo.Library.DocumentStore
open LetItGo.Components
open LetItGo.Components.SignIn (AuthState GoogleUser Outcome Sessions User)
open LetItGo.Components.DetailsScreen (Details)
open LetItGo.Components.FirstScreen (Coords Toilet)
open LetItGo.Components.ReviewSubmissionScreen (ReviewDoc Star)
open LetItGo.Systems.Navigator (onPress)

/-- A submission screen that stays: it is as it was, gets new parameters, does what the user does in
it, or has its sign-in state set. -/
inductive Form.Change (f : Form) : Form → Prop where
  | stays : Change f f
  | update (params : ReviewSubmissionScreen.Params) : Change f (f.update params)
  | step (e : FormEvent) (f' : Form) : f.step e = some f' → Change f f'
  | setAuth (auth : AuthState) :
      Change f { f with screen := f.screen.setState { f.screen.state with auth } }

/-- A page that stays: it is as it was, is gone back to with the parameters of another row, reads its
collection, has its card or its sign-in state set, or has its submission screen opened, changed or
closed. `known` is what the phone knows of the collection, and the key of a submission screen that is
opened is `nextKey`. -/
inductive Page.Change (db : Store ReviewDoc) (known : List (DocRef × ReviewDoc)) (nextKey : ℕ)
    (p : Page) : Action → Page → Prop where
  | stays (a : Action) : Change db known nextKey p a p
  | update (item : Toilet) : Change db known nextKey p (.pressRow item) (p.update (onPress item))
  | details (e : DetailsScreen.Event) (details : Details) : p.takes db e = true →
      p.details.step e = some details →
      Change db known nextKey p (.page (.details e)) { p with details }
  | takeLocal (i : ℕ) (docs : List (String × ReviewDoc)) (details : Details) :
      p.knows db known docs = true →
      p.details.step (.take i (docs.map Prod.snd)) = some details →
      Change db known nextKey p (.page (.takeLocal i docs)) { p with details }
  | card (e : PageEvent) (card : Reviews.State) (lookup : Option PendingLookup) :
      p.step db known e = some { p with card, lookup } → card.auth = p.card.auth →
      Change db known nextKey p (.page e) { p with card, lookup }
  | setAuth (i : ℕ) (o : Outcome) (owner : ℕ) (auth : AuthState) :
      Change db known nextKey p (.settle i o) (p.setAuth owner auth)
  | openForm (count : Star) : p.form = none →
      Change db known nextKey p (.tapStar count) { p with
        form := some ⟨nextKey, ReviewSubmissionScreen.Mounted.mount
          (Reviews.onFinishRating p.params.title count)⟩ }
  | form (a : Action) (f f' : Form) : p.form = some f → f.Change f' →
      f'.screen.state.auth = f.screen.state.auth →
      Change db known nextKey p a { p with form := some f' }
  | closed (a : Action) : Change db known nextKey p a { p with form := none }

/-! ## The page -/

section

variable {getDistance : Coords → Coords → ℚ → ℚ} {localeCompare : String → String → ℤ}
  {userOf : GoogleUser → User} {d d' : App} {db : Store ReviewDoc}
  {known : List (DocRef × ReviewDoc)} {a : Action}

theorem Page.change_of_step {p p' : Page} {e : PageEvent} (nextKey : ℕ)
    (h : p.step db known e = some p') : Page.Change db known nextKey p (.page e) p' := by
  have hstep := h
  cases e with
  | details e =>
    obtain ⟨htakes, hdetails⟩ := Option.ite_none_right_eq_some.1 h
    obtain ⟨details, hevent, rfl⟩ := Option.map_eq_some_iff.1 hdetails
    exact .details e details htakes hevent
  | takeLocal i docs =>
    obtain ⟨hknows, hdetails⟩ := Option.ite_none_right_eq_some.1 h
    obtain ⟨details, hevent, rfl⟩ := Option.map_eq_some_iff.1 hdetails
    exact .takeLocal i docs details hknows hevent
  | pressToggle =>
    cases h
    exact .card _ _ p.lookup hstep rfl
  | lookupRead =>
    simp only [Page.step] at h
    split at h
    · cases h
      exact .card _ p.card _ hstep rfl
    · cases h
  | lookupLocal found =>
    simp only [Page.step] at h
    split at h
    · cases h
      exact .card _ p.card _ hstep rfl
    · cases h
  | lookupAnswer =>
    simp only [Page.step] at h
    split at h
    · next found hlookup =>
      cases h
      exact .card _ _ _ hstep (by cases found <;> rfl)
    · cases h

theorem Page.change_closeForm (p : Page) (key nextKey : ℕ) :
    Page.Change db known nextKey p a (p.closeForm key) := by
  unfold Page.closeForm
  cases hform : p.form with
  | none => exact .closed a
  | some f =>
    by_cases hkey : f.key = key
    · simp only [Option.filter_some, hkey, ne_eq, not_true_eq_false, decide_false,
        Bool.false_eq_true, if_false]
      exact .closed a
    · simp only [Option.filter_some, hkey, ne_eq, not_false_eq_true, decide_true, if_true]
      exact .form a f f hform .stays rfl

/-- The state of a component is set if it is mounted, and those of others are as before. -/
theorem Page.auth_setAuth {p : Page} {owner owner' : ℕ} {auth : SignIn.AuthState} :
    (p.setAuth owner' auth).auth owner =
      if owner' = owner then (p.auth owner).map fun _ => auth else p.auth owner := by
  unfold Page.setAuth Page.auth
  by_cases hcard : p.key = owner'
  · subst hcard
    by_cases howner : p.key = owner
    · simp [howner]
    · -- the form is as before
      simp [howner]
  · by_cases howner : p.key = owner
    · subst howner
      simp [hcard, Ne.symm hcard]
    · simp only [hcard, howner, if_false]
      cases p.form with
      | none => simp
      | some f =>
        by_cases hform : f.key = owner'
        · subst hform
          by_cases hkey : f.key = owner
          · simp [hkey, ReviewSubmissionScreen.Mounted.setState]
          · simp [hkey]
        · by_cases hkey : f.key = owner
          · subst hkey
            simp [hform, Ne.symm hform]
          · simp [hform, hkey]

/-- When a call moves, the page has the state of its component set. -/
theorem App.page_of_advance {i : ℕ} {r : PendingCall} {ss : Sessions} {auth : AuthState}
    {next : Option SignIn.Call} {first : FirstScreen.Mounted} {p' : Page}
    (hscreens' : (d.advance i r ss auth next).screens = .ok ⟨first, some p'⟩) :
    ∃ p, d.screens = .ok ⟨first, some p⟩ ∧ p' = p.setAuth r.owner auth := by
  obtain ⟨calls, -, ⟨e, hgone, heq⟩ | ⟨s, hscreens, heq⟩⟩ := d.advance_cases i r ss auth next
  · rw [heq, hgone] at hscreens'
    cases hscreens'
  · rw [heq] at hscreens'
    obtain ⟨hs, -⟩ := App.display_screens_eq_ok_iff.1 hscreens'
    obtain ⟨first₀, page⟩ := s
    simp only [Screens.setAuth, Screens.mk.injEq] at hs
    obtain ⟨p, rfl, rfl⟩ := Option.map_eq_some_iff.1 hs.2.symm
    rw [hs.1]
    exact ⟨p, hscreens, rfl⟩

/-- A page that is mounted after a step has been mounted by it, with the key of its time and with a
Firebase session, or is the page from before, changed. -/
theorem App.page_of_next (hnext : App.Next getDistance localeCompare userOf db d a d')
    {first' : FirstScreen.Mounted} {p' : Page} (hscreens' : d'.screens = .ok ⟨first', some p'⟩) :
    (∃ item doc, a = .pressRow item ∧ d.sessions.firebase.isSome = true ∧
        d'.nextKey = d.nextKey + 1 ∧
        p' = Page.mount d.nextKey (onPress item) Reviews.State.mounted doc) ∨
      ∃ first p, d.screens = .ok ⟨first, some p⟩ ∧ Page.Change db d.known d.nextKey p a p' := by
  cases hnext with
  | @first s first e hscreens _ =>
    obtain ⟨heq, -⟩ := App.display_screens_eq_ok_iff.1 hscreens'
    obtain ⟨first₀, page⟩ := s
    cases heq
    exact Or.inr ⟨first₀, p', hscreens, .stays _⟩
  | constructorFails => cases hscreens'
  | mountFails => cases hscreens'
  | @mountPage first item user doc _ _ hfirebase =>
    obtain ⟨heq, -⟩ := App.display_screens_eq_ok_iff.1 hscreens'
    cases heq
    exact Or.inl ⟨item, doc, rfl, by simp [hfirebase], rfl, rfl⟩
  | @pressAgain first p item hscreens =>
    obtain ⟨heq, -⟩ := App.display_screens_eq_ok_iff.1 hscreens'
    cases heq
    exact Or.inr ⟨first', p, hscreens, .update item⟩
  | @page first p p₁ e hscreens hstep =>
    obtain ⟨heq, -⟩ := App.display_screens_eq_ok_iff.1 hscreens'
    cases heq
    exact Or.inr ⟨first', p, hscreens, Page.change_of_step _ hstep⟩
  | formFails => cases hscreens'
  | @openForm first p count hscreens hform _ =>
    obtain ⟨heq, -⟩ := App.display_screens_eq_ok_iff.1 hscreens'
    cases heq
    exact Or.inr ⟨first', p, hscreens, .openForm count hform⟩
  | @tapAgain first p f count hscreens hform =>
    obtain ⟨heq, -⟩ := App.display_screens_eq_ok_iff.1 hscreens'
    cases heq
    exact Or.inr ⟨first', p, hscreens, .form _ f _ hform (.update _) rfl⟩
  | @form first p f f' e hscreens hform hstep =>
    obtain ⟨heq, -⟩ := App.display_screens_eq_ok_iff.1 hscreens'
    cases heq
    exact Or.inr ⟨first', p, hscreens, .form _ f f' hform (.step e f' hstep)
      (Form.auth_of_step hstep)⟩
  | submitFails => cases hscreens'
  | submit => exact Or.inr ⟨first', p', hscreens', .stays _⟩
  | commit => exact Or.inr ⟨first', p', hscreens', .stays _⟩
  | @resolve i key write s hset hscreens =>
    obtain ⟨heq, -⟩ := App.display_screens_eq_ok_iff.1 hscreens'
    obtain ⟨first, page⟩ := s
    simp only [Screens.mk.injEq] at heq
    obtain ⟨p, rfl, rfl⟩ := Option.map_eq_some_iff.1 heq.2.symm
    exact Or.inr ⟨first, p, hscreens, p.change_closeForm key _⟩
  | resolveUnseen => exact Or.inr ⟨first', p', hscreens', .stays _⟩
  | reject => exact Or.inr ⟨first', p', hscreens', .stays _⟩
  | pressSignIn => exact Or.inr ⟨first', p', hscreens', .stays _⟩
  | pressSignOut => exact Or.inr ⟨first', p', hscreens', .stays _⟩
  | @settle i o r ss auth auth' next hr hauth hcall =>
    obtain ⟨p, hscreens, rfl⟩ := App.page_of_advance hscreens'
    exact Or.inr ⟨first', p, hscreens, .setAuth _ _ _ _⟩
  | sessionEnds => exact Or.inr ⟨first', p', hscreens', .stays _⟩
  | @goBack s hscreens =>
    obtain ⟨heq, -⟩ := App.display_screens_eq_ok_iff.1 hscreens'
    obtain ⟨first, page⟩ := s
    cases page with
    | none => cases heq
    | some p =>
      cases hform : p.form with
      | none => simp [Screens.goBack, hform] at heq
      | some f =>
        simp only [Screens.goBack, hform, Screens.mk.injEq, Option.some.injEq] at heq
        obtain ⟨rfl, rfl⟩ := heq
        exact Or.inr ⟨first', p, hscreens, .closed _⟩

/-- The list takes the steps of its own events, and stays as it is at all others. -/
theorem App.first_of_next (hnext : App.Next getDistance localeCompare userOf db d a d')
    {s' : Screens} (hscreens' : d'.screens = .ok s') :
    ∃ s, d.screens = .ok s ∧
      ((∃ e, a = .first e ∧ s.first.step getDistance localeCompare e = some s'.first) ∨
        (∀ e, a ≠ .first e) ∧ s'.first = s.first) := by
  cases hnext with
  | @first s first e hscreens hfirst =>
    obtain ⟨rfl, -⟩ := App.display_screens_eq_ok_iff.1 hscreens'
    exact ⟨s, hscreens, Or.inl ⟨e, rfl, hfirst⟩⟩
  | constructorFails => cases hscreens'
  | mountFails => cases hscreens'
  | mountPage hscreens =>
    obtain ⟨rfl, -⟩ := App.display_screens_eq_ok_iff.1 hscreens'
    exact ⟨_, hscreens, Or.inr ⟨by simp, rfl⟩⟩
  | pressAgain hscreens =>
    obtain ⟨rfl, -⟩ := App.display_screens_eq_ok_iff.1 hscreens'
    exact ⟨_, hscreens, Or.inr ⟨by simp, rfl⟩⟩
  | page hscreens =>
    obtain ⟨rfl, -⟩ := App.display_screens_eq_ok_iff.1 hscreens'
    exact ⟨_, hscreens, Or.inr ⟨by simp, rfl⟩⟩
  | formFails => cases hscreens'
  | openForm hscreens =>
    obtain ⟨rfl, -⟩ := App.display_screens_eq_ok_iff.1 hscreens'
    exact ⟨_, hscreens, Or.inr ⟨by simp, rfl⟩⟩
  | tapAgain hscreens =>
    obtain ⟨rfl, -⟩ := App.display_screens_eq_ok_iff.1 hscreens'
    exact ⟨_, hscreens, Or.inr ⟨by simp, rfl⟩⟩
  | form hscreens =>
    obtain ⟨rfl, -⟩ := App.display_screens_eq_ok_iff.1 hscreens'
    exact ⟨_, hscreens, Or.inr ⟨by simp, rfl⟩⟩
  | submitFails => cases hscreens'
  | submit => exact ⟨s', hscreens', Or.inr ⟨by simp, rfl⟩⟩
  | commit => exact ⟨s', hscreens', Or.inr ⟨by simp, rfl⟩⟩
  | resolve _ hscreens =>
    obtain ⟨rfl, -⟩ := App.display_screens_eq_ok_iff.1 hscreens'
    exact ⟨_, hscreens, Or.inr ⟨by simp, rfl⟩⟩
  | resolveUnseen => exact ⟨s', hscreens', Or.inr ⟨by simp, rfl⟩⟩
  | reject => exact ⟨s', hscreens', Or.inr ⟨by simp, rfl⟩⟩
  | pressSignIn => exact ⟨s', hscreens', Or.inr ⟨by simp, rfl⟩⟩
  | pressSignOut => exact ⟨s', hscreens', Or.inr ⟨by simp, rfl⟩⟩
  | @settle i o r ss auth auth' next _ _ _ =>
    obtain ⟨calls, -, ⟨e, hscreens, heq⟩ | ⟨s, hscreens, heq⟩⟩ :=
      d.advance_cases i r ss auth' next
    · rw [heq] at hscreens'
      exact ⟨s', hscreens', Or.inr ⟨by simp, rfl⟩⟩
    · rw [heq] at hscreens'
      obtain ⟨rfl, -⟩ := App.display_screens_eq_ok_iff.1 hscreens'
      exact ⟨s, hscreens, Or.inr ⟨by simp, rfl⟩⟩
  | sessionEnds => exact ⟨s', hscreens', Or.inr ⟨by simp, rfl⟩⟩
  | @goBack s hscreens =>
    obtain ⟨rfl, -⟩ := App.display_screens_eq_ok_iff.1 hscreens'
    refine ⟨s, hscreens, Or.inr ⟨by simp, ?_⟩⟩
    unfold Screens.goBack
    split
    · rfl
    · split <;> rfl

/-- What is on screen after a step was there before it, or has just rendered. -/
theorem App.rendered_of_next (hnext : App.Next getDistance localeCompare userOf db d a d')
    {s' : Screens} (hscreens' : d'.screens = .ok s') :
    d.screens = .ok s' ∨ ∃ user view, s'.render user = .ok view := by
  have hdisplay : ∀ {d₁ : App} {s : Screens}, (d₁.display s).screens = .ok s' →
      ∃ user view, s'.render user = .ok view := by
    intro d₁ s h
    obtain ⟨rfl, view, hview⟩ := App.display_screens_eq_ok_iff.1 h
    exact ⟨_, view, hview⟩
  cases hnext with
  | first => exact Or.inr (hdisplay hscreens')
  | constructorFails => cases hscreens'
  | mountFails => cases hscreens'
  | mountPage => exact Or.inr (hdisplay hscreens')
  | pressAgain => exact Or.inr (hdisplay hscreens')
  | page => exact Or.inr (hdisplay hscreens')
  | formFails => cases hscreens'
  | openForm => exact Or.inr (hdisplay hscreens')
  | tapAgain => exact Or.inr (hdisplay hscreens')
  | form => exact Or.inr (hdisplay hscreens')
  | submitFails => cases hscreens'
  | submit => exact Or.inl hscreens'
  | commit => exact Or.inl hscreens'
  | resolve => exact Or.inr (hdisplay hscreens')
  | resolveUnseen => exact Or.inl hscreens'
  | reject => exact Or.inl hscreens'
  | pressSignIn => exact Or.inl hscreens'
  | pressSignOut => exact Or.inl hscreens'
  | @settle i o r ss auth auth' next _ _ _ =>
    obtain ⟨calls, -, ⟨e, hscreens, heq⟩ | ⟨s, hscreens, heq⟩⟩ :=
      d.advance_cases i r ss auth' next
    · rw [heq] at hscreens'
      exact Or.inl hscreens'
    · rw [heq] at hscreens'
      exact Or.inr (hdisplay hscreens')
  | sessionEnds => exact Or.inl hscreens'
  | goBack => exact Or.inr (hdisplay hscreens')

/-- A key is never taken back. -/
theorem App.nextKey_le_of_next (hnext : App.Next getDistance localeCompare userOf db d a d') :
    d.nextKey ≤ d'.nextKey := by
  cases hnext with
  | mountFails => exact Nat.le_succ d.nextKey
  | mountPage => exact Nat.le_succ d.nextKey
  | openForm => exact Nat.le_succ d.nextKey
  | @settle i o r ss auth auth' next => exact (d.advance_eq i r ss auth' next).2.1.ge
  | first => exact le_refl _
  | pressAgain => exact le_refl _
  | page => exact le_refl _
  | tapAgain => exact le_refl _
  | form => exact le_refl _
  | submitFails => exact le_refl _
  | submit => exact le_refl _
  | commit => exact le_refl _
  | resolve => exact le_refl _
  | resolveUnseen => exact le_refl _
  | reject => exact le_refl _
  | constructorFails => exact le_refl _
  | formFails => exact le_refl _
  | sessionEnds => exact le_refl _
  | pressSignIn => exact le_refl _
  | pressSignOut => exact le_refl _
  | goBack => exact le_refl _

/-- A submission screen that is mounted takes the next key. -/
theorem App.nextKey_of_tapStar {count : Star}
    (hnext : App.Next getDistance localeCompare userOf db d (.tapStar count) d')
    {first : FirstScreen.Mounted} {p : Page} (hscreens : d.screens = .ok ⟨first, some p⟩)
    (hform : p.form = none) {s' : Screens} (hscreens' : d'.screens = .ok s') :
    d'.nextKey = d.nextKey + 1 := by
  cases hnext with
  | formFails => cases hscreens'
  | openForm => rfl
  | tapAgain h hf =>
    rw [hscreens] at h
    cases h
    rw [hform] at hf
    cases hf

/-! ## The submission screen -/

/-- A submission screen that is mounted after a step has been mounted by it, with the key of its time
and for the title among the page's parameters, or is the one from before, changed. -/
theorem Page.form_of_change {nextKey : ℕ} {p p' : Page} {f' : Form}
    (h : Page.Change db known nextKey p a p') (hform : p'.form = some f') :
    (∃ count, a = .tapStar count ∧ p.form = none ∧
        f' = ⟨nextKey, ReviewSubmissionScreen.Mounted.mount
          (Reviews.onFinishRating p.params.title count)⟩) ∨
      ∃ f, p.form = some f ∧ f.Change f' := by
  cases h with
  | stays => exact Or.inr ⟨f', hform, .stays⟩
  | update item => cases hform
  | details e details => exact Or.inr ⟨f', hform, .stays⟩
  | takeLocal i docs details => exact Or.inr ⟨f', hform, .stays⟩
  | card _ card lookup => exact Or.inr ⟨f', hform, .stays⟩
  | setAuth _ _ owner auth =>
    unfold Page.setAuth at hform
    split at hform
    · exact Or.inr ⟨f', hform, .stays⟩
    · obtain ⟨f, hf, rfl⟩ := Option.map_eq_some_iff.1 hform
      refine Or.inr ⟨f, hf, ?_⟩
      split
      · exact .setAuth auth
      · exact .stays
  | openForm count hnone =>
    cases hform
    exact Or.inl ⟨count, rfl, hnone, rfl⟩
  | form _ f f₁ hf hchange =>
    cases hform
    exact Or.inr ⟨f, hf, hchange⟩
  | closed => cases hform

/-- A page that stays keeps its key and its collection. -/
theorem Page.Change.key_ref {nextKey : ℕ} {p p' : Page}
    (h : Page.Change db known nextKey p a p') : p'.key = p.key ∧ p'.ref = p.ref := by
  cases h with
  | setAuth =>
    unfold Page.setAuth
    split <;> exact ⟨rfl, rfl⟩
  | stays => exact ⟨rfl, rfl⟩
  | update => exact ⟨rfl, rfl⟩
  | details => exact ⟨rfl, rfl⟩
  | takeLocal => exact ⟨rfl, rfl⟩
  | card => exact ⟨rfl, rfl⟩
  | openForm => exact ⟨rfl, rfl⟩
  | form => exact ⟨rfl, rfl⟩
  | closed => exact ⟨rfl, rfl⟩

/-- Its reads and what it shows of them change by a step of the details page only, which can be one
that the client takes an answer for by itself. -/
theorem Page.Change.details_cases {nextKey : ℕ} {p p' : Page}
    (h : Page.Change db known nextKey p a p') :
    p'.details = p.details ∨ (∃ e, p.takes db e = true ∧ p.details.step e = some p'.details) ∨
      ∃ i docs, a = .page (.takeLocal i docs) ∧ p.knows db known docs = true ∧
        p.details.step (.take i (docs.map Prod.snd)) = some p'.details := by
  cases h with
  | setAuth =>
    unfold Page.setAuth
    split <;> exact Or.inl rfl
  | update => exact Or.inr (Or.inl ⟨.navigationUpdate, rfl, rfl⟩)
  | details e details htakes hstep => exact Or.inr (Or.inl ⟨e, htakes, hstep⟩)
  | takeLocal i docs details hknows hstep => exact Or.inr (Or.inr ⟨i, docs, rfl, hknows, hstep⟩)
  | stays => exact Or.inl rfl
  | card => exact Or.inl rfl
  | openForm => exact Or.inl rfl
  | form => exact Or.inl rfl
  | closed => exact Or.inl rfl

/-! ## Calls and sessions -/

/-- The Firebase session is that of before, or of the Google user that `signIn` waited for. -/
theorem firebase_of_step {ss ss' : Sessions} {auth auth' : SignIn.AuthState} {o : SignIn.Outcome}
    {c : SignIn.Call} {next : Option SignIn.Call}
    (hstep : c.step userOf ss auth o = some (ss', auth', next)) :
    ss'.firebase = ss.firebase ∨
      ∃ info, c = .signIn (.awaitCredential info) ∧ ss'.firebase = some (userOf info.user) := by
  cases SignIn.Call.step_effect hstep with
  | waits hfirebase => exact Or.inl hfirebase
  | credential info => exact Or.inr ⟨info, rfl, rfl⟩
  | silent => exact Or.inl rfl
  | silentRejected => exact Or.inl rfl
  | setUserInfo => exact Or.inl rfl
  | finish => exact Or.inl rfl
  | setSignedIn => exact Or.inl rfl

/-- The calls after a step were there before, are the check of a component that has just been
mounted, have been started by a button of a page, or are the next point of the call that took it. -/
theorem App.mem_calls_of_next (hnext : App.Next getDistance localeCompare userOf db d a d')
    {r' : PendingCall} (hr' : r' ∈ d'.calls) :
    r' ∈ d.calls ∨ r'.call = .check .awaitIsSignedIn ∨
      ((r'.call = .signIn .awaitHasPlayServices ∨ r'.call = .signOut .awaitRevokeAccess) ∧
        d.mountedPage.isSome = true) ∨
      ∃ i o r ss auth auth', a = .settle i o ∧ r ∈ d.calls ∧
        r.call.step userOf d.sessions auth o = some (ss, auth', some r'.call) := by
  have hpush : ∀ owner call, r' ∈ (d.push owner call).calls → r' ∈ d.calls ∨ r' = ⟨owner, call⟩ := by
    intro owner call hmem
    rcases List.mem_append.1 hmem with hmem | hmem
    · exact Or.inl hmem
    · exact Or.inr (List.mem_singleton.1 hmem)
  have hcheck : r' ∈ d.newComponent.calls → r' ∈ d.calls ∨ r'.call = .check .awaitIsSignedIn := by
    intro hmem
    rcases hpush _ _ hmem with hmem | rfl
    · exact Or.inl hmem
    · exact Or.inr rfl
  cases hnext with
  | mountFails => exact (hcheck hr').imp_right Or.inl
  | mountPage => exact (hcheck hr').imp_right Or.inl
  | openForm => exact (hcheck hr').imp_right Or.inl
  | pressSignIn hauth =>
    obtain ⟨x, hpage, -⟩ := Option.bind_eq_some_iff.1 hauth
    rcases hpush _ _ hr' with hmem | rfl
    · exact Or.inl hmem
    · exact Or.inr (Or.inr (Or.inl ⟨Or.inl rfl, by simp [hpage]⟩))
  | pressSignOut hscreens =>
    have hpage := App.mountedPage_eq_some_iff.2 hscreens
    rcases hpush _ _ hr' with hmem | rfl
    · exact Or.inl hmem
    · exact Or.inr (Or.inr (Or.inl ⟨Or.inr rfl, by simp [hpage]⟩))
  | @settle i o r ss auth auth' next hr hauth hcall =>
    obtain ⟨calls, hcalls, hadvance⟩ := d.advance_cases i r ss auth' next
    have hmem : r' ∈ calls := by
      rcases hadvance with ⟨e, -, heq⟩ | ⟨s, -, heq⟩ <;> rw [heq] at hr' <;> exact hr'
    rcases hcalls r' hmem with hmem | ⟨call, rfl, rfl⟩
    · exact Or.inl hmem
    · exact Or.inr (Or.inr (Or.inr ⟨i, o, r, ss, auth, auth', rfl, List.mem_of_getElem? hr, hcall⟩))
  | first => exact Or.inl hr'
  | pressAgain => exact Or.inl hr'
  | page => exact Or.inl hr'
  | tapAgain => exact Or.inl hr'
  | form => exact Or.inl hr'
  | submitFails => exact Or.inl hr'
  | submit => exact Or.inl hr'
  | commit => exact Or.inl hr'
  | resolve => exact Or.inl hr'
  | resolveUnseen => exact Or.inl hr'
  | reject => exact Or.inl hr'
  | constructorFails => exact Or.inl hr'
  | formFails => exact Or.inl hr'
  | sessionEnds => exact Or.inl hr'
  | goBack => exact Or.inl hr'

/-- The Firebase session changes by a step of a sign-in call, unless it ends by itself. -/
theorem App.firebase_of_next (hnext : App.Next getDistance localeCompare userOf db d a d') :
    d'.sessions.firebase = d.sessions.firebase ∨
      (a = .sessionEnds ∧ d'.sessions.firebase = none) ∨
      ∃ r ∈ d.calls, ∃ info, r.call = .signIn (.awaitCredential info) ∧
        d'.sessions.firebase = some (userOf info.user) := by
  cases hnext with
  | @settle i o r ss auth auth' next hr hauth hcall =>
    rw [(d.advance_eq i r ss auth' next).1]
    rcases firebase_of_step hcall with hsame | ⟨info, hinfo, hfirebase⟩
    · exact Or.inl hsame
    · exact Or.inr (Or.inr ⟨r, List.mem_of_getElem? hr, info, hinfo, hfirebase⟩)
  | sessionEnds => exact Or.inr (Or.inl ⟨rfl, rfl⟩)
  | first => exact Or.inl rfl
  | constructorFails => exact Or.inl rfl
  | formFails => exact Or.inl rfl
  | mountFails => exact Or.inl rfl
  | mountPage => exact Or.inl rfl
  | pressAgain => exact Or.inl rfl
  | page => exact Or.inl rfl
  | openForm => exact Or.inl rfl
  | tapAgain => exact Or.inl rfl
  | form => exact Or.inl rfl
  | submitFails => exact Or.inl rfl
  | submit => exact Or.inl rfl
  | commit => exact Or.inl rfl
  | resolve => exact Or.inl rfl
  | resolveUnseen => exact Or.inl rfl
  | reject => exact Or.inl rfl
  | pressSignIn => exact Or.inl rfl
  | pressSignOut => exact Or.inl rfl
  | goBack => exact Or.inl rfl

/-! ## What is sent -/

/-- The `set`s after a step were there before, perhaps not yet committed, or have been sent by it. -/
theorem App.mem_sets_of_next (hnext : App.Next getDistance localeCompare userOf db d a d')
    {r' : PendingSet} (hr' : r' ∈ d'.sets) :
    (∃ r ∈ d.sets, r'.key = r.key ∧ r'.write = r.write) ∨
      ∃ first p f now, a = .pressSubmit now ∧ d.screens = .ok ⟨first, some p⟩ ∧ p.form = some f ∧
        r'.key = f.key ∧ f.screen.pressSubmit d.sessions.firebase now = some (.ok r'.write) := by
  have hstays : r' ∈ d.sets → ∃ r ∈ d.sets, r'.key = r.key ∧ r'.write = r.write :=
    fun hmem => ⟨r', hmem, rfl, rfl⟩
  cases hnext with
  | @submit first p f now write hscreens hform hsubmit =>
    rcases List.mem_append.1 hr' with hr' | hr'
    · exact Or.inl (hstays hr')
    · obtain rfl := List.mem_singleton.1 hr'
      exact Or.inr ⟨first, p, f, now, rfl, hscreens, hform, rfl, hsubmit⟩
  | commit hset =>
    rcases List.mem_or_eq_of_mem_set hr' with hr' | rfl
    · exact Or.inl (hstays hr')
    · exact Or.inl ⟨_, List.mem_of_getElem? hset, rfl, rfl⟩
  | resolve => exact Or.inl (hstays (List.mem_of_mem_eraseIdx hr'))
  | resolveUnseen => exact Or.inl (hstays (List.mem_of_mem_eraseIdx hr'))
  | reject => exact Or.inl (hstays (List.mem_of_mem_eraseIdx hr'))
  | @settle i o r ss auth auth' next =>
    rw [(d.advance_eq i r ss auth' next).2.2.1] at hr'
    exact Or.inl (hstays hr')
  | first => exact Or.inl (hstays hr')
  | constructorFails => exact Or.inl (hstays hr')
  | mountFails => exact Or.inl (hstays hr')
  | formFails => exact Or.inl (hstays hr')
  | sessionEnds => exact Or.inl (hstays hr')
  | mountPage => exact Or.inl (hstays hr')
  | pressAgain => exact Or.inl (hstays hr')
  | page => exact Or.inl (hstays hr')
  | openForm => exact Or.inl (hstays hr')
  | tapAgain => exact Or.inl (hstays hr')
  | form => exact Or.inl (hstays hr')
  | submitFails => exact Or.inl (hstays hr')
  | pressSignIn => exact Or.inl (hstays hr')
  | pressSignOut => exact Or.inl (hstays hr')
  | goBack => exact Or.inl (hstays hr')

/-- What a step of the page lets the phone know it knew before, or is in the collection. -/
theorem Page.mem_learns {p p' : Page} {e : PageEvent} (h : p.step db known e = some p')
    {w : DocRef × ReviewDoc} (hw : w ∈ p.learns db e) : w ∈ known ∨ w.1.get db = some w.2 := by
  cases e with
  | details e =>
    cases e with
    | take i docs =>
      obtain ⟨⟨id, doc⟩, hmem, rfl⟩ := List.mem_map.1 hw
      exact Or.inr (mem_docs.1 hmem)
    | _ => cases hw
  | takeLocal i docs =>
    obtain ⟨hknows, -⟩ := Option.ite_none_right_eq_some.1 h
    obtain ⟨x, hmem, rfl⟩ := List.mem_map.1 hw
    exact (of_decide_eq_true hknows).2 x hmem
  | lookupRead =>
    simp only [Page.learns] at hw
    split at hw
    · next doc hlookup =>
      obtain ⟨data, hdata, rfl⟩ := List.mem_map.1 hw
      exact Or.inr (Option.mem_toList.1 hdata)
    · cases hw
  | pressToggle => cases hw
  | lookupLocal found => cases hw
  | lookupAnswer => cases hw

/-- What the phone knows after a step it knew before, or is in the collection, or has just been
sent. -/
theorem App.mem_known_of_next (hnext : App.Next getDistance localeCompare userOf db d a d')
    {w : DocRef × ReviewDoc} (hw : w ∈ d'.known) :
    w ∈ d.known ∨ w.1.get db = some w.2 ∨
      ∃ first p f now, a = .pressSubmit now ∧ d.screens = .ok ⟨first, some p⟩ ∧ p.form = some f ∧
        f.screen.pressSubmit d.sessions.firebase now = some (.ok w) := by
  cases hnext with
  | @page first p p' e hscreens hstep =>
    rcases List.mem_append.1 hw with hw | hw
    · exact Or.inl hw
    · exact (Page.mem_learns hstep hw).imp_right Or.inl
  | @submit first p f now write hscreens hform hsubmit =>
    rcases List.mem_append.1 hw with hw | hw
    · exact Or.inl hw
    · obtain rfl := List.mem_singleton.1 hw
      exact Or.inr (Or.inr ⟨first, p, f, now, rfl, hscreens, hform, hsubmit⟩)
  | @settle i o r ss auth auth' next =>
    obtain ⟨calls, -, ⟨e, -, heq⟩ | ⟨s, -, heq⟩⟩ := d.advance_cases i r ss auth' next
    · rw [heq] at hw
      exact Or.inl hw
    · rw [heq] at hw
      exact Or.inl hw
  | first => exact Or.inl hw
  | constructorFails => exact Or.inl hw
  | mountFails => exact Or.inl hw
  | mountPage => exact Or.inl hw
  | pressAgain => exact Or.inl hw
  | formFails => exact Or.inl hw
  | openForm => exact Or.inl hw
  | tapAgain => exact Or.inl hw
  | form => exact Or.inl hw
  | submitFails => exact Or.inl hw
  | commit => exact Or.inl hw
  | resolve => exact Or.inl hw
  | resolveUnseen => exact Or.inl hw
  | reject => exact Or.inl hw
  | pressSignIn => exact Or.inl hw
  | pressSignOut => exact Or.inl hw
  | sessionEnds => exact Or.inl hw
  | goBack => exact Or.inl hw

/-- What a step writes has been sent. -/
theorem App.mem_posts {w : DocRef × ReviewDoc} (h : w ∈ d.posts a) :
    ∃ i r, a = .set (.commit i) ∧ d.sets[i]? = some r ∧ r.write = w := by
  unfold App.posts at h
  split at h
  · next i =>
    obtain ⟨r, hr, rfl⟩ := Option.map_eq_some_iff.1 (Option.mem_toList.1 h)
    exact ⟨i, r, rfl, hr, rfl⟩
  · cases h

end

/-! ## What a submission screen keeps -/

/-- A submission screen that stays keeps its key and its collection. -/
theorem Form.Change.key_ref {f f' : Form} (h : f.Change f') :
    f'.key = f.key ∧ f'.screen.ref = f.screen.ref := by
  cases h with
  | stays => exact ⟨rfl, rfl⟩
  | update params => exact ⟨rfl, rfl⟩
  | setAuth auth => exact ⟨rfl, rfl⟩
  | step e f' hstep =>
    obtain ⟨screen, hscreen, rfl⟩ := Option.map_eq_some_iff.1 hstep
    refine ⟨rfl, ?_⟩
    cases e with
    | tapStar k =>
      simp only [FormEvent.event, ReviewSubmissionScreen.Mounted.step] at hscreen
      split at hscreen
      · cases hscreen
      · cases hscreen
        rfl
    | editText text =>
      simp only [FormEvent.event, ReviewSubmissionScreen.Mounted.step] at hscreen
      split at hscreen
      · cases hscreen
      · cases hscreen
        rfl

/-- Its rating stays, or becomes a number of stars. -/
theorem Form.Change.rating {f f' : Form} (h : f.Change f') :
    f'.screen.state.rating = f.screen.state.rating ∨
      ∃ k : Star, f'.screen.state.rating = some k.val := by
  cases h with
  | stays => exact Or.inl rfl
  | update params => exact Or.inl rfl
  | setAuth auth => exact Or.inl rfl
  | step e f' hstep =>
    obtain ⟨screen, hscreen, rfl⟩ := Option.map_eq_some_iff.1 hstep
    cases e with
    | tapStar k =>
      simp only [FormEvent.event, ReviewSubmissionScreen.Mounted.step] at hscreen
      split at hscreen
      · cases hscreen
      · cases hscreen
        exact Or.inr ⟨k, rfl⟩
    | editText text =>
      simp only [FormEvent.event, ReviewSubmissionScreen.Mounted.step] at hscreen
      split at hscreen
      · cases hscreen
      · cases hscreen
        exact Or.inl rfl

end LetItGo.Systems.WholeApp
