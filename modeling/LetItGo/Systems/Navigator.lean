import LetItGo.Library.StackNavigator
import LetItGo.Components.FirstScreen
import LetItGo.Components.Reviews

/-!
# The screens on the navigator's stack

`App.js` puts three routes on a stack navigator: `First`, `Details`, and `Reviews`, which is the
submission screen. A press on a row navigates to `Details` with the toilet's parameters, a tap on
the stars of the details page to `Reviews` with the title among the page's parameters at that time.

The details page reads its parameters anew on every render, while the collection in `this.ref` is
the one its constructor made; the submission screen likewise keeps the collection of its
constructor.
-/

set_option autoImplicit false

namespace LetItGo.Systems.Navigator

open LetItGo.Library.DocumentStore
open LetItGo.Library.StackNavigator
open LetItGo.Components
open LetItGo.Components.DetailsScreen (Details)
open LetItGo.Components.FirstScreen (Toilet)
open LetItGo.Components.ReviewSubmissionScreen (Star)

inductive RouteName where
  | First
  | Details
  | Reviews
  deriving DecidableEq, Repr

/-- The parameters of a route. -/
structure Params where
  lat : Option ℚ
  lon : Option ℚ
  imgURL : Option String
  title : Option String
  toiletObj : Option Toilet
  count : Option ℕ
  deriving DecidableEq

def Params.empty : Params := ⟨none, none, none, none, none, none⟩

/-- `{ ...old, ...new }`. -/
def Params.merge (new old : Params) : Params where
  lat := new.lat.or old.lat
  lon := new.lon.or old.lon
  imgURL := new.imgURL.or old.imgURL
  title := new.title.or old.title
  toiletObj := new.toiletObj.or old.toiletObj
  count := new.count.or old.count

/-- The parameters that `renderItems` gives the `Details` route in `onPress`. -/
def onPress (item : Toilet) : Params where
  lat := some item.lat
  lon := some item.lon
  imgURL := some item.paranomaUrl
  title := some item.name
  toiletObj := some item
  count := none

/-- The parameters that a tap on the stars gives the `Reviews` route. -/
def onFinishRating (title : Option String) (count : Star) : Params :=
  { Params.empty with
    count := (Reviews.onFinishRating title count).count
    title := (Reviews.onFinishRating title count).title }

/-- A mounted screen, with the collection in its `this.ref`. -/
inductive Screen where
  | first
  | details (ref : CollectionRef) (details : Details)
  | submission (ref : CollectionRef)
  deriving DecidableEq

/-- The screen's constructor. -/
def Screen.construct : RouteName → Params → Screen
  | .First, _ => .first
  | .Details, p => .details (DetailsScreen.constructorRef p.title) Details.mount
  | .Reviews, p => .submission (ReviewSubmissionScreen.constructorRef ⟨p.count, p.title⟩)

/-- New parameters for a mounted screen. -/
def Screen.update : Screen → Screen
  | .details ref d => .details ref d.navigationUpdate
  | s => s

abbrev Stack := List (Route RouteName Params Screen)

def Stack.initial : Stack := [⟨.First, Params.empty, .first⟩]

def Stack.navigate (s : Stack) (name : RouteName) (params : Params) : Stack :=
  Library.StackNavigator.navigate Params.merge Screen.construct Screen.update name params s

inductive Action where
  | pressRow (item : Toilet)
  | tapStar (count : Star)
  /-- The details page does something by itself. -/
  | details (e : DetailsScreen.Event)
  | goBack
  deriving DecidableEq

/-- An event of the details page; its parameters and its collection stay. -/
def Stack.onDetails (e : DetailsScreen.Event) : Stack → Option Stack
  | [] => none
  | r :: rs =>
    match r.screen with
    | .details ref d => (d.step e).map fun d' => { r with screen := .details ref d' } :: rs
    | _ => (onDetails e rs).map fun rs' => r :: rs'

/-- The parameters of the details page, while it is mounted. -/
def Stack.detailsParams (s : Stack) : Option Params :=
  (s.find? fun r => r.name = .Details).map Route.params

/-- The rows can be pressed as long as the list is mounted, which it always is; the stars can be
tapped while the details page is. -/
def Stack.step (s : Stack) : Action → Option Stack
  | .pressRow item => some (s.navigate .Details (onPress item))
  | .tapStar count =>
    s.detailsParams.map fun p => s.navigate .Reviews (onFinishRating p.title count)
  | .details e => s.onDetails e
  | .goBack => some (goBack s)

/-! ## The stacks there are -/

/-- The list, possibly a details page on it, possibly a submission screen on that. -/
inductive Shape : Stack → Prop where
  | list (p : Params) : Shape [⟨.First, p, .first⟩]
  | page (p p' : Params) (ref : CollectionRef) (d : Details) :
      Shape [⟨.First, p, .first⟩, ⟨.Details, p', .details ref d⟩]
  | form (p p' p'' : Params) (ref ref' : CollectionRef) (d : Details) :
      Shape [⟨.First, p, .first⟩, ⟨.Details, p', .details ref d⟩, ⟨.Reviews, p'', .submission ref'⟩]

/-- What an action makes of them. -/
inductive Next : Stack → Action → Stack → Prop where
  | openPage (p : Params) (item : Toilet) :
      Next [⟨.First, p, .first⟩] (.pressRow item)
        [⟨.First, p, .first⟩, ⟨.Details, onPress item,
          .details (DetailsScreen.constructorRef (some item.name)) Details.mount⟩]
  | pressAgain (p p' : Params) (ref : CollectionRef) (d : Details) (above : Stack)
      (item : Toilet) :
      Next (⟨.First, p, .first⟩ :: ⟨.Details, p', .details ref d⟩ :: above) (.pressRow item)
        [⟨.First, p, .first⟩, ⟨.Details, (onPress item).merge p',
          .details ref d.navigationUpdate⟩]
  | openForm (p p' : Params) (ref : CollectionRef) (d : Details) (count : Star) :
      Next [⟨.First, p, .first⟩, ⟨.Details, p', .details ref d⟩] (.tapStar count)
        [⟨.First, p, .first⟩, ⟨.Details, p', .details ref d⟩,
          ⟨.Reviews, onFinishRating p'.title count, .submission
            (ReviewSubmissionScreen.constructorRef (Reviews.onFinishRating p'.title count))⟩]
  | tapAgain (p p' p'' : Params) (ref ref' : CollectionRef) (d : Details) (count : Star) :
      Next [⟨.First, p, .first⟩, ⟨.Details, p', .details ref d⟩, ⟨.Reviews, p'', .submission ref'⟩]
        (.tapStar count)
        [⟨.First, p, .first⟩, ⟨.Details, p', .details ref d⟩,
          ⟨.Reviews, (onFinishRating p'.title count).merge p'', .submission ref'⟩]
  | details (p p' : Params) (ref : CollectionRef) (d d' : Details) (above : Stack)
      (e : DetailsScreen.Event) :
      Next (⟨.First, p, .first⟩ :: ⟨.Details, p', .details ref d⟩ :: above) (.details e)
        (⟨.First, p, .first⟩ :: ⟨.Details, p', .details ref d'⟩ :: above)
  | back (s : Stack) : Next s .goBack (goBack s)

/-- A row pressed while the details page is mounted goes back to the page. -/
theorem navigate_page (p p' : Params) (ref : CollectionRef) (d : Details) (above : Stack)
    (params : Params) :
    Stack.navigate (⟨.First, p, .first⟩ :: ⟨.Details, p', .details ref d⟩ :: above) .Details
        params =
      [⟨.First, p, .first⟩, ⟨.Details, params.merge p', .details ref d.navigationUpdate⟩] :=
  navigate_of_mem [⟨RouteName.First, p, Screen.first⟩] above (by simp) rfl

/-- Where no route has the name, a screen is pushed. -/
theorem navigate_push {s : Stack} {name : RouteName} (params : Params)
    (h : ∀ r ∈ s, r.name ≠ name) :
    s.navigate name params = s ++ [⟨name, params, Screen.construct name params⟩] :=
  navigate_of_forall_ne h

/-- A step from one of these stacks is one of these. -/
theorem next_of_step {s s' : Stack} {a : Action} (h : Shape s) (hstep : s.step a = some s') :
    Next s a s' := by
  cases a with
  | pressRow item =>
    cases hstep
    cases h with
    | list p =>
      rw [navigate_push _ (by simp)]
      exact .openPage p item
    | page p p' ref d =>
      rw [navigate_page]
      exact .pressAgain p p' ref d [] item
    | form p p' p'' ref ref' d =>
      rw [navigate_page]
      exact .pressAgain p p' ref d _ item
  | tapStar count =>
    cases h with
    -- no details page, no stars
    | list p => cases hstep
    | page p p' ref d =>
      have hparams : Stack.detailsParams
          [⟨.First, p, .first⟩, ⟨.Details, p', .details ref d⟩] = some p' := rfl
      simp only [Stack.step, hparams, Option.map_some, Option.some.injEq] at hstep
      rw [← hstep, navigate_push _ (by simp)]
      exact .openForm p p' ref d count
    | form p p' p'' ref ref' d =>
      cases hstep
      exact .tapAgain p p' p'' ref ref' d count
  | details e =>
    cases h with
    | list p => cases hstep
    | page p p' ref d =>
      obtain ⟨rs, hrs, rfl⟩ := Option.map_eq_some_iff.1 hstep
      obtain ⟨d', -, rfl⟩ := Option.map_eq_some_iff.1 hrs
      exact .details p p' ref d d' [] e
    | form p p' p'' ref ref' d =>
      obtain ⟨rs, hrs, rfl⟩ := Option.map_eq_some_iff.1 hstep
      obtain ⟨d', -, rfl⟩ := Option.map_eq_some_iff.1 hrs
      exact .details p p' ref d d' _ e
  | goBack =>
    cases hstep
    exact .back s

theorem shape_next {s s' : Stack} {a : Action} (h : Shape s) (hnext : Next s a s') : Shape s' := by
  cases hnext with
  | openPage p item => exact .page p _ _ _
  | pressAgain p p' ref d above item => exact .page p _ _ _
  | openForm p p' ref d count => exact .form p p' _ ref _ d
  | tapAgain p p' p'' ref ref' d count => exact .form p p' _ ref ref' d
  | details p p' ref d d' above e =>
    cases h with
    | page => exact .page p p' ref d'
    | form p p' p'' ref ref' d => exact .form p p' p'' ref ref' d'
  | back s =>
    cases h with
    -- `goBack` leaves the list alone
    | list p => exact .list p
    | page p p' ref d => exact .list p
    | form p p' p'' ref ref' d => exact .page p p' ref d

theorem shape_step {s s' : Stack} {a : Action} (h : Shape s) (hstep : s.step a = some s') :
    Shape s' :=
  shape_next h (next_of_step h hstep)

end LetItGo.Systems.Navigator
