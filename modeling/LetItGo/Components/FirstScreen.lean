import LetItGo.Library.Js

/-!
# FirstScreen

The list of toilets: `getToiletData`, which asks for the position and for the `toilets` collection
at the same time, the handlers of the sort and filter boxes, and the filter in `render`.

`getDistance` (geolib) and `localeCompare` are parameters. The variable `distance`, through which
the callback of the position request speaks to the query's continuation, is part of the state.
-/

set_option autoImplicit false

namespace LetItGo.Components.FirstScreen

open LetItGo.Library.Js

structure Coords where
  latitude : ℚ
  longitude : ℚ
  deriving DecidableEq, Repr

/-- What `getCurrentPosition` answers with. -/
structure Position where
  coords : Coords
  deriving DecidableEq, Repr

structure Facilities where
  male : Value
  female : Value
  handicapped : Value
  hose : Value
  showerHeads : Value
  waterCooler : Value
  deriving DecidableEq, Repr

/-- The data of a document in the `toilets` collection; a facility can be any value, or absent. -/
structure ToiletDoc where
  facilities : Facilities
  lat : ℚ
  lon : ℚ
  name : String
  paranomaUrl : String
  deriving DecidableEq, Repr

structure Paranoma where
  maleYaw : Value
  femaleYaw : Value
  handicappedYaw : Value
  waterCoolerYaw : Value
  deriving DecidableEq, Repr

/-- A record of `state.toilets`. The filter in `render` reads a property `paranoma` of it. -/
structure Toilet where
  facilities : Facilities
  lat : ℚ
  lon : ℚ
  name : String
  paranomaUrl : String
  distance : ℤ
  paranoma : Option Paranoma
  deriving DecidableEq, Repr

/-- The facilities that the details page lists, by the types it gives them. -/
inductive FacilityType where
  | male
  | female
  | handicapped
  | waterCooler
  | shower
  | bidet
  deriving DecidableEq, Repr

def FacilityType.all : List FacilityType :=
  [.male, .female, .handicapped, .waterCooler, .shower, .bidet]

/-- The property `isAvail` that the details page gives each of its `FacilitiesListItem`s; the item
is struck through unless it is truthy. -/
def isAvail (toilet : Toilet) : FacilityType → Value
  | .male => toilet.facilities.male
  | .female => toilet.facilities.female
  | .handicapped => toilet.facilities.handicapped
  | .waterCooler => toilet.facilities.waterCooler
  | .shower => toilet.facilities.showerHeads
  | .bidet => toilet.facilities.hose

/-- The icons of a row, each shown if its property is truthy: `isMale`, `isFemale`, `isWC`. -/
def iconsToShow (toilet : Toilet) : Bool × Bool × Bool :=
  (toilet.facilities.male.truthy, toilet.facilities.female.truthy,
    toilet.facilities.handicapped.truthy)

/-! ## State and handlers -/

/-- `this.state`. The fields that the constructor leaves out are falsy until they are set. -/
structure State where
  toilets : List Toilet
  isLoading : Bool
  isVisible : Bool
  sortNameChecked : Bool
  sortDistanceChecked : Bool
  refresh : Bool
  maleChecked : Bool
  femaleChecked : Bool
  wcChecked : Bool
  showerChecked : Bool
  waterCoolerChecked : Bool
  bidetChecked : Bool
  deriving DecidableEq, Repr

/-- The constructor's state. -/
def State.initial : State where
  toilets := []
  isLoading := true
  isVisible := false
  sortNameChecked := false
  sortDistanceChecked := true
  refresh := false
  maleChecked := false
  femaleChecked := false
  wcChecked := false
  showerChecked := false
  waterCoolerChecked := false
  bidetChecked := false

def compareDistance (a b : Toilet) : ℤ := a.distance - b.distance

/-- The boxes of the overlay. -/
inductive Box where
  | name
  | distance
  | filter (facility : FacilityType)
  deriving DecidableEq, Repr

section

variable (localeCompare : String → String → ℤ)

def compareToilets (a b : Toilet) : ℤ := localeCompare a.name b.name

/-- The `onPress` of a box. NAME and DISTANCE sort `state.toilets` in place. -/
def State.press (st : State) : Box → State
  | .name =>
    { st with
      toilets := sort (compareToilets localeCompare) st.toilets
      sortNameChecked := !st.sortNameChecked
      sortDistanceChecked := false
      refresh := !st.refresh }
  | .distance =>
    { st with
      toilets := sort compareDistance st.toilets
      sortDistanceChecked := !st.sortDistanceChecked
      sortNameChecked := false
      refresh := !st.refresh }
  | .filter .male => { st with maleChecked := !st.maleChecked }
  | .filter .female => { st with femaleChecked := !st.femaleChecked }
  | .filter .handicapped => { st with wcChecked := !st.wcChecked }
  | .filter .shower => { st with showerChecked := !st.showerChecked }
  | .filter .waterCooler => { st with waterCoolerChecked := !st.waterCoolerChecked }
  | .filter .bidet => { st with bidetChecked := !st.bidetChecked }

/-- No toilet is lost or doubled. -/
theorem State.press_perm (st : State) (box : Box) :
    (st.press localeCompare box).toilets.Perm st.toilets := by
  cases box with
  | name => exact sort_perm _ _
  | distance => exact sort_perm _ _
  | filter facility => cases facility <;> exact List.Perm.refl _

end

/-- Whether the box of a facility is checked. -/
def State.checked (st : State) : FacilityType → Bool
  | .male => st.maleChecked
  | .female => st.femaleChecked
  | .handicapped => st.wcChecked
  | .waterCooler => st.waterCoolerChecked
  | .shower => st.showerChecked
  | .bidet => st.bidetChecked

/-! ## The filter in `render` -/

/-- One conjunct of the filter that reads a yaw: `!checked || toilet.paranoma.yaw != null`. -/
def yawTest (checked : Bool) (yaw : Paranoma → Value) (expression : String) (toilet : Toilet) :
    Except Exception Bool :=
  if checked then
    match toilet.paranoma with
    | none => .error (.typeError expression)
    | some paranoma => .ok (yaw paranoma).notNull
  else .ok true

/-- `a && b`, where `b` is evaluated only if `a` is true. -/
def andThen (a : Except Exception Bool) (b : Except Exception Bool) : Except Exception Bool :=
  match a with
  | .error e => .error e
  | .ok false => .ok false
  | .ok true => b

/-- The predicate that `render` filters `state.toilets` with. -/
def filterToilet (st : State) (toilet : Toilet) : Except Exception Bool :=
  -- three yaws, then two facilities, then the yaw of the water cooler
  andThen (yawTest st.maleChecked Paranoma.maleYaw "toilet.paranoma.maleYaw" toilet)
  (andThen (yawTest st.femaleChecked Paranoma.femaleYaw "toilet.paranoma.femaleYaw" toilet)
  (andThen (yawTest st.wcChecked Paranoma.handicappedYaw "toilet.paranoma.handicappedYaw" toilet)
  (andThen (.ok (!st.showerChecked || toilet.facilities.showerHeads.truthy))
  (andThen (.ok (!st.bidetChecked || toilet.facilities.hose.truthy))
  (yawTest st.waterCoolerChecked Paranoma.waterCoolerYaw "toilet.paranoma.waterCoolerYaw"
    toilet)))))

/-- What `render` puts on screen. -/
inductive View where
  | activityIndicator
  | list (toilets : List Toilet)
  deriving DecidableEq, Repr

/-- `render()`. -/
def render (st : State) : Except Exception View :=
  if st.isLoading then .ok .activityIndicator
  else (filter (filterToilet st) st.toilets).map .list

/-! ## Loading -/

/-- The alerts of the two error callbacks. -/
inductive Alert where
  | geolocation (code : ℤ) (message : String)
  /-- `'There has been an error: ' + e` -/
  | loading (e : Exception)
  deriving DecidableEq, Repr

/-- The mounted screen: the variable `distance` of `getToiletData`, whether each of its two requests
is still to be answered, the state, and the alerts raised so far. -/
structure Mounted where
  distance : Option Position
  positionPending : Bool
  queryPending : Bool
  state : State
  alerts : List Alert
  deriving DecidableEq

/-- `componentWillMount` starts both requests. -/
def mount : Mounted := ⟨none, true, true, State.initial, []⟩

section

variable (getDistance : Coords → Coords → ℚ → ℚ)

/-- The record that the query's continuation pushes for a document. Reading `coords` throws while
`distance` is undefined. -/
def buildToilet (distance : Option Position) (doc : ToiletDoc) : Except Exception Toilet :=
  match distance with
  | none => .error (.typeError "distance.coords")
  | some position =>
    .ok
      { facilities := doc.facilities
        lat := doc.lat
        lon := doc.lon
        name := doc.name
        paranomaUrl := doc.paranomaUrl
        distance := ⌊getDistance position.coords ⟨doc.lat, doc.lon⟩ (1 / 100)⌋
        paranoma := none }

/-- `querySnapshot.forEach`: the records pushed, unless one of them throws. -/
def buildToilets (distance : Option Position) : List ToiletDoc → Except Exception (List Toilet)
  | [] => .ok []
  | doc :: docs =>
    match buildToilet getDistance distance doc with
    | .error e => .error e
    | .ok toilet =>
      match buildToilets distance docs with
      | .error e => .error e
      | .ok toilets => .ok (toilet :: toilets)

/-- The continuations of the query: sort by distance and show the list, or alert. -/
def Mounted.queryArrived (m : Mounted) (docs : List ToiletDoc) : Mounted :=
  match buildToilets getDistance m.distance docs with
  -- the `catch` leaves `isLoading` as it is
  | .error e => { m with queryPending := false, alerts := m.alerts ++ [.loading e] }
  | .ok toilets =>
    { m with
      queryPending := false
      state := { m.state with toilets := sort compareDistance toilets, isLoading := false } }

inductive Event where
  | position (p : Position)
  | positionError (code : ℤ) (message : String)
  | query (docs : List ToiletDoc)
  | queryError (reason : String)
  /-- the sort icon in the header, `_changeState` -/
  | changeState
  /-- a press on the overlay's backdrop -/
  | backdropPress
  | press (box : Box)
  deriving DecidableEq

variable (localeCompare : String → String → ℤ)

/-- One event. Each request is answered once, and the boxes are there once the list has loaded and
while the overlay is visible. -/
def Mounted.step (m : Mounted) : Event → Option Mounted
  | .position p =>
    if m.positionPending then some { m with distance := some p, positionPending := false }
    else none
  | .positionError code message =>
    if m.positionPending then
      some { m with positionPending := false, alerts := m.alerts ++ [.geolocation code message] }
    else none
  | .query docs => if m.queryPending then some (m.queryArrived getDistance docs) else none
  | .queryError reason =>
    if m.queryPending then
      some { m with queryPending := false, alerts := m.alerts ++ [.loading (.rejected reason)] }
    else none
  | .changeState => some { m with state := { m.state with isVisible := true } }
  | .backdropPress =>
    if m.state.isVisible then some { m with state := { m.state with isVisible := false } }
    else none
  | .press box =>
    if m.state.isLoading = false ∧ m.state.isVisible then
      some { m with state := m.state.press localeCompare box }
    else none

variable {getDistance localeCompare}

/-- What an event does to the state: nothing but show or hide the overlay, the loading of a list, or
the press of a box. -/
theorem Mounted.step_state_cases {m m' : Mounted} {e : Event}
    (h : m.step getDistance localeCompare e = some m') :
    (∃ visible, m'.state = { m.state with isVisible := visible }) ∨
      (∃ docs toilets, e = .query docs ∧
        buildToilets getDistance m.distance docs = .ok toilets ∧
        m'.state =
          { m.state with toilets := sort compareDistance toilets, isLoading := false }) ∨
      ∃ box, e = .press box ∧ m.state.isLoading = false ∧
        m'.state = m.state.press localeCompare box := by
  cases e with
  | position p =>
    obtain ⟨-, heq⟩ := Option.ite_none_right_eq_some.1 h
    cases heq
    exact Or.inl ⟨m.state.isVisible, rfl⟩
  | positionError code message =>
    obtain ⟨-, heq⟩ := Option.ite_none_right_eq_some.1 h
    cases heq
    exact Or.inl ⟨m.state.isVisible, rfl⟩
  | query docs =>
    obtain ⟨-, heq⟩ := Option.ite_none_right_eq_some.1 h
    cases heq
    cases hbuild : buildToilets getDistance m.distance docs with
    | error e =>
      -- an alert, and the state as it was
      exact Or.inl ⟨m.state.isVisible, by simp [Mounted.queryArrived, hbuild]⟩
    | ok toilets =>
      exact Or.inr (Or.inl ⟨docs, toilets, rfl, hbuild, by simp [Mounted.queryArrived, hbuild]⟩)
  | queryError reason =>
    obtain ⟨-, heq⟩ := Option.ite_none_right_eq_some.1 h
    cases heq
    exact Or.inl ⟨m.state.isVisible, rfl⟩
  | changeState =>
    cases h
    exact Or.inl ⟨true, rfl⟩
  | backdropPress =>
    obtain ⟨-, heq⟩ := Option.ite_none_right_eq_some.1 h
    cases heq
    exact Or.inl ⟨false, rfl⟩
  | press box =>
    obtain ⟨⟨hloaded, -⟩, heq⟩ := Option.ite_none_right_eq_some.1 h
    cases heq
    exact Or.inr (Or.inr ⟨box, rfl, hloaded, rfl⟩)

end

end LetItGo.Components.FirstScreen
