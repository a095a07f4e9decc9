import LetItGo.Library.StableSort
import LetItGo.Properties.SortOrder
import LetItGo.Properties.ToiletFilter

/-!
# The list as a function of the events

A sort box sorts the list as the presses before it have left it. Since `sort` is stable only three
orders come of that, whatever is pressed: by distance, as loaded; by name, toilets of one name by
distance; and, once NAME has been pressed, by distance, toilets at one distance by name. What
`render` lists is the records of the documents that have every facility whose box was pressed an odd
number of times, in the order that the last presses leave (`list_shown`).
-/

set_option autoImplicit false

namespace LetItGo.Properties.ListShown

open LetItGo.Library.Js
open LetItGo.Library.Runs
open LetItGo.Components.FirstScreen
open LetItGo.Properties.SortOrder
open LetItGo.Properties.ToiletFilter
open LetItGo.Properties.ToiletLoading (oneToilet)

/-- The orders of the list. -/
inductive ListOrder where
  | distance
  | nameThenDistance
  | distanceThenName
  deriving DecidableEq, Repr

/-- The order after an event. -/
def ListOrder.next : ListOrder → Event → ListOrder
  | _, .press .name => .nameThenDistance
  | .nameThenDistance, .press .distance => .distanceThenName
  | order, _ => order

def orderAfter (es : List Event) : ListOrder := es.foldl ListOrder.next .distance

/-- The facility's box has been pressed an odd number of times. -/
def pressedOdd (es : List Event) (f : FacilityType) : Bool :=
  es.count (.press (.filter f)) % 2 = 1

/-- The toilet has every facility whose box has been pressed an odd number of times. -/
def wanted (es : List Event) (toilet : Toilet) : Bool :=
  FacilityType.all.all fun f => !pressedOdd es f || (isAvail toilet f).truthy

section

variable (localeCompare : String → String → ℤ)

def ListOrder.compare : ListOrder → Toilet → Toilet → ℤ
  | .distance => compareDistance
  | .nameThenDistance => thenBy (compareToilets localeCompare) compareDistance
  | .distanceThenName => thenBy compareDistance (compareToilets localeCompare)

variable {localeCompare}

theorem isComparator_compareDistance : IsComparator compareDistance :=
  isComparator_sub Toilet.distance

theorem ListOrder.isComparator (hlocale : IsComparator localeCompare) (order : ListOrder) :
    IsComparator (order.compare localeCompare) := by
  have hname := isComparator_compareToilets hlocale
  cases order with
  | distance => exact isComparator_compareDistance
  | nameThenDistance => exact isComparator_thenBy hname isComparator_compareDistance
  | distanceThenName => exact isComparator_thenBy isComparator_compareDistance hname

/-! ## One event -/

/-- A press of NAME sorts by name and then by distance, whichever order the list was in. -/
theorem sort_name_of_order (hlocale : IsComparator localeCompare) (order : ListOrder)
    (l : List Toilet) :
    sort (compareToilets localeCompare) (sort (order.compare localeCompare) l) =
      sort (ListOrder.nameThenDistance.compare localeCompare) l := by
  have hname := isComparator_compareToilets hlocale
  rw [sort_sort hname (order.isComparator hlocale)]
  cases order with
  | distance => rfl
  | nameThenDistance => exact sort_thenBy_self l
  | distanceThenName => exact sort_thenBy_thenBy l

theorem sort_distance_of_order (hlocale : IsComparator localeCompare) (order : ListOrder)
    (l : List Toilet) :
    sort compareDistance (sort (order.compare localeCompare) l) =
      sort ((order.next (.press .distance)).compare localeCompare) l := by
  rw [sort_sort isComparator_compareDistance (order.isComparator hlocale)]
  cases order with
  | distance => exact sort_thenBy_same l
  | nameThenDistance => exact sort_thenBy_thenBy l
  | distanceThenName => exact sort_thenBy_self l

/-- What a press makes of a list in one of the orders. -/
theorem toilets_press (hlocale : IsComparator localeCompare) {st : State} {order : ListOrder}
    {l : List Toilet} (h : st.toilets = sort (order.compare localeCompare) l) (box : Box) :
    (st.press localeCompare box).toilets =
      sort ((order.next (.press box)).compare localeCompare) l := by
  cases box with
  | name =>
    have hnext : order.next (.press .name) = .nameThenDistance := by cases order <;> rfl
    rw [hnext, ← sort_name_of_order hlocale order l, ← h]
    rfl
  | distance =>
    rw [← sort_distance_of_order hlocale order l, ← h]
    rfl
  | filter f =>
    have hkeep : order.next (.press (.filter f)) = order := by cases order <;> rfl
    rw [hkeep, ← h]
    cases f <;> rfl

theorem checked_press (st : State) (box : Box) (f : FacilityType) :
    (st.press localeCompare box).checked f =
      if box = .filter f then !st.checked f else st.checked f := by
  cases box with
  | name => rfl
  | distance => rfl
  | filter g => cases g <;> cases f <;> rfl

theorem pressedOdd_append (es : List Event) (e : Event) (f : FacilityType) :
    pressedOdd (es ++ [e]) f =
      if e = .press (.filter f) then !pressedOdd es f else pressedOdd es f := by
  unfold pressedOdd
  rw [List.count_append]
  by_cases he : e = .press (.filter f)
  · rw [if_pos he, he, List.count_singleton_self, ← decide_not]
    apply decide_eq_decide.2
    omega
  · have hnone : [e].count (.press (.filter f)) = 0 := List.count_eq_zero.2 (by simpa using Ne.symm he)
    rw [if_neg he, hnone, Nat.add_zero]

/-- A press of its box turns the check of a facility, and nothing else does. -/
theorem checked_of_step {getDistance : Coords → Coords → ℚ → ℚ} {m m' : Mounted} {e : Event}
    (hstep : m.step getDistance localeCompare e = some m') (f : FacilityType) :
    m'.state.checked f =
      if e = .press (.filter f) then !m.state.checked f else m.state.checked f := by
  by_cases hpress : ∃ box, e = .press box
  · obtain ⟨box, rfl⟩ := hpress
    obtain ⟨-, heq⟩ := Option.ite_none_right_eq_some.1 hstep
    cases heq
    rw [checked_press]
    simp only [Event.press.injEq]
  · rw [if_neg fun he => hpress ⟨_, he⟩]
    rcases Mounted.step_state_cases hstep with ⟨visible, hstate⟩ | ⟨docs, toilets, -, -, hstate⟩ |
      ⟨box, he, -⟩
    · rw [hstate]
      cases f <;> rfl
    · rw [hstate]
      cases f <;> rfl
    · exact absurd ⟨box, he⟩ hpress

/-- The boxes that are checked are those that have been pressed an odd number of times. -/
theorem boxes_run {getDistance : Coords → Coords → ℚ → ℚ} {es : List Event} {m : Mounted}
    (hrun : run (Mounted.step getDistance localeCompare) mount es = some m) (f : FacilityType) :
    m.state.checked f = pressedOdd es f := by
  apply run_prefix_invariant (I := fun es (m : Mounted) => m.state.checked f = pressedOdd es f)
    _ _ hrun
  · cases f <;> rfl
  · intro es m e m' _ h hstep
    rw [checked_of_step hstep, pressedOdd_append, h]

theorem orderAfter_append (es : List Event) (e : Event) :
    orderAfter (es ++ [e]) = (orderAfter es).next e := by
  simp only [orderAfter, List.foldl_append, List.foldl_cons, List.foldl_nil]

variable {getDistance : Coords → Coords → ℚ → ℚ}

theorem distance_of_step {m m' : Mounted} {e : Event}
    (h : m.positionPending = true → m.distance = none)
    (hstep : m.step getDistance localeCompare e = some m') :
    (m'.positionPending = true → m'.distance = none) ∧
      (m'.distance = m.distance ∨ m.distance = none) := by
  cases e with
  | position p =>
    obtain ⟨hpending, heq⟩ := Option.ite_none_right_eq_some.1 hstep
    cases heq
    exact ⟨fun h => (nomatch h), Or.inr (h hpending)⟩
  | positionError code message =>
    obtain ⟨-, heq⟩ := Option.ite_none_right_eq_some.1 hstep
    cases heq
    exact ⟨fun h => (nomatch h), Or.inl rfl⟩
  | query docs =>
    obtain ⟨-, heq⟩ := Option.ite_none_right_eq_some.1 hstep
    cases heq
    unfold Mounted.queryArrived
    split <;> exact ⟨h, Or.inl rfl⟩
  | queryError reason =>
    obtain ⟨-, heq⟩ := Option.ite_none_right_eq_some.1 hstep
    cases heq
    exact ⟨h, Or.inl rfl⟩
  | changeState =>
    cases hstep
    exact ⟨h, Or.inl rfl⟩
  | backdropPress =>
    obtain ⟨-, heq⟩ := Option.ite_none_right_eq_some.1 hstep
    cases heq
    exact ⟨h, Or.inl rfl⟩
  | press box =>
    obtain ⟨-, heq⟩ := Option.ite_none_right_eq_some.1 hstep
    cases heq
    exact ⟨h, Or.inl rfl⟩

/-- Records that have been built could be built at any later time. -/
theorem buildToilets_of_distance {distance distance' : Option Position} {docs : List ToiletDoc}
    {toilets : List Toilet} (h : distance' = distance ∨ distance = none)
    (hbuild : buildToilets getDistance distance docs = .ok toilets) :
    buildToilets getDistance distance' docs = .ok toilets := by
  rcases h with rfl | rfl
  · exact hbuild
  · cases docs with
    | nil => exact hbuild
    | cons doc docs => cases hbuild

/-! ## Every run -/

/-- What the events so far say of the screen. -/
structure Tracked (getDistance : Coords → Coords → ℚ → ℚ) (localeCompare : String → String → ℤ)
    (es : List Event) (m : Mounted) : Prop where
  position : m.positionPending = true → m.distance = none
  pending : m.queryPending = true → m.state.isLoading = true
  boxes : ∀ f, m.state.checked f = pressedOdd es f
  unsorted : m.state.isLoading = true → orderAfter es = .distance
  toilets : m.state.isLoading = false → ∃ docs records, Event.query docs ∈ es ∧
    buildToilets getDistance m.distance docs = .ok records ∧
    m.state.toilets = sort ((orderAfter es).compare localeCompare) records

theorem tracked_press (hlocale : IsComparator localeCompare) {es : List Event} {m : Mounted}
    {box : Box} (h : Tracked getDistance localeCompare es m) (hloaded : m.state.isLoading = false) :
    Tracked getDistance localeCompare (es ++ [.press box])
      { m with state := m.state.press localeCompare box } := by
  have hstays : (m.state.press localeCompare box).isLoading = false := by
    rw [← hloaded]
    cases box with
    | filter f => cases f <;> rfl
    | _ => rfl
  refine ⟨h.position, fun hpending => ?_, fun f => ?_, fun hloading => ?_, fun _ => ?_⟩
  · rw [h.pending hpending] at hloaded
    cases hloaded
  · rw [pressedOdd_append, checked_press, h.boxes]
    simp only [Event.press.injEq]
  · rw [hstays] at hloading
    cases hloading
  · obtain ⟨docs, records, hquery, hbuild, htoilets⟩ := h.toilets hloaded
    refine ⟨docs, records, List.mem_append_left _ hquery, hbuild, ?_⟩
    rw [orderAfter_append]
    exact toilets_press hlocale htoilets box

theorem tracked_other {es : List Event} {m m' : Mounted} {e : Event}
    (h : Tracked getDistance localeCompare es m) (hpress : ∀ box, e ≠ .press box)
    (hstep : m.step getDistance localeCompare e = some m') :
    Tracked getDistance localeCompare (es ++ [e]) m' := by
  obtain ⟨hposition, hdistance⟩ := distance_of_step h.position hstep
  have horder : orderAfter (es ++ [e]) = orderAfter es := by
    rw [orderAfter_append]
    cases e with
    | press box => exact absurd rfl (hpress box)
    | _ => cases orderAfter es <;> rfl
  have hboxes : ∀ f, m'.state.checked f = pressedOdd (es ++ [e]) f := by
    intro f
    rw [checked_of_step hstep, pressedOdd_append, h.boxes]
  have hpending : m'.queryPending = true → m.state.isLoading = true := by
    intro hpending
    exact h.pending (queryPending_of_step hstep hpending).1
  rcases Mounted.step_state_cases hstep with ⟨visible, hstate⟩ | ⟨docs, toilets, rfl, hbuild, hstate⟩ |
    ⟨box, he, -⟩
  · -- the overlay is shown or hidden, if that
    refine ⟨hposition, ?_, hboxes, ?_, ?_⟩
    · rw [hstate]
      exact hpending
    · rw [hstate, horder]
      exact h.unsorted
    · rw [hstate, horder]
      intro hloaded
      obtain ⟨docs, records, hquery, hbuild, htoilets⟩ := h.toilets hloaded
      exact ⟨docs, records, List.mem_append_left _ hquery,
        buildToilets_of_distance hdistance hbuild, htoilets⟩
  · -- the list loads, and nothing has been sorted yet
    obtain ⟨hwas, -⟩ := Option.ite_none_right_eq_some.1 hstep
    have hunsorted := h.unsorted (h.pending hwas)
    refine ⟨hposition, fun hp => ?_, hboxes, fun _ => ?_, fun _ => ?_⟩
    · exact absurd rfl ((queryPending_of_step hstep hp).2 docs)
    · rw [horder, hunsorted]
    · refine ⟨docs, toilets, List.mem_append_right _ List.mem_cons_self,
        buildToilets_of_distance hdistance hbuild, ?_⟩
      rw [hstate, horder, hunsorted]
      rfl
  · exact absurd he (hpress box)

theorem tracked_step (hlocale : IsComparator localeCompare) {es : List Event} {m m' : Mounted}
    {e : Event} (h : Tracked getDistance localeCompare es m)
    (hstep : m.step getDistance localeCompare e = some m') :
    Tracked getDistance localeCompare (es ++ [e]) m' := by
  by_cases hpress : ∃ box, e = .press box
  · obtain ⟨box, rfl⟩ := hpress
    obtain ⟨⟨hloaded, -⟩, heq⟩ := Option.ite_none_right_eq_some.1 hstep
    cases heq
    exact tracked_press hlocale h hloaded
  · exact tracked_other h (fun box he => hpress ⟨box, he⟩) hstep

theorem tracked_run (hlocale : IsComparator localeCompare) {es : List Event} {m : Mounted}
    (hrun : run (Mounted.step getDistance localeCompare) mount es = some m) :
    Tracked getDistance localeCompare es m := by
  apply run_prefix_invariant _ _ hrun
  · refine ⟨fun _ => rfl, fun _ => rfl, fun f => ?_, fun _ => rfl, fun hloaded => nomatch hloaded⟩
    cases f <;> rfl
  · exact fun as m a t _ h hstep => tracked_step hlocale h hstep

/-- What `render` returns a list for, it lists by the boxes that are checked. -/
theorem shown_eq_filter {es : List Event} {m : Mounted} {shown : List Toilet}
    (hrun : run (Mounted.step getDistance localeCompare) mount es = some m)
    (hshown : render m.state = .ok (.list shown)) :
    m.state.isLoading = false ∧ shown = m.state.toilets.filter (hasChecked m.state) := by
  have hrecords : ∀ t ∈ m.state.toilets, t.paranoma = none := by
    refine run_invariant (I := fun m : Mounted => ∀ t ∈ m.state.toilets, t.paranoma = none)
      (fun s a t h hst => paranoma_step h hst) ?_ hrun
    intro t ht
    cases ht
  cases hloading : m.state.isLoading with
  | true => simp [render, hloading] at hshown
  | false =>
    refine ⟨rfl, ?_⟩
    simp only [render, hloading, Bool.false_eq_true, if_false] at hshown
    cases hfilter : filter (filterToilet m.state) m.state.toilets with
    | error e =>
      rw [hfilter] at hshown
      cases hshown
    | ok toilets =>
      have hnoYaw := (exists_filter_eq_ok_iff_noYawRead hrecords).1 ⟨toilets, hfilter⟩
      rw [filter_eq_hasChecked hrecords hnoYaw] at hshown
      cases hshown
      rfl

/-- In every run, whatever list is on screen is made of the records of the documents that were
loaded: those that have every facility whose box has been pressed an odd number of times, sorted as
the presses of the sort boxes say. -/
theorem list_shown (hlocale : IsComparator localeCompare) {es : List Event} {m : Mounted}
    {shown : List Toilet}
    (hrun : run (Mounted.step getDistance localeCompare) mount es = some m)
    (hshown : render m.state = .ok (.list shown)) :
    ∃ docs records, Event.query docs ∈ es ∧
      buildToilets getDistance m.distance docs = .ok records ∧
      shown = sort ((orderAfter es).compare localeCompare) (records.filter (wanted es)) := by
  have htracked := tracked_run hlocale hrun
  obtain ⟨hloaded, hfilter⟩ := shown_eq_filter hrun hshown
  obtain ⟨docs, records, hquery, hbuild, htoilets⟩ := htracked.toilets hloaded
  have hwanted : hasChecked m.state = wanted es := by
    funext t
    simp only [hasChecked, wanted, htracked.boxes]
  refine ⟨docs, records, hquery, hbuild, ?_⟩
  rw [hfilter, hwanted, htoilets, filter_sort ((orderAfter es).isComparator hlocale)]

end

/-- Two toilets load, then NAME, the bidet's box and DISTANCE are pressed. -/
def pressesOfTwo : List Event :=
  [.position ⟨⟨1, 103⟩⟩, .query [oneToilet, { oneToilet with name := "AS6" }], .changeState,
    .press .name, .press (.filter .bidet), .press .distance]

/-- Both toilets have a bidet and are at one distance: they end by name, though COM1 came first. -/
theorem list_shown_pressesOfTwo :
    ∃ m shown, run (Mounted.step (fun _ _ _ => 0) compareNames) mount pressesOfTwo = some m ∧
      render m.state = .ok (.list shown) ∧ shown.map Toilet.name = ["AS6", "COM1"] ∧
      ∃ docs records, Event.query docs ∈ pressesOfTwo ∧
        buildToilets (fun _ _ _ => 0) m.distance docs = .ok records ∧
        shown = sort ((orderAfter pressesOfTwo).compare compareNames)
          (records.filter (wanted pressesOfTwo)) :=
  ⟨_, _, rfl, rfl, rfl, list_shown isComparator_compareNames rfl rfl⟩

end LetItGo.Properties.ListShown
