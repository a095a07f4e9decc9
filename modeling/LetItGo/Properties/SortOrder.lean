import Mathlib.Data.String.Basic
import LetItGo.Properties.ToiletLoading

/-!
# The checked sort key

A press of NAME or DISTANCE sorts `state.toilets` and unchecks the other box, but it toggles its own:
a press of the box that is checked leaves both boxes unchecked. Apart from that the list is always
sorted by the key that is checked, and no toilet is lost or doubled.
-/

set_option autoImplicit false

namespace LetItGo.Properties.SortOrder

open LetItGo.Library.Js
open LetItGo.Library.Runs
open LetItGo.Components.FirstScreen
open LetItGo.Properties.ToiletLoading (loadedState oneToilet)

variable (getDistance : Coords → Coords → ℚ → ℚ) (localeCompare : String → String → ℤ)

/-- The list is in the order of the checked box, if one is checked. -/
structure OrderedBy (st : State) (toilets : List Toilet) : Prop where
  name : st.sortNameChecked = true →
    toilets.Pairwise fun a b => compareToilets localeCompare a b ≤ 0
  distance : st.sortDistanceChecked = true → toilets.Pairwise fun a b => compareDistance a b ≤ 0

/-- Exactly one box is checked, the displayed list is in its order, and the toilets are those
loaded. -/
structure KeyShown (loaded : List Toilet) (m : Mounted) : Prop where
  one : m.state.sortNameChecked ≠ m.state.sortDistanceChecked
  displayed : ∀ toilets, render m.state = .ok (.list toilets) →
    OrderedBy localeCompare m.state toilets
  perm : m.state.toilets.Perm loaded

/-- The condition on a step: a sort box that is pressed is not the one that is checked. -/
def otherKey (m : Mounted) : Event → Bool
  | .press .name => !m.state.sortNameChecked
  | .press .distance => !m.state.sortDistanceChecked
  | _ => true

/-! ## What holds after loading in any case -/

/-- The query is answered, and the list is in the order of the checked box. -/
structure Sorted (loaded : List Toilet) (m : Mounted) : Prop where
  answered : m.queryPending = false
  ordered : OrderedBy localeCompare m.state m.state.toilets
  perm : m.state.toilets.Perm loaded

variable {getDistance localeCompare}

theorem isComparator_compareToilets (h : IsComparator localeCompare) :
    IsComparator (compareToilets localeCompare) :=
  ⟨fun a b => h.total a.name b.name, fun a b c => h.trans a.name b.name c.name⟩

theorem OrderedBy.sublist {st : State} {toilets toilets' : List Toilet}
    (h : OrderedBy localeCompare st toilets) (hsub : toilets'.Sublist toilets) :
    OrderedBy localeCompare st toilets' :=
  ⟨fun hname => (h.name hname).sublist hsub, fun hdistance => (h.distance hdistance).sublist hsub⟩

/-- What `render` lists is in the order of `state.toilets`. -/
theorem sublist_of_render {st : State} {toilets : List Toilet}
    (h : render st = .ok (.list toilets)) : toilets.Sublist st.toilets := by
  unfold render at h
  split at h
  · cases h
  · cases hfilter : filter (filterToilet st) st.toilets with
    | error e =>
      rw [hfilter] at h
      cases h
    | ok toilets' =>
      rw [hfilter] at h
      cases h
      exact filter_sublist hfilter

theorem orderedBy_press (hlocale : IsComparator localeCompare) {st : State}
    (h : OrderedBy localeCompare st st.toilets) (box : Box) :
    OrderedBy localeCompare (st.press localeCompare box) (st.press localeCompare box).toilets := by
  cases box with
  | name =>
    exact ⟨fun _ => sort_pairwise (isComparator_compareToilets hlocale) _, (by simp [State.press])⟩
  | distance =>
    exact ⟨by simp [State.press], fun _ => sort_pairwise (isComparator_sub Toilet.distance) _⟩
  | filter facility => cases facility <;> exact ⟨h.name, h.distance⟩

/-- A query that is pending after an event was pending before, and the event is not its answer. -/
theorem queryPending_of_step {m m' : Mounted} {e : Event}
    (h : m.step getDistance localeCompare e = some m') (hpending : m'.queryPending = true) :
    m.queryPending = true ∧ ∀ docs, e ≠ .query docs := by
  cases e with
  | query docs =>
    obtain ⟨-, heq⟩ := Option.ite_none_right_eq_some.1 h
    cases heq
    unfold Mounted.queryArrived at hpending
    split at hpending <;> cases hpending
  | queryError reason =>
    obtain ⟨-, heq⟩ := Option.ite_none_right_eq_some.1 h
    cases heq
    cases hpending
  | changeState =>
    cases h
    exact ⟨hpending, by simp⟩
  | position p =>
    obtain ⟨-, heq⟩ := Option.ite_none_right_eq_some.1 h
    cases heq
    exact ⟨hpending, by simp⟩
  | positionError code message =>
    obtain ⟨-, heq⟩ := Option.ite_none_right_eq_some.1 h
    cases heq
    exact ⟨hpending, by simp⟩
  | backdropPress =>
    obtain ⟨-, heq⟩ := Option.ite_none_right_eq_some.1 h
    cases heq
    exact ⟨hpending, by simp⟩
  | press box =>
    obtain ⟨-, heq⟩ := Option.ite_none_right_eq_some.1 h
    cases heq
    exact ⟨hpending, by simp⟩

/-- Once the query is answered, an event shows or hides the overlay or presses a box. -/
theorem step_of_answered {m m' : Mounted} {e : Event} (hanswered : m.queryPending = false)
    (h : m.step getDistance localeCompare e = some m') :
    m'.queryPending = false ∧
      (((∀ box, e ≠ .press box) ∧ ∃ visible, m'.state = { m.state with isVisible := visible }) ∨
        ∃ box, e = .press box ∧ m'.state = m.state.press localeCompare box) := by
  constructor
  · rw [Bool.eq_false_iff]
    intro hpending
    rw [(queryPending_of_step h hpending).1] at hanswered
    cases hanswered
  · by_cases hpress : ∃ box, e = .press box
    · obtain ⟨box, rfl⟩ := hpress
      obtain ⟨-, heq⟩ := Option.ite_none_right_eq_some.1 h
      cases heq
      exact Or.inr ⟨box, rfl, rfl⟩
    · rcases Mounted.step_state_cases h with hvisible | ⟨docs, toilets, rfl, -⟩ | ⟨box, he, -⟩
      · exact Or.inl ⟨fun box he => hpress ⟨box, he⟩, hvisible⟩
      · simp [Mounted.step, hanswered] at h
      · exact absurd ⟨box, he⟩ hpress

theorem sorted_step (hlocale : IsComparator localeCompare) {loaded : List Toilet} (m : Mounted)
    (e : Event) (m' : Mounted) (h : Sorted localeCompare loaded m)
    (hstep : m.step getDistance localeCompare e = some m') : Sorted localeCompare loaded m' := by
  obtain ⟨hanswered, ⟨-, visible, hstate⟩ | ⟨box, -, hstate⟩⟩ := step_of_answered h.answered hstep
  · refine ⟨hanswered, ?_, ?_⟩ <;> rw [hstate]
    · exact ⟨h.ordered.name, h.ordered.distance⟩
    · exact h.perm
  · refine ⟨hanswered, ?_, ?_⟩ <;> rw [hstate]
    · exact orderedBy_press hlocale h.ordered box
    · exact (m.state.press_perm localeCompare box).trans h.perm

/-- For a list that is in the order of the checked box, all depends on there being exactly one. -/
theorem keyShown_iff {loaded : List Toilet} {m : Mounted} (h : Sorted localeCompare loaded m) :
    KeyShown localeCompare loaded m ↔
      m.state.sortNameChecked ≠ m.state.sortDistanceChecked := by
  constructor
  · exact KeyShown.one
  · intro hone
    exact ⟨hone, fun toilets hrender => h.ordered.sublist (sublist_of_render hrender), h.perm⟩

/-- From a state with one box checked, a step leads to another such state exactly if it does not
press that box. -/
theorem keyShown_step {m m' : Mounted} {e : Event}
    (hone : m.state.sortNameChecked ≠ m.state.sortDistanceChecked)
    (hanswered : m.queryPending = false) (hstep : m.step getDistance localeCompare e = some m') :
    m'.state.sortNameChecked ≠ m'.state.sortDistanceChecked ↔ otherKey m e = true := by
  obtain ⟨-, ⟨hno, visible, hstate⟩ | ⟨box, rfl, hstate⟩⟩ := step_of_answered hanswered hstep
  · have hother : otherKey m e = true := by
      cases e with
      | press box => exact absurd rfl (hno box)
      | _ => rfl
    rw [hstate]
    exact iff_of_true hone hother
  · rw [hstate]
    cases box with
    | name => simp [State.press, otherKey]
    | distance => simp [State.press, otherKey]
    | filter facility =>
      have hsame : (m.state.press localeCompare (.filter facility)).sortNameChecked ≠
          (m.state.press localeCompare (.filter facility)).sortDistanceChecked := by
        cases facility <;> exact hone
      exact iff_of_true hsame rfl

/-! ## The loading -/

/-- Until the query is answered the list is loading, with the distance box checked. -/
theorem loading_step (m : Mounted) (e : Event) (m' : Mounted)
    (h : m.queryPending = true → m.state.isLoading = true ∧ m.state.sortNameChecked = false ∧
      m.state.sortDistanceChecked = true)
    (hstep : m.step getDistance localeCompare e = some m') (hpending : m'.queryPending = true) :
    m'.state.isLoading = true ∧ m'.state.sortNameChecked = false ∧
      m'.state.sortDistanceChecked = true := by
  obtain ⟨hbefore, hno⟩ := queryPending_of_step hstep hpending
  rcases Mounted.step_state_cases hstep with ⟨visible, hstate⟩ | ⟨docs, -, he, -⟩ |
    ⟨box, -, hloaded, -⟩
  · rw [hstate]
    exact h hbefore
  · exact absurd he (hno docs)
  · rw [(h hbefore).1] at hloaded
    cases hloaded

/-- The list that has loaded is in the order of the distance box, the one checked. -/
theorem sorted_loaded {pre : List Event} {docs : List ToiletDoc} {m m' : Mounted}
    (hpre : run (Mounted.step getDistance localeCompare) mount pre = some m)
    (hload : m.step getDistance localeCompare (.query docs) = some m')
    (hloaded : m'.state.isLoading = false) :
    Sorted localeCompare m'.state.toilets m' ∧ m'.state.sortNameChecked = false ∧
      m'.state.sortDistanceChecked = true := by
  obtain ⟨hpending, heq⟩ := Option.ite_none_right_eq_some.1 hload
  obtain ⟨hloading, hname, hdistance⟩ :=
    run_invariant loading_step (fun _ => ⟨rfl, rfl, rfl⟩) hpre hpending
  cases heq
  unfold Mounted.queryArrived at hloaded ⊢
  split
  · next hbuild =>
    simp only [hbuild] at hloaded
    rw [hloading] at hloaded
    cases hloaded
  · refine ⟨⟨rfl, ⟨?_, fun _ => ?_⟩, List.Perm.refl _⟩, hname, hdistance⟩
    · intro hchecked
      rw [hname] at hchecked
      cases hchecked
    · exact sort_pairwise (isComparator_sub Toilet.distance) _

/-- For every run that loads a list and every sequence of events after that: in all its states
exactly one box is checked, the list shown is in its order and holds the toilets loaded, if and only
if no sort box is pressed while it is checked. -/
theorem everyState_keyShown_iff (hlocale : IsComparator localeCompare) {pre es : List Event}
    {docs : List ToiletDoc} {m m' m'' : Mounted}
    (hpre : run (Mounted.step getDistance localeCompare) mount pre = some m)
    (hload : m.step getDistance localeCompare (.query docs) = some m')
    (hloaded : m'.state.isLoading = false)
    (hrun : run (Mounted.step getDistance localeCompare) m' es = some m'') :
    EveryState (Mounted.step getDistance localeCompare)
        (KeyShown localeCompare m'.state.toilets) m' es ↔
      EveryStep (Mounted.step getDistance localeCompare) (fun m e => otherKey m e = true) m' es := by
  obtain ⟨hsorted, hname, hdistance⟩ := sorted_loaded hpre hload hloaded
  apply everyState_iff_everyStep (sorted_step hlocale) _ hsorted _ hrun
  · intro n e n' hn hkey hstep
    rw [keyShown_iff (sorted_step hlocale n e n' hn hstep)]
    exact keyShown_step hkey.one hn.answered hstep
  · rw [keyShown_iff hsorted, hname, hdistance]
    exact Bool.false_ne_true

/-- Names compared by their characters. -/
def compareNames (a b : String) : ℤ := if a < b then -1 else if b < a then 1 else 0

theorem compareNames_nonpos {a b : String} : compareNames a b ≤ 0 ↔ a ≤ b := by
  unfold compareNames
  split
  · next h => exact iff_of_true (by decide) h.le
  · split
    · next h => exact iff_of_false (by decide) h.not_ge
    · next h => exact iff_of_true le_rfl (not_lt.1 h)

theorem isComparator_compareNames : IsComparator compareNames where
  total a b := by
    rw [compareNames_nonpos, compareNames_nonpos]
    exact le_total a b
  trans a b c := by
    rw [compareNames_nonpos, compareNames_nonpos, compareNames_nonpos]
    exact le_trans

/-- The screen with two toilets loaded. -/
def twoLoaded : Mounted where
  distance := some ⟨⟨1, 103⟩⟩
  positionPending := false
  queryPending := false
  state := loadedState (fun _ _ _ => 0) ⟨⟨1, 103⟩⟩ [oneToilet, { oneToilet with name := "AS6" }]
  alerts := []

/-- NAME, a filter box, DISTANCE and NAME again. -/
theorem keyShown_twoLoaded :
    EveryState (Mounted.step (fun _ _ _ => 0) compareNames)
      (KeyShown compareNames twoLoaded.state.toilets) twoLoaded
      [.changeState, .press .name, .press (.filter .bidet), .press .distance, .press .name] :=
  (@everyState_keyShown_iff (fun _ _ _ => 0) compareNames isComparator_compareNames
    [.position ⟨⟨1, 103⟩⟩] _ [oneToilet, { oneToilet with name := "AS6" }] _ twoLoaded _ rfl rfl rfl
    rfl).2 (by decide)

/-- NAME, pressed twice after the two toilets have loaded, leaves neither box checked. -/
theorem noKey_name_twice :
    ∃ m, run (Mounted.step (fun _ _ _ => 0) compareNames) mount
        [.position ⟨⟨1, 103⟩⟩, .query [oneToilet, { oneToilet with name := "AS6" }], .changeState,
          .press .name, .press .name] = some m ∧
      m.state.sortNameChecked = false ∧ m.state.sortDistanceChecked = false ∧
      ¬ KeyShown compareNames twoLoaded.state.toilets m :=
  ⟨_, rfl, rfl, rfl, fun h => h.one rfl⟩

end LetItGo.Properties.SortOrder
