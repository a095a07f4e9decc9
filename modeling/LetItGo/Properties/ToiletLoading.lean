import LetItGo.Library.Runs
import LetItGo.Components.FirstScreen

/-!
# Loading the toilets

`getToiletData` starts the position request and the query of the `toilets` collection together, and
the query's continuation reads the position from a variable. When the position is answered first,
the screen ends with one record per document, sorted by distance (`loaded_of_position_first`). When
the query is answered first, the variable is still undefined: with a document in the collection the
continuation throws, the screen keeps its activity indicator, and the position that arrives later
changes nothing (`stuck_of_query_first`).
-/

set_option autoImplicit false

namespace LetItGo.Properties.ToiletLoading

open LetItGo.Library.Js
open LetItGo.Library.Runs
open LetItGo.Components.FirstScreen

variable (getDistance : Coords → Coords → ℚ → ℚ) (localeCompare : String → String → ℤ)

/-- The record of a document, with its distance from `p`. -/
def record (p : Position) (doc : ToiletDoc) : Toilet where
  facilities := doc.facilities
  lat := doc.lat
  lon := doc.lon
  name := doc.name
  paranomaUrl := doc.paranomaUrl
  distance := ⌊getDistance p.coords ⟨doc.lat, doc.lon⟩ (1 / 100)⌋
  paranoma := none

/-- The list has loaded: one record per document, nearest first, and no activity indicator. -/
structure LoadedFrom (p : Position) (docs : List ToiletDoc) (st : State) : Prop where
  notLoading : st.isLoading = false
  records : st.toilets.Perm (docs.map (record getDistance p))
  sorted : st.toilets.Pairwise fun a b => a.distance ≤ b.distance

/-- Both orders of the two answers end in one and the same loaded state. -/
def OrderIndependent (p : Position) (docs : List ToiletDoc) : Prop :=
  ∃ st, LoadedFrom getDistance p docs st ∧
    ∀ es, es.Perm [Event.position p, Event.query docs] →
      ∃ m, run (Mounted.step getDistance localeCompare) mount es = some m ∧ m.state = st

variable {getDistance localeCompare}

/-! ## The records built -/

theorem buildToilets_some (p : Position) (docs : List ToiletDoc) :
    buildToilets getDistance (some p) docs = .ok (docs.map (record getDistance p)) := by
  induction docs with
  | nil => rfl
  | cons doc docs ih =>
    simp only [buildToilets, buildToilet, ih, List.map_cons]
    rfl

theorem buildToilets_none {docs : List ToiletDoc} (h : docs ≠ []) :
    buildToilets getDistance none docs = .error (.typeError "distance.coords") := by
  cases docs with
  | nil => exact absurd rfl h
  | cons doc docs => rfl

theorem sort_compareDistance_pairwise (toilets : List Toilet) :
    (sort compareDistance toilets).Pairwise fun a b => a.distance ≤ b.distance := by
  have hcompare : IsComparator compareDistance := isComparator_sub Toilet.distance
  apply (sort_pairwise hcompare toilets).imp
  intro a b h
  simp only [compareDistance] at h
  omega

/-! ## The two orders -/

/-- The state in which a run with the position answered first ends. -/
def loadedState (getDistance : Coords → Coords → ℚ → ℚ) (p : Position) (docs : List ToiletDoc) :
    State :=
  { State.initial with
    toilets := sort compareDistance (docs.map (record getDistance p))
    isLoading := false }

theorem loadedFrom_loadedState (p : Position) (docs : List ToiletDoc) :
    LoadedFrom getDistance p docs (loadedState getDistance p docs) where
  notLoading := rfl
  records := sort_perm _ _
  sorted := sort_compareDistance_pairwise _

theorem loaded_of_position_first (p : Position) (docs : List ToiletDoc) :
    ∃ m, run (Mounted.step getDistance localeCompare) mount [.position p, .query docs] = some m ∧
      m.state = loadedState getDistance p docs := by
  refine ⟨_, rfl, ?_⟩
  simp only [Mounted.queryArrived, buildToilets_some]
  rfl

theorem loaded_of_nil (p : Position) :
    ∃ m, run (Mounted.step getDistance localeCompare) mount [.query [], .position p] = some m ∧
      m.state = loadedState getDistance p [] :=
  ⟨_, rfl, rfl⟩

theorem stuck_of_query_first (p : Position) {docs : List ToiletDoc} (h : docs ≠ []) :
    ∃ m, run (Mounted.step getDistance localeCompare) mount [.query docs, .position p] = some m ∧
      m.state = State.initial ∧ m.alerts = [.loading (.typeError "distance.coords")] := by
  have hquery : Mounted.step getDistance localeCompare mount (.query docs) =
      some { mount with
        queryPending := false
        alerts := [.loading (.typeError "distance.coords")] } := by
    simp only [Mounted.step, Mounted.queryArrived, mount, buildToilets_none h]
    rfl
  exact ⟨_, run_cons_iff.2 ⟨_, hquery, rfl⟩, rfl, rfl⟩

/-- The two answers arrive in one of two orders. -/
theorem perm_pair_cases {p : Position} {docs : List ToiletDoc} {es : List Event}
    (h : es.Perm [.position p, .query docs]) :
    es = [.position p, .query docs] ∨ es = [.query docs, .position p] := by
  have hlen : es.length = 2 := h.length_eq
  obtain ⟨e, e', rfl⟩ := List.length_eq_two.1 hlen
  have he : e ∈ [Event.position p, Event.query docs] := h.subset (by simp)
  simp only [List.mem_cons, List.not_mem_nil, or_false] at he
  rcases he with rfl | rfl
  · have htail := List.perm_cons _ |>.1 h
    rw [List.singleton_perm_singleton.1 htail]
    exact Or.inl rfl
  · have htail := List.perm_cons _ |>.1 (h.trans (List.Perm.swap _ _ _))
    rw [List.singleton_perm_singleton.1 htail]
    exact Or.inr rfl

/-- A run in which both requests succeed loads the list exactly if the position is answered first or
there is no document; so the order of the answers makes no difference exactly if there is none. -/
theorem loading_order_iff (p : Position) (docs : List ToiletDoc) :
    (OrderIndependent getDistance localeCompare p docs ↔ docs = []) ∧
      ∀ es, es.Perm [Event.position p, Event.query docs] →
        ∃ m, run (Mounted.step getDistance localeCompare) mount es = some m ∧
          (LoadedFrom getDistance p docs m.state ↔
            es = [.position p, .query docs] ∨ docs = []) := by
  constructor
  · constructor
    · -- the run with the query first ends with the activity indicator
      rintro ⟨st, hst, hall⟩
      by_contra hdocs
      obtain ⟨m, hm, hmst⟩ := hall [.query docs, .position p] (List.Perm.swap _ _ _)
      obtain ⟨m', hm', hinit, -⟩ := @stuck_of_query_first getDistance localeCompare p docs hdocs
      rw [hm] at hm'
      cases hm'
      have hloading := hst.notLoading
      rw [← hmst, hinit] at hloading
      cases hloading
    · rintro rfl
      refine ⟨loadedState getDistance p [], loadedFrom_loadedState p [], ?_⟩
      intro es hes
      rcases perm_pair_cases hes with rfl | rfl
      · exact loaded_of_position_first p []
      · exact loaded_of_nil p
  · intro es hes
    rcases perm_pair_cases hes with rfl | rfl
    · obtain ⟨m, hm, hst⟩ :=
        @loaded_of_position_first getDistance localeCompare p docs
      refine ⟨m, hm, iff_of_true ?_ (Or.inl rfl)⟩
      rw [hst]
      exact loadedFrom_loadedState p docs
    · by_cases hdocs : docs = []
      · subst hdocs
        obtain ⟨m, hm, hst⟩ :=
          @loaded_of_nil getDistance localeCompare p
        refine ⟨m, hm, iff_of_true ?_ (Or.inr rfl)⟩
        rw [hst]
        exact loadedFrom_loadedState p []
      · obtain ⟨m, hm, hinit, -⟩ :=
          @stuck_of_query_first getDistance localeCompare p docs hdocs
        refine ⟨m, hm, iff_of_false ?_ (by simp [hdocs])⟩
        intro hloaded
        have hloading := hloaded.notLoading
        rw [hinit] at hloading
        cases hloading

/-- A toilet for men and women with a bidet and a water cooler. -/
def oneToilet : ToiletDoc where
  facilities := ⟨.boolean true, .boolean true, .boolean false, .boolean true, .boolean false,
    .boolean true⟩
  lat := 1
  lon := 103
  name := "COM1"
  paranomaUrl := "https://com1.jpg"

/-- One toilet, at the place where the phone is: the query answered first leaves the screen with its
activity indicator, so the two orders do not end alike. -/
theorem loading_order_one_toilet :
    ¬ OrderIndependent (fun _ _ _ => 0) (fun _ _ => 0) ⟨⟨1, 103⟩⟩ [oneToilet] := by
  rintro ⟨st, hst, hall⟩
  obtain ⟨m, hm, hmst⟩ := hall _ (List.Perm.swap _ _ _)
  obtain ⟨m', hm', hinit, -⟩ := stuck_of_query_first ⟨⟨1, 103⟩⟩ (List.cons_ne_nil _ _)
  rw [hm] at hm'
  cases hm'
  have hloading := hst.notLoading
  rw [← hmst, hinit] at hloading
  cases hloading

end LetItGo.Properties.ToiletLoading
