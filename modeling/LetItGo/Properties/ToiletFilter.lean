import LetItGo.Properties.ToiletLoading

/-!
# Filtering the toilets

The rows and the details page show a record's `facilities`. The filter of `render` tests
`facilities` for the shower and the bidet only; for the other four it reads yaws of a property
`paranoma` that the records built by `getToiletData` do not have, so it throws when it gets there.
`filter_agrees_iff` says in which states it is reached.
-/

set_option autoImplicit false

namespace LetItGo.Properties.ToiletFilter

open LetItGo.Library.Js
open LetItGo.Library.Runs
open LetItGo.Components.FirstScreen
open LetItGo.Properties.ToiletLoading

/-- The toilet has every facility whose box is checked, as the details page shows them. -/
def hasChecked (st : State) (toilet : Toilet) : Bool :=
  FacilityType.all.all fun f => !st.checked f || (isAvail toilet f).truthy

/-- The icons of a row and the details page show the same of the three facilities they share. -/
theorem iconsToShow_eq_isAvail (toilet : Toilet) :
    iconsToShow toilet = ((isAvail toilet .male).truthy, (isAvail toilet .female).truthy,
      (isAvail toilet .handicapped).truthy) := rfl

/-- The toilet passes the two tests that read `facilities`. -/
def passesFacilities (st : State) (toilet : Toilet) : Bool :=
  (!st.showerChecked || toilet.facilities.showerHeads.truthy) &&
    (!st.bidetChecked || toilet.facilities.hose.truthy)

/-- The filter reads no yaw: there is nothing to filter, or no box but those of the shower, the
bidet and the water cooler is checked, and the last only if no toilet passes the other two. -/
def NoYawRead (st : State) : Prop :=
  st.toilets = [] ∨
    (st.maleChecked = false ∧ st.femaleChecked = false ∧ st.wcChecked = false ∧
      (st.waterCoolerChecked = true → ∀ t ∈ st.toilets, passesFacilities st t = false))

/-! ## One toilet -/

theorem filterToilet_throws_of_first_boxes {st : State} {t : Toilet} (ht : t.paranoma = none)
    (h : ¬ (st.maleChecked = false ∧ st.femaleChecked = false ∧ st.wcChecked = false)) :
    ∀ b, filterToilet st t ≠ .ok b := by
  intro b hb
  cases hm : st.maleChecked with
  | true => simp [filterToilet, yawTest, ht, hm, andThen] at hb
  | false =>
    cases hf : st.femaleChecked with
    | true => simp [filterToilet, yawTest, ht, hm, hf, andThen] at hb
    | false =>
      cases hw : st.wcChecked with
      | true => simp [filterToilet, yawTest, ht, hm, hf, hw, andThen] at hb
      | false => exact h ⟨hm, hf, hw⟩

/-- With the first three boxes unchecked, the filter comes to the water cooler's box exactly for the
toilets that pass the tests of the other two. -/
theorem filterToilet_of_first_boxes {st : State} {t : Toilet} (ht : t.paranoma = none)
    (hm : st.maleChecked = false) (hf : st.femaleChecked = false) (hw : st.wcChecked = false) :
    filterToilet st t =
      if passesFacilities st t && st.waterCoolerChecked then
        .error (.typeError "toilet.paranoma.waterCoolerYaw")
      else .ok (passesFacilities st t) := by
  cases hs : (!st.showerChecked || t.facilities.showerHeads.truthy) <;>
    cases hb : (!st.bidetChecked || t.facilities.hose.truthy) <;>
    cases hc : st.waterCoolerChecked <;>
    simp [filterToilet, yawTest, andThen, passesFacilities, ht, hm, hf, hw, hs, hb, hc]

theorem hasChecked_of_first_boxes {st : State} {t : Toilet}
    (hm : st.maleChecked = false) (hf : st.femaleChecked = false) (hw : st.wcChecked = false) :
    hasChecked st t =
      ((!st.waterCoolerChecked || t.facilities.waterCooler.truthy) && passesFacilities st t) := by
  simp [hasChecked, FacilityType.all, State.checked, isAvail, passesFacilities, hm, hf, hw]

/-! ## All toilets -/

/-- The filter returns exactly when it reads no yaw. -/
theorem exists_filter_eq_ok_iff_noYawRead {st : State}
    (hrecords : ∀ t ∈ st.toilets, t.paranoma = none) :
    (∃ toilets, filter (filterToilet st) st.toilets = .ok toilets) ↔ NoYawRead st := by
  rw [exists_filter_eq_ok_iff]
  constructor
  · intro hall
    by_cases hnil : st.toilets = []
    · exact Or.inl hnil
    · -- any one toilet shows which of the first three boxes are checked
      obtain ⟨t, ht⟩ := List.exists_mem_of_ne_nil _ hnil
      have hboxes : st.maleChecked = false ∧ st.femaleChecked = false ∧ st.wcChecked = false := by
        by_contra hboxes
        obtain ⟨b, hb⟩ := hall t ht
        exact filterToilet_throws_of_first_boxes (hrecords t ht) hboxes b hb
      obtain ⟨hm, hf, hw⟩ := hboxes
      refine Or.inr ⟨hm, hf, hw, ?_⟩
      intro hcooler t ht
      obtain ⟨b, hb⟩ := hall t ht
      rw [filterToilet_of_first_boxes (hrecords t ht) hm hf hw, hcooler, Bool.and_true] at hb
      cases hpass : passesFacilities st t with
      | false => rfl
      | true => simp [hpass] at hb
  · rintro (hnil | ⟨hm, hf, hw, hcooler⟩) t ht
    · rw [hnil] at ht
      cases ht
    · refine ⟨passesFacilities st t, ?_⟩
      rw [filterToilet_of_first_boxes (hrecords t ht) hm hf hw]
      cases hc : st.waterCoolerChecked with
      | false => simp
      | true => simp [hcooler hc t ht]

/-- Where the filter returns, it returns the toilets that have every checked facility. -/
theorem filter_eq_hasChecked {st : State} (hrecords : ∀ t ∈ st.toilets, t.paranoma = none)
    (h : NoYawRead st) :
    filter (filterToilet st) st.toilets = .ok (st.toilets.filter (hasChecked st)) := by
  apply filter_eq_ok
  intro t ht
  rcases h with hnil | ⟨hm, hf, hw, hcooler⟩
  · rw [hnil] at ht
    cases ht
  · rw [filterToilet_of_first_boxes (hrecords t ht) hm hf hw, hasChecked_of_first_boxes hm hf hw]
    cases hc : st.waterCoolerChecked with
    | false => simp
    | true => simp [hcooler hc t ht]

/-! ## Along a run -/

section

variable {getDistance : Coords → Coords → ℚ → ℚ} {localeCompare : String → String → ℤ}

theorem paranoma_of_buildToilets {distance : Option Position} {docs : List ToiletDoc} :
    ∀ {toilets : List Toilet}, buildToilets getDistance distance docs = .ok toilets →
      ∀ t ∈ toilets, t.paranoma = none := by
  intro toilets h t ht
  cases distance with
  | none =>
    cases docs with
    | nil =>
      cases h
      cases ht
    | cons doc docs => cases h
  | some p =>
    rw [buildToilets_some] at h
    cases h
    obtain ⟨doc, -, rfl⟩ := List.mem_map.1 ht
    rfl

theorem mem_toilets_press {st : State} {box : Box} {t : Toilet} :
    t ∈ (st.press localeCompare box).toilets ↔ t ∈ st.toilets :=
  (st.press_perm localeCompare box).mem_iff

/-- No record of `state.toilets` has a `paranoma`. -/
theorem paranoma_step {m m' : Mounted} {e : Event} (h : ∀ t ∈ m.state.toilets, t.paranoma = none)
    (hstep : m.step getDistance localeCompare e = some m') :
    ∀ t ∈ m'.state.toilets, t.paranoma = none := by
  intro t ht
  rcases Mounted.step_state_cases hstep with
    ⟨visible, hst⟩ | ⟨docs, toilets, -, hbuild, hst⟩ | ⟨box, -, -, hst⟩
  · rw [hst] at ht
    exact h t ht
  · rw [hst] at ht
    exact paranoma_of_buildToilets hbuild t (mem_sort.1 ht)
  · rw [hst] at ht
    exact h t (mem_toilets_press.1 ht)

/-- In every state reached after the list has loaded, `render` lists exactly the toilets that have
every checked facility, in the order of `state.toilets`, if and only if the filter reads no yaw. -/
theorem filter_agrees_iff {es : List Event} {m : Mounted}
    (hrun : run (Mounted.step getDistance localeCompare) mount es = some m)
    (hloaded : m.state.isLoading = false) :
    render m.state = .ok (.list (m.state.toilets.filter (hasChecked m.state))) ↔
      NoYawRead m.state := by
  have hrecords : ∀ t ∈ m.state.toilets, t.paranoma = none := by
    refine run_invariant (I := fun m : Mounted => ∀ t ∈ m.state.toilets, t.paranoma = none)
      (fun s a t h hst => paranoma_step h hst) ?_ hrun
    intro t ht
    cases ht
  simp only [render, hloaded, Bool.false_eq_true, if_false]
  constructor
  · intro h
    rw [← exists_filter_eq_ok_iff_noYawRead hrecords]
    cases hfilter : filter (filterToilet m.state) m.state.toilets with
    | error e =>
      rw [hfilter] at h
      cases h
    | ok toilets => exact ⟨toilets, rfl⟩
  · intro h
    rw [filter_eq_hasChecked hrecords h]
    rfl

end

/-- With the bidet's box checked, the one toilet, which has a bidet, is listed. -/
theorem filter_agrees_bidet :
    ∃ m, run (Mounted.step (fun _ _ _ => 0) fun _ _ => 0) mount
        [.position ⟨⟨1, 103⟩⟩, .query [oneToilet], .changeState, .press (.filter .bidet)] = some m ∧
      render m.state = .ok (.list (m.state.toilets.filter (hasChecked m.state))) :=
  ⟨_, rfl, (@filter_agrees_iff (fun _ _ _ => 0) (fun _ _ => 0)
    [.position ⟨⟨1, 103⟩⟩, .query [oneToilet], .changeState, .press (.filter .bidet)]
    _ rfl rfl).2 (Or.inr (by decide))⟩

/-- With the box for men checked, the one toilet, which shows the icon for men, is not listed:
`render` throws. -/
theorem filter_throws_male :
    ∃ m, run (Mounted.step (fun _ _ _ => 0) fun _ _ => 0) mount
        [.position ⟨⟨1, 103⟩⟩, .query [oneToilet], .changeState, .press (.filter .male)] = some m ∧
      m.state.isLoading = false ∧
      m.state.toilets.filter (hasChecked m.state) = m.state.toilets ∧
      render m.state = .error (.typeError "toilet.paranoma.maleYaw") :=
  ⟨_, rfl, by decide⟩

end LetItGo.Properties.ToiletFilter
