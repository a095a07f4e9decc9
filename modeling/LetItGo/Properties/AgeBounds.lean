import LetItGo.Properties.AgeOrder

/-!
# How wrong an age label can be

A label of units counts calendar fields, not the time passed. For a review that is not dated after
the clock it is still off by less than one unit, always upwards (`label_within_one_unit`), and it
never goes back while the clock goes on (`label_monotone`).
-/

set_option autoImplicit false

namespace LetItGo.Properties.AgeBounds

open LetItGo.Library.Js
open LetItGo.Library.Calendar
open LetItGo.Components.ReviewItem
open LetItGo.Properties.AgeElapsed
open LetItGo.Properties.AgeOrder

/-- The label is right or one unit too many: of `n` units, `n - 1` have passed and `n + 1` have not,
and 'just now' means less than a minute. -/
def WithinOneUnit (date now : LocalTime) (label : Age) : Prop :=
  (label = .justNow → now.toMillis - date.toMillis < 60000) ∧
    ∀ u n, label = .ago u n →
      1 ≤ n ∧ advance date (n - 1) u ≤ now.toMillis ∧ now.toMillis < advance date (n + 1) u

/-! ## The fields -/

section

variable {date now later : LocalTime}

/-- Above the coarsest field in which a past date is behind, its fields are those of the clock. -/
theorem coarser_eq {u w : AgeUnit} (h : date.toMillis ≤ now.toMillis)
    (hu : CoarsestBehind now date u) (hw : u.rank < w.rank) : w.field date = w.field now := by
  apply le_antisymm
  · exact field_le_of_toMillis_le h fun w' hw' => hu.2 w' (hw.trans hw')
  · exact hu.2 w hw

/-- A past date that is behind in no field has them all in common with the clock. -/
theorem field_eq_of_none_behind (h : date.toMillis ≤ now.toMillis)
    (hnone : ∀ u : AgeUnit, u.field now ≤ u.field date) (u : AgeUnit) :
    u.field date = u.field now :=
  le_antisymm (field_le_of_toMillis_le h fun w _ => hnone w) (hnone u)

theorem month_eq_of_field (h : AgeUnit.field date .month = AgeUnit.field now .month) :
    date.month = now.month := by
  simpa only [AgeUnit.field, Nat.cast_inj] using h

theorem day_eq_of_field (h : AgeUnit.field date .day = AgeUnit.field now .day) :
    date.day = now.day := by
  simpa only [AgeUnit.field, Nat.cast_inj] using h

/-- Before `k` months have passed the months have not come so far. -/
theorem lt_addMonths {k : ℤ} (h : now.monthIndex < date.monthIndex + k) :
    now.toMillis < (date.addMonths k).toMillis := by
  rw [← not_le, LocalTime.toMillis_addMonths_le_iff]
  omega

theorem addMonths_le {k : ℤ} (h : date.monthIndex + k < now.monthIndex) :
    (date.addMonths k).toMillis ≤ now.toMillis :=
  LocalTime.toMillis_addMonths_le_iff.2 (Or.inl h)

theorem addMonths_zero_le (h : date.toMillis ≤ now.toMillis) :
    (date.addMonths 0).toMillis ≤ now.toMillis := by
  rw [LocalTime.toMillis_addMonths_le_iff]
  rw [LocalTime.toMillis_le_iff_monthIndex] at h
  omega

/-- One case for each unit. -/
theorem units_passed {u : AgeUnit} {n : ℤ} (h : date.toMillis ≤ now.toMillis)
    (hu : CoarsestBehind now date u) (hn : n = u.field now - u.field date) :
    advance date (n - 1) u ≤ now.toMillis ∧ now.toMillis < advance date (n + 1) u := by
  have hbehind := hu.1
  have hdate : date.month < 12 := date.date.month_lt
  have hnow : now.month < 12 := now.date.month_lt
  cases u with
  | year =>
    simp only [AgeUnit.field] at hn hbehind
    constructor
    · by_cases hone : n = 1
      · rw [hone]
        exact addMonths_zero_le h
      · exact addMonths_le (by simp only [LocalTime.monthIndex]; omega)
    · exact lt_addMonths (by simp only [LocalTime.monthIndex]; omega)
  | month =>
    have hyear := coarser_eq h hu (w := .year) (by decide)
    simp only [AgeUnit.field] at hn hbehind hyear
    constructor
    · exact addMonths_le (by simp only [LocalTime.monthIndex]; omega)
    · exact lt_addMonths (by simp only [LocalTime.monthIndex]; omega)
  | day =>
    have hyear := coarser_eq h hu (w := .year) (by decide)
    have hmonth := month_eq_of_field (coarser_eq h hu (w := .month) (by decide))
    have hpassed := LocalTime.toMillis_sub hyear hmonth
    have hdateTime := date.timeOfDay_lt
    have hnowTime := now.timeOfDay_lt
    simp only [AgeUnit.field] at hn hbehind
    simp only [advance]
    omega
  | hour =>
    have hyear := coarser_eq h hu (w := .year) (by decide)
    have hmonth := month_eq_of_field (coarser_eq h hu (w := .month) (by decide))
    have hday := day_eq_of_field (coarser_eq h hu (w := .day) (by decide))
    have hpassed := LocalTime.toMillis_sub hyear hmonth
    simp only [AgeUnit.field, LocalTime.hour] at hn hbehind
    simp only [advance]
    omega
  | minute =>
    have hyear := coarser_eq h hu (w := .year) (by decide)
    have hmonth := month_eq_of_field (coarser_eq h hu (w := .month) (by decide))
    have hday := day_eq_of_field (coarser_eq h hu (w := .day) (by decide))
    have hhour := coarser_eq h hu (w := .hour) (by decide)
    have hpassed := LocalTime.toMillis_sub hyear hmonth
    simp only [AgeUnit.field, LocalTime.hour, LocalTime.minute] at hn hbehind hhour
    simp only [advance]
    omega

/-- In the coarsest field in which a date was behind the clock, the clock only goes on, as long as
the coarser fields are still those of the date. -/
theorem field_le_later {u : AgeUnit} (h : date.toMillis ≤ now.toMillis)
    (hu : CoarsestBehind now date u) (hlater : now.toMillis ≤ later.toMillis)
    (hcoarser : ∀ w : AgeUnit, u.rank < w.rank → w.field later ≤ w.field date) :
    u.field now ≤ u.field later := by
  apply field_le_of_toMillis_le hlater
  intro w hw
  rw [← coarser_eq h hu hw]
  exact hcoarser w hw

end

/-! ## The labels -/

/-- In a zone with a fixed offset, for every review date and every reading of the clock that is not
before it. -/
theorem label_within_one_unit (offset : ℤ) {date now : Date} (h : date.time ≤ now.time) :
    WithinOneUnit (fixedZone offset date) (fixedZone offset now)
      (renderHowLongAgo (fixedZone offset) (fun _ => now) date) := by
  have hpast : (fixedZone offset date).toMillis ≤ (fixedZone offset now).toMillis := by
    simp only [fixedZone, LocalTime.toMillis_ofMillis]
    omega
  constructor
  · intro hlabel
    have hfields := field_eq_of_none_behind hpast (label_justNow hlabel)
    have hyear := hfields .year
    have hmonth := month_eq_of_field (hfields .month)
    have hday := day_eq_of_field (hfields .day)
    have hhour := hfields .hour
    have hminute := hfields .minute
    have hpassed := LocalTime.toMillis_sub hyear hmonth
    simp only [AgeUnit.field, LocalTime.hour, LocalTime.minute] at hhour hminute
    omega
  · intro u n hlabel
    obtain ⟨hu, hn⟩ := label_ago hlabel
    have hbehind := hu.1
    exact ⟨by omega, units_passed hpast hu hn⟩

/-- Read again later, the label of a review is not younger. -/
theorem label_monotone (offset : ℤ) {date now later : Date} (h : date.time ≤ now.time)
    (hlater : now.time ≤ later.time) :
    AtMost (renderHowLongAgo (fixedZone offset) (fun _ => now) date)
      (renderHowLongAgo (fixedZone offset) (fun _ => later) date) := by
  have hpast : (fixedZone offset date).toMillis ≤ (fixedZone offset now).toMillis := by
    simp only [fixedZone, LocalTime.toMillis_ofMillis]
    omega
  have hgone : (fixedZone offset now).toMillis ≤ (fixedZone offset later).toMillis := by
    simp only [fixedZone, LocalTime.toMillis_ofMillis]
    omega
  cases hnow : renderHowLongAgo (fixedZone offset) (fun _ => now) date with
  | justNow =>
    cases renderHowLongAgo (fixedZone offset) (fun _ => later) date with
    | justNow => exact Or.inr ⟨rfl, le_rfl⟩
    | ago v m => exact Or.inl v.rank_pos
  | ago u n =>
    obtain ⟨hu, hn⟩ := label_ago hnow
    cases hthen : renderHowLongAgo (fixedZone offset) (fun _ => later) date with
    | justNow =>
      -- the later clock would be at the date in every field, and the earlier one is past it
      have hnone := label_justNow hthen
      have hle := field_le_later hpast hu hgone fun w _ => hnone w
      exact absurd (hle.trans (hnone u)) (not_le.2 hu.1)
    | ago v m =>
      obtain ⟨hv, hm⟩ := label_ago hthen
      rcases Nat.lt_or_ge u.rank v.rank with hlt | hge
      · exact Or.inl hlt
      · have hle := field_le_later hpast hu hgone fun w hw => hv.2 w (lt_of_le_of_lt hge hw)
        rcases Nat.lt_or_ge v.rank u.rank with hlt | hge'
        · exact absurd (hle.trans (hv.2 u hlt)) (not_le.2 hu.1)
        · obtain rfl := AgeUnit.rank_inj (Nat.le_antisymm hge' hge)
          exact Or.inr ⟨rfl, by simp only [count]; omega⟩

/-- A minute after 23:59 on the last day of 2019: a year too many, but not two. -/
theorem label_within_one_unit_newYear :
    WithinOneUnit (fixedZone 0 ⟨1577836740000⟩) (fixedZone 0 ⟨1577836800000⟩)
      (renderHowLongAgo (fixedZone 0) (fun _ => ⟨1577836800000⟩) ⟨1577836740000⟩) :=
  label_within_one_unit 0 (by decide)

/-- From the first minute of 2020 to its second. -/
theorem label_monotone_newYear :
    AtMost (renderHowLongAgo (fixedZone 0) (fun _ => ⟨1577836800000⟩) ⟨1577836740000⟩)
      (renderHowLongAgo (fixedZone 0) (fun _ => ⟨1577836860000⟩) ⟨1577836740000⟩) :=
  label_monotone 0 (by decide) (by decide)

end LetItGo.Properties.AgeBounds
