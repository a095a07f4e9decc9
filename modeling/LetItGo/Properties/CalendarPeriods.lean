import LetItGo.Components.ReviewItem

/-!
# Calendar periods

The minutes, hours, days, months and years of the calendar, numbered. Instants are ordered as their
periods are; the period of a unit fixes its field and those of the coarser units.
-/

set_option autoImplicit false

namespace LetItGo.Properties.CalendarPeriods

open LetItGo.Library.Calendar
open LetItGo.Components.ReviewItem (AgeUnit)

/-- The number of the minute, hour, day, month or year of an instant. -/
def period (t : LocalTime) : AgeUnit → ℤ
  | .minute => t.toMillis / 60000
  | .hour => t.toMillis / 3600000
  | .day => t.date.dayNumber
  | .month => t.monthIndex
  | .year => t.year

section

variable {s t : LocalTime}

theorem period_minute (t : LocalTime) : period t .minute = period t .hour * 60 + t.minute := by
  have hday := t.timeOfDay_lt
  simp only [period, LocalTime.toMillis, LocalTime.minute]
  omega

theorem period_hour (t : LocalTime) : period t .hour = period t .day * 24 + t.hour := by
  have hday := t.timeOfDay_lt
  simp only [period, LocalTime.toMillis, LocalTime.hour]
  omega

/-- Days are ordered by month and day of the month. -/
theorem period_day_lt_iff : period s .day < period t .day ↔ period s .month < period t .month ∨
    (period s .month = period t .month ∧ s.day < t.day) := by
  have hs := s.month_lt
  have ht := t.month_lt
  have hlt := CalendarDate.dayNumber_lt_iff (a := s.date) (b := t.date)
  simp only [period, LocalTime.monthIndex, LocalTime.year, LocalTime.month, LocalTime.day] at *
  rw [hlt]
  omega

/-- An earlier period of a coarse unit is earlier in the finer ones. -/
theorem period_le_coarser {u w : AgeUnit} (h : period s u ≤ period t u) (hw : u.rank ≤ w.rank) :
    period s w ≤ period t w := by
  have toHour : period s .minute ≤ period t .minute → period s .hour ≤ period t .hour := by
    intro hle
    have hs := s.minute_lt
    have ht := t.minute_lt
    rw [period_minute, period_minute] at hle
    omega
  have toDay : period s .hour ≤ period t .hour → period s .day ≤ period t .day := by
    intro hle
    have hs := s.hour_lt
    have ht := t.hour_lt
    rw [period_hour, period_hour] at hle
    omega
  have toMonth : period s .day ≤ period t .day → period s .month ≤ period t .month := by
    intro hle
    by_contra hlt
    exact absurd (period_day_lt_iff.2 (Or.inl (not_le.1 hlt))) (not_lt.2 hle)
  have toYear : period s .month ≤ period t .month → period s .year ≤ period t .year := by
    intro hle
    have hs := s.month_lt
    have ht := t.month_lt
    simp only [period, LocalTime.monthIndex] at hle ⊢
    omega
  cases u <;> cases w <;> first
    | exact absurd hw (by decide)
    | exact h
    | exact toHour h
    | exact toDay h
    | exact toMonth h
    | exact toYear h
    | exact toDay (toHour h)
    | exact toMonth (toDay h)
    | exact toYear (toMonth h)
    | exact toMonth (toDay (toHour h))
    | exact toYear (toMonth (toDay h))
    | exact toYear (toMonth (toDay (toHour h)))

theorem period_eq_coarser {u w : AgeUnit} (h : period s u = period t u) (hw : u.rank ≤ w.rank) :
    period s w = period t w :=
  le_antisymm (period_le_coarser h.le hw) (period_le_coarser h.ge hw)

/-- In the same period of a unit, two instants have the same field of the unit. -/
theorem field_eq_of_period_eq {u : AgeUnit} (h : period s u = period t u) :
    u.field s = u.field t := by
  cases u with
  | minute =>
    have hhour := period_eq_coarser h (w := .hour) (by decide)
    rw [period_minute, period_minute] at h
    simp only [AgeUnit.field]
    omega
  | hour =>
    have hday := period_eq_coarser h (w := .day) (by decide)
    rw [period_hour, period_hour] at h
    simp only [AgeUnit.field]
    omega
  | day =>
    have hfields := CalendarDate.dayNumber_eq_iff.1 h
    exact congrArg Nat.cast hfields.2.2
  | month =>
    have hyear := period_eq_coarser h (w := .year) (by decide)
    simp only [period, LocalTime.monthIndex] at h hyear
    simp only [AgeUnit.field]
    omega
  | year => exact h

/-- Periods are ordered as their coarser periods and then as their fields are. -/
theorem period_le {u : AgeUnit}
    (hcoarser : ∀ w : AgeUnit, u.rank < w.rank → period s w ≤ period t w)
    (hfield : (∀ w : AgeUnit, u.rank < w.rank → period s w = period t w) →
      u.field s ≤ u.field t) : period s u ≤ period t u := by
  cases u with
  | minute =>
    have hhour := hcoarser .hour (by decide)
    rcases hhour.lt_or_eq with hlt | heq
    · have hs := s.minute_lt
      rw [period_minute, period_minute]
      omega
    · have hle := hfield fun w hw => period_eq_coarser heq hw
      simp only [AgeUnit.field] at hle
      rw [period_minute, period_minute]
      omega
  | hour =>
    have hday := hcoarser .day (by decide)
    rcases hday.lt_or_eq with hlt | heq
    · have hs := s.hour_lt
      rw [period_hour, period_hour]
      omega
    · have hle := hfield fun w hw => period_eq_coarser heq hw
      simp only [AgeUnit.field] at hle
      rw [period_hour, period_hour]
      omega
  | day =>
    have hmonth := hcoarser .month (by decide)
    rcases hmonth.lt_or_eq with hlt | heq
    · exact (period_day_lt_iff.2 (Or.inl hlt)).le
    · have hle := hfield fun w hw => period_eq_coarser heq hw
      simp only [AgeUnit.field, Nat.cast_le] at hle
      by_contra hlt
      rw [not_le, period_day_lt_iff] at hlt
      omega
  | month =>
    have hyear := hcoarser .year (by decide)
    rcases hyear.lt_or_eq with hlt | heq
    · have hs := s.month_lt
      simp only [period, LocalTime.monthIndex] at hlt ⊢
      omega
    · have hle := hfield fun w hw => period_eq_coarser heq hw
      simp only [AgeUnit.field] at hle
      simp only [period, LocalTime.monthIndex] at heq ⊢
      omega
  | year => exact hfield fun w hw => absurd hw (by cases w <;> decide)

/-- The later of two instants is not in an earlier period. -/
theorem period_le_of_toMillis_le (h : s.toMillis ≤ t.toMillis) (u : AgeUnit) :
    period s u ≤ period t u := by
  cases u with
  | minute => exact Int.ediv_le_ediv (by decide) h
  | hour => exact Int.ediv_le_ediv (by decide) h
  | day =>
    have hs := s.timeOfDay_lt
    have ht := t.timeOfDay_lt
    simp only [LocalTime.toMillis, period] at h ⊢
    omega
  | month =>
    rw [LocalTime.toMillis_le_iff_monthIndex] at h
    simp only [period]
    omega
  | year =>
    rw [LocalTime.toMillis_le_iff] at h
    simp only [period]
    omega

end

/-! ## From coarse to fine -/

/-- Induction over the units, coarsest first. -/
theorem of_coarser {p : AgeUnit → Prop} (h : ∀ u : AgeUnit, (∀ w, u.rank < w.rank → p w) → p u)
    (u : AgeUnit) : p u := by
  induction hk : 5 - u.rank using Nat.strong_induction_on generalizing u with
  | _ k ih =>
    apply h u
    intro w hw
    have hle : w.rank ≤ 5 := by cases w <;> decide
    exact ih (5 - w.rank) (by omega) w rfl

theorem period_le_of_fields {s t : LocalTime} {u : AgeUnit}
    (h : ∀ w : AgeUnit, u.rank ≤ w.rank → w.field s ≤ w.field t) : period s u ≤ period t u := by
  revert h
  induction u using of_coarser with
  | h u ih =>
    intro h
    apply period_le
    · intro w hw
      exact ih w hw fun x hx => h x (hw.le.trans hx)
    · intro _
      exact h u le_rfl

end LetItGo.Properties.CalendarPeriods
