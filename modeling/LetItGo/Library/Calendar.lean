import Mathlib.Data.Nat.Find
import Mathlib.Data.Int.Order.Basic
import Mathlib.Tactic.Common

/-!
# The proleptic Gregorian calendar

Days, months counted from 0 and years of every sign, with the time of day in milliseconds. A
`LocalTime` is read off a number of milliseconds (`ofMillis`) and put back (`toMillis`), and instants
are ordered as their fields are, coarsest first (`toMillis_le_iff`). `addMonths` keeps the day of
the month, or takes the last one of a shorter month.
-/

set_option autoImplicit false

namespace LetItGo.Library.Calendar

def isLeap (y : ℤ) : Bool := y % 4 = 0 && (y % 100 ≠ 0 || y % 400 = 0)

/-- The length of a month, January being month 0. -/
def daysInMonth (y : ℤ) : ℕ → ℕ
  | 1 => if isLeap y then 29 else 28
  | 3 => 30
  | 5 => 30
  | 8 => 30
  | 10 => 30
  | _ => 31

/-- The days of the year before a month. -/
def daysBeforeMonth (y : ℤ) : ℕ → ℕ
  | 0 => 0
  | m + 1 => daysBeforeMonth y m + daysInMonth y m

/-- The days before a year, from the first of January of year 1. -/
def daysBeforeYear (y : ℤ) : ℤ := 365 * (y - 1) + (y - 1) / 4 - (y - 1) / 100 + (y - 1) / 400

/-- A day of the calendar. -/
structure CalendarDate where
  year : ℤ
  month : ℕ
  day : ℕ
  month_lt : month < 12
  one_le_day : 1 ≤ day
  day_le : day ≤ daysInMonth year month

/-- A day and the milliseconds since its midnight. -/
structure LocalTime where
  date : CalendarDate
  timeOfDay : ℕ
  timeOfDay_lt : timeOfDay < 86400000

/-! ## Years and months -/

theorem one_le_daysInMonth (y : ℤ) (m : ℕ) : 1 ≤ daysInMonth y m := by
  unfold daysInMonth
  split <;> (try split) <;> decide

theorem daysBeforeMonth_twelve (y : ℤ) :
    daysBeforeMonth y 12 = if isLeap y then 366 else 365 := by
  have hsum : daysBeforeMonth y 12 =
      0 + 31 + daysInMonth y 1 + 31 + 30 + 31 + 30 + 31 + 31 + 30 + 31 + 30 + 31 := rfl
  rw [hsum, daysInMonth]
  split <;> rfl

theorem daysBeforeMonth_le {y : ℤ} {m m' : ℕ} (h : m ≤ m') :
    daysBeforeMonth y m ≤ daysBeforeMonth y m' := by
  induction m', h using Nat.le_induction with
  | base => exact Nat.le_refl _
  | succ m' _ ih => exact Nat.le_trans ih (Nat.le_add_right _ _)

theorem daysBeforeYear_succ (y : ℤ) :
    daysBeforeYear (y + 1) = daysBeforeYear y + daysBeforeMonth y 12 := by
  rw [daysBeforeMonth_twelve]
  simp only [daysBeforeYear, isLeap, Bool.and_eq_true, Bool.or_eq_true, decide_eq_true_eq]
  split <;> omega

theorem daysBeforeYear_le {y y' : ℤ} (h : y ≤ y') : daysBeforeYear y ≤ daysBeforeYear y' := by
  simp only [daysBeforeYear]
  omega

/-! ## Days by number -/

namespace CalendarDate

/-- The number of the day, the first of January 1970 being day 0. -/
def dayNumber (c : CalendarDate) : ℤ :=
  daysBeforeYear c.year + daysBeforeMonth c.year c.month + c.day - 719163

theorem day_le_month (c : CalendarDate) :
    daysBeforeMonth c.year c.month + c.day ≤ daysBeforeMonth c.year (c.month + 1) :=
  Nat.add_le_add_left c.day_le _

theorem dayNumber_lt_of_year_lt {a b : CalendarDate} (h : a.year < b.year) :
    a.dayNumber < b.dayNumber := by
  have hyear : daysBeforeYear a.year + daysBeforeMonth a.year 12 ≤ daysBeforeYear b.year := by
    rw [← daysBeforeYear_succ]
    exact daysBeforeYear_le h
  have hday := a.day_le_month
  have hmonth : daysBeforeMonth a.year (a.month + 1) ≤ daysBeforeMonth a.year 12 :=
    daysBeforeMonth_le a.month_lt
  have hone := b.one_le_day
  simp only [dayNumber]
  omega

theorem dayNumber_lt_of_month_lt {a b : CalendarDate} (hyear : a.year = b.year)
    (h : a.month < b.month) : a.dayNumber < b.dayNumber := by
  have hday := a.day_le_month
  have hmonth : daysBeforeMonth a.year (a.month + 1) ≤ daysBeforeMonth a.year b.month :=
    daysBeforeMonth_le h
  have hone := b.one_le_day
  simp only [dayNumber, ← hyear]
  omega

/-- Days are ordered as their fields are. -/
theorem dayNumber_lt_iff {a b : CalendarDate} :
    a.dayNumber < b.dayNumber ↔ a.year < b.year ∨
      (a.year = b.year ∧ (a.month < b.month ∨ (a.month = b.month ∧ a.day < b.day))) := by
  rcases lt_trichotomy a.year b.year with hyear | hyear | hyear
  · exact iff_of_true (dayNumber_lt_of_year_lt hyear) (Or.inl hyear)
  · rcases lt_trichotomy a.month b.month with hmonth | hmonth | hmonth
    · exact iff_of_true (dayNumber_lt_of_month_lt hyear hmonth) (Or.inr ⟨hyear, Or.inl hmonth⟩)
    · simp only [dayNumber, hyear, hmonth, lt_irrefl, true_and, false_or]
      omega
    · have hlt := dayNumber_lt_of_month_lt hyear.symm hmonth
      omega
  · have hlt := dayNumber_lt_of_year_lt hyear
    omega

theorem dayNumber_eq_iff {a b : CalendarDate} :
    a.dayNumber = b.dayNumber ↔ a.year = b.year ∧ a.month = b.month ∧ a.day = b.day := by
  constructor
  · intro h
    have hab : ¬ a.dayNumber < b.dayNumber := by omega
    have hba : ¬ b.dayNumber < a.dayNumber := by omega
    rw [dayNumber_lt_iff] at hab hba
    omega
  · rintro ⟨hyear, hmonth, hday⟩
    simp only [dayNumber, hyear, hmonth, hday]

/-- Within a month, days are as far apart as their numbers. -/
theorem dayNumber_sub {a b : CalendarDate} (hyear : a.year = b.year) (hmonth : a.month = b.month) :
    b.dayNumber - a.dayNumber = b.day - a.day := by
  simp only [dayNumber, hyear, hmonth]
  omega

/-- The number of the latest day `v` of a month, up to the month of a day. Before a month that is too
short for it comes one of 31 days. -/
def latestDay (c : CalendarDate) (v : ℤ) : ℤ :=
  c.dayNumber - c.day + v - if v ≤ daysInMonth c.year c.month then 0 else 31

end CalendarDate

/-! ## The day with a number -/

/-- About the year of a day that is counted from the first of January of year 1, by the mean length
of a year. -/
def nearYear (n : ℤ) : ℤ := 400 * n / 146097 + 1

/-- The year itself. -/
def yearOf (n : ℤ) : ℤ :=
  if n < daysBeforeYear (nearYear n) then nearYear n - 1
  else if n < daysBeforeYear (nearYear n + 1) then nearYear n
  else nearYear n + 1

theorem yearOf_spec (n : ℤ) :
    daysBeforeYear (yearOf n) ≤ n ∧ n < daysBeforeYear (yearOf n + 1) := by
  -- the mean is off by less than a year
  have hlow : daysBeforeYear (nearYear n - 1) ≤ n := by
    simp only [daysBeforeYear, nearYear]
    omega
  have hhigh : n < daysBeforeYear (nearYear n + 1 + 1) := by
    simp only [daysBeforeYear, nearYear]
    omega
  unfold yearOf
  split
  · next h => exact ⟨hlow, by rwa [Int.sub_add_cancel]⟩
  · next h =>
    split
    · next h' => exact ⟨not_lt.1 h, h'⟩
    · next h' => exact ⟨not_lt.1 h', hhigh⟩

/-- The month of the day number `r` of a year. -/
def monthOf (y : ℤ) (r : ℕ) : ℕ := Nat.findGreatest (fun m => daysBeforeMonth y m ≤ r) 11

theorem monthOf_lt (y : ℤ) (r : ℕ) : monthOf y r < 12 :=
  Nat.lt_succ_of_le (Nat.findGreatest_le 11)

theorem monthOf_spec {y : ℤ} {r : ℕ} (h : r < daysBeforeMonth y 12) :
    daysBeforeMonth y (monthOf y r) ≤ r ∧ r < daysBeforeMonth y (monthOf y r + 1) := by
  constructor
  · exact Nat.findGreatest_spec (P := fun m => daysBeforeMonth y m ≤ r) (Nat.zero_le 11)
      (Nat.zero_le r)
  · by_cases hlast : monthOf y r = 11
    · rw [hlast]
      exact h
    · have hlt := monthOf_lt y r
      have hle : monthOf y r + 1 ≤ 11 := by omega
      have hnot : ¬ daysBeforeMonth y (monthOf y r + 1) ≤ r :=
        Nat.findGreatest_is_greatest (P := fun m => daysBeforeMonth y m ≤ r) (Nat.lt_succ_self _) hle
      omega

/-- The days of the year before the day with a number. -/
def dayOfYear (n : ℤ) : ℕ := (n + 719162 - daysBeforeYear (yearOf (n + 719162))).toNat

theorem dayOfYear_lt (n : ℤ) : dayOfYear n < daysBeforeMonth (yearOf (n + 719162)) 12 := by
  have hspec := yearOf_spec (n + 719162)
  rw [daysBeforeYear_succ] at hspec
  unfold dayOfYear
  omega

/-- The day with a number. -/
def CalendarDate.ofDayNumber (n : ℤ) : CalendarDate where
  year := yearOf (n + 719162)
  month := monthOf (yearOf (n + 719162)) (dayOfYear n)
  day := dayOfYear n -
    daysBeforeMonth (yearOf (n + 719162)) (monthOf (yearOf (n + 719162)) (dayOfYear n)) + 1
  month_lt := monthOf_lt _ _
  one_le_day := Nat.le_add_left 1 _
  day_le := by
    have hspec := monthOf_spec (dayOfYear_lt n)
    simp only [daysBeforeMonth] at hspec
    omega

theorem CalendarDate.dayNumber_ofDayNumber (n : ℤ) : (ofDayNumber n).dayNumber = n := by
  have hyear := yearOf_spec (n + 719162)
  have hmonth := monthOf_spec (dayOfYear_lt n)
  have hday : (dayOfYear n : ℤ) = n + 719162 - daysBeforeYear (yearOf (n + 719162)) :=
    Int.toNat_of_nonneg (by omega)
  simp only [dayNumber, ofDayNumber]
  omega

/-! ## Instants -/

namespace LocalTime

def year (t : LocalTime) : ℤ := t.date.year

def month (t : LocalTime) : ℕ := t.date.month

def day (t : LocalTime) : ℕ := t.date.day

def hour (t : LocalTime) : ℕ := t.timeOfDay / 3600000

def minute (t : LocalTime) : ℕ := t.timeOfDay / 60000 % 60

theorem month_lt (t : LocalTime) : t.month < 12 := t.date.month_lt

theorem hour_lt (t : LocalTime) : t.hour < 24 := by
  have hday := t.timeOfDay_lt
  simp only [hour]
  omega

theorem minute_lt (t : LocalTime) : t.minute < 60 := Nat.mod_lt _ (by decide)

/-- The milliseconds since the start of 1970. -/
def toMillis (t : LocalTime) : ℤ := t.date.dayNumber * 86400000 + t.timeOfDay

def ofMillis (ms : ℤ) : LocalTime where
  date := CalendarDate.ofDayNumber (ms / 86400000)
  timeOfDay := (ms % 86400000).toNat
  timeOfDay_lt := by omega

theorem toMillis_ofMillis (ms : ℤ) : (ofMillis ms).toMillis = ms := by
  simp only [toMillis, ofMillis, CalendarDate.dayNumber_ofDayNumber]
  omega

/-- The last day of February 2000. -/
example : (ofMillis 951782400000).month = 1 ∧ (ofMillis 951782400000).day = 29 := by decide

/-- Instants are ordered as their fields are. -/
theorem toMillis_le_iff {s t : LocalTime} :
    s.toMillis ≤ t.toMillis ↔ s.year < t.year ∨ (s.year = t.year ∧
      (s.month < t.month ∨ (s.month = t.month ∧
        (s.day < t.day ∨ (s.day = t.day ∧ s.timeOfDay ≤ t.timeOfDay))))) := by
  have hs := s.timeOfDay_lt
  have ht := t.timeOfDay_lt
  have hdays : s.toMillis ≤ t.toMillis ↔ s.date.dayNumber < t.date.dayNumber ∨
      (s.date.dayNumber = t.date.dayNumber ∧ s.timeOfDay ≤ t.timeOfDay) := by
    simp only [toMillis]
    omega
  rw [hdays, CalendarDate.dayNumber_lt_iff, CalendarDate.dayNumber_eq_iff]
  simp only [year, month, day]
  omega

/-- The same with the hour and the minute for the time of day. -/
theorem fields_of_toMillis_le {s t : LocalTime} (h : s.toMillis ≤ t.toMillis) :
    s.year < t.year ∨ (s.year = t.year ∧ (s.month < t.month ∨ (s.month = t.month ∧
      (s.day < t.day ∨ (s.day = t.day ∧ (s.hour < t.hour ∨
        (s.hour = t.hour ∧ s.minute ≤ t.minute))))))) := by
  rw [toMillis_le_iff] at h
  simp only [hour, minute]
  omega

/-- Instants at one time of day are whole days apart. -/
theorem toMillis_add_day_le {s t : LocalTime} (htime : s.timeOfDay = t.timeOfDay)
    (h : s.toMillis < t.toMillis) : s.toMillis + 86400000 ≤ t.toMillis := by
  simp only [toMillis] at h ⊢
  omega

/-- Within a month, instants are apart by their days and times of day. -/
theorem toMillis_sub {s t : LocalTime} (hyear : s.year = t.year) (hmonth : s.month = t.month) :
    t.toMillis - s.toMillis =
      ((t.day : ℤ) - s.day) * 86400000 + ((t.timeOfDay : ℤ) - s.timeOfDay) := by
  have hdays := CalendarDate.dayNumber_sub hyear hmonth
  simp only [toMillis, day]
  omega

/-- A number of months later: the same day of the month, or the last one if the month is too
short. -/
def addMonths (t : LocalTime) (n : ℤ) : LocalTime where
  date :=
    { year := t.year + (t.month + n) / 12
      month := ((t.month + n) % 12).toNat
      day := min t.day (daysInMonth (t.year + (t.month + n) / 12) ((t.month + n) % 12).toNat)
      month_lt := by omega
      one_le_day := le_min t.date.one_le_day (one_le_daysInMonth _ _)
      day_le := min_le_right _ _ }
  timeOfDay := t.timeOfDay
  timeOfDay_lt := t.timeOfDay_lt

@[simp] theorem timeOfDay_addMonths (t : LocalTime) (n : ℤ) :
    (t.addMonths n).timeOfDay = t.timeOfDay := rfl

/-- The months up to the instant, over the years. -/
def monthIndex (t : LocalTime) : ℤ := 12 * t.year + t.month

@[simp] theorem monthIndex_addMonths (t : LocalTime) (n : ℤ) :
    (t.addMonths n).monthIndex = t.monthIndex + n := by
  simp only [monthIndex, year, month, addMonths]
  omega

/-- The order of instants by months, days and the time of day. -/
theorem toMillis_le_iff_monthIndex {s t : LocalTime} :
    s.toMillis ≤ t.toMillis ↔ s.monthIndex < t.monthIndex ∨ (s.monthIndex = t.monthIndex ∧
      (s.day < t.day ∨ (s.day = t.day ∧ s.timeOfDay ≤ t.timeOfDay))) := by
  have hs : s.month < 12 := s.date.month_lt
  have ht : t.month < 12 := t.date.month_lt
  rw [toMillis_le_iff]
  simp only [monthIndex]
  omega

/-- Whether `n` months have passed is decided by the months, and within the month that is reached by
its day and the time of day. -/
theorem toMillis_addMonths_le_iff {s t : LocalTime} {n : ℤ} :
    (s.addMonths n).toMillis ≤ t.toMillis ↔ s.monthIndex + n < t.monthIndex ∨
      (s.monthIndex + n = t.monthIndex ∧
        (min s.day (daysInMonth t.year t.month) < t.day ∨
          (min s.day (daysInMonth t.year t.month) = t.day ∧ s.timeOfDay ≤ t.timeOfDay))) := by
  rw [toMillis_le_iff_monthIndex, monthIndex_addMonths]
  apply or_congr_right
  apply and_congr_right
  intro hindex
  have hs : (s.addMonths n).month < 12 := (s.addMonths n).date.month_lt
  have ht : t.month < 12 := t.date.month_lt
  rw [← monthIndex_addMonths] at hindex
  simp only [monthIndex] at hindex
  have hyear : (s.addMonths n).year = t.year := by omega
  have hmonth : (s.addMonths n).month = t.month := by omega
  have hday : (s.addMonths n).day = min s.day (daysInMonth t.year t.month) := by
    rw [← hyear, ← hmonth]
    rfl
  rw [hday, timeOfDay_addMonths]

end LocalTime

end LetItGo.Library.Calendar
