import LetItGo.Components.ReviewItem

/-!
# Age labels and the time passed

The label is the difference of one calendar field, the coarsest one that differs. It counts the
whole units that have passed exactly if the finer fields of the clock have come as far again as those
of the date: from 23:59 to 0:00 on the next day the days differ by one, and no day has passed.
-/

set_option autoImplicit false

namespace LetItGo.Properties.AgeElapsed

open LetItGo.Library.Js
open LetItGo.Library.Calendar
open LetItGo.Components.ReviewItem

/-- A zone with a fixed offset from UTC, in milliseconds. -/
def fixedZone (offset : ℤ) (d : Date) : LocalTime := LocalTime.ofMillis (d.time + offset)

/-- An instant, a number of units later. -/
def advance (t : LocalTime) (n : ℤ) : AgeUnit → ℤ
  | .minute => t.toMillis + n * 60000
  | .hour => t.toMillis + n * 3600000
  | .day => t.toMillis + n * 86400000
  | .month => (t.addMonths n).toMillis
  | .year => (t.addMonths (12 * n)).toMillis

/-- The label says how much time has passed: so many whole units and not one more, and 'just now'
for less than a minute and only then. -/
def Tells (date now : LocalTime) (label : Age) : Prop :=
  (label = .justNow ↔ now.toMillis - date.toMillis < 60000) ∧
    ∀ u n, label = .ago u n →
      advance date n u ≤ now.toMillis ∧ now.toMillis < advance date (n + 1) u

/-- The clock has come to the date's day and time of day in its own month, or to the end of the month
if it has no such day. -/
def DayReached (date now : LocalTime) : Prop :=
  min date.day (daysInMonth now.year now.month) < now.day ∨
    (min date.day (daysInMonth now.year now.month) = now.day ∧ date.timeOfDay ≤ now.timeOfDay)

/-- Below the coarsest field in which the two differ, the clock's fields have come as far as the
date's. -/
def FieldsReached (date now : LocalTime) : Prop :=
  if date.year ≠ now.year then
    date.month < now.month ∨ (date.month = now.month ∧ DayReached date now)
  else if date.month ≠ now.month then DayReached date now
  else if date.day ≠ now.day then date.timeOfDay ≤ now.timeOfDay
  else if date.hour ≠ now.hour then date.timeOfDay % 3600000 ≤ now.timeOfDay % 3600000
  else if date.minute ≠ now.minute then date.timeOfDay % 60000 ≤ now.timeOfDay % 60000
  else True

/-- A label of units tells the time passed exactly if so many units have passed, when one more has
not and each takes a minute at least. -/
theorem tells_ago_iff {date now : LocalTime} {u : AgeUnit} {n : ℤ}
    (hone : date.toMillis + 60000 ≤ advance date n u)
    (hnext : now.toMillis < advance date (n + 1) u) :
    Tells date now (.ago u n) ↔ advance date n u ≤ now.toMillis := by
  constructor
  · rintro ⟨-, hpassed⟩
    exact (hpassed u n rfl).1
  · intro hpassed
    refine ⟨iff_of_false (by simp) (by omega), ?_⟩
    rintro u' n' heq
    cases heq
    exact ⟨hpassed, hnext⟩

theorem tells_justNow_iff {date now : LocalTime} :
    Tells date now .justNow ↔ now.toMillis - date.toMillis < 60000 := by
  simp [Tells]

/-! ## One unit at a time -/

section

variable {date now : LocalTime}

/-- A month or more later is a minute or more later. -/
theorem minute_le_addMonths {n : ℤ} (h : 1 ≤ n) :
    date.toMillis + 60000 ≤ (date.addMonths n).toMillis := by
  have hlt : date.toMillis < (date.addMonths n).toMillis := by
    rw [← not_le, LocalTime.toMillis_le_iff_monthIndex, LocalTime.monthIndex_addMonths]
    omega
  have hday := LocalTime.toMillis_add_day_le (LocalTime.timeOfDay_addMonths date n).symm hlt
  omega

theorem tells_year (h : date.year < now.year) :
    Tells date now (.ago .year (now.year - date.year)) ↔
      date.month < now.month ∨ (date.month = now.month ∧ DayReached date now) := by
  have hdate : date.month < 12 := date.date.month_lt
  have hnow : now.month < 12 := now.date.month_lt
  rw [tells_ago_iff (minute_le_addMonths (by omega))]
  · simp only [advance]
    rw [LocalTime.toMillis_addMonths_le_iff]
    simp only [LocalTime.monthIndex, DayReached]
    omega
  · rw [← not_le, advance, LocalTime.toMillis_addMonths_le_iff]
    simp only [LocalTime.monthIndex]
    omega

theorem tells_month (hyear : date.year = now.year) (h : date.month < now.month) :
    Tells date now (.ago .month (now.month - date.month)) ↔ DayReached date now := by
  rw [tells_ago_iff (minute_le_addMonths (by omega))]
  · simp only [advance]
    rw [LocalTime.toMillis_addMonths_le_iff]
    simp only [LocalTime.monthIndex, DayReached]
    omega
  · rw [← not_le, advance, LocalTime.toMillis_addMonths_le_iff]
    simp only [LocalTime.monthIndex]
    omega

theorem tells_day (hyear : date.year = now.year) (hmonth : date.month = now.month)
    (h : date.day < now.day) :
    Tells date now (.ago .day (now.day - date.day)) ↔ date.timeOfDay ≤ now.timeOfDay := by
  have hpassed := LocalTime.toMillis_sub hyear hmonth
  have hdate := date.timeOfDay_lt
  have hnow := now.timeOfDay_lt
  rw [tells_ago_iff] <;> simp only [advance] <;> omega

theorem tells_hour (hyear : date.year = now.year) (hmonth : date.month = now.month)
    (hday : date.day = now.day) (h : date.hour < now.hour) :
    Tells date now (.ago .hour (now.hour - date.hour)) ↔
      date.timeOfDay % 3600000 ≤ now.timeOfDay % 3600000 := by
  have hpassed := LocalTime.toMillis_sub hyear hmonth
  simp only [LocalTime.hour] at h ⊢
  rw [tells_ago_iff] <;> simp only [advance] <;> omega

theorem tells_minute (hyear : date.year = now.year) (hmonth : date.month = now.month)
    (hday : date.day = now.day) (hhour : date.hour = now.hour) (h : date.minute < now.minute) :
    Tells date now (.ago .minute (now.minute - date.minute)) ↔
      date.timeOfDay % 60000 ≤ now.timeOfDay % 60000 := by
  have hpassed := LocalTime.toMillis_sub hyear hmonth
  simp only [LocalTime.hour, LocalTime.minute] at hhour h ⊢
  rw [tells_ago_iff] <;> simp only [advance] <;> omega

theorem tells_sameMinute (hyear : date.year = now.year) (hmonth : date.month = now.month)
    (hday : date.day = now.day) (hhour : date.hour = now.hour) (h : date.minute = now.minute) :
    Tells date now .justNow := by
  have hpassed := LocalTime.toMillis_sub hyear hmonth
  simp only [LocalTime.hour, LocalTime.minute] at hhour h
  rw [tells_justNow_iff]
  omega

end

/-! ## The label -/

/-- For a date that is not after the clock, field by field: the label is that of the coarsest field
that differs. -/
theorem tells_renderHowLongAgo {zone : Date → LocalTime} {date now : Date}
    (h : (zone date).toMillis ≤ (zone now).toMillis) :
    Tells (zone date) (zone now) (renderHowLongAgo zone (fun _ => now) date) ↔
      FieldsReached (zone date) (zone now) := by
  rw [LocalTime.toMillis_le_iff] at h
  unfold FieldsReached renderHowLongAgo
  dsimp only
  by_cases hyear : (zone date).year = (zone now).year
  · rw [if_neg (not_not.2 hyear), if_pos (by omega)]
    by_cases hmonth : (zone date).month = (zone now).month
    · rw [if_neg (not_not.2 hmonth), if_pos (by omega)]
      by_cases hday : (zone date).day = (zone now).day
      · rw [if_neg (not_not.2 hday), if_pos (by omega)]
        -- the hours and the minutes are ordered as the time of day is
        have htime : (zone date).timeOfDay ≤ (zone now).timeOfDay := by omega
        by_cases hhour : (zone date).hour = (zone now).hour
        · rw [if_neg (not_not.2 hhour), if_pos (by omega)]
          by_cases hminute : (zone date).minute = (zone now).minute
          · rw [if_neg (not_not.2 hminute), if_pos (by omega)]
            exact iff_of_true (tells_sameMinute hyear hmonth hday hhour hminute) trivial
          · have hlt : (zone date).minute < (zone now).minute := by
              simp only [LocalTime.hour, LocalTime.minute] at hhour hminute ⊢
              omega
            rw [if_pos hminute, if_neg (by omega)]
            exact tells_minute hyear hmonth hday hhour hlt
        · have hlt : (zone date).hour < (zone now).hour := by
            simp only [LocalTime.hour] at hhour ⊢
            omega
          rw [if_pos hhour, if_neg (by omega)]
          exact tells_hour hyear hmonth hday hlt
      · have hlt : (zone date).day < (zone now).day := by omega
        rw [if_pos hday, if_neg (by omega)]
        exact tells_day hyear hmonth hlt
    · have hlt : (zone date).month < (zone now).month := by omega
      rw [if_pos hmonth, if_neg (by omega)]
      exact tells_month hyear hlt
  · have hlt : (zone date).year < (zone now).year := by omega
    rw [if_pos hyear, if_neg (by omega)]
    exact tells_year hlt

/-- In a zone with a fixed offset, for every date and every reading of the clock not before it: the
label tells the time passed exactly if the fields below the coarsest one that differs have come as
far as the date's. -/
theorem tells_iff_fieldsReached (offset : ℤ) {date now : Date} (h : date.time ≤ now.time) :
    Tells (fixedZone offset date) (fixedZone offset now)
        (renderHowLongAgo (fixedZone offset) (fun _ => now) date) ↔
      FieldsReached (fixedZone offset date) (fixedZone offset now) := by
  apply tells_renderHowLongAgo
  simp only [fixedZone, LocalTime.toMillis_ofMillis]
  omega

/-- Two days and an hour after the start of March 2020. -/
theorem tells_twoDays :
    Tells (fixedZone 0 ⟨1583020800000⟩) (fixedZone 0 ⟨1583197200000⟩)
      (renderHowLongAgo (fixedZone 0) (fun _ => ⟨1583197200000⟩) ⟨1583020800000⟩) :=
  (tells_iff_fieldsReached 0 (by decide)).2 (by unfold FieldsReached DayReached; decide)

/-- One minute after 23:59 on the last day of 2019 the label is '1 year ago'. -/
theorem oneYear_after_oneMinute :
    renderHowLongAgo (fixedZone 0) (fun _ => ⟨1577836800000⟩) ⟨1577836740000⟩ = .ago .year 1 ∧
      (renderHowLongAgo (fixedZone 0) (fun _ => ⟨1577836800000⟩) ⟨1577836740000⟩).text =
        "1 year ago" ∧
      ¬ Tells (fixedZone 0 ⟨1577836740000⟩) (fixedZone 0 ⟨1577836800000⟩)
        (renderHowLongAgo (fixedZone 0) (fun _ => ⟨1577836800000⟩) ⟨1577836740000⟩) := by
  have hlabel : renderHowLongAgo (fixedZone 0) (fun _ => ⟨1577836800000⟩) ⟨1577836740000⟩ =
      .ago .year 1 := by decide
  refine ⟨hlabel, by rw [hlabel]; decide, ?_⟩
  rintro ⟨-, hpassed⟩
  exact absurd (hpassed .year 1 hlabel).1 (by decide)

end LetItGo.Properties.AgeElapsed
