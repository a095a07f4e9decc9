import LetItGo.Properties.AgeOrder
import LetItGo.Properties.LatestFit

/-!
# The readings of the clock

`renderHowLongAgo` judges a coarse field at an earlier instant than a fine one, and a field that was
not ahead of the date's when it was read may be ahead at the last reading. The label is still that of
a single instant between the two, unless the first reading is already past the latest one that gives
it (`actsAsOne_iff`). While no coarser field turns this cannot happen (`firstInTime_of_agree`).
-/

set_option autoImplicit false

namespace LetItGo.Properties.ClockReadings

open LetItGo.Library.Js
open LetItGo.Library.Calendar
open LetItGo.Components.ReviewItem
open LetItGo.Properties.AgeElapsed (fixedZone)
open LetItGo.Properties.AgeOrder (count)
open LetItGo.Properties.CalendarPeriods
open LetItGo.Properties.LatestFit

/-- The unit whose field decides the label. -/
def decidedBy : Age → AgeUnit
  | .justNow => .minute
  | .ago unit _ => unit

/-- The number of the last reading on the way to a unit: the outer variables are read in any case. -/
def lastReading : AgeUnit → ℕ
  | .year => 4
  | u => u.reading

theorem reading_le_lastReading {u w : AgeUnit} (h : u.rank < w.rank) :
    w.reading ≤ lastReading u ∧ lastReading u ≤ 8 := by
  cases u <;> cases w <;> first | exact ⟨by decide, by decide⟩ | exact absurd h (by decide)

section

variable (zone : Date → LocalTime) (clock : ℕ → Date) (date : Date)

/-- The last reading that `renderHowLongAgo` takes. -/
def lastRead : Date := clock (lastReading (decidedBy (renderHowLongAgo zone clock date)))

/-- If some field coarser than the one that decides has run past the date's at the last reading, the
first reading is not past the latest period that fits. -/
def FirstInTime : Prop :=
  ∀ w, RunPast (zone date) (zone (lastRead zone clock date))
      (decidedBy (renderHowLongAgo zone clock date)) w →
    period (zone (clock 0)) (decidedBy (renderHowLongAgo zone clock date)) ≤
      lastFit (zone date) (zone (lastRead zone clock date)) w
        (count (renderHowLongAgo zone clock date)) (decidedBy (renderHowLongAgo zone clock date))

end

/-- Each field coarser than the one that decides was not ahead of the date's when it was read. -/
theorem fieldDiff_nonpos (zone : Date → LocalTime) (clock : ℕ → Date) (date : Date) {w : AgeUnit}
    (hw : (decidedBy (renderHowLongAgo zone clock date)).rank < w.rank) :
    fieldDiff zone clock date w ≤ 0 := by
  cases hlabel : renderHowLongAgo zone clock date with
  | justNow => exact renderHowLongAgo_eq_justNow_iff.1 hlabel w
  | ago u n =>
    rw [hlabel] at hw
    exact (renderHowLongAgo_eq_ago_iff.1 hlabel).2.2 w hw

/-- So it is while no coarser field turns between the first reading and the last. -/
theorem firstInTime_of_agree (offset : ℤ) {clock : ℕ → Date} (date : Date)
    (hclock : ∀ i j, i ≤ j → j ≤ 8 → (clock i).time ≤ (clock j).time)
    (hagree : ∀ w : AgeUnit,
      (decidedBy (renderHowLongAgo (fixedZone offset) clock date)).rank < w.rank →
        w.field (fixedZone offset (clock 0)) =
          w.field (fixedZone offset (lastRead (fixedZone offset) clock date))) :
    FirstInTime (fixedZone offset) clock date := by
  rintro w ⟨hw, hahead, -⟩
  have hmillis : ∀ i j, i ≤ j → j ≤ 8 →
      (fixedZone offset (clock i)).toMillis ≤ (fixedZone offset (clock j)).toMillis := by
    intro i j hij hj
    have hle := hclock i j hij hj
    simp only [fixedZone, LocalTime.toMillis_ofMillis]
    omega
  obtain ⟨hreading, height⟩ := reading_le_lastReading hw
  have hagree' : ∀ x : AgeUnit, w.rank ≤ x.rank → x.field (fixedZone offset (clock 0)) =
      x.field (fixedZone offset (lastRead (fixedZone offset) clock date)) :=
    fun x hx => hagree x (hw.trans_le hx)
  -- so the field was read in the period of both
  have hfirst := period_le_of_toMillis_le
    (hmillis 0 w.reading (Nat.zero_le _) (hreading.trans height)) w
  have hlast := period_le_of_toMillis_le (hmillis w.reading _ hreading height) w
  have hturn : period (fixedZone offset (lastRead (fixedZone offset) clock date)) w ≤
      period (fixedZone offset (clock 0)) w :=
    period_le_of_fields fun x hx => (hagree' x hx).ge
  have hfield := field_eq_of_period_eq (le_antisymm hlast (hturn.trans hfirst))
  have hdiff := fieldDiff_nonpos (fixedZone offset) clock date hw
  simp only [fieldDiff] at hdiff
  rw [lastRead] at hahead
  omega

end LetItGo.Properties.ClockReadings
