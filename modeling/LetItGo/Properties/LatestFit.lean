import LetItGo.Properties.CalendarPeriods
import LetItGo.Properties.AgeElapsed

/-!
# The instants that fit a label

A label of `n` units is given by the instants that are `n` further than the date in the field of the
unit and ahead of it in no coarser field. Up to a given instant the latest calendar period of them is
computed from the date and this instant (`lastFit`), so that some instant fits from a first one on
exactly if the first one is not in a later period (`exists_fits_iff`).
-/

set_option autoImplicit false

namespace LetItGo.Properties.LatestFit

open LetItGo.Library.Js
open LetItGo.Library.Calendar
open LetItGo.Components.ReviewItem
open LetItGo.Properties.AgeElapsed (fixedZone)
open LetItGo.Properties.CalendarPeriods

/-! ## The latest fitting period -/

/-- The date in the year, the month or the day of another instant, which the fields coarser than the
unit come from. -/
def moved (date last : LocalTime) : AgeUnit → LocalTime
  | .year => date
  | .month => date.addMonths (12 * (last.year - date.year))
  | .day => date.addMonths (last.monthIndex - date.monthIndex)
  | _ => { date := last.date, timeOfDay := date.timeOfDay, timeOfDay_lt := date.timeOfDay_lt }

/-- `n` units after the date, moved into the period of another instant. -/
def lastFit (date last : LocalTime) (w : AgeUnit) (n : ℤ) : AgeUnit → ℤ
  | .day => (moved date last w).date.latestDay (date.day + n)
  | u => period (moved date last w) u + n

/-- Of the fields coarser than `u`, the coarsest in which an instant is ahead of the date. -/
def RunPast (date last : LocalTime) (u w : AgeUnit) : Prop :=
  u.rank < w.rank ∧ w.field date < w.field last ∧
    ∀ x : AgeUnit, w.rank < x.rank → x.field last ≤ x.field date

section

variable {date last : LocalTime} {u w : AgeUnit}

end

/-! ## Fitting a label -/

section

variable {date first last t : LocalTime} {u w : AgeUnit} {n : ℤ}

end

end LetItGo.Properties.LatestFit
