import LetItGo.Components.ReviewItem
import LetItGo.Properties.AgeElapsed

/-!
# Age labels down the list

The list is newest first, and for dates that the clock has passed the labels follow it
(`kept_of_le`). A date ahead of the clock is treated field by field: a year that is not behind is
passed over, whether it is the same or a later one, and the first finer field that is behind makes
the label. So a review from next January is eleven months old in December, above one written now.

Of what can go wrong this is all, but for zones in which the local time is set back.
-/

set_option autoImplicit false

namespace LetItGo.Properties.AgeOrder

open LetItGo.Library.Js
open LetItGo.Library.Calendar
open LetItGo.Components.ReviewSubmissionScreen (ReviewDoc)
open LetItGo.Components.DetailsScreen (loadReviews loadReviews_newest_first)
open LetItGo.Components.ReviewItem
open LetItGo.Properties.AgeElapsed (fixedZone)

/-- 'just now' comes before the units, from minutes to years. -/
def rank : Age → ℕ
  | .justNow => 0
  | .ago unit _ => unit.rank

def count : Age → ℤ
  | .justNow => 0
  | .ago _ n => n

/-- The first label is not older than the second. -/
def AtMost (a b : Age) : Prop := rank a < rank b ∨ (rank a = rank b ∧ count a ≤ count b)

/-- The labels of a list, from top to bottom, by one reading of the clock. -/
def ages (zone : Date → LocalTime) (now : Date) (docs : List ReviewDoc) : List Age :=
  (loadReviews docs).map fun review => renderHowLongAgo zone (fun _ => now) review.date

/-- The coarsest field in which a local time is behind the clock. -/
def CoarsestBehind (now t : LocalTime) (u : AgeUnit) : Prop :=
  u.field t < u.field now ∧ ∀ w : AgeUnit, u.rank < w.rank → w.field now ≤ w.field t

/-- Of two local times: if the upper one is behind the clock, the lower one is behind it in a field
that is coarser than the coarsest of these, or not ahead of the upper one in that field. -/
def Kept (now upper lower : LocalTime) : Prop :=
  ∀ u, CoarsestBehind now upper u →
    (∃ w : AgeUnit, u.rank < w.rank ∧ w.field lower < w.field now) ∨ u.field lower ≤ u.field upper

/-- In some field the upper date is behind the clock and the lower one further on, and neither is
behind the clock in a coarser field. -/
def Overtakes (now upper lower : LocalTime) : Prop :=
  ∃ u : AgeUnit, u.field upper < u.field now ∧ u.field upper < u.field lower ∧
    ∀ w : AgeUnit, u.rank < w.rank → w.field now ≤ w.field upper ∧ w.field now ≤ w.field lower

/-- Between the two instants the local time has been set back, behind what it was at the first. -/
def SetBack (zone : Date → LocalTime) (earlier later : Date) : Prop :=
  earlier.time ≤ later.time ∧ (zone later).toMillis < (zone earlier).toMillis

theorem kept_iff_not_overtakes {now upper lower : LocalTime} :
    Kept now upper lower ↔ ¬ Overtakes now upper lower := by
  constructor
  · rintro h ⟨u, hupper, hlower, hcoarser⟩
    rcases h u ⟨hupper, fun w hw => (hcoarser w hw).1⟩ with ⟨w, hw, hbehind⟩ | hle
    · exact absurd (hcoarser w hw).2 (not_le.2 hbehind)
    · exact absurd hlower (not_lt.2 hle)
  · intro h u hu
    by_contra hnot
    rw [not_or, not_exists, not_le] at hnot
    refine h ⟨u, hu.1, hnot.2, fun w hw => ⟨hu.2 w hw, ?_⟩⟩
    exact not_lt.1 fun hbehind => hnot.1 w ⟨hw, hbehind⟩

/-! ## Two labels -/

theorem coarsestBehind_unique {now t : LocalTime} {u w : AgeUnit} (hu : CoarsestBehind now t u)
    (hw : CoarsestBehind now t w) : u = w := by
  apply AgeUnit.rank_inj
  by_contra hne
  rcases Nat.lt_or_gt_of_ne hne with hlt | hlt
  · exact absurd (hu.2 w hlt) (not_le.2 hw.1)
  · exact absurd (hw.2 u hlt) (not_le.2 hu.1)

section

variable {zone : Date → LocalTime} {now date : Date}

/-- A label of units is that of the coarsest field behind. -/
theorem label_ago {u : AgeUnit} {n : ℤ}
    (h : renderHowLongAgo zone (fun _ => now) date = .ago u n) :
    CoarsestBehind (zone now) (zone date) u ∧ n = u.field (zone now) - u.field (zone date) := by
  obtain ⟨hn, hpos, hcoarser⟩ := renderHowLongAgo_eq_ago_iff.1 h
  simp only [fieldDiff] at hn hpos hcoarser
  refine ⟨⟨by omega, ?_⟩, hn⟩
  intro w hw
  have hdiff := hcoarser w hw
  omega

/-- Without any it is 'just now'. -/
theorem label_justNow (h : renderHowLongAgo zone (fun _ => now) date = .justNow) (u : AgeUnit) :
    u.field (zone now) ≤ u.field (zone date) := by
  have hdiff := renderHowLongAgo_eq_justNow_iff.1 h u
  simp only [fieldDiff] at hdiff
  omega

end

theorem atMost_iff_kept (zone : Date → LocalTime) (now upper lower : Date) :
    AtMost (renderHowLongAgo zone (fun _ => now) upper)
        (renderHowLongAgo zone (fun _ => now) lower) ↔
      Kept (zone now) (zone upper) (zone lower) := by
  cases hupper : renderHowLongAgo zone (fun _ => now) upper with
  | justNow =>
    have hkept : Kept (zone now) (zone upper) (zone lower) := by
      intro u hu
      exact absurd (label_justNow hupper u) (not_le.2 hu.1)
    refine iff_of_true ?_ hkept
    cases renderHowLongAgo zone (fun _ => now) lower with
    | justNow => exact Or.inr ⟨rfl, le_rfl⟩
    | ago v m => exact Or.inl v.rank_pos
  | ago u n =>
    obtain ⟨hu, hn⟩ := label_ago hupper
    -- the condition speaks of the field `u` only
    have hkept : Kept (zone now) (zone upper) (zone lower) ↔
        (∃ w : AgeUnit, u.rank < w.rank ∧ w.field (zone lower) < w.field (zone now)) ∨
          u.field (zone lower) ≤ u.field (zone upper) := by
      constructor
      · intro h
        exact h u hu
      · intro h w hw
        rw [← coarsestBehind_unique hu hw]
        exact h
    rw [hkept]
    cases hlower : renderHowLongAgo zone (fun _ => now) lower with
    | justNow =>
      have hnot := label_justNow hlower
      refine iff_of_false ?_ ?_
      · rintro (hlt | ⟨heq, -⟩)
        · cases hlt
        · exact absurd heq u.rank_pos.ne'
      · rintro (⟨w, -, hw⟩ | hle)
        · exact absurd (hnot w) (not_le.2 hw)
        · exact absurd (hle.trans_lt hu.1) (not_lt.2 (hnot u))
    | ago v m =>
      obtain ⟨hv, hm⟩ := label_ago hlower
      constructor
      · rintro (hlt | ⟨heq, hle⟩)
        · exact Or.inl ⟨v, hlt, hv.1⟩
        · obtain rfl := AgeUnit.rank_inj heq
          simp only [count] at hle
          exact Or.inr (by omega)
      · rintro (⟨w, hlt, hw⟩ | hle)
        · -- `w` is not coarser than the coarsest field behind
          have hwv : ¬ v.rank < w.rank := fun h => absurd (hv.2 w h) (not_le.2 hw)
          exact Or.inl (by simp only [rank]; omega)
        · have huv : ¬ v.rank < u.rank :=
            fun h => absurd (hv.2 u h) (not_le.2 (hle.trans_lt hu.1))
          rcases Nat.lt_or_ge u.rank v.rank with hlt | hge
          · exact Or.inl hlt
          · obtain rfl := AgeUnit.rank_inj (Nat.le_antisymm (not_lt.1 huv) hge)
            exact Or.inr ⟨rfl, by simp only [count]; omega⟩

/-! ## Dates that the clock has passed -/

/-- The earlier of two instants is not ahead in a field if it is not behind in any coarser one. -/
theorem field_le_of_toMillis_le {s t : LocalTime} (h : s.toMillis ≤ t.toMillis) {u : AgeUnit}
    (hcoarser : ∀ w : AgeUnit, u.rank < w.rank → w.field t ≤ w.field s) :
    u.field s ≤ u.field t := by
  have hfields := LocalTime.fields_of_toMillis_le h
  cases u with
  | year =>
    simp only [AgeUnit.field]
    omega
  | month =>
    have hyear := hcoarser .year (by decide)
    simp only [AgeUnit.field] at hyear ⊢
    omega
  | day =>
    have hyear := hcoarser .year (by decide)
    have hmonth := hcoarser .month (by decide)
    simp only [AgeUnit.field] at hyear hmonth ⊢
    omega
  | hour =>
    have hyear := hcoarser .year (by decide)
    have hmonth := hcoarser .month (by decide)
    have hday := hcoarser .day (by decide)
    simp only [AgeUnit.field] at hyear hmonth hday ⊢
    omega
  | minute =>
    have hyear := hcoarser .year (by decide)
    have hmonth := hcoarser .month (by decide)
    have hday := hcoarser .day (by decide)
    have hhour := hcoarser .hour (by decide)
    simp only [AgeUnit.field] at hyear hmonth hday hhour ⊢
    omega

/-- An upper date that is not ahead of the clock, with a lower one that is not newer, is labelled in
order. -/
theorem kept_of_le {now upper lower : LocalTime} (hlower : lower.toMillis ≤ upper.toMillis)
    (hupper : upper.toMillis ≤ now.toMillis) : Kept now upper lower := by
  intro u hu
  by_cases hbehind : ∃ w : AgeUnit, u.rank < w.rank ∧ w.field lower < w.field now
  · exact Or.inl hbehind
  · right
    apply field_le_of_toMillis_le hlower
    intro w hw
    -- on the coarser fields neither is behind the clock, and the upper one is not ahead
    have hnow : w.field now ≤ w.field lower := not_lt.1 fun hlt => hbehind ⟨w, hw, hlt⟩
    have hupperNow : w.field upper ≤ w.field now :=
      field_le_of_toMillis_le hupper fun w' hw' => hu.2 w' (hw.trans hw')
    exact hupperNow.trans hnow

/-! ## The list -/

theorem pairwise_atMost_iff (zone : Date → LocalTime) (now : Date) (docs : List ReviewDoc) :
    (ages zone now docs).Pairwise AtMost ↔
      (loadReviews docs).Pairwise fun upper lower =>
        Kept (zone now) (zone upper.date) (zone lower.date) := by
  rw [ages, List.pairwise_map]
  apply List.Pairwise.iff
  intro upper lower
  exact atMost_iff_kept zone now upper.date lower.date

/-- A review that the clock has passed is labelled in order above an older one. -/
theorem kept_of_passed {zone : Date → LocalTime} {now upper lower : Date}
    (hnewest : lower.time ≤ upper.time) (hpassed : upper.time ≤ now.time)
    (hlower : ¬ SetBack zone lower upper) (hupper : ¬ SetBack zone upper now) :
    Kept (zone now) (zone upper) (zone lower) := by
  apply kept_of_le
  · exact not_lt.1 fun hlt => hlower ⟨hnewest, hlt⟩
  · exact not_lt.1 fun hlt => hupper ⟨hpassed, hlt⟩

/-- For every list that the details page loads, every zone and every reading of the clock: the labels
never decrease from top to bottom exactly if no review overtakes one below it that is dated after the
clock, or that the local time has been set back after. -/
theorem ages_pairwise_iff (zone : Date → LocalTime) (now : Date) (docs : List ReviewDoc) :
    (ages zone now docs).Pairwise AtMost ↔
      (loadReviews docs).Pairwise fun upper lower =>
        now.time < upper.date.time ∨ SetBack zone lower.date upper.date ∨
            SetBack zone upper.date now →
          ¬ Overtakes (zone now) (zone upper.date) (zone lower.date) := by
  rw [pairwise_atMost_iff]
  constructor
  · intro h
    refine h.imp ?_
    intro upper lower hkept _
    exact kept_iff_not_overtakes.1 hkept
  · intro h
    refine ((loadReviews_newest_first docs).and h).imp ?_
    rintro upper lower ⟨hnewest, hovertakes⟩
    by_cases hcase : now.time < upper.date.time ∨ SetBack zone lower.date upper.date ∨
        SetBack zone upper.date now
    · exact kept_iff_not_overtakes.2 (hovertakes hcase)
    · -- the list is newest first, and the clock has passed both
      rw [not_or, not_or, not_lt] at hcase
      exact kept_of_passed hnewest hcase.1 hcase.2.1 hcase.2.2

theorem not_setBack_fixedZone (offset : ℤ) (earlier later : Date) :
    ¬ SetBack (fixedZone offset) earlier later := by
  rintro ⟨hle, hlt⟩
  simp only [fixedZone, LocalTime.toMillis_ofMillis] at hlt
  omega

/-- In a zone with a fixed offset they do not decrease when no review is dated after the clock. -/
theorem ages_pairwise_of_past (offset : ℤ) {now : Date} {docs : List ReviewDoc}
    (h : ∀ review ∈ loadReviews docs, review.date.time ≤ now.time) :
    (ages (fixedZone offset) now docs).Pairwise AtMost := by
  rw [pairwise_atMost_iff]
  apply (loadReviews_newest_first docs).imp_of_mem
  intro upper lower hupper _ hnewest
  exact kept_of_passed hnewest (h upper hupper) (not_setBack_fixedZone offset _ _)
    (not_setBack_fixedZone offset _ _)

/-- A stored review of a user, with its date in seconds. -/
def dated (uid : String) (seconds : ℤ) : ReviewDoc :=
  ⟨⟨⟨seconds, 0⟩, none, none, none, "clean", 4, uid⟩⟩

/-- In December 2020 a review dated January 2021 stands above one dated now, and is labelled eleven
months old. -/
theorem elevenMonths_above_justNow :
    ages (fixedZone 0) ⟨1606780800000⟩ [dated "u1" 1609459200, dated "u2" 1606780800] =
        [.ago .month 11, .justNow] ∧
      ¬ (ages (fixedZone 0) ⟨1606780800000⟩
        [dated "u1" 1609459200, dated "u2" 1606780800]).Pairwise AtMost := by
  have hages : ages (fixedZone 0) ⟨1606780800000⟩
      [dated "u1" 1609459200, dated "u2" 1606780800] = [.ago .month 11, .justNow] := by decide
  refine ⟨hages, ?_⟩
  rw [hages]
  intro h
  rcases (List.pairwise_cons.1 h).1 .justNow List.mem_cons_self with hlt | ⟨heq, -⟩
  · cases hlt
  · cases heq

end LetItGo.Properties.AgeOrder
