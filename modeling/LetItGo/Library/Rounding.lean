import Mathlib.Algebra.Order.Round
import Mathlib.Algebra.Order.BigOperators.Group.List
import Mathlib.Data.Rat.Floor
import Mathlib.Tactic.FieldSimp
import Mathlib.Tactic.Linarith
import Mathlib.Tactic.Positivity

/-!
# Means and rounding to a fraction

`roundTo k x` is the nearest multiple of `1 / k`, halves going up. It is off by at most `1 / (2k)`
(`abs_roundTo_sub_le`) and stays between two integers that enclose its argument
(`roundTo_mem_Icc`). The mean of a nonempty list lies between the bounds of its elements
(`mean_mem_Icc`).
-/

set_option autoImplicit false

namespace LetItGo.Library.Rounding

/-- The nearest multiple of `1 / k`, halves going up. -/
def roundTo (k : ℕ) (x : ℚ) : ℚ := round (x * k) / k

theorem abs_roundTo_sub_le {k : ℕ} (hk : 0 < k) (x : ℚ) : |roundTo k x - x| ≤ 1 / (2 * k) := by
  have hk' : (0 : ℚ) < k := Nat.cast_pos.2 hk
  have hround : |x * k - round (x * k)| ≤ 1 / 2 := abs_sub_round (x * k)
  have hdiff : roundTo k x - x = -(x * k - round (x * k)) / k := by
    unfold roundTo
    field_simp
    ring
  rw [hdiff, abs_div, abs_neg, abs_of_pos hk', div_le_iff₀ hk']
  calc |x * k - round (x * k)| ≤ 1 / 2 := hround
    _ = 1 / (2 * k) * k := by field_simp

theorem round_le_round {x y : ℚ} (h : x ≤ y) : round x ≤ round y := by
  rw [round_eq, round_eq]
  exact Int.floor_mono (by linarith)

/-- Rounding to a fraction keeps a number between two integers. -/
theorem roundTo_mem_Icc {k : ℕ} (hk : 0 < k) {lo hi : ℤ} {x : ℚ} (hx : x ∈ Set.Icc (lo : ℚ) hi) :
    roundTo k x ∈ Set.Icc (lo : ℚ) hi := by
  have hk' : (0 : ℚ) < k := Nat.cast_pos.2 hk
  -- a multiple of `1 / k` rounds to itself
  have hint : ∀ z : ℤ, round ((z : ℚ) * k) = z * k := fun z => by
    have : ((z : ℚ) * k) = ((z * k : ℤ) : ℚ) := by push_cast; rfl
    rw [this, round_intCast]
  constructor
  · have hle : (lo : ℤ) * k ≤ round (x * k) := by
      rw [← hint lo]
      exact round_le_round (mul_le_mul_of_nonneg_right hx.1 hk'.le)
    rw [roundTo, le_div_iff₀ hk']
    exact_mod_cast hle
  · have hle : round (x * k) ≤ (hi : ℤ) * k := by
      rw [← hint hi]
      exact round_le_round (mul_le_mul_of_nonneg_right hx.2 hk'.le)
    rw [roundTo, div_le_iff₀ hk']
    exact_mod_cast hle

/-- The mean of a nonempty list lies between bounds of its elements. -/
theorem mean_mem_Icc {l : List ℚ} (hl : l ≠ []) {lo hi : ℚ} (h : ∀ x ∈ l, x ∈ Set.Icc lo hi) :
    l.sum / l.length ∈ Set.Icc lo hi := by
  have hlen : (0 : ℚ) < l.length := Nat.cast_pos.2 (List.length_pos_iff.2 hl)
  have hlow := List.card_nsmul_le_sum l lo fun x hx => (h x hx).1
  have hhigh := List.sum_le_card_nsmul l hi fun x hx => (h x hx).2
  rw [nsmul_eq_mul] at hlow hhigh
  constructor
  · rw [le_div_iff₀ hlen, mul_comm]
    exact hlow
  · rw [div_le_iff₀ hlen, mul_comm]
    exact hhigh

end LetItGo.Library.Rounding
