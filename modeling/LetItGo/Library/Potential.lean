import LetItGo.Library.Runs
import Mathlib.Algebra.BigOperators.Group.List.Basic
import Mathlib.Algebra.Ring.Nat
import Mathlib.Data.List.Perm.Basic

/-!
# Work that is left

A machine in which some actions start work and others do it: each state has so many steps of work
left, an action costs one or none, and starts so many. If every step pays for its cost with the work
that it takes off and the work that it starts, then so does every run (`cost_add_le`); if in addition
a step of some kind is always possible while there is work left, then such steps lead to a state
without (`exists_run_to_rest`).
-/

set_option autoImplicit false

namespace LetItGo.Library.Potential

open LetItGo.Library.Runs

universe u v

section

variable {σ : Type u} {α : Type v} {step : σ → α → Option σ} {left : σ → ℕ} {cost starts : α → ℕ}

theorem cost_add_le (hstep : ∀ s a t, step s a = some t → cost a + left t ≤ left s + starts a)
    {s t : σ} {as : List α} (h : run step s as = some t) :
    (as.map cost).sum + left t ≤ left s + (as.map starts).sum := by
  induction as generalizing s with
  | nil =>
    cases h
    simp
  | cons a as ih =>
    obtain ⟨m, hm, hrest⟩ := run_cons_iff.1 h
    have hfirst := hstep s a m hm
    have hlater := ih hrest
    rw [List.map_cons, List.map_cons, List.sum_cons, List.sum_cons]
    omega

theorem exists_run_to_rest {P : α → Prop}
    (hgo : ∀ s, left s ≠ 0 → ∃ a t, P a ∧ step s a = some t ∧ left t < left s) (s : σ) :
    ∃ as t, (∀ a ∈ as, P a) ∧ run step s as = some t ∧ left t = 0 := by
  induction hn : left s using Nat.strongRecOn generalizing s with
  | _ n ih =>
    by_cases hzero : left s = 0
    · exact ⟨[], s, by simp, run_nil s, hzero⟩
    · obtain ⟨a, m, ha, hm, hless⟩ := hgo s hzero
      obtain ⟨as, t, has, hrun, ht⟩ := ih (left m) (hn ▸ hless) m rfl
      refine ⟨a :: as, t, ?_, run_cons_iff.2 ⟨m, hm, hrun⟩, ht⟩
      intro b hb
      rcases List.mem_cons.1 hb with rfl | hb
      · exact ha
      · exact has b hb

end

/-! ## Work in a list -/

section

variable {β : Type u} {f : β → ℕ} {l : List β} {i : ℕ} {y : β}

theorem sum_map_eraseIdx (h : l[i]? = some y) :
    ((l.eraseIdx i).map f).sum + f y = (l.map f).sum := by
  obtain ⟨hi, rfl⟩ := List.getElem?_eq_some_iff.1 h
  have hperm := ((List.getElem_cons_eraseIdx_perm hi).map f).sum_eq
  rw [List.map_cons, List.sum_cons] at hperm
  omega

/-- A list of things that all have work left has none only when it is empty. -/
theorem sum_map_eq_zero_iff (hf : ∀ x, 1 ≤ f x) : (l.map f).sum = 0 ↔ l = [] := by
  cases l with
  | nil => simp
  | cons x l =>
    have hx := hf x
    simp only [List.map_cons, List.sum_cons, reduceCtorEq, iff_false]
    omega

theorem sum_map_toNat (p : β → Bool) (l : List β) : (l.map fun x => (p x).toNat).sum = l.countP p := by
  induction l with
  | nil => rfl
  | cons x l ih =>
    rw [List.map_cons, List.sum_cons, ih, List.countP_cons]
    cases p x <;> simp [Nat.add_comm]

theorem sum_map_set (h : l[i]? = some y) (x : β) :
    ((l.set i x).map f).sum + f y = (l.map f).sum + f x := by
  obtain ⟨hi, -⟩ := List.getElem?_eq_some_iff.1 h
  have hperm := ((List.set_perm_cons_eraseIdx hi x).map f).sum_eq
  rw [List.map_cons, List.sum_cons] at hperm
  have herase : ((l.eraseIdx i).map f).sum + f y = (l.map f).sum := sum_map_eraseIdx h
  omega

end

end LetItGo.Library.Potential
