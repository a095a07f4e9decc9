import Mathlib.Data.List.Basic
import Mathlib.Data.List.Induction
import Mathlib.Algebra.BigOperators.Group.List.Basic

/-!
# Runs of a partial machine

A machine is a function `step : σ → α → Option σ`; the result `none` means that the action is not
enabled. This module states once the inductions over runs: an invariant of the steps holds at the
end of every run (`run_invariant`), an invariant kept by the steps that meet a condition holds at
the end of every run whose steps all meet it (`run_guarded`), a condition that decides each step
decides all the states of a run (`everyState_iff_everyStep`), and a quantity that each step changes
by the weight of its action changes by the total weight (`run_weight`).
-/

set_option autoImplicit false

namespace LetItGo.Library.Runs

universe u v

variable {σ : Type u} {α : Type v} (step : σ → α → Option σ)

/-- The state after the actions in order, `none` when one of them is not enabled. -/
def run : σ → List α → Option σ
  | s, [] => some s
  | s, a :: as =>
    match step s a with
    | none => none
    | some t => run t as

/-- Every action of the run meets the condition `c` in the state it is taken in. -/
def EveryStep (c : σ → α → Prop) : σ → List α → Prop
  | _, [] => True
  | s, a :: as => c s a ∧
    match step s a with
    | none => True
    | some t => EveryStep c t as

/-- Every state of the run, first and last included, satisfies `P`. -/
def EveryState (P : σ → Prop) : σ → List α → Prop
  | s, [] => P s
  | s, a :: as => P s ∧
    match step s a with
    | none => True
    | some t => EveryState P t as

instance EveryStep.decidable (c : σ → α → Prop) [∀ s a, Decidable (c s a)] :
    ∀ (s : σ) (as : List α), Decidable (EveryStep step c s as)
  | _, [] => inferInstanceAs (Decidable True)
  | s, a :: as =>
    match h : step s a with
    | none => decidable_of_iff (c s a) (by simp [EveryStep, h])
    | some t =>
      have := EveryStep.decidable c t as
      decidable_of_iff (c s a ∧ EveryStep step c t as) (by simp [EveryStep, h])

variable {step}

@[simp] theorem run_nil (s : σ) : run step s [] = some s := rfl

theorem run_cons_iff {s t : σ} {a : α} {as : List α} :
    run step s (a :: as) = some t ↔ ∃ m, step s a = some m ∧ run step m as = some t := by
  cases h : step s a with
  | none => simp [run, h]
  | some m => simp [run, h]

/-- A run splits at every point. -/
theorem run_append_iff {s t : σ} {as bs : List α} :
    run step s (as ++ bs) = some t ↔ ∃ m, run step s as = some m ∧ run step m bs = some t := by
  induction as generalizing s with
  | nil => simp
  | cons a as ih =>
    rw [List.cons_append, run_cons_iff]
    constructor
    · rintro ⟨m, hm, h⟩
      obtain ⟨n, hn, hb⟩ := ih.1 h
      exact ⟨n, run_cons_iff.2 ⟨m, hm, hn⟩, hb⟩
    · rintro ⟨n, hn, hb⟩
      obtain ⟨m, hm, h⟩ := run_cons_iff.1 hn
      exact ⟨m, hm, ih.2 ⟨n, h, hb⟩⟩

theorem everyStep_cons_of_step {c : σ → α → Prop} {s t : σ} {a : α} {as : List α}
    (hst : step s a = some t) :
    EveryStep step c s (a :: as) ↔ c s a ∧ EveryStep step c t as := by
  simp [EveryStep, hst]

theorem everyState_cons_of_step {P : σ → Prop} {s t : σ} {a : α} {as : List α}
    (hst : step s a = some t) :
    EveryState step P s (a :: as) ↔ P s ∧ EveryState step P t as := by
  simp [EveryState, hst]

theorem EveryStep.and {c c' : σ → α → Prop} {as : List α} :
    ∀ {s : σ}, EveryStep step c s as → EveryStep step c' s as →
      EveryStep step (fun s a => c s a ∧ c' s a) s as := by
  induction as with
  | nil => exact fun _ _ => trivial
  | cons a as ih =>
    intro s h h'
    refine ⟨⟨h.1, h'.1⟩, ?_⟩
    cases hst : step s a with
    | none => trivial
    | some t =>
      exact ih ((everyStep_cons_of_step hst).1 h).2 ((everyStep_cons_of_step hst).1 h').2

theorem EveryState.head {P : σ → Prop} {s : σ} {as : List α} (h : EveryState step P s as) :
    P s := by
  cases as with
  | nil => exact h
  | cons a as => exact h.1

/-- An invariant kept by the steps that meet `c` holds at the end of every run whose steps all
meet `c`. -/
theorem run_guarded {I : σ → Prop} {c : σ → α → Prop}
    (hstep : ∀ s a t, I s → c s a → step s a = some t → I t) {s t : σ} {as : List α}
    (hs : I s) (hc : EveryStep step c s as) (h : run step s as = some t) : I t := by
  induction as generalizing s with
  | nil =>
    cases h
    exact hs
  | cons a as ih =>
    obtain ⟨m, hm, hrest⟩ := run_cons_iff.1 h
    obtain ⟨hca, hcrest⟩ := (everyStep_cons_of_step hm).1 hc
    exact ih (hstep s a m hs hca hm) hcrest hrest

theorem everyStep_of_forall {c : σ → α → Prop} {as : List α} :
    ∀ {s : σ}, (∀ s, ∀ a ∈ as, c s a) → EveryStep step c s as := by
  induction as with
  | nil => exact fun _ => trivial
  | cons a as ih =>
    intro s hc
    refine ⟨hc s a List.mem_cons_self, ?_⟩
    cases step s a with
    | none => trivial
    | some t => exact ih fun s b hb => hc s b (List.mem_cons_of_mem a hb)

/-- An invariant of the steps holds at the end of every run. -/
theorem run_invariant {I : σ → Prop} (hstep : ∀ s a t, I s → step s a = some t → I t)
    {s t : σ} {as : List α} (hs : I s) (h : run step s as = some t) : I t :=
  run_guarded (c := fun _ _ => True) (fun s a t hs _ hst => hstep s a t hs hst) hs
    (everyStep_of_forall fun _ _ _ => trivial) h

/-- An invariant kept by the steps that meet `c`, from one state that satisfies `P` to another. -/
theorem run_within {I P : σ → Prop} {c : σ → α → Prop}
    (hstep : ∀ s a t, I s → P s → P t → c s a → step s a = some t → I t) {s t : σ} {as : List α}
    (hs : I s) (hP : EveryState step P s as) (hc : EveryStep step c s as)
    (h : run step s as = some t) : I t := by
  induction as generalizing s with
  | nil =>
    cases h
    exact hs
  | cons a as ih =>
    obtain ⟨m, hm, hrest⟩ := run_cons_iff.1 h
    obtain ⟨hca, hcrest⟩ := (everyStep_cons_of_step hm).1 hc
    obtain ⟨hPs, hPrest⟩ := (everyState_cons_of_step hm).1 hP
    exact ih (hstep s a m hs hPs hPrest.head hca hm) hPrest hcrest hrest

/-- An invariant that also speaks of the actions so far. -/
theorem run_prefix_invariant {I : List α → σ → Prop} {s : σ} (hnil : I [] s)
    (hstep : ∀ as m a t, run step s as = some m → I as m → step m a = some t → I (as ++ [a]) t)
    {as : List α} {t : σ} (h : run step s as = some t) : I as t := by
  induction as using List.reverseRecOn generalizing t with
  | nil =>
    cases h
    exact hnil
  | append_singleton as a ih =>
    obtain ⟨m, hm, ha⟩ := run_append_iff.1 h
    obtain ⟨n, hn, heq⟩ := run_cons_iff.1 ha
    cases heq
    exact hstep as m a t hm (ih hm) hn

/-- When a step can fail `c` only in a state that satisfies `Q`, and `Q` stays once it holds, a run
that ends outside `Q` has met `c` all along. -/
theorem everyStep_of_not_end {Q : σ → Prop} {c : σ → α → Prop}
    (hkeep : ∀ s a t, Q s → step s a = some t → Q t) (hc : ∀ s a, Q s ∨ c s a) {s t : σ}
    {as : List α} (h : run step s as = some t) (hend : ¬ Q t) : EveryStep step c s as := by
  induction as generalizing s with
  | nil => trivial
  | cons a as ih =>
    obtain ⟨m, hm, hrest⟩ := run_cons_iff.1 h
    rw [everyStep_cons_of_step hm]
    refine ⟨?_, ih hrest⟩
    rcases hc s a with hQ | hca
    · -- `Q` would still hold at the end
      exact absurd (run_invariant hkeep hQ h) hend
    · exact hca

theorem EveryState.imp {P Q : σ → Prop} (h : ∀ s, P s → Q s) {as : List α} :
    ∀ {s : σ}, EveryState step P s as → EveryState step Q s as := by
  induction as with
  | nil => exact fun hs => h _ hs
  | cons a as ih =>
    intro s hs
    refine ⟨h s hs.1, ?_⟩
    cases hst : step s a with
    | none => trivial
    | some t => exact ih ((everyState_cons_of_step hst).1 hs).2

/-- When from every good state a step that meets `d` leads to a good state exactly if it meets `c`,
the states of a run whose steps meet `d` are all good exactly if these all meet `c`. The invariant `I`
carries what the decision of a step needs besides `P`. -/
theorem everyState_iff_everyStep_guarded {I P : σ → Prop} {c d : σ → α → Prop}
    (hinv : ∀ s a t, I s → d s a → step s a = some t → I t)
    (hdec : ∀ s a t, I s → P s → d s a → step s a = some t → (P t ↔ c s a)) {s t : σ}
    {as : List α} (hI : I s) (hP : P s) (hd : EveryStep step d s as) (h : run step s as = some t) :
    EveryState step P s as ↔ EveryStep step c s as := by
  induction as generalizing s with
  | nil => exact iff_of_true hP trivial
  | cons a as ih =>
    obtain ⟨m, hm, hrest⟩ := run_cons_iff.1 h
    obtain ⟨hda, hd⟩ := (everyStep_cons_of_step hm).1 hd
    rw [everyState_cons_of_step hm, everyStep_cons_of_step hm]
    have hIm : I m := hinv s a m hI hda hm
    have hiff : P m ↔ c s a := hdec s a m hI hP hda hm
    constructor
    · rintro ⟨-, hrun⟩
      have hPm : P m := hrun.head
      exact ⟨hiff.1 hPm, (ih hIm hPm hd hrest).1 hrun⟩
    · rintro ⟨hca, hrun⟩
      have hPm : P m := hiff.2 hca
      exact ⟨hP, (ih hIm hPm hd hrest).2 hrun⟩

/-- The same with no condition on the steps. -/
theorem everyState_iff_everyStep {I P : σ → Prop} {c : σ → α → Prop}
    (hinv : ∀ s a t, I s → step s a = some t → I t)
    (hdec : ∀ s a t, I s → P s → step s a = some t → (P t ↔ c s a)) {s t : σ} {as : List α}
    (hI : I s) (hP : P s) (h : run step s as = some t) :
    EveryState step P s as ↔ EveryStep step c s as :=
  everyState_iff_everyStep_guarded (d := fun _ _ => True)
    (fun s a t hI _ hst => hinv s a t hI hst) (fun s a t hI hP _ hst => hdec s a t hI hP hst)
    hI hP (everyStep_of_forall fun _ _ _ => trivial) h

/-- A quantity that each step raises by the weight of its action is raised by a run by the total
weight of its actions. -/
theorem run_weight {M : Type*} [AddMonoid M] {m : σ → M} {w : α → M}
    (hstep : ∀ s a t, step s a = some t → m t = m s + w a) {s t : σ} {as : List α}
    (h : run step s as = some t) : m t = m s + (as.map w).sum := by
  induction as generalizing s with
  | nil =>
    cases h
    simp
  | cons a as ih =>
    obtain ⟨n, hn, hrest⟩ := run_cons_iff.1 h
    rw [ih hrest, hstep s a n hn, List.map_cons, List.sum_cons, add_assoc]

end LetItGo.Library.Runs
