import LetItGo.Library.Runs

/-!
# What a run emits

Each step of a partial machine emits a list of events, and a run emits those of its steps in order
(`trace`). An invariant that relates the events emitted so far to the state is carried along every
run (`run_history`). When the events are actions of a second machine, and each step is matched by
the actions it emits, a run is matched by its trace (`run_simulates`): the second machine is an
abstraction of the first, and a step that emits nothing is one that it does not see.
-/

set_option autoImplicit false

namespace LetItGo.Library.Traces

open LetItGo.Library.Runs

universe u v w x

variable {σ : Type u} {α : Type v} {β : Type w} {τ : Type x}

section

variable (step : σ → α → Option σ) (emit : σ → α → List β)

/-- The events of a run, in order; the actions from one that is not enabled emit none. -/
def trace : σ → List α → List β
  | _, [] => []
  | s, a :: as =>
    match step s a with
    | none => []
    | some t => emit s a ++ trace t as

end

variable {step : σ → α → Option σ} {emit : σ → α → List β}

@[simp] theorem trace_nil (s : σ) : trace step emit s [] = [] := rfl

theorem trace_cons_of_step {s t : σ} {a : α} {as : List α} (h : step s a = some t) :
    trace step emit s (a :: as) = emit s a ++ trace step emit t as := by
  simp [trace, h]

/-- A trace splits where the run does. -/
theorem trace_append {s m : σ} {as bs : List α} (h : run step s as = some m) :
    trace step emit s (as ++ bs) = trace step emit s as ++ trace step emit m bs := by
  induction as generalizing s with
  | nil =>
    cases h
    rfl
  | cons a as ih =>
    obtain ⟨n, hn, hrest⟩ := run_cons_iff.1 h
    rw [List.cons_append, trace_cons_of_step hn, trace_cons_of_step hn, ih hrest, List.append_assoc]

/-- What holds of every event that the steps of a run can emit holds of its events. -/
theorem forall_mem_trace {I : σ → Prop} {P : β → Prop} {as : List α}
    (hinv : ∀ s, ∀ a ∈ as, ∀ t, I s → step s a = some t → I t)
    (hemit : ∀ s, ∀ a ∈ as, ∀ t, I s → step s a = some t → ∀ e ∈ emit s a, P e) {s : σ} (hs : I s) :
    ∀ e ∈ trace step emit s as, P e := by
  induction as generalizing s with
  | nil =>
    intro e he
    cases he
  | cons a as ih =>
    intro e he
    cases hstep : step s a with
    | none => simp [trace, hstep] at he
    | some t =>
      rw [trace_cons_of_step hstep] at he
      rcases List.mem_append.1 he with he | he
      · exact hemit s a List.mem_cons_self t hs hstep e he
      · exact ih (fun s b hb => hinv s b (List.mem_cons_of_mem a hb))
          (fun s b hb => hemit s b (List.mem_cons_of_mem a hb))
          (hinv s a List.mem_cons_self t hs hstep) e he

/-- An invariant of the events emitted so far and the state holds at the end of every run. -/
theorem run_history {I : List β → σ → Prop}
    (hstep : ∀ l s a t, I l s → step s a = some t → I (l ++ emit s a) t) {l : List β} {s t : σ}
    {as : List α} (hs : I l s) (h : run step s as = some t) :
    I (l ++ trace step emit s as) t := by
  induction as generalizing l s with
  | nil =>
    cases h
    simpa using hs
  | cons a as ih =>
    obtain ⟨m, hm, hrest⟩ := run_cons_iff.1 h
    rw [trace_cons_of_step hm, ← List.append_assoc]
    exact ih (hstep l s a m hs hm) hrest

/-- **Simulation.** Where each step is matched by a run of the events it emits, a run is matched by
a run of its trace. -/
theorem run_simulates {step' : τ → β → Option τ} {R : σ → τ → Prop}
    (hstep : ∀ s a t s', R s s' → step s a = some t →
      ∃ t', run step' s' (emit s a) = some t' ∧ R t t') {s t : σ} {s' : τ} {as : List α}
    (hs : R s s') (h : run step s as = some t) :
    ∃ t', run step' s' (trace step emit s as) = some t' ∧ R t t' := by
  have hkeep : ∀ l m a n, (∃ m', run step' s' l = some m' ∧ R m m') → step m a = some n →
      ∃ n', run step' s' (l ++ emit m a) = some n' ∧ R n n' := by
    rintro l m a n ⟨m', hm', hR⟩ hmn
    obtain ⟨n', hn', hR'⟩ := hstep m a n m' hR hmn
    exact ⟨n', run_append_iff.2 ⟨m', hm', hn'⟩, hR'⟩
  have hnil : ∃ m', run step' s' [] = some m' ∧ R s m' := ⟨s', rfl, hs⟩
  exact run_history (I := fun l m => ∃ m', run step' s' l = some m' ∧ R m m') hkeep hnil h

end LetItGo.Library.Traces
