import Mathlib.Data.List.Basic
import Mathlib.Data.List.InsertIdx

/-!
# Outstanding reads

A client issues reads of a changing content and gets their answers later, in any order. Each read
takes the content at one moment between its issue and its answer (`Reads.take`), and is answered
with what it took (`Reads.answer`) or fails (`Reads.fail`). A read is addressed by its position
among the reads still outstanding; its `number` is its place in the order of issue.

`Reads.Holds P` says that every content taken by an outstanding read satisfies `P`, `Reads.InOrder`
that the outstanding reads stand in the order of issue. The lemmas give, for each operation, what it
does to the two counts and that it keeps both.
-/

set_option autoImplicit false

namespace LetItGo.Library.AsyncReads

universe u

variable {S : Type u}

/-- An outstanding read: its number in the order of issue and the content it has taken, if any. -/
structure PendingRead (S : Type u) where
  number : ℕ
  taken : Option S
  deriving DecidableEq

/-- The reads issued so far, counted, and those among them still outstanding. -/
structure Reads (S : Type u) where
  issued : ℕ
  pending : List (PendingRead S)
  deriving DecidableEq

namespace Reads

/-- No read issued. -/
def idle : Reads S := ⟨0, []⟩

/-- Issue the next read. -/
def issue (r : Reads S) : Reads S :=
  ⟨r.issued + 1, r.pending ++ [⟨r.issued, none⟩]⟩

/-- The outstanding read at position `i` takes the content `s`; a read takes a content once. -/
def take (r : Reads S) (i : ℕ) (s : S) : Option (Reads S) :=
  match r.pending[i]? with
  | some ⟨n, none⟩ => some ⟨r.issued, r.pending.set i ⟨n, some s⟩⟩
  | _ => none

/-- The outstanding read at position `i` is answered: its number, the content it took, and the
reads left. -/
def answer (r : Reads S) (i : ℕ) : Option (ℕ × S × Reads S) :=
  match r.pending[i]? with
  | some ⟨n, some s⟩ => some (n, s, ⟨r.issued, r.pending.eraseIdx i⟩)
  | _ => none

/-- The outstanding read at position `i` fails. -/
def fail (r : Reads S) (i : ℕ) : Option (Reads S) :=
  if i < r.pending.length then some ⟨r.issued, r.pending.eraseIdx i⟩ else none

/-- Every content taken by an outstanding read satisfies `P`. -/
def Holds (P : S → Prop) (r : Reads S) : Prop :=
  ∀ p ∈ r.pending, ∀ s, p.taken = some s → P s

/-! ## Each operation by its result -/

theorem take_eq_some {r r' : Reads S} {i : ℕ} {s : S} (h : r.take i s = some r') :
    ∃ n, r.pending[i]? = some ⟨n, none⟩ ∧ r' = ⟨r.issued, r.pending.set i ⟨n, some s⟩⟩ := by
  unfold take at h
  split at h
  · next n hn => exact ⟨n, hn, (Option.some.inj h).symm⟩
  · cases h

theorem answer_eq_some {r r' : Reads S} {i n : ℕ} {s : S} (h : r.answer i = some (n, s, r')) :
    r.pending[i]? = some ⟨n, some s⟩ ∧ r' = ⟨r.issued, r.pending.eraseIdx i⟩ := by
  unfold answer at h
  split at h
  · next m t hp =>
    cases h
    exact ⟨hp, rfl⟩
  · cases h

theorem fail_eq_some {r r' : Reads S} {i : ℕ} (h : r.fail i = some r') :
    i < r.pending.length ∧ r' = ⟨r.issued, r.pending.eraseIdx i⟩ := by
  unfold fail at h
  split at h
  · next hi => exact ⟨hi, (Option.some.inj h).symm⟩
  · cases h

/-! ## Counts -/

theorem issue_counts (r : Reads S) :
    r.issue.issued = r.issued + 1 ∧ r.issue.pending.length = r.pending.length + 1 :=
  ⟨rfl, List.length_append⟩

theorem take_counts {r r' : Reads S} {i : ℕ} {s : S} (h : r.take i s = some r') :
    r'.issued = r.issued ∧ r'.pending.length = r.pending.length := by
  obtain ⟨n, -, rfl⟩ := take_eq_some h
  exact ⟨rfl, List.length_set⟩

theorem answer_counts {r r' : Reads S} {i n : ℕ} {s : S} (h : r.answer i = some (n, s, r')) :
    r'.issued = r.issued ∧ r'.pending.length + 1 = r.pending.length := by
  obtain ⟨hp, rfl⟩ := answer_eq_some h
  obtain ⟨hi, -⟩ := List.getElem?_eq_some_iff.1 hp
  exact ⟨rfl, List.length_eraseIdx_add_one hi⟩

theorem fail_counts {r r' : Reads S} {i : ℕ} (h : r.fail i = some r') :
    r'.issued = r.issued ∧ r'.pending.length + 1 = r.pending.length := by
  obtain ⟨hi, rfl⟩ := fail_eq_some h
  exact ⟨rfl, List.length_eraseIdx_add_one hi⟩

/-! ## Numbers -/

/-- The numbers of the outstanding reads. -/
def numbers (r : Reads S) : List ℕ := r.pending.map PendingRead.number

/-- The outstanding reads stand in the order of issue. -/
structure InOrder (r : Reads S) : Prop where
  sorted : r.numbers.Pairwise (· < ·)
  lt_issued : ∀ n ∈ r.numbers, n < r.issued

theorem take_numbers {r r' : Reads S} {i : ℕ} {s : S} (h : r.take i s = some r') :
    r'.numbers = r.numbers := by
  obtain ⟨n, hn, rfl⟩ := take_eq_some h
  obtain ⟨hi, hget⟩ := List.getElem?_eq_some_iff.1 hn
  have hlength : i < r.numbers.length := by simpa [numbers] using hi
  have hsame : n = r.numbers[i] := by simp [numbers, hget]
  simp only [numbers, List.map_set]
  rw [hsame]
  exact List.set_getElem_self _

theorem answer_numbers {r r' : Reads S} {i n : ℕ} {s : S} (h : r.answer i = some (n, s, r')) :
    r.numbers[i]? = some n ∧ r'.numbers = r.numbers.eraseIdx i := by
  obtain ⟨hp, rfl⟩ := answer_eq_some h
  exact ⟨by simp [numbers, hp], by simp [numbers, List.eraseIdx_map]⟩

theorem fail_numbers {r r' : Reads S} {i : ℕ} (h : r.fail i = some r') :
    r'.numbers = r.numbers.eraseIdx i := by
  obtain ⟨-, rfl⟩ := fail_eq_some h
  simp [numbers, List.eraseIdx_map]

theorem inOrder_idle : (idle : Reads S).InOrder := ⟨List.Pairwise.nil, by simp [idle, numbers]⟩

theorem InOrder.issue {r : Reads S} (h : r.InOrder) : r.issue.InOrder := by
  have hnumbers : r.issue.numbers = r.numbers ++ [r.issued] := by simp [numbers, Reads.issue]
  constructor
  · rw [hnumbers]
    exact List.pairwise_append.2 ⟨h.sorted, List.pairwise_singleton _ _, by simpa using h.lt_issued⟩
  · intro n hn
    rw [hnumbers] at hn
    rcases List.mem_append.1 hn with hn | hn
    · exact Nat.lt_succ_of_lt (h.lt_issued n hn)
    · rw [List.mem_singleton.1 hn]
      exact Nat.lt_succ_self _

theorem InOrder.take {r r' : Reads S} {i : ℕ} {s : S} (h : r.InOrder) (ht : r.take i s = some r') :
    r'.InOrder := by
  have hnumbers := take_numbers ht
  obtain ⟨hissued, -⟩ := take_counts ht
  exact ⟨hnumbers ▸ h.sorted, by rw [hnumbers, hissued]; exact h.lt_issued⟩

theorem InOrder.answer {r r' : Reads S} {i n : ℕ} {s : S} (h : r.InOrder)
    (ha : r.answer i = some (n, s, r')) : r'.InOrder ∧ n < r.issued ∧ n ∉ r'.numbers := by
  obtain ⟨hn, hnumbers⟩ := answer_numbers ha
  obtain ⟨hissued, -⟩ := answer_counts ha
  refine ⟨⟨?_, ?_⟩, h.lt_issued n (List.mem_of_getElem? hn), ?_⟩
  · rw [hnumbers]
    exact h.sorted.sublist (List.eraseIdx_sublist _ _)
  · rw [hnumbers, hissued]
    exact fun m hm => h.lt_issued m (List.mem_of_mem_eraseIdx hm)
  · -- no number occurs twice
    rw [hnumbers, List.mem_eraseIdx_iff_getElem?]
    rintro ⟨j, hji, hj⟩
    have hnodup : r.numbers.Nodup := h.sorted.imp fun hlt => Nat.ne_of_lt hlt
    obtain ⟨hlt, -⟩ := List.getElem?_eq_some_iff.1 hj
    exact hji ((List.getElem?_inj hlt hnodup).1 (hj.trans hn.symm))

theorem InOrder.fail {r r' : Reads S} {i : ℕ} (h : r.InOrder) (hf : r.fail i = some r') :
    r'.InOrder := by
  have hnumbers := fail_numbers hf
  obtain ⟨hissued, -⟩ := fail_counts hf
  constructor
  · rw [hnumbers]
    exact h.sorted.sublist (List.eraseIdx_sublist _ _)
  · rw [hnumbers, hissued]
    exact fun m hm => h.lt_issued m (List.mem_of_mem_eraseIdx hm)

/-! ## What the outstanding reads hold -/

theorem holds_idle (P : S → Prop) : (idle : Reads S).Holds P := by
  intro p hp
  cases hp

theorem Holds.imp {P Q : S → Prop} {r : Reads S} (h : r.Holds P) (hPQ : ∀ s, P s → Q s) :
    r.Holds Q :=
  fun p hp s hs => hPQ s (h p hp s hs)

theorem Holds.issue {P : S → Prop} {r : Reads S} (h : r.Holds P) : r.issue.Holds P := by
  intro p hp s hs
  rcases List.mem_append.1 hp with hp | hp
  · exact h p hp s hs
  · obtain rfl := List.mem_singleton.1 hp
    cases hs

theorem Holds.take {P : S → Prop} {r r' : Reads S} {i : ℕ} {s : S} (h : r.Holds P) (hs : P s)
    (ht : r.take i s = some r') : r'.Holds P := by
  obtain ⟨n, -, rfl⟩ := take_eq_some ht
  intro p hp t hpt
  rcases List.mem_or_eq_of_mem_set hp with hp | rfl
  · exact h p hp t hpt
  · cases hpt
    exact hs

/-- What a read is answered with satisfies `P`, and so does what the others hold. -/
theorem Holds.answer {P : S → Prop} {r r' : Reads S} {i n : ℕ} {s : S} (h : r.Holds P)
    (ha : r.answer i = some (n, s, r')) : P s ∧ r'.Holds P := by
  obtain ⟨hp, rfl⟩ := answer_eq_some ha
  have hmem := List.mem_of_getElem? hp
  exact ⟨h _ hmem s rfl, fun p hp t ht => h p (List.mem_of_mem_eraseIdx hp) t ht⟩

theorem Holds.fail {P : S → Prop} {r r' : Reads S} {i : ℕ} (h : r.Holds P)
    (hf : r.fail i = some r') : r'.Holds P := by
  obtain ⟨-, rfl⟩ := fail_eq_some hf
  exact fun p hp t ht => h p (List.mem_of_mem_eraseIdx hp) t ht

end Reads

end LetItGo.Library.AsyncReads
