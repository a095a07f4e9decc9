import Mathlib.Data.List.Sort
import Mathlib.Data.Rat.Floor
import Mathlib.Algebra.Order.Round

/-!
# JavaScript values and array methods

The parts of the language that the components use: truthiness, division of numbers, exceptions,
and the array methods `sort` and `filter`. Finite numbers are exact rationals; `0 / 0` is `NaN`.

`sort` is a stable sort by a comparator; with a consistent comparator its result is ordered
(`sort_pairwise`). `filter` runs a predicate that can throw over the elements in order and throws
at the first element whose predicate does (`exists_filter_eq_ok_iff`).
-/

set_option autoImplicit false

namespace LetItGo.Library.Js

universe u

variable {α : Type u}

/-! ## Values -/

/-- A number, finite ones taken exactly. -/
inductive Number where
  | nan
  | infinity (negative : Bool)
  | finite (q : ℚ)
  deriving DecidableEq, Repr

/-- `NaN` and zero are falsy. -/
def Number.truthy : Number → Bool
  | .nan => false
  | .infinity _ => true
  | .finite q => q ≠ 0

/-- `a / b`. -/
def div (a b : ℚ) : Number :=
  if b = 0 then
    if a = 0 then .nan else .infinity (a < 0)
  else .finite (a / b)

/-- A primitive value; an absent property reads as `undefined`. -/
inductive Value where
  | undefined
  | null
  | boolean (b : Bool)
  | number (n : Number)
  | string (s : String)
  deriving DecidableEq, Repr

def Value.truthy : Value → Bool
  | .undefined => false
  | .null => false
  | .boolean b => b
  | .number n => n.truthy
  | .string s => s ≠ ""

/-- The test `v != null`: true of everything but `undefined` and `null`. -/
def Value.notNull : Value → Bool
  | .undefined => false
  | .null => false
  | _ => true

/-- A point in time, in milliseconds since the epoch. -/
structure Date where
  time : ℤ
  deriving DecidableEq, Repr

/-- What a piece of code can throw: a read of a property of `undefined` or `null` (or a call of it),
named by the expression, the reason a promise was rejected with, or an argument that a library does
not take. -/
inductive Exception where
  | typeError (expression : String)
  | rejected (reason : String)
  | invalidArgument (argument : String)
  deriving DecidableEq, Repr

/-! ## `Array.prototype.sort` -/

/-- `l.sort(compare)`: stable, by the sign of the comparator. -/
def sort (compare : α → α → ℤ) (l : List α) : List α :=
  l.insertionSort fun a b => compare a b ≤ 0

/-- A comparator that orders its arguments: total and transitive. -/
structure IsComparator (compare : α → α → ℤ) : Prop where
  total : ∀ a b, compare a b ≤ 0 ∨ compare b a ≤ 0
  trans : ∀ a b c, compare a b ≤ 0 → compare b c ≤ 0 → compare a c ≤ 0

/-- Comparing by the difference of an integer key. -/
theorem isComparator_sub (key : α → ℤ) : IsComparator fun a b => key a - key b where
  total a b := by omega
  trans a b c hab hbc := by omega

theorem sort_perm (compare : α → α → ℤ) (l : List α) : (sort compare l).Perm l :=
  List.perm_insertionSort _ l

@[simp] theorem mem_sort {compare : α → α → ℤ} {l : List α} {a : α} :
    a ∈ sort compare l ↔ a ∈ l :=
  (sort_perm compare l).mem_iff

theorem sort_pairwise {compare : α → α → ℤ} (h : IsComparator compare) (l : List α) :
    (sort compare l).Pairwise fun a b => compare a b ≤ 0 := by
  have : Std.Total fun a b => compare a b ≤ 0 := ⟨h.total⟩
  have : IsTrans α fun a b => compare a b ≤ 0 := ⟨h.trans⟩
  exact List.pairwise_insertionSort _ l

/-! ## `Array.prototype.filter` -/

/-- `l.filter(p)` with a predicate that can throw. -/
def filter (p : α → Except Exception Bool) : List α → Except Exception (List α)
  | [] => .ok []
  | a :: l =>
    match p a with
    | .error e => .error e
    | .ok b =>
      match filter p l with
      | .error e => .error e
      | .ok m => .ok (if b then a :: m else m)

/-- A predicate that does not throw on the list filters as the Boolean predicate it computes. -/
theorem filter_eq_ok {p : α → Except Exception Bool} {q : α → Bool} {l : List α}
    (h : ∀ a ∈ l, p a = .ok (q a)) : filter p l = .ok (l.filter q) := by
  induction l with
  | nil => rfl
  | cons a l ih =>
    have ha : p a = .ok (q a) := h a List.mem_cons_self
    have hl : filter p l = .ok (l.filter q) := ih fun b hb => h b (List.mem_cons_of_mem a hb)
    simp only [filter, ha, hl, List.filter_cons]

/-- What `filter` returns is in the order of the list. -/
theorem filter_sublist {p : α → Except Exception Bool} {l m : List α} (h : filter p l = .ok m) :
    m.Sublist l := by
  induction l generalizing m with
  | nil =>
    cases h
    exact List.Sublist.refl _
  | cons a l ih =>
    cases ha : p a with
    | error e => simp [filter, ha] at h
    | ok b =>
      cases hl : filter p l with
      | error e => simp [filter, ha, hl] at h
      | ok m' =>
        simp only [filter, ha, hl, Except.ok.injEq] at h
        subst h
        cases b with
        | false => exact (ih hl).cons a
        | true => exact (ih hl).cons_cons a

/-- `filter` returns exactly when the predicate throws on no element. -/
theorem exists_filter_eq_ok_iff {p : α → Except Exception Bool} {l : List α} :
    (∃ m, filter p l = .ok m) ↔ ∀ a ∈ l, ∃ b, p a = .ok b := by
  constructor
  · induction l with
    | nil =>
      intro _ a ha
      cases ha
    | cons a l ih =>
      rintro ⟨m, hm⟩
      -- an error at the head or in the tail is the result
      cases ha : p a with
      | error e => simp [filter, ha] at hm
      | ok b =>
        cases hl : filter p l with
        | error e => simp [filter, ha, hl] at hm
        | ok m' =>
          intro c hc
          rcases List.mem_cons.1 hc with rfl | hc
          · exact ⟨b, ha⟩
          · exact ih ⟨m', hl⟩ c hc
  · intro h
    refine ⟨l.filter fun a => p a matches .ok true, filter_eq_ok fun a ha => ?_⟩
    obtain ⟨b, hb⟩ := h a ha
    rw [hb]
    cases b <;> rfl

end LetItGo.Library.Js
