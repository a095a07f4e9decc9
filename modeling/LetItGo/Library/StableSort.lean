import LetItGo.Library.Js

/-!
# Sorting one list several times

`sort` is stable: for each element, the elements that the comparator does not tell from it come out
in the order in which they went in (`filter_tied_sort`). Together with the order of the result this
determines it (`eq_of_pairwise_of_filter_tied`), so a sort by one comparator after a sort by another
is one sort that breaks the ties of the second by the first (`sort_sort`), and it does not matter
whether a list is filtered before or after it is sorted (`filter_sort`).
-/

set_option autoImplicit false

namespace LetItGo.Library.Js

universe u

variable {α : Type u}

/-- The comparator does not tell `b` from `a`. -/
def tied (compare : α → α → ℤ) (a b : α) : Bool :=
  compare a b ≤ 0 ∧ compare b a ≤ 0

/-- Compare by `c`, and by `d` what `c` does not tell apart. -/
def thenBy (c d : α → α → ℤ) (a b : α) : ℤ :=
  if tied c a b then d a b else c a b

variable {c d : α → α → ℤ}

@[simp] theorem tied_iff {a b : α} : tied c a b = true ↔ c a b ≤ 0 ∧ c b a ≤ 0 :=
  decide_eq_true_iff

theorem tied_comm (a b : α) : tied c a b = tied c b a := by
  simp only [tied, and_comm]

theorem IsComparator.tied_self (h : IsComparator c) (a : α) : tied c a a = true := by
  have hself : c a a ≤ 0 := (h.total a a).elim id id
  exact tied_iff.2 ⟨hself, hself⟩

theorem IsComparator.tied_trans (h : IsComparator c) {a b e : α} (hab : tied c a b = true)
    (hbe : tied c b e = true) : tied c a e = true := by
  rw [tied_iff] at *
  exact ⟨h.trans a b e hab.1 hbe.1, h.trans e b a hbe.2 hab.2⟩

theorem thenBy_nonpos {a b : α} :
    thenBy c d a b ≤ 0 ↔ c a b ≤ 0 ∧ (c b a ≤ 0 → d a b ≤ 0) := by
  by_cases htied : tied c a b = true
  · rw [thenBy, if_pos htied]
    rw [tied_iff] at htied
    exact ⟨fun h => ⟨htied.1, fun _ => h⟩, fun h => h.2 htied.2⟩
  · rw [thenBy, if_neg htied]
    rw [tied_iff, not_and] at htied
    exact ⟨fun h => ⟨h, fun hba => absurd hba (htied h)⟩, And.left⟩

theorem tied_thenBy (a b : α) : tied (thenBy c d) a b = (tied c a b && tied d a b) := by
  rw [Bool.eq_iff_iff, Bool.and_eq_true, tied_iff, tied_iff, tied_iff, thenBy_nonpos,
    thenBy_nonpos]
  constructor
  · rintro ⟨⟨hab, hd⟩, hba, hd'⟩
    exact ⟨⟨hab, hba⟩, hd hba, hd' hab⟩
  · rintro ⟨⟨hab, hba⟩, hd, hd'⟩
    exact ⟨⟨hab, fun _ => hd⟩, hba, fun _ => hd'⟩

theorem isComparator_thenBy (hc : IsComparator c) (hd : IsComparator d) :
    IsComparator (thenBy c d) where
  total a b := by
    rw [thenBy_nonpos, thenBy_nonpos]
    have hcab := hc.total a b
    have hdab := hd.total a b
    tauto
  trans a b e := by
    rw [thenBy_nonpos, thenBy_nonpos, thenBy_nonpos]
    rintro ⟨hab, hdab⟩ ⟨hbe, hdbe⟩
    refine ⟨hc.trans a b e hab hbe, fun hea => ?_⟩
    -- a tie of the outer two ties the middle one to both
    have hba : c b a ≤ 0 := hc.trans b e a hbe hea
    have heb : c e b ≤ 0 := hc.trans e a b hea hab
    exact hd.trans a b e (hdab hba) (hdbe heb)

/-! ## Stability -/

theorem filter_tied_orderedInsert (h : IsComparator c) (a b : α) (l : List α) :
    (l.orderedInsert (fun x y => c x y ≤ 0) b).filter (tied c a) =
      (b :: l).filter (tied c a) := by
  induction l with
  | nil => rfl
  | cons x l ih =>
    rw [List.orderedInsert_cons]
    by_cases hbx : c b x ≤ 0
    · rw [if_pos hbx]
    · rw [if_neg hbx]
      by_cases hb : tied c a b = true
      · -- the element passed over is greater, so it is not one of those tied with `a`
        have hx : ¬ tied c a x = true := by
          intro hx
          rw [tied_comm] at hb
          exact hbx (tied_iff.1 (h.tied_trans hb hx)).1
        rw [List.filter_cons_of_neg hx, ih, List.filter_cons_of_pos hb, List.filter_cons_of_pos hb,
          List.filter_cons_of_neg hx]
      · rw [List.filter_cons, ih, List.filter_cons_of_neg hb, List.filter_cons_of_neg hb,
          List.filter_cons]

/-- The elements tied with `a` keep their order. -/
theorem filter_tied_sort (h : IsComparator c) (a : α) (l : List α) :
    (sort c l).filter (tied c a) = l.filter (tied c a) := by
  induction l with
  | nil => rfl
  | cons b l ih =>
    have hinsert : (sort c (b :: l)).filter (tied c a) = (b :: sort c l).filter (tied c a) :=
      filter_tied_orderedInsert h a b (sort c l)
    rw [hinsert, List.filter_cons, List.filter_cons, ih]

theorem mem_iff_of_filter_tied (h : IsComparator c) {l m : List α}
    (hties : ∀ a, l.filter (tied c a) = m.filter (tied c a)) (a : α) : a ∈ l ↔ a ∈ m := by
  have hfilter : a ∈ l.filter (tied c a) ↔ a ∈ m.filter (tied c a) := by rw [hties a]
  simpa only [List.mem_filter, h.tied_self a, and_true] using hfilter

/-- The first element of an ordered list is at or before each of its elements. -/
theorem head_nonpos (h : IsComparator c) {x a : α} {l : List α}
    (hl : (x :: l).Pairwise fun a b => c a b ≤ 0) (ha : a ∈ x :: l) : c x a ≤ 0 := by
  rcases List.mem_cons.1 ha with rfl | ha
  · exact (tied_iff.1 (h.tied_self a)).1
  · exact List.rel_of_pairwise_cons hl ha

/-- Two ordered lists with the same elements in each tie are equal. -/
theorem eq_of_pairwise_of_filter_tied (h : IsComparator c) {l m : List α}
    (hl : l.Pairwise fun a b => c a b ≤ 0) (hm : m.Pairwise fun a b => c a b ≤ 0)
    (hties : ∀ a, l.filter (tied c a) = m.filter (tied c a)) : l = m := by
  have hmem := mem_iff_of_filter_tied h hties
  induction l generalizing m with
  | nil =>
    cases m with
    | nil => rfl
    | cons y m => exact absurd ((hmem y).2 List.mem_cons_self) List.not_mem_nil
  | cons x l ih =>
    cases m with
    | nil => exact absurd ((hmem x).1 List.mem_cons_self) List.not_mem_nil
    | cons y m =>
      -- each head is at or before the other, so they stand first in one and the same tie
      have hxy : tied c x y = true :=
        tied_iff.2 ⟨head_nonpos h hl ((hmem y).2 List.mem_cons_self),
          head_nonpos h hm ((hmem x).1 List.mem_cons_self)⟩
      have hheads := hties x
      rw [List.filter_cons_of_pos (h.tied_self x), List.filter_cons_of_pos hxy,
        List.cons.injEq] at hheads
      obtain ⟨rfl, -⟩ := hheads
      have htails : ∀ a, l.filter (tied c a) = m.filter (tied c a) := by
        intro a
        have ha := hties a
        by_cases hax : tied c a x = true
        · rw [List.filter_cons_of_pos hax, List.filter_cons_of_pos hax, List.cons.injEq] at ha
          exact ha.2
        · rwa [List.filter_cons_of_neg hax, List.filter_cons_of_neg hax] at ha
      rw [ih hl.of_cons hm.of_cons htails (mem_iff_of_filter_tied h htails)]

/-! ## What one sort makes of another -/

/-- A comparator counts by the signs of its results only. -/
theorem sort_congr (h : ∀ a b, c a b ≤ 0 ↔ d a b ≤ 0) (l : List α) : sort c l = sort d l := by
  have hrel : (fun a b => c a b ≤ 0) = fun a b => d a b ≤ 0 := by
    funext a b
    exact propext (h a b)
  unfold sort
  congr

/-- A list that is ordered by `d` is, once sorted by `c`, ordered by `c` and then by `d`. -/
theorem sort_pairwise_thenBy (h : IsComparator c) {l : List α}
    (hl : l.Pairwise fun a b => d a b ≤ 0) :
    (sort c l).Pairwise fun a b => thenBy c d a b ≤ 0 := by
  rw [List.pairwise_iff_forall_sublist]
  intro a b hsub
  have hab : c a b ≤ 0 := (sort_pairwise h l).forall_sublist hsub
  refine thenBy_nonpos.2 ⟨hab, fun hba => ?_⟩
  -- a tied pair stands in the same order in the list that was sorted
  have hpair : [a, b].filter (tied c a) = [a, b] := by
    rw [List.filter_eq_self]
    intro x hx
    rcases List.mem_cons.1 hx with rfl | hx
    · exact h.tied_self x
    · rw [List.mem_singleton.1 hx]
      exact tied_iff.2 ⟨hab, hba⟩
  have hbefore : [a, b].Sublist l := by
    rw [← hpair]
    apply (hsub.filter (tied c a)).trans
    rw [filter_tied_sort h]
    exact List.filter_sublist
  exact hl.forall_sublist hbefore

/-- To sort by `d` and then by `c` is to sort by `c` with the ties broken by `d`. -/
theorem sort_sort (hc : IsComparator c) (hd : IsComparator d) (l : List α) :
    sort c (sort d l) = sort (thenBy c d) l := by
  have hthen := isComparator_thenBy hc hd
  apply eq_of_pairwise_of_filter_tied hthen
  · exact sort_pairwise_thenBy hc (sort_pairwise hd l)
  · exact sort_pairwise hthen l
  · intro a
    have hboth : tied (thenBy c d) a = fun b => tied d a b && tied c a b := by
      funext b
      rw [tied_thenBy, Bool.and_comm]
    -- each sort keeps the order of what both comparators tie
    calc (sort c (sort d l)).filter (tied (thenBy c d) a)
        = ((sort c (sort d l)).filter (tied c a)).filter (tied d a) := by
          rw [hboth, List.filter_filter]
      _ = ((sort d l).filter (tied d a)).filter (tied c a) := by
          rw [filter_tied_sort hc, List.filter_comm]
      _ = (l.filter (tied c a)).filter (tied d a) := by rw [filter_tied_sort hd, List.filter_comm]
      _ = l.filter (tied (thenBy c d) a) := by rw [hboth, List.filter_filter]
      _ = (sort (thenBy c d) l).filter (tied (thenBy c d) a) := (filter_tied_sort hthen a l).symm

/-- Ties of a comparator cannot be broken by the comparator itself. -/
theorem sort_thenBy_same (l : List α) : sort (thenBy c c) l = sort c l := by
  apply sort_congr
  intro a b
  rw [thenBy_nonpos]
  tauto

theorem sort_thenBy_self (l : List α) : sort (thenBy c (thenBy c d)) l = sort (thenBy c d) l := by
  apply sort_congr
  intro a b
  rw [thenBy_nonpos, thenBy_nonpos]
  tauto

/-- Of three sorts, the first by the comparator of the last, the first one leaves no trace. -/
theorem sort_thenBy_thenBy (l : List α) :
    sort (thenBy c (thenBy d c)) l = sort (thenBy c d) l := by
  apply sort_congr
  intro a b
  rw [thenBy_nonpos, thenBy_nonpos, thenBy_nonpos]
  tauto

/-- Filtering commutes with sorting. -/
theorem filter_sort (h : IsComparator c) (p : α → Bool) (l : List α) :
    (sort c l).filter p = sort c (l.filter p) := by
  apply eq_of_pairwise_of_filter_tied h
  · exact (sort_pairwise h l).filter p
  · exact sort_pairwise h _
  · intro a
    rw [filter_tied_sort h, List.filter_comm, filter_tied_sort h, List.filter_comm]

end LetItGo.Library.Js
