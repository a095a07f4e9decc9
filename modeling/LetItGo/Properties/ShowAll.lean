import Mathlib.Logic.Function.Iterate
import LetItGo.Components.Reviews

/-!
# Show all, and hide

The collapsed list is cut to five before the own review is taken out, and the button's label looks
at the length of the whole list. So the collapsed list is always a beginning of the others' reviews,
and the label is right unless the sixth review is the last and the user's own. The expanded list is
never there: its branch calls a property that does not exist.
-/

set_option autoImplicit false

namespace LetItGo.Properties.ShowAll

open LetItGo.Library.Js
open LetItGo.Components.SignIn
open LetItGo.Components.DetailsScreen (LoadedReview)
open LetItGo.Components.Reviews

/-- The reviews that are not the user's. -/
def others (reviews : List LoadedReview) (user : User) : List LoadedReview :=
  reviews.filter fun review => review.uid ≠ user.uid

/-- The lower list and its button do what they are for: the list renders, expanded it holds the
others' reviews, collapsed a beginning of them, and the button has a label exactly if the collapsed
list leaves one of them out. -/
def Works (props : Props) (user : User) (st : State) : Prop :=
  (∃ shown, renderReviews props st (some user) = .ok shown ∧
    (st.expandAll = true → shown = others props.reviews user) ∧
    (st.expandAll = false → shown <+: others props.reviews user)) ∧
  ∃ collapsed, renderReviews props { st with expandAll := false } (some user) = .ok collapsed ∧
    (buttonTitle props st ≠ "" ↔ ∃ review ∈ others props.reviews user, review ∉ collapsed)

/-! ## The button -/

theorem buttonTitle_ne_iff (props : Props) (st : State) :
    buttonTitle props st ≠ "" ↔ 5 < props.reviews.length := by
  unfold buttonTitle
  split
  · next h => exact iff_of_false (by simp) (by omega)
  · next h =>
    refine iff_of_true ?_ (by omega)
    split <;> decide

/-! ## The collapsed list -/

theorem others_split (reviews : List LoadedReview) (user : User) :
    others reviews user = others (reviews.take 5) user ++ others (reviews.drop 5) user := by
  rw [others, others, others, ← List.filter_append, List.take_append_drop]

/-- With one review for each user, what the collapsed list leaves out comes after the fifth. -/
theorem left_out_iff {reviews : List LoadedReview} (h : (reviews.map LoadedReview.uid).Nodup)
    (user : User) :
    (∃ review ∈ others reviews user, review ∉ others (reviews.take 5) user) ↔
      ∃ review ∈ reviews.drop 5, review.uid ≠ user.uid := by
  constructor
  · rintro ⟨review, hmem, hnot⟩
    rw [others_split, List.mem_append] at hmem
    rcases hmem with hmem | hmem
    · exact absurd hmem hnot
    · obtain ⟨hmem, hother⟩ := List.mem_filter.1 hmem
      exact ⟨review, hmem, by simpa using hother⟩
  · rintro ⟨review, hmem, hother⟩
    refine ⟨review, ?_, ?_⟩
    · simpa [others, hother] using List.mem_of_mem_drop hmem
    · -- a review of the same user stands after the fifth
      intro hfirst
      rw [← List.take_append_drop 5 reviews, List.map_append, List.nodup_append] at h
      exact h.2.2 _ (List.mem_map_of_mem (List.mem_of_mem_filter hfirst)) _
        (List.mem_map_of_mem hmem) rfl

/-- Expanded the list throws. -/
theorem not_works_of_expanded {props : Props} {user : User} {st : State} (h : st.expandAll = true) :
    ¬ Works props user st := by
  rintro ⟨⟨shown, hrender, -⟩, -⟩
  simp [renderReviews, h] at hrender

/-- Collapsed the list is as it should be, and the button too unless its label offers reviews that are
all there. -/
theorem works_collapsed_iff {props : Props} (hone : (props.reviews.map LoadedReview.uid).Nodup)
    (user : User) {st : State} (h : st.expandAll = false) :
    Works props user st ↔
      props.reviews.length ≤ 5 ∨ ∃ review ∈ props.reviews.drop 5, review.uid ≠ user.uid := by
  have hcollapsed := renderReviews_collapsed props h user
  have hsame : ({ st with expandAll := false } : State) = st := by rw [← h]
  have hlabel : (5 < props.reviews.length ↔ ∃ review ∈ props.reviews.drop 5, review.uid ≠ user.uid) ↔
      (props.reviews.length ≤ 5 ∨ ∃ review ∈ props.reviews.drop 5, review.uid ≠ user.uid) := by
    by_cases hlen : props.reviews.length ≤ 5
    · have hdrop : props.reviews.drop 5 = [] := List.drop_eq_nil_of_le hlen
      simp [hlen, hdrop]
    · have hlt : 5 < props.reviews.length := by omega
      simp [hlen, hlt]
  rw [← hlabel, ← left_out_iff hone user, Works, hsame]
  constructor
  · rintro ⟨-, collapsed, hrender, htitle⟩
    rw [hcollapsed] at hrender
    cases hrender
    rw [← buttonTitle_ne_iff]
    exact htitle
  · intro htitle
    refine ⟨⟨_, hcollapsed, by simp [h], fun _ => ?_⟩, _, hcollapsed, ?_⟩
    · rw [others_split]
      exact List.prefix_append _ _
    · rw [buttonTitle_ne_iff]
      exact htitle

/-- The list and its button work from the first render to that after the last of `n` presses exactly
if there is no press, and either there are at most five reviews or one after the fifth is not the
user's. -/
theorem works_iff (props : Props) (hone : (props.reviews.map LoadedReview.uid).Nodup) (user : User)
    (auth : AuthState) (hasReview : Bool) (n : ℕ) :
    (∀ k ≤ n, Works props user (State.pressToggle^[k] ⟨auth, false, hasReview⟩)) ↔
      n = 0 ∧ (props.reviews.length ≤ 5 ∨
        ∃ review ∈ props.reviews.drop 5, review.uid ≠ user.uid) := by
  constructor
  · intro h
    refine ⟨?_, (works_collapsed_iff hone user rfl).1 (h 0 (Nat.zero_le n))⟩
    by_contra hn
    -- the first press expands the list
    exact not_works_of_expanded rfl (h 1 (Nat.one_le_iff_ne_zero.2 hn))
  · rintro ⟨rfl, hreviews⟩ k hk
    obtain rfl := Nat.le_zero.1 hk
    exact (works_collapsed_iff hone user rfl).2 hreviews

/-- A review of a user. -/
def reviewOf (uid : String) (time : ℤ) : LoadedReview :=
  ⟨none, ⟨time⟩, none, none, "clean", 4, uid⟩

/-- The card with seven reviews, the newest the user's own. -/
def sevenReviews : Props :=
  ⟨none, [reviewOf "u1" 7, reviewOf "u2" 6, reviewOf "u3" 5, reviewOf "u4" 4, reviewOf "u5" 3,
    reviewOf "u6" 2, reviewOf "u7" 1], "COM1"⟩

/-- As it is opened, the card with seven reviews works. -/
theorem works_sevenReviews :
    Works sevenReviews ⟨"u1", none, none⟩ ⟨AuthState.initial, false, false⟩ :=
  (works_iff sevenReviews (by decide) ⟨"u1", none, none⟩ AuthState.initial false 0).2 (by decide) 0
    (le_refl 0)

/-- One press makes the list throw; and before any press the last six of the seven reviews come with
the offer to show all to the author of the oldest, although the list shows all the others. -/
theorem not_works_expanded :
    ¬ Works sevenReviews ⟨"u1", none, none⟩
        (State.pressToggle^[1] ⟨AuthState.initial, false, false⟩) ∧
      ¬ Works { sevenReviews with reviews := sevenReviews.reviews.drop 1 } ⟨"u7", none, none⟩
        (State.pressToggle^[0] ⟨AuthState.initial, false, false⟩) := by
  constructor
  · exact not_works_of_expanded rfl
  · rintro ⟨-, collapsed, hrender, htitle⟩
    cases hrender
    obtain ⟨review, hmem, hnot⟩ := htitle.1 (by decide)
    exact hnot hmem

end LetItGo.Properties.ShowAll
