import LetItGo.Library.Runs
import LetItGo.Components.ReviewItem
import LetItGo.Components.Reviews

/-!
# The rows of the lower list

The collapsed lower list, for a signed-in user, with its `ReviewItem`s. The `FlatList` has no
`keyExtractor` and the reviews no `key`, so a row's key is its index: after a refresh the row
components are those of the same indices, whatever reviews they show now. Beside the rows the system
counts how often each review has been tapped since it was last not displayed.
-/

set_option autoImplicit false

namespace LetItGo.Systems.ReviewRows

open LetItGo.Library.Js
open LetItGo.Components
open LetItGo.Components.SignIn (User)
open LetItGo.Components.ReviewSubmissionScreen (ReviewDoc)
open LetItGo.Components.DetailsScreen (LoadedReview loadReview loadReviews loadReviews_perm)

/-- The row components after a render with `n` rows: those with an index that was there stay, others
are new. -/
def rowsAfter (rows : List ReviewItem.State) (n : ℕ) : List ReviewItem.State :=
  (List.range n).map fun i => rows[i]?.getD ReviewItem.State.initial

/-- The reviews that the list displays to the user. -/
def displayed (user : User) (reviews : List LoadedReview) : List LoadedReview :=
  (reviews.take 5).filter fun review => review.uid ≠ user.uid

/-- `props.reviews`, the rows, and for each user's review the taps on it while displayed. -/
structure LowerList where
  reviews : List LoadedReview
  rows : List ReviewItem.State
  taps : String → ℕ

/-- Before any reviews have loaded. -/
def LowerList.initial : LowerList := ⟨[], [], fun _ => 0⟩

inductive Action where
  /-- a tap on the text in row `i` -/
  | tap (i : ℕ)
  /-- a read of the collection answers with `docs` -/
  | refresh (docs : List ReviewDoc)
  deriving DecidableEq

/-- The documents of a collection have different authors. -/
def LowerList.step (user : User) (s : LowerList) : Action → Option LowerList
  | .tap i =>
    match (displayed user s.reviews)[i]?, s.rows[i]? with
    | some review, some row =>
      some { s with
        rows := s.rows.set i row.press
        taps := Function.update s.taps review.uid (s.taps review.uid + 1) }
    | _, _ => none
  | .refresh docs =>
    if (docs.map fun doc => doc.review.uid).Nodup then
      some
        { reviews := loadReviews docs
          rows := rowsAfter s.rows (displayed user (loadReviews docs)).length
          -- a review that comes in anew has not been tapped
          taps := fun uid =>
            if uid ∈ (displayed user s.reviews).map LoadedReview.uid then s.taps uid else 0 }
    else none

variable {user : User}

/-- The list that `render` passes to the lower `FlatList`. -/
theorem renderReviews_eq_displayed (props : Reviews.Props) {st : Reviews.State}
    (hst : st.expandAll = false) :
    Reviews.renderReviews props st (some user) = .ok (displayed user props.reviews) :=
  Reviews.renderReviews_collapsed props hst user

theorem rowsAfter_length (rows : List ReviewItem.State) (n : ℕ) : (rowsAfter rows n).length = n := by
  simp [rowsAfter]

theorem rowsAfter_getElem? {rows : List ReviewItem.State} {n i : ℕ} (h : i < n) :
    (rowsAfter rows n)[i]? = some (rows[i]?.getD ReviewItem.State.initial) := by
  simp [rowsAfter, h]

theorem displayed_nodup {reviews : List LoadedReview} (h : (reviews.map LoadedReview.uid).Nodup) :
    ((displayed user reviews).map LoadedReview.uid).Nodup := by
  have hsub : (displayed user reviews).Sublist reviews :=
    List.filter_sublist.trans (List.take_sublist 5 reviews)
  exact h.sublist (hsub.map LoadedReview.uid)

theorem loadReviews_nodup {docs : List ReviewDoc}
    (h : (docs.map fun doc => doc.review.uid).Nodup) :
    ((loadReviews docs).map LoadedReview.uid).Nodup := by
  rw [((loadReviews_perm docs).map LoadedReview.uid).nodup_iff, List.map_map]
  exact h

/-- There is a row for each displayed review, and one review for each user. -/
structure Inv (user : User) (s : LowerList) : Prop where
  rows : s.rows.length = (displayed user s.reviews).length
  nodup : (s.reviews.map LoadedReview.uid).Nodup

theorem inv_initial : Inv user LowerList.initial := ⟨rfl, List.nodup_nil⟩

/-- A tap presses the row of a displayed review and counts for this review. -/
theorem step_tap {s t : LowerList} {i : ℕ} (h : s.step user (.tap i) = some t) :
    ∃ review row, (displayed user s.reviews)[i]? = some review ∧ s.rows[i]? = some row ∧
      t = { s with
        rows := s.rows.set i row.press
        taps := Function.update s.taps review.uid (s.taps review.uid + 1) } := by
  simp only [LowerList.step] at h
  split at h
  · next review row hreview hrow =>
    cases h
    exact ⟨review, row, hreview, hrow, rfl⟩
  · cases h

theorem inv_step (s : LowerList) (a : Action) (t : LowerList) (h : Inv user s)
    (hstep : s.step user a = some t) : Inv user t := by
  cases a with
  | tap i =>
    obtain ⟨review, row, -, -, rfl⟩ := step_tap hstep
    exact ⟨by simpa using h.rows, h.nodup⟩
  | refresh docs =>
    obtain ⟨hdocs, heq⟩ := Option.ite_none_right_eq_some.1 hstep
    cases heq
    exact ⟨rowsAfter_length _ _, loadReviews_nodup hdocs⟩

end LetItGo.Systems.ReviewRows
