import LetItGo.Systems.ReviewRows

/-!
# Expansion and the rows

The flag `expandText` stays with the row's index, while a refresh can put another review there. So
the flags follow the reviews exactly as long as every refresh brings each review to a row with the
flag it had before, and a review that was not displayed to one that is not expanded. What is to be
seen of the flags are the texts that are cut.
-/

set_option autoImplicit false

namespace LetItGo.Properties.RowExpansion

open LetItGo.Library.Runs
open LetItGo.Components
open LetItGo.Components.SignIn (User)
open LetItGo.Components.ReviewSubmissionScreen (ReviewDoc)
open LetItGo.Components.DetailsScreen (LoadedReview loadReview loadReviews loadReviews_perm)
open LetItGo.Systems.ReviewRows

/-- A displayed review is expanded exactly if it has been tapped an odd number of times since it was
last not displayed. -/
def Follows (user : User) (s : LowerList) : Prop :=
  ∀ (i : ℕ) (review : LoadedReview) (row : ReviewItem.State),
    (displayed user s.reviews)[i]? = some review → s.rows[i]? = some row →
    (row.expandText = true ↔ s.taps review.uid % 2 = 1)

/-- The flag of the row at an index, of a new row if there is none. -/
def expandedAt (s : LowerList) (i : ℕ) : Bool :=
  (s.rows[i]?.getD ReviewItem.State.initial).expandText

/-- The flag of the row that displays the user's review, false if none does. -/
def expandedOf (user : User) (s : LowerList) (uid : String) : Bool :=
  match (displayed user s.reviews).findIdx? fun review => review.uid = uid with
  | some i => expandedAt s i
  | none => false

/-- The condition on a step: a refresh brings each review to a row with the flag that it has. -/
def keepsFlags (user : User) (s : LowerList) : Action → Bool
  | .tap _ => true
  | .refresh docs =>
    (displayed user (loadReviews docs)).zipIdx.all fun x =>
      expandedAt s x.2 == expandedOf user s x.1.uid

variable {user : User}

/-- While the flags follow the reviews, the flag of a review tells whether it has been tapped an odd
number of times, and that of a review not displayed is false. -/
theorem expandedOf_iff {s : LowerList} (hinv : Inv user s) (h : Follows user s) (uid : String) :
    expandedOf user s uid = true ↔
      (if uid ∈ (displayed user s.reviews).map LoadedReview.uid then s.taps uid else 0) % 2 = 1 := by
  unfold expandedOf
  split
  · next i hi =>
    obtain ⟨hlt, huid, -⟩ := List.findIdx?_eq_some_iff_getElem.1 hi
    have huid' : (displayed user s.reviews)[i].uid = uid := by simpa using huid
    have hrow : i < s.rows.length := by
      rw [hinv.rows]
      exact hlt
    have hmem : uid ∈ (displayed user s.reviews).map LoadedReview.uid := by
      rw [← huid']
      exact List.mem_map_of_mem (List.getElem_mem hlt)
    rw [if_pos hmem, expandedAt, List.getElem?_eq_getElem hrow, ← huid']
    exact h i _ _ (List.getElem?_eq_getElem hlt) (List.getElem?_eq_getElem hrow)
  · next hnone =>
    have hmem : uid ∉ (displayed user s.reviews).map LoadedReview.uid := by
      intro hmem
      obtain ⟨review, hreview, rfl⟩ := List.mem_map.1 hmem
      simpa using List.findIdx?_eq_none_iff.1 hnone review hreview
    simp [hmem]

/-- A tap changes the flag of one row and the count of its review alone. -/
theorem follows_tap {s t : LowerList} {i : ℕ} (hinv : Inv user s) (h : Follows user s)
    (hstep : s.step user (.tap i) = some t) : Follows user t := by
  obtain ⟨review, row, hreview, hrow, rfl⟩ := step_tap hstep
  have hi : i < s.rows.length := (List.getElem?_eq_some_iff.1 hrow).1
  intro j review' row' hreview' hrow'
  by_cases hij : i = j
  · subst hij
    rw [hreview] at hreview'
    cases hreview'
    rw [List.getElem?_set_self hi] at hrow'
    cases hrow'
    have hbefore := h i review row hreview hrow
    simp only [Function.update_self, ReviewItem.State.press]
    cases hflag : row.expandText with
    | false =>
      rw [hflag] at hbefore
      simp only [Bool.false_eq_true, false_iff] at hbefore
      simp
      omega
    | true =>
      rw [hflag] at hbefore
      simp only [true_iff] at hbefore
      simp
      omega
  · -- another user's review
    have hother : review'.uid ≠ review.uid := by
      intro hsame
      apply hij
      have hlt : i < ((displayed user s.reviews).map LoadedReview.uid).length := by
        rw [List.length_map, ← hinv.rows]
        exact hi
      apply (List.getElem?_inj hlt (displayed_nodup hinv.nodup)).1
      rw [List.getElem?_map, List.getElem?_map, hreview, hreview', Option.map_some,
        Option.map_some, hsame]
    rw [List.getElem?_set_ne hij] at hrow'
    simp only [Function.update_of_ne hother]
    exact h j review' row' hreview' hrow'

/-- The condition on a refresh, review by review. -/
theorem keepsFlags_refresh_iff {s : LowerList} {docs : List ReviewDoc} (hinv : Inv user s)
    (h : Follows user s) :
    keepsFlags user s (.refresh docs) = true ↔
      ∀ (i : ℕ) (review : LoadedReview), (displayed user (loadReviews docs))[i]? = some review →
        (expandedAt s i = true ↔
          (if review.uid ∈ (displayed user s.reviews).map LoadedReview.uid then s.taps review.uid
            else 0) % 2 = 1) := by
  simp only [keepsFlags, List.all_eq_true, Prod.forall, List.mk_mem_zipIdx_iff_getElem?, beq_iff_eq]
  constructor
  · intro hkeeps i review hreview
    rw [hkeeps review i hreview]
    exact expandedOf_iff hinv h review.uid
  · intro hkeeps review i hreview
    rw [Bool.eq_iff_iff, expandedOf_iff hinv h]
    exact hkeeps i review hreview

/-- After a refresh the flags follow the reviews exactly if it brings each review to a row with its
flag. -/
theorem follows_refresh {s t : LowerList} {docs : List ReviewDoc} (hinv : Inv user s)
    (h : Follows user s) (hstep : s.step user (.refresh docs) = some t) :
    Follows user t ↔ keepsFlags user s (.refresh docs) = true := by
  obtain ⟨-, heq⟩ := Option.ite_none_right_eq_some.1 hstep
  cases heq
  have hrow : ∀ {i review}, (displayed user (loadReviews docs))[i]? = some review →
      (rowsAfter s.rows (displayed user (loadReviews docs)).length)[i]? =
        some (s.rows[i]?.getD ReviewItem.State.initial) :=
    fun hreview => rowsAfter_getElem? (List.getElem?_eq_some_iff.1 hreview).1
  rw [keepsFlags_refresh_iff hinv h]
  constructor
  · intro hfollows i review hreview
    exact hfollows i review _ hreview (hrow hreview)
  · intro hkeeps i review row hreview hrow'
    rw [hrow hreview] at hrow'
    cases hrow'
    exact hkeeps i review hreview

theorem follows_initial : Follows user LowerList.initial := by
  intro i review row hreview
  simp [LowerList.initial, displayed] at hreview

/-- For every sequence of taps and refreshes: in all its states the expanded reviews are those tapped
an odd number of times, exactly if every refresh brings each review to a row with its flag. -/
theorem everyState_follows_iff {as : List Action} {s : LowerList}
    (hrun : run (LowerList.step user) LowerList.initial as = some s) :
    EveryState (LowerList.step user) (Follows user) LowerList.initial as ↔
      EveryStep (LowerList.step user) (fun s a => keepsFlags user s a = true) LowerList.initial
        as := by
  apply everyState_iff_everyStep inv_step _ inv_initial follows_initial hrun
  intro s a t hinv hfollows hstep
  cases a with
  | tap i => exact iff_of_true (follows_tap hinv hfollows hstep) rfl
  | refresh docs => exact follows_refresh hinv hfollows hstep

/-! ## The texts -/

/-- Of the list that `render` passes to the lower `FlatList` while it is collapsed: a text that is not
short enough to stand there anyway is shown in full exactly if its review has been tapped an odd
number of times since it was last not displayed. -/
def ShownByTaps (user : User) (s : LowerList) : Prop :=
  ∀ (props : Reviews.Props) (st : Reviews.State) (list : List LoadedReview),
    props.reviews = s.reviews → st.expandAll = false →
    Reviews.renderReviews props st (some user) = .ok list →
    ∀ (i : ℕ) (review : LoadedReview) (row : ReviewItem.State),
      list[i]? = some review → s.rows[i]? = some row → ReviewItem.IsCut review →
      (ReviewItem.shownText row review = ReviewItem.codeUnits review.review ↔
        s.taps review.uid % 2 = 1)

theorem shownByTaps_iff {s : LowerList} : ShownByTaps user s ↔
    ∀ (i : ℕ) (review : LoadedReview) (row : ReviewItem.State),
      (displayed user s.reviews)[i]? = some review → s.rows[i]? = some row →
      ReviewItem.IsCut review → (row.expandText = true ↔ s.taps review.uid % 2 = 1) := by
  constructor
  · intro h i review row hreview hrow hcut
    have hshown := h ⟨none, s.reviews, ""⟩ Reviews.State.mounted _ rfl rfl
      (renderReviews_eq_displayed _ rfl) i review row hreview hrow hcut
    rw [← hshown, ReviewItem.shownText_eq_iff]
    exact ⟨fun hexpanded _ => hexpanded, fun hexpanded => hexpanded hcut⟩
  · intro h props st list hprops hst hlist i review row hreview hrow hcut
    rw [renderReviews_eq_displayed props hst, hprops] at hlist
    cases hlist
    rw [← h i review row hreview hrow hcut, ReviewItem.shownText_eq_iff]
    exact ⟨fun hexpanded => hexpanded hcut, fun hexpanded _ => hexpanded⟩

theorem Follows.shownByTaps {s : LowerList} (h : Follows user s) : ShownByTaps user s :=
  shownByTaps_iff.2 fun i review row hreview hrow _ => h i review row hreview hrow

/-- All reviews that a refresh brings have texts to be cut. -/
def BringsCut : Action → Prop
  | .tap _ => True
  | .refresh docs => ∀ doc ∈ docs, ReviewItem.IsCut (loadReview doc)

/-- All loaded reviews have. -/
def AllCut (s : LowerList) : Prop := ∀ review ∈ s.reviews, ReviewItem.IsCut review

theorem allCut_step {s t : LowerList} {a : Action} (h : AllCut s) (ha : BringsCut a)
    (hstep : s.step user a = some t) : AllCut t := by
  cases a with
  | tap i =>
    obtain ⟨review, row, -, -, rfl⟩ := step_tap hstep
    exact h
  | refresh docs =>
    obtain ⟨-, heq⟩ := Option.ite_none_right_eq_some.1 hstep
    cases heq
    intro review hreview
    obtain ⟨doc, hdoc, rfl⟩ := List.mem_map.1 ((loadReviews_perm docs).mem_iff.1 hreview)
    exact ha doc hdoc

/-- Then the flags are all to be seen. -/
theorem AllCut.shownByTaps_iff {s : LowerList} (h : AllCut s) :
    ShownByTaps user s ↔ Follows user s := by
  constructor
  · intro hshown i review row hreview hrow
    have hmem : review ∈ s.reviews :=
      List.mem_of_mem_take (List.mem_filter.1 (List.mem_of_getElem? hreview)).1
    exact RowExpansion.shownByTaps_iff.1 hshown i review row hreview hrow (h review hmem)
  · exact Follows.shownByTaps

/-- For every sequence of taps and refreshes: if every refresh brings each review to a row with its
flag, the texts that can be cut are in all states shown in full exactly if their reviews have been
tapped an odd number of times. When all texts can be cut, this is so only if. -/
theorem everyState_shownByTaps {as : List Action} {s : LowerList}
    (hrun : run (LowerList.step user) LowerList.initial as = some s) :
    (EveryStep (LowerList.step user) (fun s a => keepsFlags user s a = true) LowerList.initial as →
      EveryState (LowerList.step user) (ShownByTaps user) LowerList.initial as) ∧
    ((∀ a ∈ as, BringsCut a) →
      EveryState (LowerList.step user) (ShownByTaps user) LowerList.initial as →
      EveryStep (LowerList.step user) (fun s a => keepsFlags user s a = true) LowerList.initial
        as) := by
  constructor
  · intro hkeeps
    exact ((everyState_follows_iff hrun).2 hkeeps).imp fun _ h => h.shownByTaps
  · intro hcut
    have hiff := everyState_iff_everyStep_guarded
      (I := fun s => Inv user s ∧ AllCut s) (P := ShownByTaps user)
      (c := fun s a => keepsFlags user s a = true) (d := fun _ a => BringsCut a) ?_ ?_
      ⟨inv_initial, by simp [AllCut, LowerList.initial]⟩ follows_initial.shownByTaps
      (everyStep_of_forall fun _ => hcut) hrun
    · exact hiff.1
    · rintro s a t ⟨hinv, hall⟩ ha hstep
      exact ⟨inv_step s a t hinv hstep, allCut_step hall ha hstep⟩
    · rintro s a t ⟨hinv, hall⟩ hshown ha hstep
      rw [(allCut_step hall ha hstep).shownByTaps_iff]
      have hfollows := hall.shownByTaps_iff.1 hshown
      cases a with
      | tap i => exact iff_of_true (follows_tap hinv hfollows hstep) rfl
      | refresh docs => exact follows_refresh hinv hfollows hstep

/-- A review of 150 characters. -/
def longText (uid : String) (seconds : ℤ) : ReviewDoc :=
  ⟨⟨⟨seconds, 0⟩, none, none, none, String.ofList (List.replicate 150 'a'), 4, uid⟩⟩

theorem isCut_longText (uid : String) (seconds : ℤ) :
    ReviewItem.IsCut (loadReview (longText uid seconds)) := by
  apply ReviewItem.isCut_of_length
  have hlength : (ReviewItem.codeUnits (String.ofList (List.replicate 150 'a'))).length = 150 := by
    rw [ReviewItem.codeUnits, String.toList_ofList, List.length_flatMap, List.map_replicate,
      List.sum_replicate]
    rfl
  simp only [loadReview, longText, hlength]
  decide

/-- A user without a review. -/
def reader : User := ⟨"u0", none, none⟩

/-- The older of two reviews is tapped, and a third, older still, comes in below. -/
theorem shownByTaps_added_below :
    EveryState (LowerList.step reader) (ShownByTaps reader) LowerList.initial
      [.refresh [longText "u1" 2, longText "u2" 3], .tap 1,
        .refresh [longText "u1" 2, longText "u2" 3, longText "u3" 1]] :=
  (@everyState_shownByTaps reader _ _ rfl).1 (by decide)

/-- The one review is tapped, and then a newer one comes in above it: the newer one is shown in full,
and the one that was tapped is cut. -/
theorem not_shownByTaps_added_above :
    ∃ s, run (LowerList.step reader) LowerList.initial
        [.refresh [longText "u1" 2], .tap 0, .refresh [longText "u1" 2, longText "u2" 3]] = some s ∧
      (displayed reader s.reviews)[0]? = some (loadReview (longText "u2" 3)) ∧
      (displayed reader s.reviews)[1]? = some (loadReview (longText "u1" 2)) ∧
      s.rows = [⟨true⟩, ⟨false⟩] ∧ s.taps "u2" = 0 ∧ s.taps "u1" = 1 ∧
      ReviewItem.shownText ⟨true⟩ (loadReview (longText "u2" 3)) =
        ReviewItem.codeUnits (loadReview (longText "u2" 3)).review ∧
      ReviewItem.shownText ⟨false⟩ (loadReview (longText "u1" 2)) ≠
        ReviewItem.codeUnits (loadReview (longText "u1" 2)).review ∧
      ¬ ShownByTaps reader s := by
  refine ⟨_, rfl, rfl, rfl, by decide, by decide, by decide, ?_, ?_, ?_⟩
  · rw [ReviewItem.shownText_eq_iff]
    exact fun _ => rfl
  · rw [Ne, ReviewItem.shownText_eq_iff]
    intro h
    exact absurd (h (isCut_longText "u1" 2)) (by decide)
  · intro h
    have hfirst := shownByTaps_iff.1 h 0 _ _ rfl rfl (isCut_longText "u2" 3)
    revert hfirst
    decide

end LetItGo.Properties.RowExpansion
