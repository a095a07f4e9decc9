import Mathlib.Algebra.BigOperators.Ring.Finset
import LetItGo.Components.Reviews
import LetItGo.Systems.DetailsPage

/-!
# The average, the list and the empty message

Over a collection whose documents were all written by `submitReview`, every snapshot holds scores
from 1 to 5, the score of a review without stars being 3. So the average of a snapshot that is not
empty is a number from 1 to 5, hence true, and that of an empty one is `NaN`, hence false: what
`ReviewRatings` shows agrees with the list.
-/

set_option autoImplicit false

namespace LetItGo.Properties.AverageAgreement

open LetItGo.Library.Js
open LetItGo.Library.DocumentStore
open LetItGo.Library.Rounding
open LetItGo.Library.Runs
open LetItGo.Components
open LetItGo.Components.ReviewSubmissionScreen
open LetItGo.Components.DetailsScreen
open LetItGo.Components.Reviews
open LetItGo.Systems.DetailsPage

/-- The document is one that `submitReview` writes, with stars tapped or without. -/
def Submitted (doc : ReviewDoc) : Prop :=
  ∃ user now ref text, ∃ rating : Option Star, ∃ d : DocRef,
    submitReview user now ref text (rating.map Star.val) = .ok (d, doc)

/-- The mean of the scores. -/
def mean (reviews : List LoadedReview) : ℚ :=
  (reviews.map fun review => (review.score : ℚ)).sum / reviews.length

/-- What the page shows agrees with its list: the list is newest first, the message stands for the
empty list and only for it, and else the average is the exact mean of the listed scores and the
label is near it and in range. -/
structure RatingsAgree (st : DetailsScreen.State) : Prop where
  newestFirst : st.reviews.Pairwise fun a b => b.date.time ≤ a.date.time
  message : reviewRatings st.avgRating = .beTheFirst ↔ st.reviews = []
  average : st.reviews ≠ [] → st.avgRating = some (.finite (mean st.reviews)) ∧
    ∃ label : ℚ, reviewRatings st.avgRating = .rating (.finite (mean st.reviews)) (.finite label) ∧
      |label - mean st.reviews| ≤ 1 / 20 ∧ 1 ≤ label ∧ label ≤ 5

/-- The instant of a stored review, in whole milliseconds. -/
def storedMillis (doc : ReviewDoc) : ℤ :=
  doc.review.date.seconds * 1000 + doc.review.date.nanoseconds / 1000000

/-- The review of the list is the one that the document holds. -/
structure ShownOf (doc : ReviewDoc) (review : LoadedReview) : Prop where
  photoURL : review.photoURL = doc.review.photoURL
  date : review.date.time = storedMillis doc
  id : review.id = doc.review.id
  name : review.name = doc.review.name
  text : review.review = doc.review.review
  score : review.score = doc.review.score
  uid : review.uid = doc.review.uid

/-- The list shows the documents, each once, in the order of their dates, the newest first. -/
def Lists (docs : List ReviewDoc) (reviews : List LoadedReview) : Prop :=
  ∃ stored : List ReviewDoc, stored.Perm docs ∧
    stored.Pairwise (fun a b => storedMillis b ≤ storedMillis a) ∧ List.Forall₂ ShownOf stored reviews

theorem submitted_score {doc : ReviewDoc} (h : Submitted doc) :
    1 ≤ doc.review.score ∧ doc.review.score ≤ 5 := by
  obtain ⟨user, now, ref, text, rating, d, hsubmit⟩ := h
  have hscore : doc.review.score = (rating.map Star.val).getD 3 := submitReview_star hsubmit
  rw [hscore]
  cases rating with
  | none => decide
  | some k => exact ⟨k.one_le, k.le_five⟩

/-! ## The list of a snapshot -/

theorem shownOf_loadReview (doc : ReviewDoc) : ShownOf doc (loadReview doc) :=
  ⟨rfl, rfl, rfl, rfl, rfl, rfl, rfl⟩

theorem pairwise_stored {stored : List ReviewDoc} {reviews : List LoadedReview}
    (h : List.Forall₂ ShownOf stored reviews)
    (hsorted : reviews.Pairwise fun a b => b.date.time ≤ a.date.time) :
    stored.Pairwise fun a b => storedMillis b ≤ storedMillis a := by
  have hdates : stored.map storedMillis = reviews.map fun review => review.date.time := by
    induction h with
    | nil => rfl
    | cons hrow _ ih =>
      rw [List.map_cons, List.map_cons, ih (List.pairwise_cons.1 hsorted).2, hrow.date]
  have hmillis : (reviews.map fun review => review.date.time).Pairwise fun s t : ℤ => t ≤ s :=
    List.pairwise_map.2 hsorted
  rw [← hdates] at hmillis
  exact List.pairwise_map.1 hmillis

/-- What a snapshot loads as shows its documents. -/
theorem lists_loadReviews (docs : List ReviewDoc) : Lists docs (loadReviews docs) := by
  have hshown : List.Forall₂ (fun review doc => ShownOf doc review) (docs.map loadReview) docs :=
    List.forall₂_map_left_iff.2 (List.forall₂_same.2 fun doc _ => shownOf_loadReview doc)
  -- the sort moves the documents with their reviews
  obtain ⟨stored, hrows, hperm⟩ := List.perm_comp_forall₂ (loadReviews_perm docs) hshown
  have hrows' : List.Forall₂ ShownOf stored (loadReviews docs) := hrows.flip
  exact ⟨stored, hperm, pairwise_stored hrows' (loadReviews_newest_first docs), hrows'⟩

/-! ## The average of a snapshot -/

theorem averageRating_nil : averageRating [] = .nan := rfl

/-- The loop and the division compute the exact mean. -/
theorem averageRating_eq_mean {reviews : List LoadedReview} (h : reviews ≠ []) :
    averageRating reviews = .finite (mean reviews) := by
  have hlen : ((reviews.length : ℕ) : ℚ) ≠ 0 := by
    rw [Nat.cast_ne_zero, Ne, List.length_eq_zero_iff]
    exact h
  have hsum : (((reviews.map LoadedReview.score).sum : ℕ) : ℚ) =
      (reviews.map fun review => (review.score : ℚ)).sum := by
    rw [Nat.cast_list_sum, List.map_map]
    rfl
  rw [averageRating, countStars_eq, div, if_neg hlen, hsum]
  rfl

theorem mean_mem_Icc_of_scores {reviews : List LoadedReview} (h : reviews ≠ [])
    (hscores : ∀ review ∈ reviews, 1 ≤ review.score ∧ review.score ≤ 5) :
    mean reviews ∈ Set.Icc (1 : ℚ) 5 := by
  have hbounds : ∀ x ∈ reviews.map fun review => (review.score : ℚ), x ∈ Set.Icc (1 : ℚ) 5 := by
    intro x hx
    obtain ⟨review, hreview, rfl⟩ := List.mem_map.1 hx
    obtain ⟨hone, hfive⟩ := hscores review hreview
    exact ⟨by exact_mod_cast hone, by exact_mod_cast hfive⟩
  have hmean := mean_mem_Icc (l := reviews.map fun review => (review.score : ℚ)) (by simpa using h)
    hbounds
  rw [List.length_map] at hmean
  exact hmean

/-- An average between 1 and 5 is shown, with a label near it. -/
theorem reviewRatings_finite {q : ℚ} (h : q ∈ Set.Icc (1 : ℚ) 5) :
    ∃ label : ℚ, reviewRatings (some (.finite q)) = .rating (.finite q) (.finite label) ∧
      |label - q| ≤ 1 / 20 ∧ 1 ≤ label ∧ label ≤ 5 := by
  have htruthy : (Number.finite q).truthy = true := by
    have hq : q ≠ 0 := by
      rintro rfl
      exact absurd h.1 (by norm_num)
    simp [Number.truthy, hq]
  have hnear : |roundTo 10 q - q| ≤ 1 / (2 * (10 : ℕ)) := abs_roundTo_sub_le (by norm_num) q
  have hrange : roundTo 10 q ∈ Set.Icc (((1 : ℤ) : ℚ)) ((5 : ℤ) : ℚ) :=
    roundTo_mem_Icc (by norm_num) (by exact_mod_cast h)
  refine ⟨roundTo 10 q, by simp [reviewRatings, htruthy, ratingLabel], ?_, ?_, ?_⟩
  · norm_num at hnear ⊢
    exact hnear
  · exact_mod_cast hrange.1
  · exact_mod_cast hrange.2

/-- What a snapshot of submitted documents becomes. -/
theorem ratingsAgree_of_snapshot {st : DetailsScreen.State} {docs : List ReviewDoc}
    (hdocs : ∀ doc ∈ docs, Submitted doc) (hreviews : st.reviews = loadReviews docs)
    (havg : st.avgRating = some (averageRating (loadReviews docs))) : RatingsAgree st := by
  have hshown : loadReviews docs ≠ [] →
      mean (loadReviews docs) ∈ Set.Icc (1 : ℚ) 5 := by
    intro hne
    apply mean_mem_Icc_of_scores hne
    intro review hreview
    obtain ⟨doc, hdoc, rfl⟩ := mem_loadReviews.1 hreview
    exact submitted_score (hdocs doc hdoc)
  constructor
  case newestFirst =>
    rw [hreviews]
    exact loadReviews_newest_first docs
  case message =>
    rw [havg, hreviews]
    by_cases hnil : loadReviews docs = []
    · -- `0 / 0` is falsy
      rw [hnil, averageRating_nil]
      exact iff_of_true rfl rfl
    · -- a mean of at least 1 is not
      obtain ⟨label, hlabel, -⟩ := reviewRatings_finite (hshown hnil)
      rw [averageRating_eq_mean hnil, hlabel]
      simp [hnil]
  case average =>
    rw [havg, hreviews]
    intro hne
    rw [averageRating_eq_mean hne]
    exact ⟨rfl, reviewRatings_finite (hshown hne)⟩

theorem ratingsAgree_of_nothing {st : DetailsScreen.State} (hreviews : st.reviews = [])
    (havg : st.avgRating = none) : RatingsAgree st where
  newestFirst := by simp [hreviews]
  message := by simp [hreviews, havg, reviewRatings]
  average := fun hne => absurd hreviews hne

/-! ## In every reachable state -/

/-- In every run over collections of submitted documents: the list is empty, as it is at first, or
shows the documents of the collection as it was at first or at some moment of the run, all their fields
and the newest first; and the average, the list and the message agree. -/
theorem ratings_agree {content : List ReviewDoc} {as : List Action} {p : Page}
    (hcontent : ∀ doc ∈ content, Submitted doc)
    (hwrites : ∀ c, Action.write c ∈ as → ∀ doc ∈ c, Submitted doc)
    (hrun : run Page.step (Page.mount content) as = some p) :
    (p.details.state.reviews = [] ∨ ∃ docs, (docs = content ∨ Action.write docs ∈ as) ∧
        Lists docs p.details.state.reviews) ∧
      RatingsAgree p.details.state := by
  have hlast : p.ShowsLast := Page.showsLast_run hrun
  have htaken : p.Holds fun docs => docs = content ∨ Action.write docs ∈ as :=
    Page.holds_run (Or.inl rfl) (fun c hc => Or.inr hc) hrun
  unfold Page.ShowsLast at hlast
  split at hlast
  · -- no read has succeeded
    obtain ⟨hreviews, havg⟩ := hlast
    exact ⟨Or.inl hreviews, ratingsAgree_of_nothing hreviews havg⟩
  · next r hr =>
    obtain ⟨hreviews, havg⟩ := hlast
    have hdocs : r.2 = content ∨ Action.write r.2 ∈ as :=
      htaken.succeeded r (List.mem_of_getLast? hr)
    refine ⟨Or.inr ⟨r.2, hdocs, ?_⟩, ratingsAgree_of_snapshot ?_ hreviews havg⟩
    · rw [hreviews]
      exact lists_loadReviews r.2
    · rcases hdocs with hdocs | hdocs
      · rw [hdocs]
        exact hcontent
      · exact hwrites r.2 hdocs

/-- A review without stars, by a user without a name. -/
def withoutStars : ReviewDoc := ⟨⟨⟨1, 500000000⟩, none, none, none, "clean", 3, "u1"⟩⟩

theorem submitted_withoutStars : Submitted withoutStars :=
  ⟨some ⟨"u1", none, none⟩, ⟨1, 500000000⟩, ReviewSubmissionScreen.constructorRef ⟨none, none⟩,
    "clean", none, _, rfl⟩

/-- The review is written before the first read takes the collection: it is listed as it is stored,
and the average is 3. -/
theorem ratings_agree_one_review :
    ∃ p, run Page.step (Page.mount []) [.write [withoutStars], .take 0, .succeed 0] = some p ∧
      p.details.state.reviews = [⟨none, ⟨1500⟩, none, none, "clean", 3, "u1"⟩] ∧
      p.details.state.avgRating = some (.finite 3) ∧ RatingsAgree p.details.state := by
  refine ⟨_, rfl, by decide, by decide +kernel, ?_⟩
  refine (@ratings_agree [] [.write [withoutStars], .take 0, .succeed 0] _ (by simp) ?_ rfl).2
  intro c hc doc hdoc
  obtain rfl : c = [withoutStars] := by simpa using hc
  obtain rfl := List.mem_singleton.1 hdoc
  exact submitted_withoutStars

end LetItGo.Properties.AverageAgreement
