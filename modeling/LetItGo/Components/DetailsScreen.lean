import LetItGo.Library.AsyncReads
import LetItGo.Library.Js
import LetItGo.Components.ReviewSubmissionScreen

/-!
# DetailsScreen

The details page of a toilet, as far as it loads reviews: the constructor, `getReviewsData`, and the
component's updates. `getReviewsData` is called by `componentWillMount` and by every
`componentDidUpdate`, so each `setState` issues one more read.

`Details` is the mounted component with its outstanding reads. What a read answers with depends on
the collection's content when the read takes it, which is up to the system the page runs in.
-/

set_option autoImplicit false

namespace LetItGo.Components.DetailsScreen

open LetItGo.Library.AsyncReads
open LetItGo.Library.Js
open LetItGo.Library.DocumentStore
open LetItGo.Components.ReviewSubmissionScreen

/-- An element of `state.reviews`. -/
structure LoadedReview where
  photoURL : Option String
  date : Date
  id : Option String
  name : Option String
  review : String
  score : ℕ
  uid : String
  deriving DecidableEq, Repr

/-- The collection that the constructor keeps in `this.ref`, from the `title` parameter. -/
def constructorRef (title : Option String) : CollectionRef :=
  ((collection "reviews").doc (title.getD "COM1")).collection "users"

/-- The constructor, which throws if the client does not take the title for the id of a document. -/
def constructor (title : Option String) : Except Exception CollectionRef :=
  if isDocId (title.getD "COM1") then .ok (constructorRef title)
  else .error (.invalidArgument (title.getD "COM1"))

/-- The record that `getReviewsData` pushes for a document. -/
def loadReview (doc : ReviewDoc) : LoadedReview where
  photoURL := doc.review.photoURL
  date := doc.review.date.toDate
  id := doc.review.id
  name := doc.review.name
  review := doc.review.review
  score := doc.review.score
  uid := doc.review.uid

/-- The comparator of `getReviewsData`, newest first. -/
def compareDates (a b : LoadedReview) : ℤ := b.date.time - a.date.time

/-- The list that `getReviewsData` builds from a snapshot and sorts. -/
def loadReviews (docs : List ReviewDoc) : List LoadedReview :=
  sort compareDates (docs.map loadReview)

/-- The loop that counts the reviews and adds up their stars: `(reviewCount, totalStars)`. -/
def countStars (reviews : List LoadedReview) : ℕ × ℕ :=
  reviews.foldl (fun acc review => (acc.1 + 1, acc.2 + review.score)) (0, 0)

/-- `totalStars / reviewCount`. -/
def averageRating (reviews : List LoadedReview) : Number :=
  div (countStars reviews).2 (countStars reviews).1

/-- The fields of `this.state` that are read. `avgRating` is absent until a read succeeds. -/
structure State where
  isVisible : Bool
  reviews : List LoadedReview
  avgRating : Option Number
  deriving DecidableEq, Repr

/-- The constructor's state. -/
def State.initial : State := ⟨false, [], none⟩

/-- `setState({ reviews, avgRating })` at the end of a successful read. -/
def State.setReviews (st : State) (docs : List ReviewDoc) : State :=
  { st with reviews := loadReviews docs, avgRating := some (averageRating (loadReviews docs)) }

/-- The mounted component and its outstanding reads. -/
structure Details where
  state : State
  reads : Reads (List ReviewDoc)
  deriving DecidableEq

namespace Details

/-- `componentWillMount` issues the first read. -/
def mount : Details := ⟨State.initial, Reads.idle.issue⟩

/-- `setState`, and the read that `componentDidUpdate` issues after it. -/
def setState (d : Details) (st : State) : Details := ⟨st, d.reads.issue⟩

/-- A press on the panorama. -/
def openOverlay (d : Details) : Details := d.setState { d.state with isVisible := true }

/-- A press on the backdrop. -/
def closeOverlay (d : Details) : Details := d.setState { d.state with isVisible := false }

/-- New parameters or a transition of the navigator: an update without a `setState`. -/
def navigationUpdate (d : Details) : Details := d.setState d.state

/-- The read at position `i` takes the content `docs` of the collection. -/
def take (d : Details) (i : ℕ) (docs : List ReviewDoc) : Option Details :=
  (d.reads.take i docs).map fun reads => { d with reads }

/-- The read at position `i` succeeds: its number, its snapshot, and the component after it. -/
def succeed (d : Details) (i : ℕ) : Option (ℕ × List ReviewDoc × Details) :=
  (d.reads.answer i).map fun x =>
    (x.1, x.2.1, { d with reads := x.2.2 }.setState (d.state.setReviews x.2.1))

/-- The read at position `i` fails: an alert, and no `setState`. -/
def fail (d : Details) (i : ℕ) : Option Details :=
  (d.reads.fail i).map fun reads => { d with reads }

end Details

/-- What can happen to the mounted component. -/
inductive Event where
  | openOverlay
  | closeOverlay
  | navigationUpdate
  | take (i : ℕ) (docs : List ReviewDoc)
  | succeed (i : ℕ)
  | fail (i : ℕ)
  deriving DecidableEq

def Details.step (d : Details) : Event → Option Details
  | .openOverlay => some d.openOverlay
  | .closeOverlay => some d.closeOverlay
  | .navigationUpdate => some d.navigationUpdate
  | .take i docs => d.take i docs
  | .succeed i => (d.succeed i).map fun x => x.2.2
  | .fail i => d.fail i

/-! ## The collection -/

/-- Pages with different titles read different collections. -/
theorem constructorRef_inj {title title' : String} :
    constructorRef (some title) = constructorRef (some title') ↔ title = title' := by
  simp [constructorRef, DocRef.collection_inj, CollectionRef.doc_inj]

/-! ## What a snapshot becomes -/

theorem loadReviews_perm (docs : List ReviewDoc) :
    (loadReviews docs).Perm (docs.map loadReview) :=
  sort_perm _ _

theorem mem_loadReviews {docs : List ReviewDoc} {review : LoadedReview} :
    review ∈ loadReviews docs ↔ ∃ doc ∈ docs, loadReview doc = review := by
  rw [(loadReviews_perm docs).mem_iff, List.mem_map]

/-- The newest review comes first. -/
theorem loadReviews_newest_first (docs : List ReviewDoc) :
    (loadReviews docs).Pairwise fun a b => b.date.time ≤ a.date.time := by
  have hcompare : IsComparator compareDates :=
    ⟨fun a b => by simp only [compareDates]; omega,
      fun a b c hab hbc => by simp only [compareDates] at *; omega⟩
  apply (sort_pairwise hcompare (docs.map loadReview)).imp
  intro a b h
  simp only [compareDates] at h
  omega

/-- The loop computes the number of reviews and the sum of their scores. -/
theorem countStars_eq (reviews : List LoadedReview) :
    countStars reviews = (reviews.length, (reviews.map LoadedReview.score).sum) := by
  -- the accumulator is general in the induction
  have hloop : ∀ (l : List LoadedReview) (n t : ℕ),
      l.foldl (fun acc review => (acc.1 + 1, acc.2 + review.score)) (n, t) =
        (n + l.length, t + (l.map LoadedReview.score).sum) := by
    intro l
    induction l with
    | nil => simp
    | cons review l ih =>
      intro n t
      rw [List.foldl_cons, ih]
      simp only [List.length_cons, List.map_cons, List.sum_cons, Prod.mk.injEq]
      omega
  simpa [countStars] using hloop reviews 0 0

/-! ## What an operation does to the reads -/

theorem Details.take_eq_some {d d' : Details} {i : ℕ} {docs : List ReviewDoc}
    (h : d.take i docs = some d') :
    ∃ reads, d.reads.take i docs = some reads ∧ d' = { d with reads } := by
  obtain ⟨reads, hreads, rfl⟩ := Option.map_eq_some_iff.1 h
  exact ⟨reads, hreads, rfl⟩

theorem Details.succeed_eq_some {d d' : Details} {i n : ℕ} {docs : List ReviewDoc}
    (h : d.succeed i = some (n, docs, d')) :
    ∃ reads, d.reads.answer i = some (n, docs, reads) ∧
      d' = { d with reads }.setState (d.state.setReviews docs) := by
  obtain ⟨⟨n', docs', reads⟩, hans, heq⟩ := Option.map_eq_some_iff.1 h
  cases heq
  exact ⟨reads, hans, rfl⟩

theorem Details.fail_eq_some {d d' : Details} {i : ℕ} (h : d.fail i = some d') :
    ∃ reads, d.reads.fail i = some reads ∧ d' = { d with reads } := by
  obtain ⟨reads, hreads, rfl⟩ := Option.map_eq_some_iff.1 h
  exact ⟨reads, hreads, rfl⟩

/-- The outstanding reads keep to what holds of everything taken, and the list stays as it is or
becomes that of something taken. -/
theorem Details.step_holds {P : List ReviewDoc → Prop} {d d' : Details} {e : Event}
    (h : d.reads.Holds P) (htake : ∀ i docs, e = .take i docs → P docs)
    (hstep : d.step e = some d') :
    d'.reads.Holds P ∧ (d'.state.reviews = d.state.reviews ∨
      ∃ docs, P docs ∧ d'.state.reviews = loadReviews docs) := by
  cases e with
  | openOverlay =>
    cases hstep
    exact ⟨h.issue, Or.inl rfl⟩
  | closeOverlay =>
    cases hstep
    exact ⟨h.issue, Or.inl rfl⟩
  | navigationUpdate =>
    cases hstep
    exact ⟨h.issue, Or.inl rfl⟩
  | take i docs =>
    obtain ⟨reads, hreads, rfl⟩ := Details.take_eq_some hstep
    exact ⟨h.take (htake i docs rfl) hreads, Or.inl rfl⟩
  | succeed i =>
    obtain ⟨⟨n, docs, d₁⟩, hsucceed, rfl⟩ := Option.map_eq_some_iff.1 hstep
    obtain ⟨reads, hans, rfl⟩ := Details.succeed_eq_some hsucceed
    obtain ⟨hdocs, hreads⟩ := h.answer hans
    exact ⟨hreads.issue, Or.inr ⟨docs, hdocs, rfl⟩⟩
  | fail i =>
    obtain ⟨reads, hreads, rfl⟩ := Details.fail_eq_some hstep
    exact ⟨h.fail hreads, Or.inl rfl⟩

/-- A success shows something taken. -/
theorem Details.succeed_shows {P : List ReviewDoc → Prop} {d d' : Details} {i : ℕ}
    (h : d.reads.Holds P) (hstep : d.step (.succeed i) = some d') :
    ∃ docs, P docs ∧ d'.state.reviews = loadReviews docs ∧
      d'.state.avgRating = some (averageRating (loadReviews docs)) := by
  obtain ⟨⟨n, docs, d₁⟩, hsucceed, rfl⟩ := Option.map_eq_some_iff.1 hstep
  obtain ⟨reads, hans, rfl⟩ := Details.succeed_eq_some hsucceed
  exact ⟨docs, (h.answer hans).1, rfl, rfl⟩

/-- What the state shows of the reviews stays as it is, or becomes what something taken shows. -/
theorem Details.step_shows {P : List ReviewDoc → Prop} {d d' : Details} {e : Event}
    (h : d.reads.Holds P) (hstep : d.step e = some d') :
    (d'.state.reviews = d.state.reviews ∧ d'.state.avgRating = d.state.avgRating) ∨
      ∃ docs, P docs ∧ d'.state.reviews = loadReviews docs ∧
        d'.state.avgRating = some (averageRating (loadReviews docs)) := by
  cases e with
  | openOverlay =>
    cases hstep
    exact Or.inl ⟨rfl, rfl⟩
  | closeOverlay =>
    cases hstep
    exact Or.inl ⟨rfl, rfl⟩
  | navigationUpdate =>
    cases hstep
    exact Or.inl ⟨rfl, rfl⟩
  | take i docs =>
    obtain ⟨reads, -, rfl⟩ := Details.take_eq_some hstep
    exact Or.inl ⟨rfl, rfl⟩
  | succeed i => exact Or.inr (Details.succeed_shows h hstep)
  | fail i =>
    obtain ⟨reads, -, rfl⟩ := Details.fail_eq_some hstep
    exact Or.inl ⟨rfl, rfl⟩

end LetItGo.Components.DetailsScreen
