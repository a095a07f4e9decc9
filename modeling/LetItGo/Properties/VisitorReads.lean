import LetItGo.Components.Reviews

/-!
# A visitor without a session

Without a Firebase session `firebase.auth().currentUser` is null, and its `uid` is read in
`componentDidMount` and for every review of the lower list. So mounting throws for every visitor, and
each render throws unless the list is empty, while the page offers the Google sign-in button.
-/

set_option autoImplicit false

namespace LetItGo.Properties.VisitorReads

open LetItGo.Library.Js
open LetItGo.Components.SignIn
open LetItGo.Components.ReviewSubmissionScreen (ReviewDoc)
open LetItGo.Components.DetailsScreen (LoadedReview averageRating loadReviews loadReviews_perm)
open LetItGo.Components.Reviews

/-- The properties that the details page of `title` gives after loading `docs`. -/
def loaded (title : String) (docs : List ReviewDoc) : Props :=
  ⟨some (averageRating (loadReviews docs)), loadReviews docs, title⟩

/-- A visitor without a session can read the reviews of every snapshot: mounting does not throw, and
each render offers to sign in and lists the newest five reviews. -/
def CanRead (title : String) (snapshots : List (List ReviewDoc)) : Prop :=
  (∃ mounted, componentDidMount title none = .ok mounted) ∧
    ∀ docs ∈ snapshots, ∃ view, render (loaded title docs) State.mounted none = .ok view ∧
      view.middle = .signIn ∧ view.reviews = (loadReviews docs).take 5

theorem isOwn_none (review : LoadedReview) :
    isOwn none review = .error (.typeError "firebase.auth().currentUser.uid") := rfl

theorem loadReviews_eq_nil {docs : List ReviewDoc} : loadReviews docs = [] ↔ docs = [] := by
  rw [← List.length_eq_zero_iff, (loadReviews_perm docs).length_eq, List.length_map,
    List.length_eq_zero_iff]

/-- The lower list, collapsed, without a user: the first review throws, if there is one. -/
theorem renderReviews_visitor (props : Props) {st : State} (hst : st.expandAll = false) :
    (∃ reviews, renderReviews props st none = .ok reviews) ↔ props.reviews = [] := by
  simp only [renderReviews, hst, Bool.false_eq_true, if_false]
  rw [exists_filter_eq_ok_iff]
  constructor
  · intro h
    cases hreviews : props.reviews with
    | nil => rfl
    | cons review reviews =>
      obtain ⟨b, hb⟩ := h review (by simp [hreviews])
      simp [isOwn_none, Except.map] at hb
  · intro h
    simp [h]

/-- While the sign-in button is offered, a render succeeds exactly if its lower list does. -/
theorem render_signIn (props : Props) {st : State} (hst : st.auth.isUserSignedIn = false)
    (currentUser : Option User) :
    (∃ view, render props st currentUser = .ok view) ↔
      ∃ reviews, renderReviews props st currentUser = .ok reviews := by
  have hmiddle : renderMiddle props st currentUser = .ok .signIn := by simp [renderMiddle, hst]
  simp only [render, hmiddle]
  cases renderReviews props st currentUser with
  | error e => simp
  | ok reviews => simp

/-- No visitor without a session can read reviews: mounting throws, and so does every render with a
collapsed list and the sign-in button, unless the list is empty. -/
theorem not_canRead (title : String) (snapshots : List (List ReviewDoc)) :
    ¬ CanRead title snapshots ∧
      componentDidMount title none = .error (.typeError "firebase.auth().currentUser.uid") ∧
      ∀ docs ∈ snapshots, ∀ (auth : AuthState) (hasReview : Bool),
        (∃ view, render (loaded title docs)
          ⟨{ auth with isUserSignedIn := false }, false, hasReview⟩ none = .ok view) ↔
            docs = [] := by
  refine ⟨?_, rfl, ?_⟩
  · rintro ⟨⟨mounted, hmounted⟩, -⟩
    cases hmounted
  · intro docs _ auth hasReview
    rw [render_signIn _ rfl, renderReviews_visitor _ rfl]
    exact loadReviews_eq_nil

/-- One review of COM1: neither mounting nor the first render with it succeeds. -/
theorem not_canRead_one_review :
    ¬ CanRead "COM1" [[⟨⟨⟨1, 0⟩, none, some "Ann", none, "clean", 4, "u1"⟩⟩]] ∧
      componentDidMount "COM1" none = .error (.typeError "firebase.auth().currentUser.uid") ∧
      render (loaded "COM1" [⟨⟨⟨1, 0⟩, none, some "Ann", none, "clean", 4, "u1"⟩⟩]) State.mounted
        none = .error (.typeError "firebase.auth().currentUser.uid") := by
  refine ⟨?_, rfl, rfl⟩
  rintro ⟨⟨mounted, hmounted⟩, -⟩
  cases hmounted

end LetItGo.Properties.VisitorReads
