import LetItGo.Library.Rounding
import LetItGo.Components.DetailsScreen

/-!
# Reviews

The review card of the details page: the summary on top (`ReviewRatings`), the user's own review or
the box that starts one, and the list of reviews below. `firebase.auth().currentUser` is read anew
in `checkIfReviewExists` and in each callback of `render`, and its `uid` is read without a check.
-/

set_option autoImplicit false

namespace LetItGo.Components.Reviews

open LetItGo.Library.Js
open LetItGo.Library.DocumentStore
open LetItGo.Library.Rounding
open LetItGo.Components.SignIn
open LetItGo.Components.DetailsScreen
open LetItGo.Components.ReviewSubmissionScreen (Star)

/-! ## ReviewRatings -/

/-- The stars with their label, or the text 'Be the first to leave a review!'. -/
inductive RatingsView where
  | rating (defaultRating label : Number)
  | beTheFirst
  deriving DecidableEq, Repr

/-- `Math.round(avgRating * 10) / 10`. -/
def ratingLabel : Number → Number
  | .nan => .nan
  | .infinity negative => .infinity negative
  | .finite q => .finite (roundTo 10 q)

/-- `ReviewRatings`, which tests the truth of its property. -/
def reviewRatings : Option Number → RatingsView
  | none => .beTheFirst
  | some avgRating =>
    if avgRating.truthy then .rating avgRating (ratingLabel avgRating) else .beTheFirst

/-! ## The card -/

structure Props where
  avgRating : Option Number
  reviews : List LoadedReview
  title : String
  deriving DecidableEq, Repr

/-- The fields of `this.state` that are read. -/
structure State where
  auth : AuthState
  expandAll : Bool
  hasReview : Bool
  deriving DecidableEq, Repr

/-- The constructor's state, and the first `setState` of the check that `componentDidMount`
starts. -/
def State.mounted : State := ⟨AuthState.initial.startCheck, false, false⟩

/-- The document that `checkIfReviewExists` looks up. -/
def checkIfReviewExists (title : String) (currentUser : Option User) : Except Exception DocRef :=
  match currentUser with
  | none => .error (.typeError "firebase.auth().currentUser.uid")
  | some user => .ok ((((collection "reviews").doc title).collection "users").doc user.uid)

/-- `componentDidMount()`: the state after the first `setState` of the check, and the document that
is looked up. -/
def componentDidMount (title : String) (currentUser : Option User) :
    Except Exception (State × DocRef) :=
  (checkIfReviewExists title currentUser).map fun ref => (State.mounted, ref)

/-- The continuation of the lookup, on whether the document exists. -/
def State.reviewLookedUp (st : State) (exists_ : Bool) : State :=
  if exists_ then { st with hasReview := true } else st

/-- A press of the button below the list. -/
def State.pressToggle (st : State) : State := { st with expandAll := !st.expandAll }

/-- The test `review.uid == firebase.auth().currentUser.uid` of the two filters. -/
def isOwn (currentUser : Option User) (review : LoadedReview) : Except Exception Bool :=
  match currentUser with
  | none => .error (.typeError "firebase.auth().currentUser.uid")
  | some user => .ok (review.uid = user.uid)

/-- What stands between the summary and the list. -/
inductive Middle where
  /-- 'Your Review' -/
  | yourReview (reviews : List LoadedReview)
  /-- 'Rate n Review', with stars to tap -/
  | rateAndReview (photo : String)
  /-- the Google sign-in button -/
  | signIn
  deriving DecidableEq, Repr

structure View where
  ratings : RatingsView
  middle : Middle
  reviews : List LoadedReview
  buttonTitle : String
  deriving DecidableEq, Repr

def renderMiddle (props : Props) (st : State) (currentUser : Option User) :
    Except Exception Middle :=
  if st.auth.isUserSignedIn then
    if st.hasReview then (filter (isOwn currentUser) props.reviews).map .yourReview
    else
      -- whatever the list holds
      match st.auth.userInfo with
      | none => .error (.typeError "this.state.userInfo.user.photo")
      | some info => .ok (.rateAndReview info.user.photo)
  else .ok .signIn

/-- The data of the lower list. The expanded branch calls `this.props.reviewsfilter`, which is not
a property, so it throws. -/
def renderReviews (props : Props) (st : State) (currentUser : Option User) :
    Except Exception (List LoadedReview) :=
  if st.expandAll then .error (.typeError "this.props.reviewsfilter")
  -- `slice` comes before `filter`
  else filter (fun review => (isOwn currentUser review).map not) (props.reviews.take 5)

def buttonTitle (props : Props) (st : State) : String :=
  if props.reviews.length < 6 then "" else if st.expandAll then "HIDE" else "SHOW ALL REVIEWS"

/-- `render()`. -/
def render (props : Props) (st : State) (currentUser : Option User) : Except Exception View :=
  match renderMiddle props st currentUser with
  | .error e => .error e
  | .ok middle =>
    match renderReviews props st currentUser with
    | .error e => .error e
    | .ok reviews =>
      .ok ⟨reviewRatings props.avgRating, middle, reviews, buttonTitle props st⟩

/-- The parameters that a tap on the stars of 'Rate n Review' navigates to the `Reviews` route
with. -/
def onFinishRating (title : Option String) (count : Star) : ReviewSubmissionScreen.Params :=
  ⟨some count.val, some (title.getD "COM1")⟩

/-! ## The lists with a user -/

/-- The lower list, collapsed, with a user: the first five reviews less the user's own. -/
theorem renderReviews_collapsed (props : Props) {st : State} (hst : st.expandAll = false)
    (user : User) :
    renderReviews props st (some user) =
      .ok ((props.reviews.take 5).filter fun review => review.uid ≠ user.uid) := by
  simp only [renderReviews, hst]
  apply filter_eq_ok
  intro review _
  simp [isOwn, Except.map]

/-- 'Your Review', with a user: all loaded reviews of the user. -/
theorem renderMiddle_yourReview (props : Props) {st : State}
    (hsigned : st.auth.isUserSignedIn = true) (hreview : st.hasReview = true) (user : User) :
    renderMiddle props st (some user) =
      .ok (.yourReview (props.reviews.filter fun review => review.uid = user.uid)) := by
  have hfilter : filter (isOwn (some user)) props.reviews =
      .ok (props.reviews.filter fun review => review.uid = user.uid) :=
    filter_eq_ok fun _ _ => rfl
  simp [renderMiddle, hsigned, hreview, hfilter, Except.map]

/-- With a user the card renders as long as the list is collapsed and, where it would show the user's
photo, there is one to show. -/
theorem exists_render_iff {props : Props} {st : State} {user : User} :
    (∃ view, render props st (some user) = .ok view) ↔
      st.expandAll = false ∧
        (st.auth.isUserSignedIn = true → st.hasReview = true ∨ st.auth.userInfo.isSome = true) := by
  have hmiddle : (∃ middle, renderMiddle props st (some user) = .ok middle) ↔
      (st.auth.isUserSignedIn = true → st.hasReview = true ∨ st.auth.userInfo.isSome = true) := by
    cases hsigned : st.auth.isUserSignedIn with
    | false => simp [renderMiddle, hsigned]
    | true =>
      cases hreview : st.hasReview with
      | true => simp [renderMiddle_yourReview props hsigned hreview user]
      | false => cases hinfo : st.auth.userInfo <;> simp [renderMiddle, hsigned, hreview, hinfo]
  rw [← hmiddle]
  cases hexpand : st.expandAll with
  | true =>
    cases hrender : renderMiddle props st (some user) <;>
      simp [render, renderReviews, hexpand, hrender]
  | false =>
    cases hrender : renderMiddle props st (some user) <;>
      simp [render, renderReviews_collapsed props hexpand user, hrender]

/-- Without a user it takes no less. -/
theorem shown_of_render {props : Props} {st : State} {user : Option User} {view : View}
    (h : render props st user = .ok view) :
    st.expandAll = false ∧
      (st.auth.isUserSignedIn = true → st.hasReview = true ∨ st.auth.userInfo.isSome = true) := by
  unfold render at h
  split at h
  · cases h
  · next middle hmiddle =>
    split at h
    · cases h
    · next reviews hreviews =>
      constructor
      · cases hexpand : st.expandAll with
        | false => rfl
        | true => simp [renderReviews, hexpand] at hreviews
      · intro hsigned
        cases hreview : st.hasReview with
        | true => exact Or.inl rfl
        | false =>
          cases hinfo : st.auth.userInfo with
          | none => simp [renderMiddle, hsigned, hreview, hinfo] at hmiddle
          | some info => exact Or.inr rfl

end LetItGo.Components.Reviews
