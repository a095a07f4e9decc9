import LetItGo.Library.Js
import LetItGo.Library.DocumentStore
import LetItGo.Components.SignIn

/-!
# ReviewSubmissionScreen

The screen on which a review is written: its constructor, `submitReview`, `render`, and the handlers
of its form. The documents that `submitReview` writes are `ReviewDoc`s.

`Mounted` is the screen on the navigation stack, with the star widget that `render` puts into the
form. `AirbnbRating` is a third-party component, of which the model uses what its users rely on: it
shows `defaultRating` until a star is tapped, and calls `onFinishRating` on a tap only.
-/

set_option autoImplicit false

namespace LetItGo.Components.ReviewSubmissionScreen

open LetItGo.Library.Js
open LetItGo.Library.DocumentStore
open LetItGo.Components.SignIn

/-- `firebase.firestore.Timestamp`. -/
structure Timestamp where
  seconds : ℤ
  nanoseconds : ℕ
  deriving DecidableEq, Repr

/-- The same instant as a `Date`, which counts whole milliseconds. -/
def Timestamp.toDate (t : Timestamp) : Date :=
  ⟨t.seconds * 1000 + t.nanoseconds / 1000000⟩

/-- A stored review. `submitReview` writes no `id`, though the details page reads one. -/
structure Review where
  date : Timestamp
  id : Option String
  name : Option String
  photoURL : Option String
  review : String
  score : ℕ
  uid : String
  deriving DecidableEq, Repr

/-- The data of a document in a `users` collection. -/
structure ReviewDoc where
  review : Review
  deriving DecidableEq, Repr

/-- The parameters of the `Reviews` route. -/
structure Params where
  count : Option ℕ
  title : Option String
  deriving DecidableEq, Repr

/-- The collection that the constructor keeps in `this.ref`. -/
def constructorRef (p : Params) : CollectionRef :=
  ((collection "reviews").doc (p.title.getD "COM1")).collection "users"

/-- The constructor, which throws if the client does not take the title for the id of a document. -/
def constructor (p : Params) : Except Exception CollectionRef :=
  if isDocId (p.title.getD "COM1") then .ok (constructorRef p)
  else .error (.invalidArgument (p.title.getD "COM1"))

/-- `submitReview(text, rating)`: the document written and its new data. Reading `uid` of a missing
user throws. -/
def submitReview (currentUser : Option User) (now : Timestamp) (ref : CollectionRef)
    (text : String) (rating : Option ℕ) : Except Exception (DocRef × ReviewDoc) :=
  match currentUser with
  -- `user` is not tested before its `uid` is read
  | none => .error (.typeError "user.uid")
  | some user =>
    .ok (ref.doc user.uid,
      { review :=
        { date := now
          id := none
          name := user.displayName
          photoURL := user.photoURL
          review := text
          -- `rating ? rating : 3`
          score :=
            match rating with
            | none => 3
            | some r => if r = 0 then 3 else r
          uid := user.uid } })

/-- The fields of `this.state`; `rating` and `text` are absent until a handler sets them. -/
structure State where
  auth : AuthState
  rating : Option ℕ
  text : Option String
  deriving DecidableEq, Repr

/-- What `render` puts on screen: the two sign-in buttons, or the form. -/
inductive View where
  | signIn
  | form (photo name : String) (defaultRating : ℕ) (submitDisabled : Bool)
  deriving DecidableEq, Repr

/-- `render()`. The test `isUserSignedIn == ""` is true of `false`. -/
def render (p : Params) (st : State) : Except Exception View :=
  if st.auth.isUserSignedIn = false then .ok .signIn
  else
    match st.auth.userInfo with
    -- `''.user` is `undefined`, and its `photo` is read
    | none => .error (.typeError "this.state.userInfo.user.photo")
    | some info =>
      .ok (.form info.user.photo info.user.name (p.count.getD 0)
        (match st.text with
          | none => true
          | some text => text = ""))

/-! ## The star widget -/

/-- A number of stars that can be tapped. -/
structure Star where
  val : ℕ
  one_le : 1 ≤ val
  le_five : val ≤ 5
  deriving DecidableEq

/-- A mounted `AirbnbRating`. -/
structure AirbnbRating where
  defaultRating : ℕ
  tapped : Option ℕ
  deriving DecidableEq, Repr

/-- The rating the stars show. -/
def AirbnbRating.shown (w : AirbnbRating) : ℕ := w.tapped.getD w.defaultRating

/-! ## The mounted screen -/

/-- The screen with its route's parameters, `this.ref`, `this.state`, and the star widget while the
form is on screen. -/
structure Mounted where
  params : Params
  ref : CollectionRef
  state : State
  stars : Option AirbnbRating
  deriving DecidableEq

namespace Mounted

/-- `setState` and the render after it: a form that appears gets a new star widget, a form that
stays keeps its widget. -/
def setState (m : Mounted) (st : State) : Mounted where
  params := m.params
  ref := m.ref
  state := st
  stars :=
    match render m.params st with
    | .ok (.form _ _ defaultRating _) => some (m.stars.getD ⟨defaultRating, none⟩)
    | _ => none

/-- The constructor, and the first `setState` of the check that `componentWillMount` starts. -/
def mount (p : Params) : Mounted :=
  ⟨p, constructorRef p, ⟨AuthState.initial.startCheck, none, none⟩, none⟩

/-- The rating shown above the text field, while the form is on screen. -/
def starsShown (m : Mounted) : Option ℕ := m.stars.map AirbnbRating.shown

end Mounted

/-- What can happen on the screen between its mounting and a press of Submit: the `setState` calls
of the sign-in code, taps on the stars, and edits of the text. -/
inductive Event where
  | setUserInfo (info : UserInfo)
  | finishCheck (isUserSignedIn : Bool)
  | setSignedIn (info : UserInfo)
  | tapStar (k : Star)
  | editText (text : String)
  deriving DecidableEq

/-- One event; the stars and the text field are there only while the form is. -/
def Mounted.step (m : Mounted) : Event → Option Mounted
  | .setUserInfo info =>
    some (m.setState { m.state with auth := m.state.auth.setUserInfo info })
  | .finishCheck b => some (m.setState { m.state with auth := m.state.auth.finishCheck b })
  | .setSignedIn info =>
    some (m.setState { m.state with auth := m.state.auth.setSignedIn info })
  | .tapStar k =>
    match m.stars with
    | none => none
    | some w =>
      -- the widget keeps the tap for itself and reports it to `onFinishRating`
      some ({ m with stars := some { w with tapped := some k.val } }.setState
        { m.state with rating := some k.val })
  | .editText text =>
    match m.stars with
    | none => none
    | some _ => some (m.setState { m.state with text := some text })

/-- A press of Submit, `none` while there is no enabled Submit button. -/
def Mounted.pressSubmit (m : Mounted) (currentUser : Option User) (now : Timestamp) :
    Option (Except Exception (DocRef × ReviewDoc)) :=
  match render m.params m.state with
  | .ok (.form _ _ _ false) =>
    m.state.text.map fun text => submitReview currentUser now m.ref text m.state.rating
  | _ => none

/-- The screen renders as long as it has a user to show in the form. -/
theorem exists_render_iff {p : Params} {st : State} :
    (∃ view, render p st = .ok view) ↔
      (st.auth.isUserSignedIn = true → st.auth.userInfo.isSome = true) := by
  cases hsigned : st.auth.isUserSignedIn <;> cases hinfo : st.auth.userInfo <;>
    simp [render, hsigned, hinfo]

/-! ## What `submitReview` writes -/

/-- With a user, `submitReview` writes that user's document, with the user's id in it. -/
theorem submitReview_some (user : User) (now : Timestamp) (ref : CollectionRef) (text : String)
    (rating : Option ℕ) :
    ∃ doc, submitReview (some user) now ref text rating = .ok doc ∧
      doc.1 = ref.doc user.uid ∧ doc.2.review.uid = user.uid :=
  ⟨_, rfl, rfl, rfl⟩

/-- A rating that is a number of stars is stored as it is, and 3 when there is none. -/
theorem submitReview_star {user : Option User} {now : Timestamp} {ref : CollectionRef}
    {text : String} {rating : Option Star} {doc : DocRef × ReviewDoc}
    (h : submitReview user now ref text (rating.map Star.val) = .ok doc) :
    doc.2.review.score = (rating.map Star.val).getD 3 := by
  cases user with
  | none => cases h
  | some user =>
    cases h
    cases rating with
    | none => rfl
    | some k =>
      have hk : k.val ≠ 0 := Nat.one_le_iff_ne_zero.1 k.one_le
      exact if_neg hk

end LetItGo.Components.ReviewSubmissionScreen
