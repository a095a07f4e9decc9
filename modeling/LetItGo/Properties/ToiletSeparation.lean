import LetItGo.Systems.Navigator
import LetItGo.Systems.ReviewStore
import LetItGo.Properties.ToiletLoading

/-!
# Reviews of different toilets

From the list row to the submission screen a toilet goes by its name: the row navigates with
`title: item.name`, and both the details page and the submission screen make their collection from
that title. So reviews submitted from the page of one toilet leave the page of another as it was if
the two have different names; the id of a document is kept nowhere, and two documents with one name
share their reviews.
-/

set_option autoImplicit false

namespace LetItGo.Properties.ToiletSeparation

open LetItGo.Library.Js
open LetItGo.Library.DocumentStore
open LetItGo.Components
open LetItGo.Components.SignIn (User)
open LetItGo.Components.FirstScreen (Coords Position Toilet ToiletDoc)
open LetItGo.Components.ReviewSubmissionScreen (ReviewDoc Star Timestamp)
open LetItGo.Systems
open LetItGo.Systems.ReviewStore
open LetItGo.Properties.ToiletLoading (oneToilet record)

/-- A review written by way of the stars on a details page. -/
structure Written where
  user : User
  count : Star
  now : Timestamp
  text : String
  rating : Option ℕ
  deriving DecidableEq

/-- The title that the page opened from a row gives the submission screen. -/
def formTitle (item : Toilet) (count : Star) : String :=
  (Reviews.onFinishRating (Navigator.onPress item).title count).title.getD "COM1"

/-- Its submission, from the page opened from the row of `item`. -/
def Written.submission (item : Toilet) (w : Written) : Submission :=
  ⟨w.user, formTitle item w.count, w.now, w.text, w.rating⟩

/-- The title of the page opened from a row. -/
def pageTitle (item : Toilet) : String := (Navigator.onPress item).title.getD "COM1"

/-- The page shows the list and the average of an answer to a read of its collection. -/
def Shows (item : Toilet) (db : Store ReviewDoc) (st : DetailsScreen.State) : Prop :=
  ∃ docs : List ReviewDoc, docs.Perm (snapshot (pageTitle item) db) ∧
    st = DetailsScreen.State.initial.setReviews docs

/-- Whether the page's lookup finds a review of the user. -/
def hasReview (item : Toilet) (db : Store ReviewDoc) (user : User) : Except Exception Bool :=
  (Reviews.checkIfReviewExists (pageTitle item) (some user)).map fun ref => (ref.get db).isSome

end LetItGo.Properties.ToiletSeparation
