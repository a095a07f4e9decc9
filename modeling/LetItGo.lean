import LetItGo.Library.Js
import LetItGo.Library.Calendar
import LetItGo.Library.Rounding
import LetItGo.Library.DocumentStore
import LetItGo.Library.AsyncReads
import LetItGo.Library.StackNavigator
import LetItGo.Library.StableSort
import LetItGo.Library.Runs
import LetItGo.Library.Potential
import LetItGo.Library.Traces
import LetItGo.Components.SignIn
import LetItGo.Components.ReviewSubmissionScreen
import LetItGo.Components.DetailsScreen
import LetItGo.Components.FacilitiesListItem
import LetItGo.Components.DetailsView
import LetItGo.Components.Reviews
import LetItGo.Components.ReviewItem
import LetItGo.Components.FirstScreen
import LetItGo.Systems.DetailsPage
import LetItGo.Systems.ReviewStore
import LetItGo.Systems.ReviewRows
import LetItGo.Systems.Navigator
import LetItGo.Systems.OwnReview
import LetItGo.Systems.WholeApp
import LetItGo.Systems.AppParts
import LetItGo.Systems.AppDevices
import LetItGo.Systems.SharedReviews
import LetItGo.Systems.ReviewBoard
import LetItGo.Properties.ScoreFidelity
import LetItGo.Properties.PostingAccount
import LetItGo.Properties.OwnReviewShown
import LetItGo.Properties.ToiletLoading
import LetItGo.Properties.ToiletFilter
import LetItGo.Properties.PageIdentity
import LetItGo.Properties.SnapshotOrder
import LetItGo.Properties.ReadLoop
import LetItGo.Properties.SubmitThenRead
import LetItGo.Properties.AverageAgreement
import LetItGo.Properties.SignOutEffect
import LetItGo.Properties.SignedInUser
import LetItGo.Properties.VisitorReads
import LetItGo.Properties.ToiletSeparation
import LetItGo.Properties.ShowAll
import LetItGo.Properties.SortOrder
import LetItGo.Properties.AgeElapsed
import LetItGo.Properties.AgeOrder
import LetItGo.Properties.AgeBounds
import LetItGo.Properties.CalendarPeriods
import LetItGo.Properties.LatestFit
import LetItGo.Properties.ClockReadings
import LetItGo.Properties.RowExpansion
import LetItGo.Properties.ListShown
import LetItGo.Properties.LoadingOutcome
import LetItGo.Properties.CrashFreedom
import LetItGo.Properties.FirstSignIn
import LetItGo.Properties.NavigatorRefinement
import LetItGo.Properties.PageOfLastRow
import LetItGo.Properties.PageShowsDocument
import LetItGo.Properties.Submissions
import LetItGo.Properties.BackgroundWork
import LetItGo.Properties.PageShowsBoard
import LetItGo.Properties.PageCatchesUp
import LetItGo.Properties.CanReview
import LetItGo.Properties.AppVisits
