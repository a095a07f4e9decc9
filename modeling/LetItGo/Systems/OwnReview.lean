import LetItGo.Library.Runs
import LetItGo.Components.Reviews
import LetItGo.Systems.ReviewStore

/-!
# A signed-in user on a details page

The details page of one toilet with its review card, on which the user `u` has a Google and a
Firebase session, and the store that the user and others write to. At mount the card starts the
sign-in check and the lookup of the user's review; the lookup reads the store at one moment and is
answered at a later one. The user opens the submission screen by a tap on the stars of
'Rate n Review', submits any number of times and comes back; the details page stays mounted
underneath.
-/

set_option autoImplicit false

namespace LetItGo.Systems.OwnReview

open LetItGo.Library.Js
open LetItGo.Library.DocumentStore
open LetItGo.Library.AsyncReads
open LetItGo.Components
open LetItGo.Components.SignIn
open LetItGo.Components.ReviewSubmissionScreen (ReviewDoc Timestamp)
open LetItGo.Components.DetailsScreen (Details LoadedReview loadReviews)
open LetItGo.Systems.ReviewStore

/-- The lookup of `checkIfReviewExists`: issued, with what it read, or answered. -/
inductive Lookup where
  | issued
  | read (found : Bool)
  | answered (found : Bool)
  deriving DecidableEq, Repr

/-- The lookup has read the store and found no review. -/
def Lookup.foundNone : Lookup → Bool
  | .issued => false
  | .read found => !found
  | .answered found => !found

/-- Who looks at which page. -/
structure Visit where
  user : User
  google : GoogleUser
  title : String
  deriving DecidableEq

structure Page where
  db : Store ReviewDoc
  details : Details
  card : Reviews.State
  check : Option CheckCall
  lookup : Lookup
  formOpen : Bool

/-- The page when it has been opened. -/
def Page.mount (db : Store ReviewDoc) : Page :=
  ⟨db, Details.mount, Reviews.State.mounted, some .awaitIsSignedIn, .issued, false⟩

inductive Action where
  /-- The sign-in check goes on, successfully. -/
  | check
  /-- The lookup reads the store. -/
  | lookupRead
  /-- The lookup is answered. -/
  | lookupAnswer
  | details (e : DetailsScreen.Event)
  /-- Somebody else submits a review, here or elsewhere. -/
  | otherSubmit (s : Submission)
  /-- A tap on the stars of 'Rate n Review'. -/
  | openForm
  | submit (now : Timestamp) (text : String) (rating : Option ℕ)
  | goBack
  deriving DecidableEq

variable (v : Visit)

/-- The user's document of this toilet. -/
def Visit.doc : DocRef := (DetailsScreen.constructorRef (some v.title)).doc v.user.uid

/-- What the card gets. -/
def Page.props (p : Page) : Reviews.Props :=
  ⟨p.details.state.avgRating, p.details.state.reviews, v.title⟩

/-- A review that the user submits here. -/
def Visit.submission (now : Timestamp) (text : String) (rating : Option ℕ) : Submission :=
  ⟨v.user, v.title, now, text, rating⟩

/-- What a read takes is a snapshot of the toilet's collection. -/
def Page.detailsStep (p : Page) (e : DetailsScreen.Event) : Option Details :=
  match e with
  | .take i docs => if docs.Perm (snapshot v.title p.db) then p.details.take i docs else none
  | e => p.details.step e

def Page.step (p : Page) : Action → Option Page
  | .check =>
    match p.check with
    | none => none
    | some c =>
      (c.step ⟨some v.google, some v.user⟩ p.card.auth .resolve).map fun x =>
        { p with card := { p.card with auth := x.1 }, check := x.2 }
  | .lookupRead =>
    match p.lookup, Reviews.checkIfReviewExists v.title (some v.user) with
    | .issued, .ok doc => some { p with lookup := .read (doc.get p.db).isSome }
    | _, _ => none
  | .lookupAnswer =>
    match p.lookup with
    | .read found => some { p with card := p.card.reviewLookedUp found, lookup := .answered found }
    | _ => none
  | .details e => (p.detailsStep v e).map fun details => { p with details }
  | .otherSubmit s =>
    if s.user.uid = v.user.uid then none else some { p with db := commit (writes [s]) p.db }
  | .openForm =>
    if p.card.auth.isUserSignedIn && !p.card.hasReview then some { p with formOpen := true }
    else none
  | .submit now text rating =>
    if p.formOpen then
      some { p with db := commit (writes [v.submission now text rating]) p.db }
    else none
  | .goBack => if p.formOpen then some { p with formOpen := false } else none

variable {v}

/-! ## Each action by its result -/

/-- The lookup reads the document that a submission of the user writes. -/
theorem checkIfReviewExists_eq :
    Reviews.checkIfReviewExists v.title (some v.user) = .ok v.doc := rfl

theorem Page.detailsStep_eq_some {p : Page} {e : DetailsScreen.Event} {details : Details}
    (h : p.detailsStep v e = some details) :
    p.details.step e = some details ∧
      ∀ i docs, e = .take i docs → docs.Perm (snapshot v.title p.db) := by
  cases e with
  | take i docs =>
    obtain ⟨hdocs, htake⟩ := Option.ite_none_right_eq_some.1 h
    refine ⟨htake, ?_⟩
    rintro i' docs' heq
    cases heq
    exact hdocs
  | openOverlay => exact ⟨h, fun _ _ heq => by cases heq⟩
  | closeOverlay => exact ⟨h, fun _ _ heq => by cases heq⟩
  | navigationUpdate => exact ⟨h, fun _ _ heq => by cases heq⟩
  | succeed i => exact ⟨h, fun _ _ heq => by cases heq⟩
  | fail i => exact ⟨h, fun _ _ heq => by cases heq⟩

/-- What a step does to the parts of the page: exactly one of them moves. -/
inductive Page.Next (v : Visit) (p : Page) : Action → Page → Prop where
  | check (c : CheckCall) (auth : AuthState) (next : Option CheckCall) : p.check = some c →
      c.step ⟨some v.google, some v.user⟩ p.card.auth .resolve = some (auth, next) →
      Next v p .check { p with card := { p.card with auth }, check := next }
  | lookupRead : p.lookup = .issued →
      Next v p .lookupRead { p with lookup := .read (v.doc.get p.db).isSome }
  | lookupAnswer (found : Bool) : p.lookup = .read found →
      Next v p .lookupAnswer
        { p with card := p.card.reviewLookedUp found, lookup := .answered found }
  | details (e : DetailsScreen.Event) (details : Details) : p.details.step e = some details →
      (∀ i docs, e = .take i docs → docs.Perm (snapshot v.title p.db)) →
      Next v p (.details e) { p with details }
  | otherSubmit (s : Submission) : s.user.uid ≠ v.user.uid →
      Next v p (.otherSubmit s) { p with db := commit (writes [s]) p.db }
  | submit (now : Timestamp) (text : String) (rating : Option ℕ) :
      Next v p (.submit now text rating)
        { p with db := commit (writes [v.submission now text rating]) p.db }
  | form (a : Action) (formOpen : Bool) : a = .openForm ∨ a = .goBack →
      Next v p a { p with formOpen }

theorem Page.next_of_step {p p' : Page} {a : Action} (hstep : p.step v a = some p') :
    Page.Next v p a p' := by
  cases a with
  | check =>
    cases hcheck : p.check with
    | none => simp [Page.step, hcheck] at hstep
    | some c =>
      simp only [Page.step, hcheck] at hstep
      obtain ⟨⟨auth, next⟩, hc, rfl⟩ := Option.map_eq_some_iff.1 hstep
      exact .check c auth next hcheck hc
  | lookupRead =>
    simp only [Page.step, checkIfReviewExists_eq] at hstep
    split at hstep
    · next hlookup heq =>
      cases heq
      cases hstep
      exact .lookupRead hlookup
    · cases hstep
  | lookupAnswer =>
    simp only [Page.step] at hstep
    split at hstep
    · next found hlookup =>
      cases hstep
      exact .lookupAnswer found hlookup
    · cases hstep
  | details e =>
    obtain ⟨details, hdetails, rfl⟩ := Option.map_eq_some_iff.1 hstep
    obtain ⟨hdetails, htake⟩ := Page.detailsStep_eq_some hdetails
    exact .details e details hdetails htake
  | otherSubmit s =>
    obtain ⟨hother, heq⟩ := Option.ite_none_left_eq_some.1 hstep
    cases heq
    exact .otherSubmit s hother
  | openForm =>
    obtain ⟨-, heq⟩ := Option.ite_none_right_eq_some.1 hstep
    cases heq
    exact .form .openForm true (Or.inl rfl)
  | submit now text rating =>
    obtain ⟨-, heq⟩ := Option.ite_none_right_eq_some.1 hstep
    cases heq
    exact .submit now text rating
  | goBack =>
    obtain ⟨-, heq⟩ := Option.ite_none_right_eq_some.1 hstep
    cases heq
    exact .form .goBack false (Or.inr rfl)

end LetItGo.Systems.OwnReview
