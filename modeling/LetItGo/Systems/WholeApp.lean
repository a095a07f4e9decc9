import LetItGo.Library.Runs
import LetItGo.Components.DetailsView
import LetItGo.Systems.Navigator

/-!
# The app on one phone

The three screens together: the list of toilets, which is always mounted, a details page with its
review card on it, and a submission screen on that. Beside the screens there are the two sessions,
the calls of the sign-in code in flight, and the `set`s that `submitReview` has sent. Calls and
`set`s belong to a component or a route by its key, and go on when it is unmounted.

An exception that is thrown while rendering or in a handler is caught nowhere; React then unmounts
all screens, which is the `error` of `App.screens`. What the reviews collection holds at a step is
up to the system that the app is part of.
-/

set_option autoImplicit false

namespace LetItGo.Systems.WholeApp

open LetItGo.Library.Js
open LetItGo.Library.DocumentStore
open LetItGo.Components
open LetItGo.Components.SignIn (AuthState Call GoogleUser Outcome Sessions User)
open LetItGo.Components.DetailsScreen (Details DetailsParams DetailsView)
open LetItGo.Components.FirstScreen (Coords Toilet)
open LetItGo.Components.ReviewSubmissionScreen (ReviewDoc Star Timestamp)
open LetItGo.Systems.Navigator (Params onPress)

/-! ## The screens -/

/-- A mounted submission screen, with the key of its route. -/
structure Form where
  key : ℕ
  screen : ReviewSubmissionScreen.Mounted
  deriving DecidableEq

/-- The lookup of the user's own review, with what it has read. -/
structure PendingLookup where
  doc : DocRef
  found : Option Bool
  deriving DecidableEq

/-- A mounted details page with its review card, and the submission screen on it, if there is one. -/
structure Page where
  key : ℕ
  params : Params
  ref : CollectionRef
  details : Details
  card : Reviews.State
  lookup : Option PendingLookup
  form : Option Form
  deriving DecidableEq

structure Screens where
  first : FirstScreen.Mounted
  page : Option Page
  deriving DecidableEq

def Page.detailsParams (p : Page) : DetailsParams :=
  ⟨p.params.lat, p.params.lon, p.params.imgURL, p.params.title, p.params.toiletObj⟩

/-- What the details page gives the card. -/
def Page.props (p : Page) : Reviews.Props :=
  ⟨p.details.state.avgRating, p.details.state.reviews, p.params.title.getD "COM1"⟩

def Form.render (f : Form) : Except Exception ReviewSubmissionScreen.View :=
  ReviewSubmissionScreen.render f.screen.params f.screen.state

structure PageView where
  details : DetailsView
  card : Reviews.View
  form : Option ReviewSubmissionScreen.View
  deriving DecidableEq, Repr

def Page.render (user : Option User) (p : Page) : Except Exception PageView :=
  match p.details.render p.detailsParams with
  | .error e => .error e
  | .ok details =>
    match Reviews.render details.card p.card user with
    | .error e => .error e
    | .ok card =>
      match p.form with
      | none => .ok ⟨details, card, none⟩
      | some f =>
        match f.render with
        | .error e => .error e
        | .ok form => .ok ⟨details, card, some form⟩

structure View where
  list : FirstScreen.View
  page : Option PageView
  deriving DecidableEq, Repr

def Screens.render (user : Option User) (s : Screens) : Except Exception View :=
  match FirstScreen.render s.first.state with
  | .error e => .error e
  | .ok list =>
    match s.page with
    | none => .ok ⟨list, none⟩
    | some p =>
      match p.render user with
      | .error e => .error e
      | .ok page => .ok ⟨list, some page⟩

/-- The row of the toilet is on screen. -/
def Screens.lists (s : Screens) (item : Toilet) : Bool :=
  match FirstScreen.render s.first.state with
  | .ok (.list toilets) => item ∈ toilets
  | _ => false

/-- The sign-in state of the mounted component with the key: the card of the page, or the submission
screen. -/
def Page.auth (p : Page) (owner : ℕ) : Option AuthState :=
  if p.key = owner then some p.card.auth
  else p.form.bind fun f => if f.key = owner then some f.screen.state.auth else none

/-- The `setState` of a sign-in method; without a mounted component it has no effect. -/
def Page.setAuth (p : Page) (owner : ℕ) (auth : AuthState) : Page :=
  if p.key = owner then { p with card := { p.card with auth } }
  else
    { p with
      form := p.form.map fun f =>
        if f.key = owner then
          { f with screen := f.screen.setState { f.screen.state with auth } }
        else f }

def Screens.setAuth (s : Screens) (owner : ℕ) (auth : AuthState) : Screens :=
  { s with page := s.page.map fun p => p.setAuth owner auth }

/-- The way back from the screen on top. -/
def Screens.goBack (s : Screens) : Screens :=
  match s.page with
  | none => s
  | some p =>
    match p.form with
    | some _ => { s with page := some { p with form := none } }
    | none => { s with page := none }

/-- `navigation.goBack()` of the route with the key, which a submission screen calls; a route that is
not there any more is not gone back from. -/
def Page.closeForm (p : Page) (key : ℕ) : Page :=
  { p with form := p.form.filter fun f => f.key ≠ key }

/-! ## What happens on a screen by itself -/

inductive PageEvent where
  | details (e : DetailsScreen.Event)
  /-- The client takes what the read at position `i` answers with, documents with their ids, from its
  cache, or adds to the server's what the phone has sent. -/
  | takeLocal (i : ℕ) (docs : List (String × ReviewDoc))
  /-- The button below the lower list. -/
  | pressToggle
  /-- The lookup reads the store. -/
  | lookupRead
  /-- The lookup is answered likewise. -/
  | lookupLocal (found : Bool)
  /-- The lookup is answered. -/
  | lookupAnswer
  deriving DecidableEq

/-- What a read of the details page takes from the server is a snapshot of the collection in
`this.ref`. -/
def Page.takes (db : Store ReviewDoc) (p : Page) : DetailsScreen.Event → Bool
  | .take _ docs => docs.Perm ((p.ref.docs db).map Prod.snd)
  | _ => true

/-- What it takes without the server, or not from the server alone: documents of the collection that
the phone knows of, or that are there. -/
def Page.knows (db : Store ReviewDoc) (known : List (DocRef × ReviewDoc)) (p : Page)
    (docs : List (String × ReviewDoc)) : Bool :=
  (docs.map Prod.fst).Nodup ∧
    ∀ x ∈ docs, (p.ref.doc x.1, x.2) ∈ known ∨ (p.ref.doc x.1).get db = some x.2

/-- What the phone gets to know by it. -/
def Page.learns (db : Store ReviewDoc) (p : Page) : PageEvent → List (DocRef × ReviewDoc)
  | .details (.take _ _) => (p.ref.docs db).map fun x => (p.ref.doc x.1, x.2)
  | .takeLocal _ docs => docs.map fun x => (p.ref.doc x.1, x.2)
  | .lookupRead =>
    match p.lookup with
    | some ⟨doc, none⟩ => (doc.get db).toList.map fun data => (doc, data)
    | _ => []
  | _ => []

def Page.step (db : Store ReviewDoc) (known : List (DocRef × ReviewDoc)) (p : Page) :
    PageEvent → Option Page
  | .details e =>
    if p.takes db e then (p.details.step e).map fun details => { p with details } else none
  | .takeLocal i docs =>
    if p.knows db known docs then
      (p.details.step (.take i (docs.map Prod.snd))).map fun details => { p with details }
    else none
  | .pressToggle => some { p with card := p.card.pressToggle }
  | .lookupRead =>
    match p.lookup with
    | some ⟨doc, none⟩ => some { p with lookup := some ⟨doc, some (doc.get db).isSome⟩ }
    | _ => none
  | .lookupLocal found =>
    match p.lookup with
    | some ⟨doc, none⟩ => some { p with lookup := some ⟨doc, some found⟩ }
    | _ => none
  | .lookupAnswer =>
    match p.lookup with
    | some ⟨_, some found⟩ => some { p with card := p.card.reviewLookedUp found, lookup := none }
    | _ => none

/-- What the user does in the form. -/
inductive FormEvent where
  | tapStar (k : Star)
  | editText (text : String)
  deriving DecidableEq

def FormEvent.event : FormEvent → ReviewSubmissionScreen.Event
  | .tapStar k => .tapStar k
  | .editText text => .editText text

def Form.step (f : Form) (e : FormEvent) : Option Form :=
  (f.screen.step e.event).map fun screen => { f with screen }

/-! ## The app -/

/-- A call of the sign-in code in flight, and the key of the component that made it. -/
structure PendingCall where
  owner : ℕ
  call : Call
  deriving DecidableEq, Repr

/-- A `set` of `submitReview`: the key of the route that sent it, what it writes, and whether the
server has done so; its answer is still to come. -/
structure PendingSet where
  key : ℕ
  write : DocRef × ReviewDoc
  committed : Bool
  deriving DecidableEq

structure App where
  sessions : Sessions
  calls : List PendingCall
  sets : List PendingSet
  /-- the documents of the reviews collection that the phone has read or sent -/
  known : List (DocRef × ReviewDoc)
  /-- of `submitReview` -/
  alerts : List Exception
  nextKey : ℕ
  screens : Except Exception Screens

/-- The app when it has been started, with nothing in the client's cache. -/
def App.start (ss : Sessions) : App := ⟨ss, [], [], [], [], 0, .ok ⟨FirstScreen.mount, none⟩⟩

/-- Go on with the screens `s`, if they render. -/
def App.display (d : App) (s : Screens) : App :=
  { d with screens := (s.render d.sessions.firebase).map fun _ => s }

/-- The details page, with the list below it. -/
def App.mountedPage (d : App) : Option (FirstScreen.Mounted × Page) :=
  match d.screens with
  | .ok ⟨first, some p⟩ => some (first, p)
  | _ => none

def App.mountedForm (d : App) : Option (FirstScreen.Mounted × Page × Form) :=
  d.mountedPage.bind fun x => x.2.form.map fun f => (x.1, x.2, f)

def App.auth (d : App) (owner : ℕ) : Option AuthState :=
  d.mountedPage.bind fun x => x.2.auth owner

def App.push (d : App) (owner : ℕ) (call : Call) : App :=
  { d with calls := d.calls ++ [⟨owner, call⟩] }

/-- A component that is mounted takes the next key and starts its sign-in check. -/
def App.newComponent (d : App) : App :=
  { d.push d.nextKey (.check .awaitIsSignedIn) with nextKey := d.nextKey + 1 }

/-- The constructor of the details page, with what `componentDidMount` of its card came to. -/
def Page.mount (key : ℕ) (params : Params) (card : Reviews.State) (doc : DocRef) : Page where
  key := key
  params := params
  ref := DetailsScreen.constructorRef params.title
  details := Details.mount
  card := card
  lookup := some ⟨doc, none⟩
  form := none

/-- New parameters for a mounted page, which is gone back to. -/
def Page.update (p : Page) (params : Params) : Page :=
  { p with params := params.merge p.params, details := p.details.navigationUpdate, form := none }

/-- `navigate('Details', ...)` in the `onPress` of a row. -/
def App.openPage (d : App) (s : Screens) (item : Toilet) : App :=
  match s.page with
  | some p => d.display { s with page := some (p.update (onPress item)) }
  | none =>
    match DetailsScreen.constructor (onPress item).title with
    | .error e => { d with screens := .error e }
    | .ok _ =>
      match Reviews.componentDidMount ((onPress item).title.getD "COM1") d.sessions.firebase with
      | .error e => { d.newComponent with screens := .error e }
      | .ok (card, doc) =>
        d.newComponent.display
          { s with page := some (Page.mount d.nextKey (onPress item) card doc) }

/-- New parameters for a mounted submission screen. -/
def Form.update (f : Form) (params : ReviewSubmissionScreen.Params) : Form :=
  { f with screen := { f.screen with params }.setState f.screen.state }

/-- `navigate('Reviews', ...)` in `onFinishRating` of the card. -/
def App.openForm (d : App) (first : FirstScreen.Mounted) (p : Page) (count : Star) : App :=
  let params := Reviews.onFinishRating p.params.title count
  match p.form with
  | some f => d.display ⟨first, some { p with form := some (f.update params) }⟩
  | none =>
    match ReviewSubmissionScreen.constructor params with
    | .error e => { d with screens := .error e }
    | .ok _ =>
      let screen := ReviewSubmissionScreen.Mounted.mount params
      d.newComponent.display ⟨first, some { p with form := some ⟨d.nextKey, screen⟩ }⟩

/-- What `submitReview` comes to: an exception of the handler, or a `set`. -/
def App.submitted (d : App) (key : ℕ) : Except Exception (DocRef × ReviewDoc) → App
  | .error e => { d with screens := .error e }
  | .ok write => { d with sets := d.sets ++ [⟨key, write, false⟩], known := d.known ++ [write] }

/-- The app after the call `r` at position `i` took a step. -/
def App.advance (d : App) (i : ℕ) (r : PendingCall) (ss : Sessions) (auth : AuthState)
    (next : Option Call) : App :=
  let d' : App :=
    { d with
      sessions := ss
      calls :=
        match next with
        | some call => d.calls.set i { r with call }
        | none => d.calls.eraseIdx i }
  match d.screens with
  | .error _ => d'
  | .ok s => d'.display (s.setAuth r.owner auth)

/-- What happens to the `set` at a position. -/
inductive SetEvent where
  /-- The server writes the document. -/
  | commit (i : ℕ)
  /-- The promise resolves. -/
  | resolve (i : ℕ)
  /-- It is rejected, and nothing was written. -/
  | reject (i : ℕ) (reason : String)
  deriving DecidableEq

def App.setStep (d : App) : SetEvent → Option App
  | .commit i =>
    match d.sets[i]? with
    | some ⟨key, write, false⟩ => some { d with sets := d.sets.set i ⟨key, write, true⟩ }
    | _ => none
  | .resolve i =>
    match d.sets[i]? with
    | some ⟨key, _, true⟩ =>
      let d' : App := { d with sets := d.sets.eraseIdx i }
      match d.screens with
      | .error _ => some d'
      | .ok s => some (d'.display { s with page := s.page.map fun p => p.closeForm key })
    | _ => none
  | .reject i reason =>
    match d.sets[i]? with
    | some ⟨_, _, false⟩ =>
      some { d with sets := d.sets.eraseIdx i, alerts := d.alerts ++ [.rejected reason] }
    | _ => none

inductive Action where
  | first (e : FirstScreen.Event)
  | pressRow (item : Toilet)
  | page (e : PageEvent)
  /-- A tap on the stars of 'Rate n Review'. -/
  | tapStar (count : Star)
  | form (e : FormEvent)
  | pressSubmit (now : Timestamp)
  | set (e : SetEvent)
  /-- The Google button, of the card or of the submission screen. -/
  | pressSignIn (owner : ℕ)
  | pressSignOut
  /-- The sign-in call at position `i` takes a step. -/
  | settle (i : ℕ) (o : Outcome)
  /-- The client ends the Firebase session by itself. -/
  | sessionEnds
  | goBack
  deriving DecidableEq

section

variable (getDistance : Coords → Coords → ℚ → ℚ) (localeCompare : String → String → ℤ)
  (userOf : GoogleUser → User)

/-- One action, over the reviews collection as it is. -/
def App.step (d : App) (db : Store ReviewDoc) : Action → Option App
  | .first e =>
    match d.screens with
    | .error _ => none
    | .ok s =>
      (s.first.step getDistance localeCompare e).map fun first => d.display { s with first }
  | .pressRow item =>
    match d.screens with
    | .error _ => none
    | .ok s => if s.lists item then some (d.openPage s item) else none
  | .page e =>
    d.mountedPage.bind fun x =>
      (x.2.step db d.known e).map fun p =>
        App.display { d with known := d.known ++ x.2.learns db e } ⟨x.1, some p⟩
  | .tapStar count =>
    d.mountedPage.bind fun x =>
      match Reviews.renderMiddle x.2.props x.2.card d.sessions.firebase with
      | .ok (.rateAndReview _) => some (d.openForm x.1 x.2 count)
      | _ => none
  | .form e =>
    d.mountedForm.bind fun x =>
      (x.2.2.step e).map fun f => d.display ⟨x.1, some { x.2.1 with form := some f }⟩
  | .pressSubmit now =>
    d.mountedForm.bind fun x =>
      (x.2.2.screen.pressSubmit d.sessions.firebase now).map (d.submitted x.2.2.key)
  | .set e => d.setStep e
  | .pressSignIn owner =>
    match d.auth owner with
    | some ⟨_, false, _⟩ => some (d.push owner (.signIn .awaitHasPlayServices))
    | _ => none
  | .pressSignOut =>
    d.mountedForm.bind fun x =>
      if x.2.2.screen.state.auth.isUserSignedIn then none
      else some (d.push x.2.2.key (.signOut .awaitRevokeAccess))
  | .settle i o =>
    d.calls[i]?.bind fun r =>
      (r.call.step userOf d.sessions ((d.auth r.owner).getD AuthState.initial) o).map fun x =>
        d.advance i r x.1 x.2.1 x.2.2
  | .sessionEnds => some { d with sessions := { d.sessions with firebase := none } }
  | .goBack =>
    match d.screens with
    | .error _ => none
    | .ok s => some (d.display s.goBack)

end

/-! ## What a step writes -/

/-- What the server writes. -/
def App.posts (d : App) : Action → List (DocRef × ReviewDoc)
  | .set (.commit i) => (d.sets[i]?.map PendingSet.write).toList
  | _ => []

/-! ## Rendering -/

theorem Page.exists_render_iff {p : Page} {user : Option User} :
    (∃ view, p.render user = .ok view) ↔
      p.params.toiletObj.isSome = true ∧ (∃ view, Reviews.render p.props p.card user = .ok view) ∧
        ∀ f, p.form = some f → ∃ view, f.render = .ok view := by
  unfold Page.render
  cases hdetails : p.details.render p.detailsParams with
  | error e =>
    have hnone : ¬ p.params.toiletObj.isSome = true := by
      intro htoilet
      obtain ⟨view, hview⟩ := Details.exists_render_iff.2 (show p.detailsParams.toiletObj.isSome = true
        from htoilet)
      rw [hdetails] at hview
      cases hview
    simp [hnone]
  | ok details =>
    have htoilet : p.params.toiletObj.isSome = true := Details.exists_render_iff.1 ⟨_, hdetails⟩
    have hprops : details.card = p.props := by
      unfold Details.render at hdetails
      split at hdetails
      · cases hdetails
      · cases hdetails
        rfl
    simp only [hprops, htoilet, true_and]
    cases Reviews.render p.props p.card user with
    | error e => simp
    | ok card =>
      cases p.form with
      | none => simp
      | some f => cases hform : f.render <;> simp [hform]

theorem Screens.exists_render_iff {s : Screens} {user : Option User} :
    (∃ view, s.render user = .ok view) ↔
      (∃ view, FirstScreen.render s.first.state = .ok view) ∧
        ∀ p, s.page = some p → ∃ view, p.render user = .ok view := by
  cases hlist : FirstScreen.render s.first.state with
  | error e => simp [Screens.render, hlist]
  | ok list =>
    cases hpage : s.page with
    | none => simp [Screens.render, hlist, hpage]
    | some p => cases hview : p.render user <;> simp [Screens.render, hlist, hpage, hview]

/-- The user's doings in the form leave its sign-in state alone. -/
theorem Form.auth_of_step {f f' : Form} {e : FormEvent} (h : f.step e = some f') :
    f'.screen.state.auth = f.screen.state.auth := by
  obtain ⟨screen, hscreen, rfl⟩ := Option.map_eq_some_iff.1 h
  cases e with
  | tapStar k =>
    simp only [FormEvent.event, ReviewSubmissionScreen.Mounted.step] at hscreen
    split at hscreen
    · cases hscreen
    · cases hscreen
      rfl
  | editText text =>
    simp only [FormEvent.event, ReviewSubmissionScreen.Mounted.step] at hscreen
    split at hscreen
    · cases hscreen
    · cases hscreen
      rfl

/-- What is displayed is there, or nothing is any more. -/
theorem App.display_screens_eq_ok_iff {d : App} {s s' : Screens} :
    (d.display s).screens = .ok s' ↔ s' = s ∧ ∃ view, s.render d.sessions.firebase = .ok view := by
  unfold App.display
  cases s.render d.sessions.firebase with
  | error e => simp [Except.map]
  | ok view => simp [Except.map, eq_comm]

theorem App.mountedPage_eq_some_iff {d : App} {first : FirstScreen.Mounted} {p : Page} :
    d.mountedPage = some (first, p) ↔ d.screens = .ok ⟨first, some p⟩ := by
  unfold App.mountedPage
  split
  · next first' p' h => simp [h]
  · next h =>
    simp only [reduceCtorEq, false_iff]
    exact h first p

theorem App.mountedForm_eq_some_iff {d : App} {first : FirstScreen.Mounted} {p : Page} {f : Form} :
    d.mountedForm = some (first, p, f) ↔ d.screens = .ok ⟨first, some p⟩ ∧ p.form = some f := by
  unfold App.mountedForm
  rw [Option.bind_eq_some_iff]
  constructor
  · rintro ⟨⟨first', p'⟩, hpage, hform⟩
    obtain ⟨f', hf', heq⟩ := Option.map_eq_some_iff.1 hform
    cases heq
    exact ⟨App.mountedPage_eq_some_iff.1 hpage, hf'⟩
  · rintro ⟨hscreens, hform⟩
    exact ⟨(first, p), App.mountedPage_eq_some_iff.2 hscreens, by simp [hform]⟩

/-- The sessions, the keys, the `set`s and the calls after a call took a step. -/
theorem App.advance_eq (d : App) (i : ℕ) (r : PendingCall) (ss : Sessions) (auth : AuthState)
    (next : Option Call) :
    (d.advance i r ss auth next).sessions = ss ∧
      (d.advance i r ss auth next).nextKey = d.nextKey ∧
      (d.advance i r ss auth next).sets = d.sets ∧
      (d.advance i r ss auth next).calls =
        match next with
        | some call => d.calls.set i { r with call }
        | none => d.calls.eraseIdx i := by
  unfold App.advance
  cases d.screens <;> exact ⟨rfl, rfl, rfl, rfl⟩

/-- A call that takes a step moves among the calls, and sets the state of its component where there
are screens. -/
theorem App.advance_cases (d : App) (i : ℕ) (r : PendingCall) (ss : Sessions) (auth : AuthState)
    (next : Option Call) :
    ∃ calls, (∀ r' ∈ calls, r' ∈ d.calls ∨ ∃ call, next = some call ∧ r' = { r with call }) ∧
      ((∃ e, d.screens = .error e ∧
          d.advance i r ss auth next = { d with sessions := ss, calls }) ∨
        ∃ s, d.screens = .ok s ∧
          d.advance i r ss auth next =
            App.display { d with sessions := ss, calls } (s.setAuth r.owner auth)) := by
  refine ⟨match next with
    | some call => d.calls.set i { r with call }
    | none => d.calls.eraseIdx i, ?_, ?_⟩
  · intro r' hr'
    cases next with
    | none => exact Or.inl (List.mem_of_mem_eraseIdx hr')
    | some call =>
      rcases List.mem_or_eq_of_mem_set hr' with hr' | hr'
      · exact Or.inl hr'
      · exact Or.inr ⟨call, rfl, hr'⟩
  · unfold App.advance
    cases hscreens : d.screens with
    | error e => exact Or.inl ⟨e, rfl, rfl⟩
    | ok s => exact Or.inr ⟨s, rfl, rfl⟩

/-! ## What a step does -/

section

variable (getDistance : Coords → Coords → ℚ → ℚ) (localeCompare : String → String → ℤ)
  (userOf : GoogleUser → User)

/-- The app as a machine of its own: each action comes with the reviews collection at that time. -/
def App.act (d : App) (x : Store ReviewDoc × Action) : Option App :=
  d.step getDistance localeCompare userOf x.1 x.2

/-- The steps by what they do. -/
inductive App.Next (db : Store ReviewDoc) (d : App) : Action → App → Prop where
  | first {s : Screens} {first : FirstScreen.Mounted} {e : FirstScreen.Event} :
      d.screens = .ok s → s.first.step getDistance localeCompare e = some first →
      Next db d (.first e) (d.display { s with first })
  | constructorFails {first : FirstScreen.Mounted} {item : Toilet} {e : Exception} :
      d.screens = .ok ⟨first, none⟩ → isDocId item.name = false →
      Next db d (.pressRow item) { d with screens := .error e }
  | mountFails {first : FirstScreen.Mounted} {item : Toilet} {e : Exception} :
      d.screens = .ok ⟨first, none⟩ → d.sessions.firebase = none →
      Next db d (.pressRow item) { d.newComponent with screens := .error e }
  | mountPage {first : FirstScreen.Mounted} {item : Toilet} {user : User} {doc : DocRef} :
      d.screens = .ok ⟨first, none⟩ → isDocId item.name = true → d.sessions.firebase = some user →
      Reviews.checkIfReviewExists item.name (some user) = .ok doc →
      Next db d (.pressRow item)
        (d.newComponent.display
          ⟨first, some (Page.mount d.nextKey (onPress item) Reviews.State.mounted doc)⟩)
  | pressAgain {first : FirstScreen.Mounted} {p : Page} {item : Toilet} :
      d.screens = .ok ⟨first, some p⟩ →
      Next db d (.pressRow item) (d.display ⟨first, some (p.update (onPress item))⟩)
  | page {first : FirstScreen.Mounted} {p p' : Page} {e : PageEvent} :
      d.screens = .ok ⟨first, some p⟩ → p.step db d.known e = some p' →
      Next db d (.page e)
        (App.display { d with known := d.known ++ p.learns db e } ⟨first, some p'⟩)
  | formFails {first : FirstScreen.Mounted} {p : Page} {count : Star} {e : Exception} :
      d.screens = .ok ⟨first, some p⟩ → p.form = none →
      isDocId (p.params.title.getD "COM1") = false →
      Next db d (.tapStar count) { d with screens := .error e }
  | openForm {first : FirstScreen.Mounted} {p : Page} {count : Star} :
      d.screens = .ok ⟨first, some p⟩ → p.form = none →
      isDocId (p.params.title.getD "COM1") = true →
      Next db d (.tapStar count)
        (d.newComponent.display ⟨first, some { p with
          form := some ⟨d.nextKey, ReviewSubmissionScreen.Mounted.mount
            (Reviews.onFinishRating p.params.title count)⟩ }⟩)
  | tapAgain {first : FirstScreen.Mounted} {p : Page} {f : Form} {count : Star} :
      d.screens = .ok ⟨first, some p⟩ → p.form = some f →
      Next db d (.tapStar count) (d.display ⟨first, some { p with
        form := some (f.update (Reviews.onFinishRating p.params.title count)) }⟩)
  | form {first : FirstScreen.Mounted} {p : Page} {f f' : Form} {e : FormEvent} :
      d.screens = .ok ⟨first, some p⟩ → p.form = some f → f.step e = some f' →
      Next db d (.form e) (d.display ⟨first, some { p with form := some f' }⟩)
  | submitFails {first : FirstScreen.Mounted} {p : Page} {f : Form} {now : Timestamp}
      {e : Exception} :
      d.screens = .ok ⟨first, some p⟩ → p.form = some f →
      f.screen.pressSubmit d.sessions.firebase now = some (.error e) →
      Next db d (.pressSubmit now) { d with screens := .error e }
  | submit {first : FirstScreen.Mounted} {p : Page} {f : Form} {now : Timestamp}
      {write : DocRef × ReviewDoc} :
      d.screens = .ok ⟨first, some p⟩ → p.form = some f →
      f.screen.pressSubmit d.sessions.firebase now = some (.ok write) →
      Next db d (.pressSubmit now)
        { d with sets := d.sets ++ [⟨f.key, write, false⟩], known := d.known ++ [write] }
  | commit {i key : ℕ} {write : DocRef × ReviewDoc} : d.sets[i]? = some ⟨key, write, false⟩ →
      Next db d (.set (.commit i)) { d with sets := d.sets.set i ⟨key, write, true⟩ }
  | resolve {i key : ℕ} {write : DocRef × ReviewDoc} {s : Screens} :
      d.sets[i]? = some ⟨key, write, true⟩ → d.screens = .ok s →
      Next db d (.set (.resolve i)) (App.display { d with sets := d.sets.eraseIdx i }
        { s with page := s.page.map fun p => p.closeForm key })
  | resolveUnseen {i key : ℕ} {write : DocRef × ReviewDoc} {e : Exception} :
      d.sets[i]? = some ⟨key, write, true⟩ → d.screens = .error e →
      Next db d (.set (.resolve i)) { d with sets := d.sets.eraseIdx i }
  | reject {i key : ℕ} {write : DocRef × ReviewDoc} {reason : String} :
      d.sets[i]? = some ⟨key, write, false⟩ →
      Next db d (.set (.reject i reason))
        { d with sets := d.sets.eraseIdx i, alerts := d.alerts ++ [.rejected reason] }
  | pressSignIn {owner : ℕ} {auth : AuthState} : d.auth owner = some auth →
      auth.isUserSignedIn = false →
      Next db d (.pressSignIn owner) (d.push owner (.signIn .awaitHasPlayServices))
  | pressSignOut {first : FirstScreen.Mounted} {p : Page} {f : Form} :
      d.screens = .ok ⟨first, some p⟩ → p.form = some f →
      f.screen.state.auth.isUserSignedIn = false →
      Next db d .pressSignOut (d.push f.key (.signOut .awaitRevokeAccess))
  | settle {i : ℕ} {o : Outcome} {r : PendingCall} {ss : Sessions} {auth auth' : AuthState}
      {next : Option Call} :
      d.calls[i]? = some r → auth = (d.auth r.owner).getD AuthState.initial →
      r.call.step userOf d.sessions auth o = some (ss, auth', next) →
      Next db d (.settle i o) (d.advance i r ss auth' next)
  | sessionEnds : Next db d .sessionEnds
      { d with sessions := { d.sessions with firebase := none } }
  | goBack {s : Screens} : d.screens = .ok s → Next db d .goBack (d.display s.goBack)

variable {getDistance localeCompare userOf}

theorem App.next_of_step {d d' : App} {db : Store ReviewDoc} {a : Action}
    (h : d.step getDistance localeCompare userOf db a = some d') :
    App.Next getDistance localeCompare userOf db d a d' := by
  cases a with
  | first e =>
    simp only [App.step] at h
    split at h
    · cases h
    · next s hscreens =>
      obtain ⟨first, hfirst, rfl⟩ := Option.map_eq_some_iff.1 h
      exact .first hscreens hfirst
  | pressRow item =>
    simp only [App.step] at h
    split at h
    · cases h
    · next s hscreens =>
      obtain ⟨-, heq⟩ := Option.ite_none_right_eq_some.1 h
      cases heq
      obtain ⟨first, page⟩ := s
      cases page with
      | some p => exact .pressAgain hscreens
      | none =>
        cases hid : isDocId item.name with
        | false =>
          have hconstructor : DetailsScreen.constructor (onPress item).title =
              .error (.invalidArgument item.name) := if_neg (by simp [onPress, hid])
          simp only [App.openPage, hconstructor]
          exact .constructorFails hscreens hid
        | true =>
          have hconstructor : DetailsScreen.constructor (onPress item).title =
              .ok (DetailsScreen.constructorRef (onPress item).title) := if_pos (by simp [onPress, hid])
          simp only [App.openPage, hconstructor]
          cases huser : d.sessions.firebase with
          | none => exact .mountFails hscreens huser
          | some user => exact .mountPage hscreens hid huser rfl
  | page e =>
    obtain ⟨⟨first, p⟩, hpage, hstep⟩ := Option.bind_eq_some_iff.1 h
    obtain ⟨p', hp', rfl⟩ := Option.map_eq_some_iff.1 hstep
    exact .page (App.mountedPage_eq_some_iff.1 hpage) hp'
  | tapStar count =>
    obtain ⟨⟨first, p⟩, hpage, hstep⟩ := Option.bind_eq_some_iff.1 h
    rw [App.mountedPage_eq_some_iff] at hpage
    split at hstep
    · cases hstep
      simp only [App.openForm]
      cases hform : p.form with
      | none =>
        cases hid : isDocId (p.params.title.getD "COM1") with
        | false =>
          have hconstructor : ReviewSubmissionScreen.constructor
              (Reviews.onFinishRating p.params.title count) =
                .error (.invalidArgument (p.params.title.getD "COM1")) :=
            if_neg (by simp [Reviews.onFinishRating, hid])
          simp only [hconstructor]
          exact .formFails hpage hform hid
        | true =>
          have hconstructor : ReviewSubmissionScreen.constructor
              (Reviews.onFinishRating p.params.title count) = .ok (ReviewSubmissionScreen.constructorRef
                (Reviews.onFinishRating p.params.title count)) :=
            if_pos (by simp [Reviews.onFinishRating, hid])
          simp only [hconstructor]
          exact .openForm hpage hform hid
      | some f => exact .tapAgain hpage hform
    · cases hstep
  | form e =>
    obtain ⟨⟨first, p, f⟩, hform, hstep⟩ := Option.bind_eq_some_iff.1 h
    obtain ⟨f', hf', rfl⟩ := Option.map_eq_some_iff.1 hstep
    obtain ⟨hscreens, hform⟩ := App.mountedForm_eq_some_iff.1 hform
    exact .form hscreens hform hf'
  | pressSubmit now =>
    obtain ⟨⟨first, p, f⟩, hform, hstep⟩ := Option.bind_eq_some_iff.1 h
    obtain ⟨hscreens, hform⟩ := App.mountedForm_eq_some_iff.1 hform
    obtain ⟨result, hresult, rfl⟩ := Option.map_eq_some_iff.1 hstep
    cases result with
    | error e => exact .submitFails hscreens hform hresult
    | ok write => exact .submit hscreens hform hresult
  | set e =>
    cases e with
    | commit i =>
      simp only [App.step, App.setStep] at h
      split at h
      · next key write hset =>
        cases h
        exact .commit hset
      · cases h
    | resolve i =>
      simp only [App.step, App.setStep] at h
      split at h
      · next key write hset =>
        split at h
        · next e hscreens =>
          cases h
          exact .resolveUnseen hset hscreens
        · next s hscreens =>
          cases h
          exact .resolve hset hscreens
      · cases h
    | reject i reason =>
      simp only [App.step, App.setStep] at h
      split at h
      · next key write hset =>
        cases h
        exact .reject hset
      · cases h
  | pressSignIn owner =>
    simp only [App.step] at h
    split at h
    · next userInfo checking hauth =>
      cases h
      exact .pressSignIn hauth rfl
    · cases h
  | pressSignOut =>
    obtain ⟨⟨first, p, f⟩, hform, hstep⟩ := Option.bind_eq_some_iff.1 h
    obtain ⟨hsigned, heq⟩ := Option.ite_none_left_eq_some.1 hstep
    cases heq
    obtain ⟨hscreens, hform⟩ := App.mountedForm_eq_some_iff.1 hform
    exact .pressSignOut hscreens hform (Bool.eq_false_iff.2 hsigned)
  | settle i o =>
    obtain ⟨r, hr, hstep⟩ := Option.bind_eq_some_iff.1 h
    obtain ⟨⟨ss, auth, next⟩, hcall, rfl⟩ := Option.map_eq_some_iff.1 hstep
    exact .settle hr rfl hcall
  | sessionEnds =>
    cases h
    exact .sessionEnds
  | goBack =>
    simp only [App.step] at h
    split at h
    · cases h
    · next s hscreens =>
      cases h
      exact .goBack hscreens

end

end LetItGo.Systems.WholeApp
