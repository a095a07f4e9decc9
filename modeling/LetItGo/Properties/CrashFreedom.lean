import LetItGo.Systems.AppParts
import LetItGo.Properties.SortOrder
import LetItGo.Properties.ToiletFilter
import LetItGo.Properties.ToiletLoading

/-!
# What ends the screens

Nothing catches an exception thrown while rendering or in a handler. Over the whole app, with any
sessions at the start, any answers and any contents of the reviews collection, there are five ways
to one (`alive_iff`): a filter box that makes the filter read a yaw, a details page opened without a
Firebase session, a page or a form for a name that the client makes no document of, the button below
the lower list, and a sign-in check that ends in 'signed in' while no user has arrived at the
component that started it. As long as the client does not end the Firebase session under an open page,
`submitReview` never throws: a form can only be opened from a page, and a page only with a session.
-/

set_option autoImplicit false

namespace LetItGo.Properties.CrashFreedom

open LetItGo.Library.Js
open LetItGo.Library.DocumentStore
open LetItGo.Library.Runs
open LetItGo.Components
open LetItGo.Components.SignIn (AuthState Call GoogleUser Outcome Sessions User)
open LetItGo.Components.FirstScreen (Coords FacilityType)
open LetItGo.Components.ReviewSubmissionScreen (ReviewDoc)
open LetItGo.Properties.ToiletFilter
open LetItGo.Properties.ToiletLoading (oneToilet record)
open LetItGo.Systems.Navigator (onPress)
open LetItGo.Systems.WholeApp

/-! ## The list -/

/-- No filter box is checked. -/
def NoBox (st : FirstScreen.State) : Prop := ∀ f, st.checked f = false

/-- Before the list has loaded there is no box to check, and no record ever has a `paranoma`. -/
structure ListInv (m : FirstScreen.Mounted) : Prop where
  records : ∀ t ∈ m.state.toilets, t.paranoma = none
  pending : m.queryPending = true → m.state.isLoading = true
  loading : m.state.isLoading = true → NoBox m.state

/-- The condition on an event of the list: a filter box that is pressed does not make the filter read
a yaw. -/
def filterHolds (localeCompare : String → String → ℤ) (m : FirstScreen.Mounted) :
    FirstScreen.Event → Prop
  | .press (.filter f) => NoYawRead (m.state.press localeCompare (.filter f))
  | _ => True

section

variable {getDistance : Coords → Coords → ℚ → ℚ} {localeCompare : String → String → ℤ}

theorem noYawRead_of_noBox {st : FirstScreen.State} (h : NoBox st) : NoYawRead st := by
  have hcooler : st.waterCoolerChecked = false := h .waterCooler
  exact Or.inr ⟨h .male, h .female, h .handicapped, by simp [hcooler]⟩

/-- Whether a yaw is read depends on which toilets there are, not on their order. -/
theorem noYawRead_congr {st st' : FirstScreen.State} (hmem : ∀ t, t ∈ st'.toilets ↔ t ∈ st.toilets)
    (hboxes : ∀ f, st'.checked f = st.checked f) : NoYawRead st' ↔ NoYawRead st := by
  have hnil : st'.toilets = [] ↔ st.toilets = [] := by
    simp only [List.eq_nil_iff_forall_not_mem, hmem]
  have hm : st'.maleChecked = st.maleChecked := hboxes .male
  have hf : st'.femaleChecked = st.femaleChecked := hboxes .female
  have hw : st'.wcChecked = st.wcChecked := hboxes .handicapped
  have hs : st'.showerChecked = st.showerChecked := hboxes .shower
  have hb : st'.bidetChecked = st.bidetChecked := hboxes .bidet
  have hc : st'.waterCoolerChecked = st.waterCoolerChecked := hboxes .waterCooler
  simp only [NoYawRead, passesFacilities, hnil, hmem, hm, hf, hw, hs, hb, hc]

/-- The list renders while it is loading, and as long as the filter reads no yaw. -/
theorem exists_render_list_iff {m : FirstScreen.Mounted} (h : ListInv m) :
    (∃ view, FirstScreen.render m.state = .ok view) ↔
      m.state.isLoading = true ∨ NoYawRead m.state := by
  unfold FirstScreen.render
  cases hloading : m.state.isLoading with
  | true => simp
  | false =>
    rw [← exists_filter_eq_ok_iff_noYawRead h.records]
    cases filter (FirstScreen.filterToilet m.state) m.state.toilets <;> simp [Except.map]

theorem listInv_mount : ListInv FirstScreen.mount where
  records := by
    intro t ht
    cases ht
  pending := fun _ => rfl
  loading := by
    intro _ f
    cases f <;> rfl

theorem listInv_step {m m' : FirstScreen.Mounted} {e : FirstScreen.Event} (h : ListInv m)
    (hstep : m.step getDistance localeCompare e = some m') : ListInv m' := by
  have hpending : m'.queryPending = true → m'.state.isLoading = true := by
    intro hpending
    obtain ⟨hbefore, hno⟩ := SortOrder.queryPending_of_step hstep hpending
    have hloading := h.pending hbefore
    rcases FirstScreen.Mounted.step_state_cases hstep with ⟨visible, hst⟩ | ⟨docs, -, he, -⟩ |
      ⟨box, -, hloaded, -⟩
    · rw [hst]
      exact hloading
    · exact absurd he (hno docs)
    · rw [hloading] at hloaded
      cases hloaded
  refine ⟨paranoma_step h.records hstep, hpending, ?_⟩
  intro hloading
  rcases FirstScreen.Mounted.step_state_cases hstep with ⟨visible, hst⟩ | ⟨docs, toilets, -, -, hst⟩ |
    ⟨box, -, hloaded, hst⟩
  · rw [hst] at hloading ⊢
    intro f
    have hbox := h.loading hloading f
    cases f <;> exact hbox
  · rw [hst] at hloading
    cases hloading
  · -- a box is pressed only after the list has loaded
    have hsame : m'.state.isLoading = m.state.isLoading := by
      rw [hst]
      cases box with
      | filter f => cases f <;> rfl
      | name => rfl
      | distance => rfl
    rw [hsame, hloaded] at hloading
    cases hloading

/-- From a list that renders, an event leads to one that does exactly if it meets the condition. -/
theorem list_step {m m' : FirstScreen.Mounted} {e : FirstScreen.Event} (h : ListInv m)
    (hrenders : m.state.isLoading = true ∨ NoYawRead m.state)
    (hstep : m.step getDistance localeCompare e = some m') :
    (m'.state.isLoading = true ∨ NoYawRead m'.state) ↔ filterHolds localeCompare m e := by
  by_cases hpress : ∃ box, e = .press box
  · obtain ⟨box, rfl⟩ := hpress
    obtain ⟨⟨hloaded, -⟩, heq⟩ := Option.ite_none_right_eq_some.1 hstep
    cases heq
    have hno : NoYawRead m.state := hrenders.resolve_left (by simp [hloaded])
    cases box with
    | name => exact iff_of_true (Or.inr ((noYawRead_congr (fun t => mem_toilets_press) fun f => by
        cases f <;> rfl).2 hno)) trivial
    | distance => exact iff_of_true (Or.inr ((noYawRead_congr (fun t => mem_toilets_press) fun f => by
        cases f <;> rfl).2 hno)) trivial
    | filter f =>
      have hsame : (m.state.press localeCompare (.filter f)).isLoading = false := by
        cases f <;> exact hloaded
      simp [filterHolds, hsame]
  · have htrue : filterHolds localeCompare m e := by
      unfold filterHolds
      split
      · next f => exact absurd ⟨_, rfl⟩ hpress
      · trivial
    refine iff_of_true ?_ htrue
    rcases FirstScreen.Mounted.step_state_cases hstep with ⟨visible, hst⟩ |
      ⟨docs, toilets, rfl, -, hst⟩ | ⟨box, he, -⟩
    · rw [hst]
      exact hrenders.imp_right fun hno => (noYawRead_congr (fun _ => Iff.rfl) fun f => by
        cases f <;> rfl).2 hno
    · -- the query is answered while no box is checked
      have hbefore : m.queryPending = true := (Option.ite_none_right_eq_some.1 hstep).1
      rw [hst]
      refine Or.inr (noYawRead_of_noBox fun f => ?_)
      have hbox := h.loading (h.pending hbefore) f
      cases f <;> exact hbox
    · exact absurd ⟨box, he⟩ hpress

end

/-! ## The page -/

/-- A component that says 'signed in' has a user to show, or, being the card, the user's review. -/
def AuthShown (reviewed : Bool) (auth : AuthState) : Prop :=
  auth.isUserSignedIn = true → reviewed = true ∨ auth.userInfo.isSome = true

/-- The component with the key is the card, and the user's review has been found. -/
def reviewed (p : Page) (owner : ℕ) : Bool := decide (p.key = owner) && p.card.hasReview

/-- What a page needs to render for somebody with a Firebase session. -/
structure Ready (p : Page) : Prop where
  toilet : p.params.toiletObj.isSome = true
  collapsed : p.card.expandAll = false
  card : AuthShown p.card.hasReview p.card.auth
  form : ∀ f, p.form = some f → AuthShown false f.screen.state.auth

theorem ready_iff_exists_render {p : Page} {user : User} :
    (∃ view, p.render (some user) = .ok view) ↔ Ready p := by
  have hform : (∀ f, p.form = some f → ∃ view, f.render = .ok view) ↔
      ∀ f, p.form = some f → AuthShown false f.screen.state.auth := by
    simp only [Form.render, ReviewSubmissionScreen.exists_render_iff, AuthShown,
      Bool.false_eq_true, false_or]
  rw [Page.exists_render_iff, Reviews.exists_render_iff, hform]
  constructor
  · rintro ⟨htoilet, ⟨hcollapsed, hcard⟩, hform⟩
    exact ⟨htoilet, hcollapsed, hcard, hform⟩
  · intro h
    exact ⟨h.toilet, ⟨h.collapsed, h.card⟩, h.form⟩

theorem ready_of_render {p : Page} {user : Option User} {view : PageView}
    (h : p.render user = .ok view) : Ready p := by
  obtain ⟨htoilet, ⟨card, hcard⟩, hform⟩ := Page.exists_render_iff.1 ⟨view, h⟩
  obtain ⟨hcollapsed, hshown⟩ := Reviews.shown_of_render hcard
  refine ⟨htoilet, hcollapsed, hshown, ?_⟩
  intro f hf hsigned
  exact Or.inr (ReviewSubmissionScreen.exists_render_iff.1 (hform f hf) hsigned)

theorem ready_mount (key : ℕ) (item : FirstScreen.Toilet) (doc : DocRef) :
    Ready (Page.mount key (onPress item) Reviews.State.mounted doc) where
  toilet := rfl
  collapsed := rfl
  card := by
    intro h
    cases h
  form := by
    intro f hf
    cases hf

theorem Ready.update {p : Page} (h : Ready p) (item : FirstScreen.Toilet) :
    Ready (p.update (onPress item)) where
  toilet := rfl
  collapsed := h.collapsed
  card := h.card
  form := by
    intro f hf
    cases hf

/-- A page stays ready with another form that is. -/
theorem Ready.withForm {p : Page} (h : Ready p) {form : Option Form}
    (hform : ∀ f, form = some f → AuthShown false f.screen.state.auth) :
    Ready { p with form } :=
  ⟨h.toilet, h.collapsed, h.card, hform⟩

/-- What the page does by itself keeps it ready, but for the button below the lower list. -/
theorem ready_step {p p' : Page} {db : Store ReviewDoc} {known : List (DocRef × ReviewDoc)}
    {e : PageEvent} (h : Ready p) (hstep : p.step db known e = some p') : Ready p' ↔ e ≠ .pressToggle := by
  cases e with
  | details e =>
    obtain ⟨-, hdetails⟩ := Option.ite_none_right_eq_some.1 hstep
    obtain ⟨details, -, rfl⟩ := Option.map_eq_some_iff.1 hdetails
    exact iff_of_true ⟨h.toilet, h.collapsed, h.card, h.form⟩ (by simp)
  | takeLocal i docs =>
    obtain ⟨-, hdetails⟩ := Option.ite_none_right_eq_some.1 hstep
    obtain ⟨details, -, rfl⟩ := Option.map_eq_some_iff.1 hdetails
    exact iff_of_true ⟨h.toilet, h.collapsed, h.card, h.form⟩ (by simp)
  | pressToggle =>
    cases hstep
    refine iff_of_false ?_ (by simp)
    intro hready
    have hcollapsed := hready.collapsed
    simp [Reviews.State.pressToggle, h.collapsed] at hcollapsed
  | lookupRead =>
    simp only [Page.step] at hstep
    split at hstep
    · cases hstep
      exact iff_of_true ⟨h.toilet, h.collapsed, h.card, h.form⟩ (by simp)
    · cases hstep
  | lookupLocal found =>
    simp only [Page.step] at hstep
    split at hstep
    · cases hstep
      exact iff_of_true ⟨h.toilet, h.collapsed, h.card, h.form⟩ (by simp)
    · cases hstep
  | lookupAnswer =>
    simp only [Page.step] at hstep
    split at hstep
    · next doc found hlookup =>
      cases hstep
      refine iff_of_true ⟨h.toilet, ?_, ?_, h.form⟩ (by simp)
      · cases found <;> exact h.collapsed
      · cases found with
        | false => exact h.card
        | true => exact fun _ => Or.inl rfl
    · cases hstep

/-- The mounted components of a ready page all have a user to show. -/
theorem Ready.auth {p : Page} (h : Ready p) {owner : ℕ} {auth : AuthState}
    (hauth : p.auth owner = some auth) : AuthShown (reviewed p owner) auth := by
  unfold Page.auth at hauth
  split at hauth
  · next hkey =>
    cases hauth
    simpa [reviewed, hkey] using h.card
  · next hkey =>
    obtain ⟨f, hform, heq⟩ := Option.bind_eq_some_iff.1 hauth
    obtain ⟨-, heq⟩ := Option.ite_none_right_eq_some.1 heq
    cases heq
    simpa [reviewed, hkey] using h.form f hform

/-- A `setState` of the sign-in code keeps a page ready exactly if its component, where it is mounted,
still has a user to show. -/
theorem ready_setAuth_iff {p : Page} (h : Ready p) {owner : ℕ} {auth : AuthState} :
    Ready (p.setAuth owner auth) ↔ ∀ old, p.auth owner = some old → AuthShown (reviewed p owner) auth := by
  unfold Page.setAuth Page.auth reviewed
  by_cases hkey : p.key = owner
  · simp only [hkey, if_true, decide_true, Bool.true_and, Option.some.injEq, forall_eq']
    exact ⟨fun hready => hready.card, fun hcard => ⟨h.toilet, h.collapsed, hcard, h.form⟩⟩
  · simp only [hkey, if_false, decide_false, Bool.false_and]
    cases hform : p.form with
    | none => exact iff_of_true ⟨h.toilet, h.collapsed, h.card, by simp⟩ (by simp)
    | some f =>
      by_cases howner : f.key = owner
      · simp only [howner, if_true, Option.map_some, Option.bind_some, Option.some.injEq, forall_eq']
        constructor
        · intro hready
          exact hready.form _ rfl
        · intro hauth
          refine h.withForm fun f' hf' => ?_
          cases hf'
          exact hauth
      · simp only [howner, if_false, Option.map_some, Option.bind_some, reduceCtorEq,
          false_implies, implies_true, iff_true]
        refine h.withForm fun f' hf' => ?_
        cases hf'
        exact h.form f hform

/-! ## A step of a sign-in call -/

section

variable {userOf : GoogleUser → User} {ss ss' : Sessions} {auth auth' : AuthState} {o : Outcome}
  {c : Call} {next : Option Call}

/-- No step of the sign-in code ends the Firebase session. -/
theorem firebase_isSome_of_step (hstep : c.step userOf ss auth o = some (ss', auth', next))
    (h : ss.firebase.isSome = true) : ss'.firebase.isSome = true := by
  cases Call.step_effect hstep with
  | waits hfirebase => rwa [hfirebase]
  | credential info => rfl
  | silent => exact h
  | silentRejected => exact h
  | setUserInfo => exact h
  | finish => exact h
  | setSignedIn => exact h

/-- Only the end of a sign-in check can make a component say 'signed in' without a user to show. -/
theorem authShown_step_iff {b : Bool} (h : AuthShown b auth)
    (hstep : c.step userOf ss auth o = some (ss', auth', next)) :
    AuthShown b auth' ↔
      (c = .check (.finish true) → b = true ∨ auth.userInfo.isSome = true) := by
  by_cases hfinish : c = .check (.finish true)
  · subst hfinish
    cases o with
    | resolve =>
      cases hstep
      simp [AuthShown, AuthState.finishCheck]
    | resolveAs user => cases hstep
    | reject code => cases hstep
  · simp only [hfinish, false_implies, iff_true]
    cases Call.step_effect hstep with
    | waits => exact h
    | silent => exact h
    | silentRejected => exact h
    | credential => exact h
    | setUserInfo info => exact fun _ => Or.inr rfl
    | setSignedIn info => exact fun _ => Or.inr rfl
    | finish isUserSignedIn =>
      cases isUserSignedIn with
      | true => exact absurd rfl hfinish
      | false =>
        intro hsigned
        cases hsigned

end

/-! ## The app -/

/-- The screens are there. -/
def Alive (d : App) : Prop := ∃ s, d.screens = .ok s

/-- What holds of all screens that are there. -/
structure Sound (s : Screens) : Prop where
  list : ListInv s.first
  renders : s.first.state.isLoading = true ∨ NoYawRead s.first.state
  page : ∀ p, s.page = some p → Ready p

def Inv (d : App) : Prop := ∀ s, d.screens = .ok s → Sound s

/-- Somebody has a Firebase session while a details page is open. -/
def HasUser (d : App) : Prop :=
  ∀ first p, d.screens = .ok ⟨first, some p⟩ → d.sessions.firebase.isSome = true

/-- The client does not end the session while one is. -/
def sessionStays (d : App) : Action → Bool
  | .sessionEnds => d.mountedPage.isNone
  | _ => true

/-- If the call at position `i` is a sign-in check about to end in 'signed in', its component, where
it is mounted, has a user to show. -/
def userArrived (d : App) (i : ℕ) : Bool :=
  match d.calls[i]?, d.mountedPage with
  | some ⟨owner, .check (.finish true)⟩, some (_, p) =>
    match p.auth owner with
    | some auth => reviewed p owner || auth.userInfo.isSome
    | none => true
  | _, _ => true

/-- The submission screen is there, or the title it would be opened with is the id of a document. -/
def formOpens (d : App) : Bool :=
  match d.mountedPage with
  | some (_, p) => p.form.isSome || isDocId (p.params.title.getD "COM1")
  | none => true

/-- The condition on a step. -/
def goesOn (localeCompare : String → String → ℤ) (d : App) : Action → Prop
  | .first e =>
    match d.screens with
    | .ok s => filterHolds localeCompare s.first e
    | .error _ => True
  | .pressRow item => d.mountedPage.isSome = true ∨
      (isDocId item.name = true ∧ d.sessions.firebase.isSome = true)
  | .tapStar _ => formOpens d = true
  | .page .pressToggle => False
  | .settle i _ => userArrived d i = true
  | _ => True

theorem alive_display_iff {d : App} {s : Screens} (hlist : ListInv s.first)
    (huser : s.page.isSome = true → d.sessions.firebase.isSome = true) :
    Alive (d.display s) ↔ (s.first.state.isLoading = true ∨ NoYawRead s.first.state) ∧
      ∀ p, s.page = some p → Ready p := by
  have halive : Alive (d.display s) ↔ ∃ view, s.render d.sessions.firebase = .ok view := by
    unfold Alive
    simp only [App.display_screens_eq_ok_iff, exists_eq_left]
  rw [halive, Screens.exists_render_iff, exists_render_list_iff hlist]
  apply and_congr_right
  intro _
  cases hpage : s.page with
  | none => simp
  | some p =>
    rw [hpage] at huser
    obtain ⟨user, hfirebase⟩ := Option.isSome_iff_exists.1 (huser rfl)
    simp only [Option.some.injEq, forall_eq', hfirebase, ready_iff_exists_render]

/-- With a user, `submitReview` does not throw. -/
theorem submit_ok {m : ReviewSubmissionScreen.Mounted} {user : User}
    {now : ReviewSubmissionScreen.Timestamp} {result : Except Exception (DocRef × ReviewDoc)}
    (h : m.pressSubmit (some user) now = some result) : ∃ write, result = .ok write := by
  unfold ReviewSubmissionScreen.Mounted.pressSubmit at h
  split at h
  · obtain ⟨text, -, rfl⟩ := Option.map_eq_some_iff.1 h
    exact ⟨_, rfl⟩
  · cases h

section

variable {getDistance : Coords → Coords → ℚ → ℚ} {localeCompare : String → String → ℤ}
  {userOf : GoogleUser → User} {d : App} {s : Screens}

/-- What is displayed is there if its parts render. -/
theorem display_spec {c : Prop} (hlist : ListInv s.first)
    (huser : s.page.isSome = true → d.sessions.firebase.isSome = true)
    (hc : ((s.first.state.isLoading = true ∨ NoYawRead s.first.state) ∧
      ∀ p, s.page = some p → Ready p) ↔ c) : Alive (d.display s) ↔ c :=
  (alive_display_iff hlist huser).trans hc

/-- The same for screens with a page, over screens with one and the list as it is. -/
theorem display_page_spec {first : FirstScreen.Mounted} {p p' : Page} {c : Prop}
    (hsound : Sound ⟨first, some p⟩) (huser : d.sessions.firebase.isSome = true)
    (hready : Ready p' ↔ c) : Alive (d.display ⟨first, some p'⟩) ↔ c := by
  have hpage : (∀ q, some p' = some q → Ready q) ↔ c := by
    rw [← hready]
    simp only [Option.some.injEq, forall_eq']
  exact display_spec (s := ⟨first, some p'⟩) hsound.list (fun _ => huser)
    ((and_iff_right hsound.renders).trans hpage)

/-! ## The invariants -/

theorem inv_start (ss : Sessions) : Inv (App.start ss) := by
  rintro s ⟨⟩
  exact ⟨listInv_mount, Or.inl rfl, by simp⟩

/-- What is on screen renders. -/
theorem inv_step {d' : App} {db : Store ReviewDoc} {a : Action} (h : Inv d)
    (hnext : App.Next getDistance localeCompare userOf db d a d') : Inv d' := by
  intro s' hs'
  rcases App.rendered_of_next hnext hs' with hsame | ⟨user, view, hview⟩
  · exact h s' hsame
  · have hlist : ListInv s'.first := by
      obtain ⟨s, hs, ⟨e, -, hstep⟩ | ⟨-, hfirst⟩⟩ := App.first_of_next hnext hs'
      · exact listInv_step (h s hs).list hstep
      · rw [hfirst]
        exact (h s hs).list
    obtain ⟨hrenders, hpage⟩ := Screens.exists_render_iff.1 ⟨view, hview⟩
    refine ⟨hlist, (exists_render_list_iff hlist).1 hrenders, ?_⟩
    intro p hp
    obtain ⟨pageView, hpageView⟩ := hpage p hp
    exact ready_of_render hpageView

theorem hasUser_start (ss : Sessions) : HasUser (App.start ss) := by
  rintro first p ⟨⟩

/-- A page is opened with a session, and the sign-in code ends none. -/
theorem hasUser_step {d' : App} {db : Store ReviewDoc} {a : Action} (h : HasUser d)
    (hstays : sessionStays d a = true)
    (hnext : App.Next getDistance localeCompare userOf db d a d') : HasUser d' := by
  intro first' p' hscreens'
  have hbefore : d.sessions.firebase.isSome = true := by
    rcases App.page_of_next hnext hscreens' with ⟨-, -, -, hfirebase, -⟩ | ⟨first, p, hscreens, -⟩
    · exact hfirebase
    · exact h first p hscreens
  rcases App.firebase_of_next hnext with hsame | ⟨rfl, -⟩ | ⟨r, -, info, -, hnew⟩
  · rw [hsame]
    exact hbefore
  · -- the page would be there now as before
    rcases App.page_of_next hnext hscreens' with ⟨item, doc, heq, -⟩ | ⟨first, p, hscreens, -⟩
    · cases heq
    · simp [sessionStays, App.mountedPage_eq_some_iff.2 hscreens] at hstays
  · rw [hnew]
    rfl

/-! ## One step -/

theorem settle_spec {i : ℕ} {r : PendingCall} {ss : Sessions} {auth auth' : AuthState}
    {next : Option Call} {o : Outcome} (h : Inv d) (hu : HasUser d) (halive : Alive d)
    (hr : d.calls[i]? = some r) (hauth : auth = (d.auth r.owner).getD AuthState.initial)
    (hcall : r.call.step userOf d.sessions auth o = some (ss, auth', next)) :
    Alive (d.advance i r ss auth' next) ↔ userArrived d i = true := by
  cases hscreens : d.screens with
  | error e =>
    obtain ⟨s, hs⟩ := halive
    rw [hscreens] at hs
    cases hs
  | ok s =>
    have hsound : Sound s := h s hscreens
    obtain ⟨calls, hadvance⟩ : ∃ calls, d.advance i r ss auth' next =
        App.display { d with sessions := ss, calls := calls } (s.setAuth r.owner auth') := by
      simp only [App.advance, hscreens]
      exact ⟨_, rfl⟩
    have huser : (s.setAuth r.owner auth').page.isSome = true → ss.firebase.isSome = true := by
      intro hpage
      rw [Screens.setAuth, Option.isSome_map] at hpage
      obtain ⟨p, hp⟩ := Option.isSome_iff_exists.1 hpage
      exact firebase_isSome_of_step hcall (hu s.first p (by rw [hscreens, ← hp]))
    have hlist : ListInv (s.setAuth r.owner auth').first := hsound.list
    rw [hadvance]
    suffices hiff : (((s.setAuth r.owner auth').first.state.isLoading = true ∨
        NoYawRead (s.setAuth r.owner auth').first.state) ∧
          ∀ p, (s.setAuth r.owner auth').page = some p → Ready p) ↔ userArrived d i = true from
      display_spec (d := { d with sessions := ss, calls := calls }) hlist huser hiff
    obtain ⟨first, page⟩ := s
    cases page with
    | none =>
      have hnoPage : d.mountedPage = none := by simp [App.mountedPage, hscreens]
      simpa [Screens.setAuth, userArrived, hnoPage] using hsound.renders
    | some p =>
      have hpage : d.mountedPage = some (first, p) := App.mountedPage_eq_some_iff.2 hscreens
      have hready : Ready p := hsound.page p rfl
      simp only [Screens.setAuth, Option.map_some, Option.some.injEq, forall_eq',
        hsound.renders, true_and]
      rw [ready_setAuth_iff hready]
      obtain ⟨owner, call⟩ := r
      simp only [userArrived, hr, hpage]
      simp only [App.auth, hpage, Option.bind_some] at hauth
      cases hold : p.auth owner with
      | none =>
        -- the component is not mounted any more
        refine iff_of_true (by simp) ?_
        split
        · next owner' first' p' hcalls hpages =>
          cases hcalls
          cases hpages
          rw [hold]
        · rfl
      | some old =>
        rw [hold] at hauth
        obtain rfl : auth = old := hauth
        simp only [Option.some.injEq, forall_eq']
        rw [authShown_step_iff (hready.auth hold) hcall]
        split
        · next owner' first' p' hcalls hpages =>
          cases hcalls
          cases hpages
          simp [hold]
        · next hno =>
          refine iff_of_true ?_ rfl
          rintro rfl
          exact absurd rfl (hno owner first p rfl)

/-- From screens that are there a step leads to such exactly if it meets the condition. -/
theorem alive_next_iff {d' : App} {db : Store ReviewDoc} {a : Action} (h : Inv d) (hu : HasUser d)
    (halive : Alive d) (hnext : App.Next getDistance localeCompare userOf db d a d') :
    Alive d' ↔ goesOn localeCompare d a := by
  have gone : ∀ {d' : App} {e : Exception}, d'.screens = .error e → ¬ Alive d' := by
    rintro d' e he ⟨s, hs⟩
    rw [he] at hs
    cases hs
  cases hnext with
  | @first s first e hscreens hfirst =>
    have hsound := h _ hscreens
    refine display_spec (s := { s with first }) (listInv_step hsound.list hfirst) ?_ ?_
    · intro hpage
      obtain ⟨p, hp⟩ := Option.isSome_iff_exists.1 hpage
      exact hu s.first p (by rw [hscreens, ← hp])
    · rw [list_step hsound.list hsound.renders hfirst]
      simp only [goesOn, hscreens]
      exact and_iff_left hsound.page
  | constructorFails hscreens hid =>
    refine iff_of_false (gone rfl) ?_
    simp [goesOn, App.mountedPage, hscreens, hid]
  | mountFails hscreens hfirebase =>
    refine iff_of_false (gone rfl) ?_
    simp [goesOn, App.mountedPage, hscreens, hfirebase]
  | @mountPage first item user doc hscreens hid hfirebase =>
    have hsound := h _ hscreens
    have hgoes : goesOn localeCompare d (.pressRow item) := Or.inr ⟨hid, by simp [hfirebase]⟩
    have hready : ∀ p, some (Page.mount d.nextKey (onPress item) Reviews.State.mounted doc) =
        some p → Ready p := by
      rintro p ⟨⟩
      exact ready_mount d.nextKey item doc
    exact display_spec (d := d.newComponent) (s := ⟨first, some _⟩) hsound.list
      (fun _ => by simp [App.newComponent, App.push, hfirebase])
      (iff_of_true ⟨hsound.renders, hready⟩ hgoes)
  | @pressAgain first p item hscreens =>
    have hsound := h _ hscreens
    have hgoes : goesOn localeCompare d (.pressRow item) :=
      Or.inl (by simp [App.mountedPage_eq_some_iff.2 hscreens])
    exact display_page_spec hsound (hu first p hscreens)
      (iff_of_true ((hsound.page p rfl).update item) hgoes)
  | @page first p p' e hscreens hstep =>
    have hsound := h _ hscreens
    have hready : Ready p' ↔ goesOn localeCompare d (.page e) := by
      rw [ready_step (hsound.page p rfl) hstep]
      cases e <;> simp [goesOn]
    exact display_page_spec (d := { d with known := d.known ++ p.learns db e }) hsound
      (hu first p hscreens) hready
  | @formFails first p count e hscreens hform hid =>
    refine iff_of_false (gone rfl) ?_
    simp [goesOn, formOpens, App.mountedPage_eq_some_iff.2 hscreens, hform, hid]
  | @openForm first p count hscreens hform hid =>
    have hsound := h _ hscreens
    have hready : Ready { p with form := some ⟨d.nextKey,
        ReviewSubmissionScreen.Mounted.mount (Reviews.onFinishRating p.params.title count)⟩ } :=
      (hsound.page p rfl).withForm (by
        rintro f ⟨⟩ hsigned
        cases hsigned)
    have hgoes : goesOn localeCompare d (.tapStar count) := by
      simp [goesOn, formOpens, App.mountedPage_eq_some_iff.2 hscreens, hid]
    exact display_page_spec (d := d.newComponent) hsound (hu first p hscreens)
      (iff_of_true hready hgoes)
  | @tapAgain first p f count hscreens hform =>
    have hsound := h _ hscreens
    have hready : Ready { p with
        form := some (f.update (Reviews.onFinishRating p.params.title count)) } :=
      (hsound.page p rfl).withForm (by
        rintro f' ⟨⟩
        exact (hsound.page p rfl).form f hform)
    have hgoes : goesOn localeCompare d (.tapStar count) := by
      simp [goesOn, formOpens, App.mountedPage_eq_some_iff.2 hscreens, hform]
    exact display_page_spec hsound (hu first p hscreens) (iff_of_true hready hgoes)
  | @form first p f f' e hscreens hform hstep =>
    have hsound := h _ hscreens
    have hready : Ready { p with form := some f' } := (hsound.page p rfl).withForm (by
      rintro f'' ⟨⟩
      rw [Form.auth_of_step hstep]
      exact (hsound.page p rfl).form f hform)
    exact display_page_spec hsound (hu first p hscreens)
      (iff_of_true hready (show goesOn localeCompare d (.form e) from trivial))
  | submitFails hscreens hform hsubmit =>
    -- the page has a Firebase session
    obtain ⟨user, hfirebase⟩ := Option.isSome_iff_exists.1 (hu _ _ hscreens)
    rw [hfirebase] at hsubmit
    obtain ⟨write, hwrite⟩ := submit_ok hsubmit
    cases hwrite
  | submit => exact iff_of_true halive trivial
  | commit => exact iff_of_true halive trivial
  | @resolve i key write s hset hscreens =>
    have hsound := h _ hscreens
    have hready : ∀ p, (s.page.map fun p => p.closeForm key) = some p → Ready p := by
      intro p' hp'
      obtain ⟨p, hp, rfl⟩ := Option.map_eq_some_iff.1 hp'
      exact (hsound.page p hp).withForm fun f hf =>
        (hsound.page p hp).form f (Option.mem_filter_iff.1 hf).1
    refine display_spec (d := { d with sets := d.sets.eraseIdx i })
      (s := { s with page := s.page.map fun p => p.closeForm key }) hsound.list ?_
      (iff_of_true ⟨hsound.renders, hready⟩
        (show goesOn localeCompare d (.set (.resolve i)) from trivial))
    intro hpage
    rw [Option.isSome_map] at hpage
    obtain ⟨p, hp⟩ := Option.isSome_iff_exists.1 hpage
    exact hu s.first p (by rw [hscreens, ← hp])
  | resolveUnseen => exact iff_of_true halive trivial
  | reject => exact iff_of_true halive trivial
  | pressSignIn => exact iff_of_true halive trivial
  | pressSignOut => exact iff_of_true halive trivial
  | settle hr hauth hcall => exact settle_spec h hu halive hr hauth hcall
  | sessionEnds => exact iff_of_true halive trivial
  | @goBack s hscreens =>
    have hsound := h _ hscreens
    have hback : s.goBack.first = s.first ∧ (s.goBack.page.isSome = true → s.page.isSome = true) ∧
        ∀ p', s.goBack.page = some p' → Ready p' := by
      unfold Screens.goBack
      split
      · next hnone => exact ⟨rfl, id, fun p' hp' => hsound.page p' hp'⟩
      · next p hpage =>
        split
        · next f hform =>
          refine ⟨rfl, by simp [hpage], ?_⟩
          rintro p' ⟨⟩
          exact (hsound.page p hpage).withForm (by simp)
        · exact ⟨rfl, by simp, by simp⟩
    obtain ⟨hfirst, huser, hready⟩ := hback
    refine display_spec (s := s.goBack) (hfirst ▸ hsound.list) ?_
      (iff_of_true ⟨hfirst ▸ hsound.renders, hready⟩
        (show goesOn localeCompare d .goBack from trivial))
    intro hpage
    obtain ⟨p, hp⟩ := Option.isSome_iff_exists.1 (huser hpage)
    exact hu s.first p (by rw [hscreens, ← hp])

/-! ## Every run -/

/-- In every run of the app from any sessions, with any contents of the reviews collection at each
step, in which the client ends the Firebase session by itself only while no details page is open: the
screens are there in every state if and only if every filter box that is pressed leaves the filter
without a yaw to read, every details page is opened with a Firebase session and for a name that the
client takes for the id of a document, every form likewise, the button below the lower list is never
pressed, and every sign-in check that ends in 'signed in' finds a user at the component that started
it, unless that is gone or shows 'Your Review'. -/
theorem alive_iff (ss : Sessions) {xs : List (Store ReviewDoc × Action)}
    (hsession : EveryStep (App.act getDistance localeCompare userOf)
      (fun d x => sessionStays d x.2 = true) (App.start ss) xs)
    (hrun : run (App.act getDistance localeCompare userOf) (App.start ss) xs = some d) :
    EveryState (App.act getDistance localeCompare userOf) Alive (App.start ss) xs ↔
      EveryStep (App.act getDistance localeCompare userOf)
        (fun d x => goesOn localeCompare d x.2) (App.start ss) xs := by
  refine everyState_iff_everyStep_guarded (I := fun d => Inv d ∧ HasUser d) ?_ ?_
    ⟨inv_start ss, hasUser_start ss⟩ ⟨_, rfl⟩ hsession hrun
  · rintro d x d' ⟨h, hu⟩ hstays hstep
    exact ⟨inv_step h (App.next_of_step hstep), hasUser_step hu hstays (App.next_of_step hstep)⟩
  · rintro d x d' ⟨h, hu⟩ halive - hstep
    exact alive_next_iff h hu halive (App.next_of_step hstep)

instance noYawRead.decidable (st : FirstScreen.State) : Decidable (NoYawRead st) :=
  inferInstanceAs (Decidable (st.toilets = [] ∨
    (st.maleChecked = false ∧ st.femaleChecked = false ∧ st.wcChecked = false ∧
      (st.waterCoolerChecked = true → ∀ t ∈ st.toilets, passesFacilities st t = false))))

instance filterHolds.decidable (m : FirstScreen.Mounted) (e : FirstScreen.Event) :
    Decidable (filterHolds localeCompare m e) := by
  unfold filterHolds
  split <;> infer_instance

instance goesOn.decidable (d : App) (a : Action) : Decidable (goesOn localeCompare d a) := by
  unfold goesOn
  split
  · split <;> infer_instance
  all_goals infer_instance

end

/-- Ann, signed in to Google and Firebase. -/
def annsSessions : Sessions := ⟨some ⟨"1", "Ann", "ann.jpg"⟩, some ⟨"u1", some "Ann", none⟩⟩

/-- The page of COM1 is opened with Ann's sessions; when the check is done, she opens the form. -/
theorem alive_form_opened :
    ∃ d, run (App.act (fun _ _ _ => 0) (fun _ _ => 0) fun user => ⟨user.id, some user.name, none⟩)
        (App.start annsSessions)
        ([.first (.position ⟨⟨1, 103⟩⟩), .first (.query [oneToilet]),
          .pressRow (record (fun _ _ _ => 0) ⟨⟨1, 103⟩⟩ oneToilet), .settle 0 .resolve,
          .settle 0 .resolve, .settle 0 .resolve, .settle 0 .resolve,
          .tapStar ⟨4, by decide, by decide⟩].map fun a => (∅, a)) = some d ∧
      EveryState (App.act (fun _ _ _ => 0) (fun _ _ => 0) fun user => ⟨user.id, some user.name, none⟩)
        Alive (App.start annsSessions)
        ([.first (.position ⟨⟨1, 103⟩⟩), .first (.query [oneToilet]),
          .pressRow (record (fun _ _ _ => 0) ⟨⟨1, 103⟩⟩ oneToilet), .settle 0 .resolve,
          .settle 0 .resolve, .settle 0 .resolve, .settle 0 .resolve,
          .tapStar ⟨4, by decide, by decide⟩].map fun a => (∅, a)) :=
  ⟨_, rfl, (alive_iff annsSessions (by decide) rfl).2 (by decide)⟩

end LetItGo.Properties.CrashFreedom
