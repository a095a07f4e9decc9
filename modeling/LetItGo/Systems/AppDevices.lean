import LetItGo.Systems.AppParts

/-!
# A component's device within the app

`SignIn.Device` is the phone as one component sees it that signs in: the two sessions, the state of
the component, and the calls in flight, of which those of other components do not touch it. Every
component of the app, a details page as well as a submission screen, is on such a device: a step of
the app is a step of the device or does not concern it (`App.SignsIn`), so what holds of all runs of a
device holds of every component in all runs of the app in which the client does not end the Firebase
session (`App.device_run`).
-/

set_option autoImplicit false

namespace LetItGo.Systems.WholeApp

open LetItGo.Library.DocumentStore
open LetItGo.Library.Runs
open LetItGo.Components
open LetItGo.Components.SignIn (AuthState Call Device GoogleUser Outcome Sessions User)
open LetItGo.Components.FirstScreen (Coords Toilet)
open LetItGo.Components.ReviewSubmissionScreen (ReviewDoc)

/-- The phone as the component with the key sees it, when its state is `auth`. -/
def App.device (d : App) (owner : ℕ) (auth : AuthState) : Device :=
  ⟨d.sessions, auth, d.calls.map fun r => ⟨r.call, r.owner = owner⟩⟩

/-- The device is one that a component comes to that has been mounted with the sessions. -/
def Reached (userOf : GoogleUser → User) (ss : Sessions) (device : Device) : Prop :=
  ∃ as, run (Device.step userOf) (Device.mount ss []) as = some device

/-- The keys that have been given out. -/
structure App.Keys (d : App) : Prop where
  calls : ∀ r ∈ d.calls, r.owner < d.nextKey
  sets : ∀ r ∈ d.sets, r.key < d.nextKey
  page : ∀ first p, d.screens = .ok ⟨first, some p⟩ → p.key < d.nextKey
  form : ∀ first p f, d.screens = .ok ⟨first, some p⟩ → p.form = some f →
    p.key < f.key ∧ f.key < d.nextKey

/-- A step of the app as far as signing in goes: it has no part in it and unmounts components at most,
mounts one, starts a call of a component whose sign-in buttons are on screen, or moves a call. The card
of the page has one button only. -/
inductive App.SignsIn (userOf : GoogleUser → User) (d : App) : Action → App → Prop where
  | stays {a : Action} {d' : App} : d'.sessions = d.sessions → d'.calls = d.calls →
      d'.nextKey = d.nextKey → (∀ owner auth, d'.auth owner = some auth → d.auth owner = some auth) →
      SignsIn userOf d a d'
  | mounts {a : Action} {d' : App} : d'.sessions = d.sessions →
      d'.calls = d.calls ++ [⟨d.nextKey, .check .awaitIsSignedIn⟩] → d'.nextKey = d.nextKey + 1 →
      (∀ owner auth, d'.auth owner = some auth →
        d.auth owner = some auth ∨ owner = d.nextKey ∧ auth = AuthState.initial.startCheck) →
      SignsIn userOf d a d'
  | presses {a : Action} (owner : ℕ) (auth : AuthState) (call : Call) : d.auth owner = some auth →
      auth.isUserSignedIn = false →
      call = .signIn .awaitHasPlayServices ∨ call = .signOut .awaitRevokeAccess →
      (∀ first p, d.screens = .ok ⟨first, some p⟩ → p.key = owner → a = .pressSignIn owner) →
      SignsIn userOf d a (d.push owner call)
  | settles (i : ℕ) (o : Outcome) (r : PendingCall) (ss : Sessions) (auth auth' : AuthState)
      (next : Option Call) : d.calls[i]? = some r →
      auth = (d.auth r.owner).getD AuthState.initial →
      r.call.step userOf d.sessions auth o = some (ss, auth', next) →
      SignsIn userOf d (.settle i o) (d.advance i r ss auth' next)

section

variable {getDistance : Coords → Coords → ℚ → ℚ} {localeCompare : String → String → ℤ}
  {userOf : GoogleUser → User} {d d' : App} {db : Store ReviewDoc}
  {known : List (DocRef × ReviewDoc)} {a : Action}

/-! ## The sign-in state of a component -/

theorem App.auth_eq_some_iff {owner : ℕ} {auth : AuthState} :
    d.auth owner = some auth ↔
      ∃ first p, d.screens = .ok ⟨first, some p⟩ ∧ p.auth owner = some auth := by
  unfold App.auth
  rw [Option.bind_eq_some_iff]
  constructor
  · rintro ⟨⟨first, p⟩, hpage, hauth⟩
    exact ⟨first, p, App.mountedPage_eq_some_iff.1 hpage, hauth⟩
  · rintro ⟨first, p, hscreens, hauth⟩
    exact ⟨(first, p), App.mountedPage_eq_some_iff.2 hscreens, hauth⟩

/-- When no call moves, a component has the state of before, or is the submission screen that has just
been mounted. -/
theorem Page.auth_of_change {nextKey owner : ℕ} {p p' : Page} {auth : AuthState}
    (h : Page.Change db known nextKey p a p') (hsettle : ∀ i o, a ≠ .settle i o)
    (hauth : p'.auth owner = some auth) :
    p.auth owner = some auth ∨
      (owner = nextKey ∧ auth = AuthState.initial.startCheck ∧ p.form = none ∧
        ∃ count, a = .tapStar count) := by
  -- the state of the card is the same, and a form that is there has that of before
  have hsame : ∀ q : Page, q.auth owner = some auth → q.key = p.key →
      q.card.auth = p.card.auth →
      (∀ f', q.form = some f' → ∃ f, p.form = some f ∧ f.key = f'.key ∧
        f.screen.state.auth = f'.screen.state.auth) → p.auth owner = some auth := by
    intro q h hkey hcard hform
    unfold Page.auth at h ⊢
    rw [hkey, hcard] at h
    split
    · next howner => rwa [if_pos howner] at h
    · next howner =>
      rw [if_neg howner] at h
      obtain ⟨f', hf', hauth⟩ := Option.bind_eq_some_iff.1 h
      obtain ⟨f, hf, hfkey, hfauth⟩ := hform f' hf'
      rw [hf, Option.bind_some, hfkey, hfauth]
      exact hauth
  have hstays : ∀ f', p.form = some f' → ∃ f, p.form = some f ∧ f.key = f'.key ∧
      f.screen.state.auth = f'.screen.state.auth := fun f' hf' => ⟨f', hf', rfl, rfl⟩
  cases h with
  | stays => exact Or.inl hauth
  | update item => exact Or.inl (hsame _ hauth rfl rfl fun f' hf' => by cases hf')
  | details e details => exact Or.inl (hsame _ hauth rfl rfl hstays)
  | takeLocal i docs details => exact Or.inl (hsame _ hauth rfl rfl hstays)
  | card e card lookup _ hcard => exact Or.inl (hsame _ hauth rfl hcard hstays)
  | setAuth i o => exact absurd rfl (hsettle i o)
  | openForm count hform =>
    unfold Page.auth at hauth
    split at hauth
    · next howner => exact Or.inl (by rw [Page.auth, if_pos howner, hauth])
    · obtain ⟨rfl, heq⟩ := Option.ite_none_right_eq_some.1 hauth
      cases heq
      exact Or.inr ⟨rfl, rfl, hform, count, rfl⟩
  | form _ f f' hform hchange hfauth =>
    refine Or.inl (hsame _ hauth rfl rfl ?_)
    intro f'' hf''
    obtain rfl := Option.some.inj hf''
    exact ⟨f, hform, hchange.key_ref.1.symm, hfauth.symm⟩
  | closed => exact Or.inl (hsame _ hauth rfl rfl fun f' hf' => by cases hf')

theorem App.auth_of_next (hnext : App.Next getDistance localeCompare userOf db d a d')
    (hsettle : ∀ i o, a ≠ .settle i o) {owner : ℕ} {auth : AuthState}
    (hauth : d'.auth owner = some auth) :
    d.auth owner = some auth ∨
      (owner = d.nextKey ∧ auth = AuthState.initial.startCheck ∧ d'.nextKey = d.nextKey + 1) := by
  obtain ⟨first', p', hscreens', hauth'⟩ := App.auth_eq_some_iff.1 hauth
  rcases App.page_of_next hnext hscreens' with
    ⟨item, doc, -, -, hkey, rfl⟩ | ⟨first, p, hscreens, hchange⟩
  · -- a page has been mounted
    obtain ⟨howner, heq⟩ := Option.ite_none_right_eq_some.1 hauth'
    cases heq
    exact Or.inr ⟨howner.symm, rfl, hkey⟩
  · rcases Page.auth_of_change hchange hsettle hauth' with
      hauth' | ⟨rfl, rfl, hform, count, rfl⟩
    · exact Or.inl (App.auth_eq_some_iff.2 ⟨first, p, hscreens, hauth'⟩)
    · exact Or.inr ⟨rfl, rfl, App.nextKey_of_tapStar hnext hscreens hform hscreens'⟩

/-- When a call moves, the state of its component is set, and that of others is as before. -/
theorem App.auth_advance {i : ℕ} {r : PendingCall} {ss : Sessions} {auth' : AuthState}
    {next : Option Call} {owner : ℕ} {auth : AuthState}
    (hauth : (d.advance i r ss auth' next).auth owner = some auth) :
    ∃ auth₀, d.auth owner = some auth₀ ∧ auth = if r.owner = owner then auth' else auth₀ := by
  obtain ⟨first, p', hscreens', hauth⟩ := App.auth_eq_some_iff.1 hauth
  obtain ⟨p, hscreens, rfl⟩ := App.page_of_advance hscreens'
  rw [Page.auth_setAuth] at hauth
  by_cases howner : r.owner = owner
  · rw [if_pos howner] at hauth
    obtain ⟨auth₀, hauth₀, rfl⟩ := Option.map_eq_some_iff.1 hauth
    refine ⟨auth₀, App.auth_eq_some_iff.2 ⟨first, p, hscreens, hauth₀⟩, ?_⟩
    rw [if_pos howner]
  · rw [if_neg howner] at hauth
    refine ⟨auth, App.auth_eq_some_iff.2 ⟨first, p, hscreens, hauth⟩, ?_⟩
    rw [if_neg howner]

/-! ## Keys -/

theorem App.keys_start (ss : Sessions) : (App.start ss).Keys where
  calls := fun r hr => by cases hr
  sets := fun r hr => by cases hr
  page := fun first p hscreens => by cases hscreens
  form := fun first p f hscreens => by cases hscreens

theorem App.Keys.lt_of_auth (h : d.Keys) {owner : ℕ} {auth : AuthState}
    (hauth : d.auth owner = some auth) : owner < d.nextKey := by
  obtain ⟨first, p, hscreens, hauth⟩ := App.auth_eq_some_iff.1 hauth
  unfold Page.auth at hauth
  split at hauth
  · next howner => exact howner ▸ h.page first p hscreens
  · obtain ⟨f, hform, hf⟩ := Option.bind_eq_some_iff.1 hauth
    obtain ⟨rfl, -⟩ := Option.ite_none_right_eq_some.1 hf
    exact (h.form first p f hscreens hform).2

theorem App.Keys.auth_form (h : d.Keys) {first : FirstScreen.Mounted} {p : Page} {f : Form}
    (hscreens : d.screens = .ok ⟨first, some p⟩) (hform : p.form = some f) :
    d.auth f.key = some f.screen.state.auth := by
  have hkey : p.key ≠ f.key := (h.form first p f hscreens hform).1.ne
  refine App.auth_eq_some_iff.2 ⟨first, p, hscreens, ?_⟩
  simp [Page.auth, hkey, hform]

/-- Every step is one of those. -/
theorem App.signsIn_of_next (hnext : App.Next getDistance localeCompare userOf db d a d')
    (hkeys : d.Keys) (hsession : a ≠ .sessionEnds) : App.SignsIn userOf d a d' := by
  -- the components after a step that gives out no key were there before
  have hauth : d'.nextKey = d.nextKey → (∀ i o, a ≠ .settle i o) →
      ∀ owner auth, d'.auth owner = some auth → d.auth owner = some auth := by
    intro hkey hsettle owner auth h
    rcases App.auth_of_next hnext hsettle h with h | ⟨-, -, hnew⟩
    · exact h
    · omega
  have hmount : (∀ i o, a ≠ .settle i o) → ∀ owner auth, d'.auth owner = some auth →
      d.auth owner = some auth ∨ owner = d.nextKey ∧ auth = AuthState.initial.startCheck := by
    intro hsettle owner auth h
    exact (App.auth_of_next hnext hsettle h).imp_right fun h => ⟨h.1, h.2.1⟩
  cases hnext with
  | mountFails => exact .mounts rfl rfl rfl (hmount nofun)
  | mountPage => exact .mounts rfl rfl rfl (hmount nofun)
  | openForm => exact .mounts rfl rfl rfl (hmount nofun)
  | pressSignIn howner hsigned =>
    exact .presses _ _ _ howner hsigned (Or.inl rfl) fun _ _ _ _ => rfl
  | pressSignOut hscreens hform hsigned =>
    refine .presses _ _ _ (hkeys.auth_form hscreens hform) hsigned (Or.inr rfl) ?_
    intro first p hscreens' hkey
    rw [hscreens] at hscreens'
    cases hscreens'
    exact absurd hkey (hkeys.form _ _ _ hscreens hform).1.ne
  | settle hr hcomponent hcall => exact .settles _ _ _ _ _ _ _ hr hcomponent hcall
  | sessionEnds => exact absurd rfl hsession
  | first => exact .stays rfl rfl rfl (hauth rfl nofun)
  | constructorFails => exact .stays rfl rfl rfl (hauth rfl nofun)
  | pressAgain => exact .stays rfl rfl rfl (hauth rfl nofun)
  | page => exact .stays rfl rfl rfl (hauth rfl nofun)
  | formFails => exact .stays rfl rfl rfl (hauth rfl nofun)
  | tapAgain => exact .stays rfl rfl rfl (hauth rfl nofun)
  | form => exact .stays rfl rfl rfl (hauth rfl nofun)
  | submitFails => exact .stays rfl rfl rfl (hauth rfl nofun)
  | submit => exact .stays rfl rfl rfl (hauth rfl nofun)
  | commit => exact .stays rfl rfl rfl (hauth rfl nofun)
  | resolve => exact .stays rfl rfl rfl (hauth rfl nofun)
  | resolveUnseen => exact .stays rfl rfl rfl (hauth rfl nofun)
  | reject => exact .stays rfl rfl rfl (hauth rfl nofun)
  | goBack => exact .stays rfl rfl rfl (hauth rfl nofun)

theorem App.Keys.next (h : d.Keys) (hnext : App.Next getDistance localeCompare userOf db d a d') :
    d'.Keys where
  calls := by
    intro r hr
    by_cases hsession : a = .sessionEnds
    · subst hsession
      cases hnext
      exact h.calls r hr
    cases App.signsIn_of_next hnext h hsession with
    | stays _ hcalls hkey _ =>
      rw [hcalls] at hr
      rw [hkey]
      exact h.calls r hr
    | mounts _ hcalls hkey _ =>
      rw [hcalls] at hr
      rw [hkey]
      rcases List.mem_append.1 hr with hr | hr
      · exact (h.calls r hr).trans (Nat.lt_succ_self _)
      · obtain rfl := List.mem_singleton.1 hr
        exact Nat.lt_succ_self _
    | presses owner auth call hauth _ _ _ =>
      rcases List.mem_append.1 hr with hr | hr
      · exact h.calls r hr
      · obtain rfl := List.mem_singleton.1 hr
        exact h.lt_of_auth hauth
    | settles i o r₀ ss auth auth' next hr₀ _ _ =>
      obtain ⟨-, hkey, -, hcalls⟩ := d.advance_eq i r₀ ss auth' next
      rw [hcalls] at hr
      rw [hkey]
      cases next with
      | none => exact h.calls r (List.mem_of_mem_eraseIdx hr)
      | some call =>
        rcases List.mem_or_eq_of_mem_set hr with hr | rfl
        · exact h.calls r hr
        · exact h.calls r₀ (List.mem_of_getElem? hr₀)
  sets := by
    intro r' hr'
    rcases App.mem_sets_of_next hnext hr' with ⟨r, hr, hkey, -⟩ |
      ⟨first, p, f, now, -, hscreens, hform, hkey, -⟩
    · rw [hkey]
      exact (h.sets r hr).trans_le (App.nextKey_le_of_next hnext)
    · rw [hkey]
      exact (h.form first p f hscreens hform).2.trans_le (App.nextKey_le_of_next hnext)
  page := by
    intro first' p' hscreens'
    rcases App.page_of_next hnext hscreens' with
      ⟨item, doc, -, -, hkey, rfl⟩ | ⟨first, p, hscreens, hchange⟩
    · rw [hkey]
      exact Nat.lt_succ_self _
    · rw [hchange.key_ref.1]
      exact (h.page first p hscreens).trans_le (App.nextKey_le_of_next hnext)
  form := by
    intro first' p' f' hscreens' hform'
    rcases App.page_of_next hnext hscreens' with
      ⟨item, doc, -, -, -, rfl⟩ | ⟨first, p, hscreens, hchange⟩
    · cases hform'
    · rw [hchange.key_ref.1]
      rcases Page.form_of_change hchange hform' with
        ⟨count, rfl, hform, rfl⟩ | ⟨f, hform, hf⟩
      · rw [App.nextKey_of_tapStar hnext hscreens hform hscreens']
        exact ⟨h.page first p hscreens, Nat.lt_succ_self _⟩
      · rw [hf.key_ref.1]
        obtain ⟨hlt, hform⟩ := h.form first p f hscreens hform
        exact ⟨hlt, hform.trans_le (App.nextKey_le_of_next hnext)⟩

/-! ## The device of a component -/

theorem Reached.step {ss : Sessions} {device device' : Device} {e : SignIn.Action}
    (h : Reached userOf ss device) (hstep : device.step userOf e = some device') :
    Reached userOf ss device' := by
  obtain ⟨as, hrun⟩ := h
  exact ⟨as ++ [e], run_append_iff.2 ⟨device, hrun, run_cons_iff.2 ⟨device', hstep, rfl⟩⟩⟩

variable {owner : ℕ} {auth : AuthState}

/-- The component is mounted: the calls in flight are those of other components. -/
theorem App.device_remount (hkeys : d.Keys) (hsessions : d'.sessions = d.sessions)
    (hcalls : d'.calls = d.calls ++ [⟨d.nextKey, .check .awaitIsSignedIn⟩]) :
    (d.device d.nextKey auth).step userOf .remount =
      some (d'.device d.nextKey AuthState.initial.startCheck) := by
  have hothers : ∀ r ∈ d.calls, (⟨r.call, false⟩ : SignIn.Running) = ⟨r.call, r.owner = d.nextKey⟩ := by
    intro r hr
    simp [(hkeys.calls r hr).ne]
  simp only [Device.step, Device.mount, App.device, hsessions, hcalls, List.map_append,
    List.map_map, List.map_cons, List.map_nil, decide_true]
  exact congrArg (fun running => some (Device.mk d.sessions _ (running ++ _)))
    (List.map_congr_left hothers)

/-- Another component makes a call. -/
theorem App.device_otherCall {owner' : ℕ} {call : Call} (hother : owner' ≠ owner)
    (hnew : call.isNew = true) (hsessions : d'.sessions = d.sessions)
    (hcalls : d'.calls = d.calls ++ [⟨owner', call⟩]) :
    (d.device owner auth).step userOf (.otherCall call) = some (d'.device owner auth) := by
  simp [Device.step, App.device, hsessions, hcalls, hnew, hother]

/-- One of the two buttons of the component is pressed. -/
theorem App.device_press {call : Call} (hsigned : auth.isUserSignedIn = false)
    (hcall : call = .signIn .awaitHasPlayServices ∨ call = .signOut .awaitRevokeAccess) :
    ∃ e, (d.device owner auth).step userOf e = some ((d.push owner call).device owner auth) := by
  rcases hcall with rfl | rfl
  · exact ⟨.pressSignIn, by simp [Device.step, App.device, App.push, hsigned]⟩
  · exact ⟨.pressSignOut, by simp [Device.step, App.device, App.push, hsigned]⟩

/-- A call moves; the state of the component is set if it is the one that has made it. -/
theorem App.device_settle {i : ℕ} {o : Outcome} {r : PendingCall} {ss : Sessions}
    {st auth' : AuthState} {next : Option Call} (hr : d.calls[i]? = some r)
    (hcall : r.call.step userOf d.sessions auth o = some (ss, st, next)) :
    (d.device owner auth).step userOf (.settle i o) =
      some ((d.advance i r ss auth' next).device owner (if r.owner = owner then st else auth)) := by
  have hrunning : (d.device owner auth).running[i]? = some ⟨r.call, r.owner = owner⟩ := by
    simp [App.device, hr]
  rw [Device.step_of_call hrunning hcall]
  obtain ⟨hsessions, -, -, hcalls⟩ := d.advance_eq i r ss auth' next
  cases next with
  | none =>
    simp [App.device, Device.advance, hsessions, hcalls, List.eraseIdx_map]
  | some call =>
    simp [App.device, Device.advance, hsessions, hcalls, List.map_set]

/-- The component with the key is mounted, or to come. -/
def App.Has (d : App) (owner : ℕ) : Prop := (d.auth owner).isSome = true ∨ d.nextKey ≤ owner

/-- The component with the key is on a reached device, with its state if it is mounted. -/
def App.OnDevice (userOf : GoogleUser → User) (ss : Sessions) (d : App) (owner : ℕ) : Prop :=
  ∃ auth, Reached userOf ss (d.device owner auth) ∧ ∀ auth', d.auth owner = some auth' → auth' = auth

theorem App.SignsIn.has (h : App.SignsIn userOf d a d') (howner : d'.Has owner) : d.Has owner := by
  rcases howner with hauth' | hkey
  · obtain ⟨auth', hauth'⟩ := Option.isSome_iff_exists.1 hauth'
    cases h with
    | stays _ _ _ hauth => exact Or.inl (by simp [hauth owner auth' hauth'])
    | mounts _ _ _ hauth =>
      rcases hauth owner auth' hauth' with hauth | ⟨rfl, -⟩
      · exact Or.inl (by simp [hauth])
      · exact Or.inr le_rfl
    | presses => exact Or.inl (Option.isSome_iff_exists.2 ⟨auth', hauth'⟩)
    | settles =>
      obtain ⟨auth, hauth, -⟩ := App.auth_advance hauth'
      exact Or.inl (by simp [hauth])
  · cases h with
    | stays _ _ hnext _ => exact Or.inr (hnext ▸ hkey)
    | mounts _ _ hnext _ => exact Or.inr (by omega)
    | presses => exact Or.inr hkey
    | settles i o r ss auth auth' next =>
      rw [(d.advance_eq i r ss auth' next).2.1] at hkey
      exact Or.inr hkey

/-- A step of the app is one of the device, or none. -/
theorem App.SignsIn.onDevice {ss : Sessions} (h : App.SignsIn userOf d a d') (hkeys : d.Keys)
    (hdevice : d.OnDevice userOf ss owner) : d'.OnDevice userOf ss owner := by
  obtain ⟨auth, hreached, hauth⟩ := hdevice
  cases h with
  | stays hsessions hcalls _ hkept =>
    -- the device does not change, though the component may have gone
    refine ⟨auth, ?_, fun auth' hauth' => hauth auth' (hkept owner auth' hauth')⟩
    rwa [App.device, hsessions, hcalls]
  | mounts hsessions hcalls _ hkept =>
    by_cases howner : owner = d.nextKey
    · -- it is the one that is mounted: all calls in flight are those of others
      subst howner
      refine ⟨_, hreached.step (App.device_remount hkeys hsessions hcalls), ?_⟩
      intro auth' hauth'
      rcases hkept d.nextKey auth' hauth' with hold | ⟨-, hnew⟩
      · exact absurd (hkeys.lt_of_auth hold) (lt_irrefl _)
      · exact hnew
    · refine ⟨auth, hreached.step
        (App.device_otherCall (Ne.symm howner) rfl hsessions hcalls), ?_⟩
      intro auth' hauth'
      rcases hkept owner auth' hauth' with hold | ⟨hnew, -⟩
      · exact hauth auth' hold
      · exact absurd hnew howner
  | presses owner' auth₀ call hauth₀ hsigned hcall _ =>
    refine ⟨auth, ?_, hauth⟩
    by_cases howner : owner' = owner
    · -- its buttons are on screen, so the device takes the press
      subst howner
      obtain rfl := hauth auth₀ hauth₀
      obtain ⟨e, he⟩ := App.device_press hsigned hcall
      exact hreached.step he
    · have hnew : call.isNew = true := by rcases hcall with rfl | rfl <;> rfl
      exact hreached.step (App.device_otherCall howner hnew rfl rfl)
  | settles i o r ss' auth₀ auth' next hr hcomponent hcall =>
    -- a call takes the same way whatever state the component is in
    obtain ⟨st, hst⟩ := SignIn.Call.step_auth hcall auth
    refine ⟨_, hreached.step (App.device_settle hr hst), ?_⟩
    intro auth₁ hauth₁
    obtain ⟨auth₂, hauth₂, rfl⟩ := App.auth_advance hauth₁
    obtain rfl := hauth auth₂ hauth₂
    split
    · next howner =>
      -- the call is of this component, and has seen its state
      subst howner
      rw [hauth₂, Option.getD_some] at hcomponent
      subst hcomponent
      rw [hcall] at hst
      cases hst
      rfl
    · rfl

/-- Before the first component is mounted, the device is that of one whose check has failed. -/
theorem App.onDevice_start (ss : Sessions) : (App.start ss).OnDevice userOf ss owner := by
  refine ⟨AuthState.initial.startCheck, ⟨[.settle 0 (.reject .other)], rfl⟩, ?_⟩
  intro auth' hauth'
  cases hauth'

/-- In every run of the app in which the client does not end the Firebase session: each component that
is mounted is on a device that a run of `SignIn.Device` reaches from the sessions at the start. -/
theorem App.device_run {ss : Sessions} {xs : List (Store ReviewDoc × Action)}
    (hrun : run (App.act getDistance localeCompare userOf) (App.start ss) xs = some d)
    (hsessions : ∀ x ∈ xs, x.2 ≠ .sessionEnds) (hauth : d.auth owner = some auth) :
    Reached userOf ss (d.device owner auth) := by
  have hdevices : d.Keys ∧ ∀ owner, d.Has owner → d.OnDevice userOf ss owner := by
    refine run_guarded (I := fun d : App => d.Keys ∧ ∀ owner, d.Has owner → d.OnDevice userOf ss owner)
      (c := fun _ x => x.2 ≠ .sessionEnds) ?_
      ⟨App.keys_start ss, fun owner _ => App.onDevice_start ss⟩
      (everyStep_of_forall fun _ x hx => hsessions x hx) hrun
    rintro d₁ ⟨db, a⟩ d₂ ⟨hkeys, hdevices⟩ hsession hstep
    have hnext := App.next_of_step hstep
    have hsigns := App.signsIn_of_next hnext hkeys hsession
    exact ⟨hkeys.next hnext, fun owner howner =>
      hsigns.onDevice hkeys (hdevices owner (hsigns.has howner))⟩
  obtain ⟨auth', hreached, heq⟩ := hdevices.2 owner (Or.inl (by simp [hauth]))
  obtain rfl := heq auth hauth
  exact hreached

end

end LetItGo.Systems.WholeApp
