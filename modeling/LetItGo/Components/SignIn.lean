import Mathlib.Data.List.Basic

/-!
# Signing in and out

`Reviews` and `ReviewSubmissionScreen` hold the same four methods: `isUserSignedIn` (with
`getCurrentUserInfo`), `signIn` and `_signOut`. Each is an async function; between two of its awaits
anything else can run. A call is modelled by the point it has reached, and one step either settles
the promise it awaits or runs its next `setState`.

Google and Firebase each keep a session of their own (`Sessions`). `GoogleSignin.signIn` replaces
the Google session, `signInWithCredential` the Firebase one; `revokeAccess` and `signOut` of
`GoogleSignin` end the Google session only. The account that Firebase keeps for a Google user is the
parameter `userOf`.

`Device` puts these together: the two sessions, the mounted component's part of the state that
this code writes, and the calls in flight, those of other components and of unmounted ones included.
-/

set_option autoImplicit false

namespace LetItGo.Components.SignIn

/-- The `user` of a Google sign-in. -/
structure GoogleUser where
  id : String
  name : String
  photo : String
  deriving DecidableEq, Repr

/-- What `signIn` and `signInSilently` resolve with. -/
structure UserInfo where
  user : GoogleUser
  deriving DecidableEq, Repr

/-- `firebase.auth().currentUser`. -/
structure User where
  uid : String
  displayName : Option String
  photoURL : Option String
  deriving DecidableEq, Repr

/-- The two sessions kept on the device. -/
structure Sessions where
  google : Option GoogleUser
  firebase : Option User
  deriving DecidableEq, Repr

/-- The part of the component's state that signing in writes. The constructor's `userInfo: ''` is
`none`; `checkingSignedInStatus` is absent at first, which is falsy. -/
structure AuthState where
  userInfo : Option UserInfo
  isUserSignedIn : Bool
  checkingSignedInStatus : Bool
  deriving DecidableEq, Repr

namespace AuthState

/-- The constructor's state. -/
def initial : AuthState := ⟨none, false, false⟩

/-- `setState({ isUserSignedIn: false, checkingSignedInStatus: true })`. -/
def startCheck (st : AuthState) : AuthState :=
  { st with isUserSignedIn := false, checkingSignedInStatus := true }

/-- `setState({ userInfo })`. -/
def setUserInfo (st : AuthState) (info : UserInfo) : AuthState :=
  { st with userInfo := some info }

/-- `setState({ isUserSignedIn, checkingSignedInStatus: false })`. -/
def finishCheck (st : AuthState) (isUserSignedIn : Bool) : AuthState :=
  { st with isUserSignedIn, checkingSignedInStatus := false }

/-- `setState({ userInfo, isUserSignedIn: true })`. -/
def setSignedIn (st : AuthState) (info : UserInfo) : AuthState :=
  { st with userInfo := some info, isUserSignedIn := true }

end AuthState

/-- The error codes that the catch branches tell apart, and any other. -/
inductive StatusCode where
  | signInCancelled
  | inProgress
  | playServicesNotAvailable
  | signInRequired
  | other
  deriving DecidableEq, Repr

/-- How a promise settles. `GoogleSignin.signIn` resolves with the user that was chosen. -/
inductive Outcome where
  | resolve
  | resolveAs (user : GoogleUser)
  | reject (code : StatusCode)
  deriving DecidableEq, Repr

/-- A call of `isUserSignedIn()` in flight. -/
inductive CheckCall where
  /-- `await GoogleSignin.isSignedIn()` -/
  | awaitIsSignedIn
  /-- `await GoogleSignin.signInSilently()`, inside `getCurrentUserInfo` -/
  | awaitSignInSilently
  /-- `setState({ userInfo })` is next -/
  | setUserInfo (info : UserInfo)
  /-- `setState({ isUserSignedIn, checkingSignedInStatus: false })` is next -/
  | finish (isUserSignedIn : Bool)
  deriving DecidableEq, Repr

/-- A call of `signIn()` in flight. -/
inductive SignInCall where
  | awaitHasPlayServices
  /-- `await GoogleSignin.signIn()` -/
  | awaitSignIn
  /-- `await firebase.auth().signInWithCredential(credential)` -/
  | awaitCredential (info : UserInfo)
  /-- `setState({ userInfo, isUserSignedIn: true })` is next -/
  | setSignedIn (info : UserInfo)
  deriving DecidableEq, Repr

/-- A call of `_signOut()` in flight. -/
inductive SignOutCall where
  | awaitRevokeAccess
  | awaitSignOut
  /-- `setState({ user: null })` is next -/
  | setUserNull
  deriving DecidableEq, Repr

inductive Call where
  | check (point : CheckCall)
  | signIn (point : SignInCall)
  | signOut (point : SignOutCall)
  deriving DecidableEq, Repr

/-- One step of `isUserSignedIn()`. `isSignedIn` answers whether Google has a session;
`signInSilently` resolves with the user of that session. A rejection of `signInSilently` is caught
in `getCurrentUserInfo`, so the call goes on to finish with `true`; a rejection of `isSignedIn`
ends the call. -/
def CheckCall.step (ss : Sessions) (st : AuthState) (o : Outcome) :
    CheckCall → Option (AuthState × Option CheckCall)
  | .awaitIsSignedIn =>
    match o with
    | .resolve =>
      if ss.google.isSome then some (st, some .awaitSignInSilently)
      else some (st, some (.finish false))
    | .resolveAs _ => none
    | .reject _ => some (st, none)
  | .awaitSignInSilently =>
    match o with
    -- Firebase is not asked, and is not signed in to
    | .resolve => ss.google.map fun user => (st, some (.setUserInfo ⟨user⟩))
    | .resolveAs _ => none
    | .reject _ => some (st, some (.finish true))
  | .setUserInfo info =>
    match o with
    | .resolve => some (st.setUserInfo info, some (.finish true))
    | _ => none
  | .finish isUserSignedIn =>
    match o with
    | .resolve => some (st.finishCheck isUserSignedIn, none)
    | _ => none

section

variable (userOf : GoogleUser → User)

/-- One step of `signIn()`. Every rejection ends the call in one of the catch branches, all of which
do nothing. -/
def SignInCall.step (ss : Sessions) (st : AuthState) (o : Outcome) :
    SignInCall → Option (Sessions × AuthState × Option SignInCall)
  | .awaitHasPlayServices =>
    match o with
    | .resolve => some (ss, st, some .awaitSignIn)
    | .resolveAs _ => none
    | .reject _ => some (ss, st, none)
  | .awaitSignIn =>
    match o with
    | .resolve => none
    | .resolveAs user => some ({ ss with google := some user }, st, some (.awaitCredential ⟨user⟩))
    | .reject _ => some (ss, st, none)
  | .awaitCredential info =>
    match o with
    | .resolve =>
      some ({ ss with firebase := some (userOf info.user) }, st, some (.setSignedIn info))
    | .resolveAs _ => none
    | .reject _ => some (ss, st, none)
  | .setSignedIn info =>
    match o with
    | .resolve => some (ss, st.setSignedIn info, none)
    | _ => none

/-- One step of `_signOut()`. A rejection is logged and ends the call; the last `setState` writes a
field that nothing reads. -/
def SignOutCall.step (ss : Sessions) (o : Outcome) :
    SignOutCall → Option (Sessions × Option SignOutCall)
  | .awaitRevokeAccess =>
    match o with
    -- the user is disconnected, and the token removed
    | .resolve => some ({ ss with google := none }, some .awaitSignOut)
    | .resolveAs _ => none
    | .reject _ => some (ss, none)
  | .awaitSignOut =>
    match o with
    -- the Firebase session stays
    | .resolve => some ({ ss with google := none }, some .setUserNull)
    | .resolveAs _ => none
    | .reject _ => some (ss, none)
  | .setUserNull =>
    match o with
    | .resolve => some (ss, none)
    | _ => none

/-- One step of a call: the sessions and the state after it, and the point it goes on from. -/
def Call.step (ss : Sessions) (st : AuthState) (o : Outcome) :
    Call → Option (Sessions × AuthState × Option Call)
  | .check c => (c.step ss st o).map fun r => (ss, r.1, r.2.map .check)
  | .signIn c => (c.step userOf ss st o).map fun r => (r.1, r.2.1, r.2.2.map .signIn)
  | .signOut c => (c.step ss o).map fun r => (r.1, st, r.2.map .signOut)

/-- A call in flight and whether the component that made it is still mounted. -/
structure Running where
  call : Call
  mounted : Bool
  deriving DecidableEq, Repr

/-- The sessions, the mounted component's state, and the calls in flight. -/
structure Device where
  sessions : Sessions
  auth : AuthState
  running : List Running
  deriving DecidableEq, Repr

/-- Mounting the component: its `isUserSignedIn()` call begins. -/
def Device.mount (ss : Sessions) (running : List Running) : Device :=
  ⟨ss, AuthState.initial.startCheck, running ++ [⟨.check .awaitIsSignedIn, true⟩]⟩

inductive Action where
  | pressSignIn
  | pressSignOut
  /-- Another component on the phone makes a call. -/
  | otherCall (call : Call)
  /-- The component is unmounted and mounted anew; its pending calls go on. -/
  | remount
  /-- The call at position `i` takes a step. -/
  | settle (i : ℕ) (o : Outcome)
  deriving DecidableEq, Repr

/-- The device after the call `r` at position `i` took a step. An unmounted component's `setState`
has no effect. -/
def Device.advance (d : Device) (i : ℕ) (r : Running) (ss : Sessions) (st : AuthState)
    (next : Option Call) : Device where
  sessions := ss
  auth := if r.mounted then st else d.auth
  running :=
    match next with
    | some call => d.running.set i { r with call }
    | none => d.running.eraseIdx i

/-- The call has just been made. -/
def Call.isNew : Call → Bool
  | .check .awaitIsSignedIn => true
  | .signIn .awaitHasPlayServices => true
  | .signOut .awaitRevokeAccess => true
  | _ => false

/-- The two buttons are on screen while `isUserSignedIn` is false. -/
def Device.step (d : Device) : Action → Option Device
  | .pressSignIn =>
    if d.auth.isUserSignedIn then none
    else some { d with running := d.running ++ [⟨.signIn .awaitHasPlayServices, true⟩] }
  | .pressSignOut =>
    if d.auth.isUserSignedIn then none
    else some { d with running := d.running ++ [⟨.signOut .awaitRevokeAccess, true⟩] }
  | .otherCall call =>
    if call.isNew then some { d with running := d.running ++ [⟨call, false⟩] } else none
  | .remount =>
    some (Device.mount d.sessions (d.running.map fun r => { r with mounted := false }))
  | .settle i o =>
    -- any call in flight may be the next to go on
    match d.running[i]? with
    | none => none
    | some r =>
      (r.call.step userOf d.sessions d.auth o).map fun x => d.advance i r x.1 x.2.1 x.2.2

variable {userOf}

/-! ## What a step does -/

/-- The call has an answer that says somebody is signed in, and `setState` calls still to make. -/
def Call.answered : Call → Bool
  | .check (.setUserInfo _) => true
  | .check (.finish isUserSignedIn) => isUserSignedIn
  | .signIn (.setSignedIn _) => true
  | _ => false

/-- The steps of a call by their effect: a step that leaves the Firebase session and the state as
they are and gets no answer, or one of the six that do not. -/
inductive Call.Effect (userOf : GoogleUser → User) (ss : Sessions) (st : AuthState) :
    Call → Outcome → Sessions → AuthState → Option Call → Prop where
  | waits {c : Call} {o : Outcome} {ss' : Sessions} {next : Option Call} :
      ss'.firebase = ss.firebase → (∀ call, next = some call → call.answered = false) →
      Effect userOf ss st c o ss' st next
  | silent {user : GoogleUser} : ss.google = some user →
      Effect userOf ss st (.check .awaitSignInSilently) .resolve ss st
        (some (.check (.setUserInfo ⟨user⟩)))
  | silentRejected (code : StatusCode) :
      Effect userOf ss st (.check .awaitSignInSilently) (.reject code) ss st
        (some (.check (.finish true)))
  | setUserInfo (info : UserInfo) :
      Effect userOf ss st (.check (.setUserInfo info)) .resolve ss (st.setUserInfo info)
        (some (.check (.finish true)))
  | finish (isUserSignedIn : Bool) :
      Effect userOf ss st (.check (.finish isUserSignedIn)) .resolve ss
        (st.finishCheck isUserSignedIn) none
  | credential (info : UserInfo) :
      Effect userOf ss st (.signIn (.awaitCredential info)) .resolve
        { ss with firebase := some (userOf info.user) } st (some (.signIn (.setSignedIn info)))
  | setSignedIn (info : UserInfo) :
      Effect userOf ss st (.signIn (.setSignedIn info)) .resolve ss (st.setSignedIn info) none

theorem CheckCall.step_effect {ss : Sessions} {st st' : AuthState} {o : Outcome} {c : CheckCall}
    {next : Option CheckCall} (h : c.step ss st o = some (st', next)) :
    Call.Effect userOf ss st (.check c) o ss st' (next.map .check) := by
  cases c with
  | awaitIsSignedIn =>
    cases o with
    | resolve =>
      cases hgoogle : ss.google <;> simp only [CheckCall.step, hgoogle] at h <;> cases h <;>
        exact .waits rfl (by simp [Call.answered])
    | resolveAs user => cases h
    | reject code =>
      cases h
      exact .waits rfl (by simp)
  | awaitSignInSilently =>
    cases o with
    | resolve =>
      obtain ⟨user, hgoogle, heq⟩ := Option.map_eq_some_iff.1 h
      cases heq
      exact .silent hgoogle
    | resolveAs user => cases h
    | reject code =>
      cases h
      exact .silentRejected code
  | setUserInfo info =>
    cases o with
    | resolve =>
      cases h
      exact .setUserInfo info
    | resolveAs user => cases h
    | reject code => cases h
  | finish isUserSignedIn =>
    cases o with
    | resolve =>
      cases h
      exact .finish isUserSignedIn
    | resolveAs user => cases h
    | reject code => cases h

theorem SignInCall.step_effect {ss ss' : Sessions} {st st' : AuthState} {o : Outcome}
    {c : SignInCall} {next : Option SignInCall}
    (h : c.step userOf ss st o = some (ss', st', next)) :
    Call.Effect userOf ss st (.signIn c) o ss' st' (next.map .signIn) := by
  cases c with
  | awaitHasPlayServices =>
    cases o with
    | resolve =>
      cases h
      exact .waits rfl (by simp [Call.answered])
    | resolveAs user => cases h
    | reject code =>
      cases h
      exact .waits rfl (by simp)
  | awaitSignIn =>
    cases o with
    | resolve => cases h
    | resolveAs user =>
      cases h
      exact .waits rfl (by simp [Call.answered])
    | reject code =>
      cases h
      exact .waits rfl (by simp)
  | awaitCredential info =>
    cases o with
    | resolve =>
      cases h
      exact .credential info
    | resolveAs user => cases h
    | reject code =>
      cases h
      exact .waits rfl (by simp)
  | setSignedIn info =>
    cases o with
    | resolve =>
      cases h
      exact .setSignedIn info
    | resolveAs user => cases h
    | reject code => cases h

theorem SignOutCall.step_effect {ss ss' : Sessions} {st : AuthState} {o : Outcome}
    {c : SignOutCall} {next : Option SignOutCall} (h : c.step ss o = some (ss', next)) :
    Call.Effect userOf ss st (.signOut c) o ss' st (next.map .signOut) := by
  have hnext : ∀ call, next.map Call.signOut = some call → call.answered = false := by
    intro call hcall
    obtain ⟨c', -, rfl⟩ := Option.map_eq_some_iff.1 hcall
    rfl
  -- `_signOut` touches neither the Firebase session nor what `render` reads
  cases c <;> cases o <;> cases h <;> exact .waits rfl hnext

/-- Every step of a call has one of the effects. -/
theorem Call.step_effect {ss ss' : Sessions} {st st' : AuthState} {o : Outcome} {c : Call}
    {next : Option Call} (h : c.step userOf ss st o = some (ss', st', next)) :
    Call.Effect userOf ss st c o ss' st' next := by
  cases c with
  | check c =>
    obtain ⟨⟨st₁, next₁⟩, hstep, heq⟩ := Option.map_eq_some_iff.1 h
    cases heq
    exact CheckCall.step_effect hstep
  | signIn c =>
    obtain ⟨⟨ss₁, st₁, next₁⟩, hstep, heq⟩ := Option.map_eq_some_iff.1 h
    cases heq
    exact SignInCall.step_effect hstep
  | signOut c =>
    obtain ⟨⟨ss₁, next₁⟩, hstep, heq⟩ := Option.map_eq_some_iff.1 h
    cases heq
    exact SignOutCall.step_effect hstep

/-- The point that a check goes on with does not depend on the component's state. -/
theorem CheckCall.step_auth {ss : Sessions} {st st' : AuthState} {o : Outcome} {c : CheckCall}
    {next : Option CheckCall} (h : c.step ss st o = some (st', next)) (st₁ : AuthState) :
    ∃ st₁', c.step ss st₁ o = some (st₁', next) := by
  cases c with
  | awaitIsSignedIn =>
    cases o with
    | resolve =>
      simp only [CheckCall.step] at h ⊢
      split at h <;> cases h <;> exact ⟨st₁, by simp [*]⟩
    | resolveAs user => cases h
    | reject code =>
      cases h
      exact ⟨st₁, rfl⟩
  | awaitSignInSilently =>
    cases o with
    | resolve =>
      obtain ⟨user, hgoogle, heq⟩ := Option.map_eq_some_iff.1 h
      cases heq
      exact ⟨st₁, by simp [CheckCall.step, hgoogle]⟩
    | resolveAs user => cases h
    | reject code =>
      cases h
      exact ⟨st₁, rfl⟩
  | setUserInfo info =>
    cases o <;> cases h
    exact ⟨st₁.setUserInfo info, rfl⟩
  | finish isUserSignedIn =>
    cases o <;> cases h
    exact ⟨st₁.finishCheck isUserSignedIn, rfl⟩

theorem SignInCall.step_auth {ss ss' : Sessions} {st st' : AuthState} {o : Outcome}
    {c : SignInCall} {next : Option SignInCall} (h : c.step userOf ss st o = some (ss', st', next))
    (st₁ : AuthState) : ∃ st₁', c.step userOf ss st₁ o = some (ss', st₁', next) := by
  cases c with
  | setSignedIn info =>
    cases o <;> cases h
    exact ⟨st₁.setSignedIn info, rfl⟩
  | awaitHasPlayServices => cases o <;> cases h <;> exact ⟨st₁, rfl⟩
  | awaitSignIn => cases o <;> cases h <;> exact ⟨st₁, rfl⟩
  | awaitCredential info => cases o <;> cases h <;> exact ⟨st₁, rfl⟩

/-- The sessions and the point that a call goes on with do not depend on the component's state. -/
theorem Call.step_auth {ss ss' : Sessions} {st st' : AuthState} {o : Outcome} {c : Call}
    {next : Option Call} (h : c.step userOf ss st o = some (ss', st', next)) (st₁ : AuthState) :
    ∃ st₁', c.step userOf ss st₁ o = some (ss', st₁', next) := by
  cases c with
  | check c =>
    obtain ⟨⟨st₂, next₂⟩, hstep, heq⟩ := Option.map_eq_some_iff.1 h
    cases heq
    obtain ⟨st₁', hstep'⟩ := CheckCall.step_auth hstep st₁
    exact ⟨st₁', by simp [Call.step, hstep']⟩
  | signIn c =>
    obtain ⟨⟨ss₂, st₂, next₂⟩, hstep, heq⟩ := Option.map_eq_some_iff.1 h
    cases heq
    obtain ⟨st₁', hstep'⟩ := SignInCall.step_auth hstep st₁
    exact ⟨st₁', by simp [Call.step, hstep']⟩
  | signOut c =>
    obtain ⟨⟨ss₂, next₂⟩, hstep, heq⟩ := Option.map_eq_some_iff.1 h
    cases heq
    exact ⟨st₁, by simp [Call.step, hstep]⟩

/-- What a settled call does to the device. -/
theorem Device.step_settle {d d' : Device} {i : ℕ} {o : Outcome}
    (h : d.step userOf (.settle i o) = some d') :
    ∃ r ss st next, d.running[i]? = some r ∧
      r.call.step userOf d.sessions d.auth o = some (ss, st, next) ∧
      d' = d.advance i r ss st next := by
  simp only [Device.step] at h
  cases hr : d.running[i]? with
  | none => simp [hr] at h
  | some r =>
    simp only [hr] at h
    obtain ⟨⟨ss, st, next⟩, hx, rfl⟩ := Option.map_eq_some_iff.1 h
    exact ⟨r, ss, st, next, rfl, hx, rfl⟩

/-- The converse: a call that can take a step can be settled so. -/
theorem Device.step_of_call {d : Device} {i : ℕ} {o : Outcome} {r : Running} {ss : Sessions}
    {st : AuthState} {next : Option Call} (hr : d.running[i]? = some r)
    (hcall : r.call.step userOf d.sessions d.auth o = some (ss, st, next)) :
    d.step userOf (.settle i o) = some (d.advance i r ss st next) := by
  simp [Device.step, hr, hcall]

/-- A step adds a call of the mounted component or of another one, mounts the component anew, or moves
one call. -/
inductive Device.Next (userOf : GoogleUser → User) (d : Device) : Action → Device → Prop where
  | pressSignIn :
      Next userOf d .pressSignIn
        { d with running := d.running ++ [⟨.signIn .awaitHasPlayServices, true⟩] }
  | pressSignOut :
      Next userOf d .pressSignOut
        { d with running := d.running ++ [⟨.signOut .awaitRevokeAccess, true⟩] }
  | otherCall (call : Call) :
      Next userOf d (.otherCall call) { d with running := d.running ++ [⟨call, false⟩] }
  | remount (running : List Running) : (∀ r ∈ running, r.mounted = false) →
      Next userOf d .remount (Device.mount d.sessions running)
  | settle (i : ℕ) (o : Outcome) (r : Running) (ss : Sessions) (st : AuthState)
      (next : Option Call) : d.running[i]? = some r →
      r.call.step userOf d.sessions d.auth o = some (ss, st, next) →
      Next userOf d (.settle i o) (d.advance i r ss st next)

theorem Device.next_of_step {d d' : Device} {a : Action} (h : d.step userOf a = some d') :
    Device.Next userOf d a d' := by
  cases a with
  | pressSignIn =>
    obtain ⟨-, heq⟩ := Option.ite_none_left_eq_some.1 h
    cases heq
    exact .pressSignIn
  | pressSignOut =>
    obtain ⟨-, heq⟩ := Option.ite_none_left_eq_some.1 h
    cases heq
    exact .pressSignOut
  | otherCall call =>
    obtain ⟨-, heq⟩ := Option.ite_none_right_eq_some.1 h
    cases heq
    exact .otherCall call
  | remount =>
    cases h
    apply Device.Next.remount
    intro r hr
    obtain ⟨r', -, rfl⟩ := List.mem_map.1 hr
    rfl
  | settle i o =>
    obtain ⟨r, ss, st, next, hr, hcall, rfl⟩ := Device.step_settle h
    exact .settle i o r ss st next hr hcall

/-- A call of the new device is the next point of the one that moved, or was there before. -/
theorem Device.mem_advance {d : Device} {i : ℕ} {r r' : Running} {ss : Sessions} {st : AuthState}
    {next : Option Call} (h : r' ∈ (d.advance i r ss st next).running) :
    r' ∈ d.running ∨ ∃ call, next = some call ∧ r' = { r with call } := by
  cases next with
  | none => exact Or.inl (List.mem_of_mem_eraseIdx h)
  | some call =>
    rcases List.mem_or_eq_of_mem_set h with h | h
    · exact Or.inl h
    · exact Or.inr ⟨call, rfl, h⟩

/-! ## The calls of the mounted component -/

/-- Every call in flight of the mounted component satisfies `P`. -/
def Device.EveryCall (P : Call → Prop) (d : Device) : Prop :=
  ∀ r ∈ d.running, r.mounted = true → P r.call

theorem Device.everyCall_mount {P : Call → Prop} (hcheck : P (.check .awaitIsSignedIn))
    (ss : Sessions) {running : List Running} (h : ∀ r ∈ running, r.mounted = false) :
    (Device.mount ss running).EveryCall P := by
  intro r hr hmounted
  rcases List.mem_append.1 hr with hr | hr
  · rw [h r hr] at hmounted
    cases hmounted
  · obtain rfl := List.mem_singleton.1 hr
    exact hcheck

theorem Device.EveryCall.push {P : Call → Prop} {d : Device} (h : d.EveryCall P) {r : Running}
    (hr : r.mounted = true → P r.call) : Device.EveryCall P { d with running := d.running ++ [r] } := by
  intro r' hr' hmounted
  rcases List.mem_append.1 hr' with hr' | hr'
  · exact h r' hr' hmounted
  · obtain rfl := List.mem_singleton.1 hr'
    exact hr hmounted

/-- When a call moves on, it is enough to look at its next point. -/
theorem Device.EveryCall.advance {P : Call → Prop} {d : Device} (h : d.EveryCall P) {i : ℕ}
    {r : Running} {ss : Sessions} {st : AuthState} {next : Option Call}
    (hnext : r.mounted = true → ∀ call, next = some call → P call) :
    (d.advance i r ss st next).EveryCall P := by
  intro r' hr' hmounted
  rcases Device.mem_advance hr' with hr' | ⟨call, hcall, rfl⟩
  · exact h r' hr' hmounted
  · exact hnext hmounted call hcall

end

end LetItGo.Components.SignIn
