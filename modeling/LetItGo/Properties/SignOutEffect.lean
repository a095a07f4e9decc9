import LetItGo.Library.Runs
import LetItGo.Properties.PostingAccount

/-!
# What signing out does

`_signOut` ends the Google session and then writes `user: null` into the state, a field that nothing
reads. So a form that appeared while `_signOut` was waiting stays, a check of the mounted screen that
was told before that somebody is signed in goes on to show the form, and the Firebase session, under
which `submitReview` writes, is there all along.

`staysOut` is the condition on a step under which signing out does take effect: `out_run` carries
over every run whose steps meet it that no form is shown and no review is stored until the next
sign-in, and `shown_of_broken` shows that a step which breaks it can be continued to a screen that
no longer offers to sign in.
-/

set_option autoImplicit false

namespace LetItGo.Properties.SignOutEffect

open LetItGo.Library.Runs
open LetItGo.Library.DocumentStore
open LetItGo.Components.SignIn
open LetItGo.Components.ReviewSubmissionScreen (Mounted Params ReviewDoc Timestamp View
  constructorRef render)
open LetItGo.Properties.PostingAccount (accountOf)

/-- The screen on its device, whether a sign-out has completed and no sign-in since, and the reviews
that `submitReview` has stored at such times. -/
structure Visit where
  device : Device
  signedOut : Bool
  stored : List (DocRef × ReviewDoc)
  deriving DecidableEq

inductive Event where
  | auth (a : Action)
  /-- A press of Submit, with what the form holds. -/
  | submit (p : Params) (rating : Option ℕ) (text : String) (now : Timestamp)
  deriving DecidableEq

namespace Visit

/-- The screen is mounted for the first time. -/
def mount (ss : Sessions) : Visit := ⟨Device.mount ss [], false, []⟩

/-- `_signOut` and `signIn` have succeeded when their last `setState` has run. -/
def signedOutAfter (v : Visit) : Action → Bool
  | .settle i .resolve =>
    match v.device.running[i]? with
    | some ⟨.signOut .setUserNull, _⟩ => true
    | some ⟨.signIn (.setSignedIn _), _⟩ => false
    | _ => v.signedOut
  | _ => v.signedOut

/-- The mounted screen with the form's fields. -/
def screen (v : Visit) (p : Params) (rating : Option ℕ) (text : Option String) : Mounted :=
  ⟨p, constructorRef p, ⟨v.device.auth, rating, text⟩, none⟩

def step (userOf : GoogleUser → User) (v : Visit) : Event → Option Visit
  | .auth a =>
    (v.device.step userOf a).map fun device =>
      { v with device, signedOut := v.signedOutAfter a }
  | .submit p rating text now =>
    ((v.screen p rating (some text)).pressSubmit v.device.sessions.firebase now).map fun r =>
      { v with stored := if v.signedOut then v.stored ++ r.toOption.toList else v.stored }

end Visit

/-- The call is that of a check which has been told that somebody is signed in. -/
def told : Call → Bool
  | .check .awaitSignInSilently => true
  | .check (.setUserInfo _) => true
  | .check (.finish isUserSignedIn) => isUserSignedIn
  | _ => false

/-- The mounted screen shows no form, and no check of it has been told that somebody is signed
in. -/
def quiet (d : Device) : Bool :=
  !d.auth.isUserSignedIn && d.running.all fun r => !(r.mounted && told r.call)

/-- The condition on a step. When `_signOut` completes, the mounted screen is quiet; and from then on
until the next sign-in, Google has no session whenever the mounted screen's `isSignedIn` is
answered. -/
def staysOut (v : Visit) : Event → Bool
  | .auth (.settle i .resolve) =>
    match v.device.running[i]? with
    | some ⟨.signOut .setUserNull, _⟩ => quiet v.device
    | some ⟨.check .awaitIsSignedIn, true⟩ => !v.signedOut || v.device.sessions.google.isNone
    | _ => true
  | _ => true

/-! ## The invariant -/

/-- After a sign-out the screen is quiet, and nothing has been stored. -/
structure Out (v : Visit) : Prop where
  quiet : v.signedOut = true → quiet v.device = true
  stored : v.stored = []

variable {userOf : GoogleUser → User}

theorem quiet_iff {d : Device} :
    quiet d = true ↔ d.auth.isUserSignedIn = false ∧ d.EveryCall fun call => told call = false := by
  simp only [quiet, Device.EveryCall, Bool.and_eq_true, Bool.not_eq_true', List.all_eq_true]
  grind

/-- A call that has not been told anything keeps the state without a form and learns nothing, unless
it is a sign-in that succeeds or the answer of `isSignedIn`. -/
theorem step_told {ss ss' : Sessions} {st st' : AuthState} {o : Outcome} {call : Call}
    {next : Option Call} (h : call.step userOf ss st o = some (ss', st', next))
    (hst : st.isUserSignedIn = false) (hcall : told call = false)
    (hsignIn : ∀ info, call ≠ .signIn (.setSignedIn info))
    (hcheck : call = .check .awaitIsSignedIn → o = .resolve → ss.google = none) :
    st'.isUserSignedIn = false ∧ ∀ call', next = some call' → told call' = false := by
  cases call with
  | check c =>
    obtain ⟨⟨st₁, next₁⟩, hstep, heq⟩ := Option.map_eq_some_iff.1 h
    cases heq
    cases c with
    | awaitIsSignedIn =>
      cases o with
      | resolve =>
        simp only [CheckCall.step, hcheck rfl rfl] at hstep
        cases hstep
        exact ⟨hst, by simp [told]⟩
      | resolveAs user => cases hstep
      | reject code =>
        cases hstep
        exact ⟨hst, by simp⟩
    | awaitSignInSilently => cases hcall
    | setUserInfo info => cases hcall
    | finish isUserSignedIn =>
      -- the answer was that nobody is signed in
      obtain rfl : isUserSignedIn = false := hcall
      cases o <;> cases hstep
      exact ⟨rfl, by simp⟩
  | signIn c =>
    obtain ⟨⟨ss₁, st₁, next₁⟩, hstep, heq⟩ := Option.map_eq_some_iff.1 h
    cases heq
    have hnext : ∀ call', next₁.map Call.signIn = some call' → told call' = false := by
      intro call' hcall'
      obtain ⟨c', -, rfl⟩ := Option.map_eq_some_iff.1 hcall'
      rfl
    cases c with
    | awaitHasPlayServices => cases o <;> cases hstep <;> exact ⟨hst, hnext⟩
    | awaitSignIn => cases o <;> cases hstep <;> exact ⟨hst, hnext⟩
    | awaitCredential info => cases o <;> cases hstep <;> exact ⟨hst, hnext⟩
    | setSignedIn info => exact absurd rfl (hsignIn info)
  | signOut c =>
    obtain ⟨⟨ss₁, next₁⟩, -, heq⟩ := Option.map_eq_some_iff.1 h
    cases heq
    refine ⟨hst, ?_⟩
    intro call' hcall'
    obtain ⟨c', -, rfl⟩ := Option.map_eq_some_iff.1 hcall'
    rfl

theorem quiet_advance {d : Device} (h : quiet d = true) {i : ℕ} {o : Outcome} {r : Running}
    {ss : Sessions} {st : AuthState} {next : Option Call} (hr : d.running[i]? = some r)
    (hcall : r.call.step userOf d.sessions d.auth o = some (ss, st, next))
    (hsignIn : ∀ info, r.call ≠ .signIn (.setSignedIn info))
    (hcheck : r.mounted = true → r.call = .check .awaitIsSignedIn → o = .resolve →
      d.sessions.google = none) :
    quiet (d.advance i r ss st next) = true := by
  rw [quiet_iff] at h ⊢
  obtain ⟨hshown, htold⟩ := h
  obtain ⟨call, mounted⟩ := r
  cases mounted with
  | false =>
    -- the `setState` of an unmounted screen changes nothing
    exact ⟨hshown, htold.advance fun hmounted => by cases hmounted⟩
  | true =>
    have hquiet : told call = false := htold _ (List.mem_of_getElem? hr) rfl
    obtain ⟨hst, hnext⟩ := step_told hcall hshown hquiet hsignIn (hcheck rfl)
    exact ⟨hst, htold.advance fun _ => hnext⟩

/-- A call that is added knows nothing yet, or is not one of the mounted screen. -/
theorem quiet_push {d : Device} (h : quiet d = true) {r : Running}
    (hcall : r.mounted = true → told r.call = false) :
    quiet { d with running := d.running ++ [r] } = true := by
  rw [quiet_iff] at h ⊢
  exact ⟨h.1, h.2.push hcall⟩

theorem quiet_mount (ss : Sessions) {running : List Running}
    (h : ∀ r ∈ running, r.mounted = false) : quiet (Device.mount ss running) = true := by
  rw [quiet_iff]
  refine ⟨rfl, Device.everyCall_mount ?_ ss h⟩
  rfl

/-- What the condition gives for a call that takes a step, with a sign-out behind it. -/
theorem quiet_of_staysOut {v : Visit} (h : Out v) {i : ℕ} {o : Outcome} {r : Running}
    (hr : v.device.running[i]? = some r) (hkept : staysOut v (.auth (.settle i o)) = true)
    (hout : v.signedOutAfter (.settle i o) = true) :
    quiet v.device = true ∧ (o = .resolve → ∀ info, r.call ≠ .signIn (.setSignedIn info)) ∧
      (r.mounted = true → r.call = .check .awaitIsSignedIn → o = .resolve →
        v.device.sessions.google = none) := by
  obtain ⟨call, mounted⟩ := r
  cases o with
  | resolve =>
    simp only [Visit.signedOutAfter, hr] at hout
    simp only [staysOut, hr] at hkept
    split at hout
    · -- `_signOut` completes
      next heq =>
      cases heq
      exact ⟨hkept, by simp, by simp⟩
    · cases hout
    · next hnotSignOut hnotSignIn =>
      refine ⟨h.quiet hout, ?_, ?_⟩
      · rintro - info rfl
        exact hnotSignIn info mounted rfl
      · rintro rfl rfl -
        simpa [hout] using hkept
  | resolveAs user => exact ⟨h.quiet hout, by simp, by simp⟩
  | reject code => exact ⟨h.quiet hout, by simp, by simp⟩

/-- A step that meets the condition keeps the invariant. -/
theorem out_step (v : Visit) (e : Event) (v' : Visit) (h : Out v) (hkept : staysOut v e = true)
    (hstep : v.step userOf e = some v') : Out v' := by
  cases e with
  | auth a =>
    obtain ⟨d, hd, rfl⟩ := Option.map_eq_some_iff.1 hstep
    refine ⟨?_, h.stored⟩
    intro hout
    cases Device.next_of_step hd with
    | pressSignIn => exact quiet_push (h.quiet hout) fun _ => rfl
    | pressSignOut => exact quiet_push (h.quiet hout) fun _ => rfl
    | otherCall call => exact quiet_push (h.quiet hout) (by simp)
    | remount running hunmounted => exact quiet_mount v.device.sessions hunmounted
    | settle i o r ss st next hr hcall =>
      obtain ⟨hquiet, hsignIn, hcheck⟩ := quiet_of_staysOut h hr hkept hout
      refine quiet_advance hquiet hr hcall ?_ hcheck
      intro info hinfo
      -- the last `setState` of `signIn` does not fail
      rw [hinfo] at hcall
      cases o with
      | resolve => exact hsignIn rfl info hinfo
      | resolveAs user => cases hcall
      | reject code => cases hcall
  | submit p rating text now =>
    obtain ⟨r, hr, rfl⟩ := Option.map_eq_some_iff.1 hstep
    refine ⟨h.quiet, ?_⟩
    show (if v.signedOut then v.stored ++ r.toOption.toList else v.stored) = []
    cases hout : v.signedOut with
    | false => exact h.stored
    | true =>
      -- without a form there is no Submit button
      have hshown := (quiet_iff.1 (h.quiet hout)).1
      simp [Mounted.pressSubmit, Visit.screen, render, hshown] at hr

/-- After a sign-out, in every run whose steps all meet the condition, the screen shows the sign-in
buttons and Submit has stored nothing, up to the next sign-in. -/
theorem out_run (ss : Sessions) {es : List Event} {v : Visit}
    (hkept : EveryStep (Visit.step userOf) (fun v e => staysOut v e = true) (Visit.mount ss) es)
    (hrun : run (Visit.step userOf) (Visit.mount ss) es = some v) :
    (v.signedOut = true →
      ∀ p rating text, render p ⟨v.device.auth, rating, text⟩ = .ok .signIn) ∧
      v.stored = [] := by
  have hmount : Out (Visit.mount ss) := ⟨fun hout => absurd hout Bool.false_ne_true, rfl⟩
  have hout : Out v := run_guarded out_step hmount hkept hrun
  refine ⟨?_, hout.stored⟩
  intro hsignedOut p rating text
  have hshown := (quiet_iff.1 (hout.quiet hsignedOut)).1
  simp [render, hshown]

/-- The check at mount fails, so Ann, who has both sessions, finds the two buttons; she signs out,
leaves the screen and comes back. -/
theorem out_run_remounted :
    run (Visit.step accountOf)
        (Visit.mount ⟨some ⟨"1", "Ann", "ann.jpg"⟩, some ⟨"f1", some "Ann", none⟩⟩)
        [.auth (.settle 0 (.reject .other)), .auth .pressSignOut, .auth (.settle 0 .resolve),
          .auth (.settle 0 .resolve), .auth (.settle 0 .resolve), .auth .remount,
          .auth (.settle 0 .resolve), .auth (.settle 0 .resolve)] =
        some ⟨⟨⟨none, some ⟨"f1", some "Ann", none⟩⟩, ⟨none, false, false⟩, []⟩, true, []⟩ ∧
      render ⟨none, none⟩ ⟨⟨none, false, false⟩, none, none⟩ = .ok .signIn := by
  have hrun : run (Visit.step accountOf)
      (Visit.mount ⟨some ⟨"1", "Ann", "ann.jpg"⟩, some ⟨"f1", some "Ann", none⟩⟩)
      [.auth (.settle 0 (.reject .other)), .auth .pressSignOut, .auth (.settle 0 .resolve),
        .auth (.settle 0 .resolve), .auth (.settle 0 .resolve), .auth .remount,
        .auth (.settle 0 .resolve), .auth (.settle 0 .resolve)] =
      some ⟨⟨⟨none, some ⟨"f1", some "Ann", none⟩⟩, ⟨none, false, false⟩, []⟩, true, []⟩ := rfl
  exact ⟨hrun, (out_run _ (by decide) hrun).1 rfl _ none none⟩

/-- Ann opens the screen with both sessions. Before the check is through she presses Sign Out; her
silent sign-in succeeds, the form appears, `_signOut` completes, and the form stays: Submit stores a
review under her account. -/
theorem form_after_signOut :
    ∃ v, run (Visit.step accountOf)
        (Visit.mount ⟨some ⟨"1", "Ann", "ann.jpg"⟩, some ⟨"f1", some "Ann", none⟩⟩)
        [.auth (.settle 0 .resolve), .auth .pressSignOut, .auth (.settle 0 .resolve),
          .auth (.settle 0 .resolve), .auth (.settle 0 .resolve), .auth (.settle 0 .resolve),
          .auth (.settle 0 .resolve), .auth (.settle 0 .resolve),
          .submit ⟨none, some "COM1"⟩ none "clean" ⟨0, 0⟩] = some v ∧
      v.signedOut = true ∧ v.device.sessions.google = none ∧
      render ⟨none, some "COM1"⟩ ⟨v.device.auth, none, some "clean"⟩ =
        .ok (.form "ann.jpg" "Ann" 0 false) ∧
      v.stored.map (fun doc => doc.2.review.uid) = ["f1"] :=
  ⟨_, rfl, rfl, rfl, rfl, rfl⟩

/-! ## Steps that break the condition -/

theorem Visit.step_of_call {v : Visit} {i : ℕ} {o : Outcome} {r : Running} {ss : Sessions}
    {st : AuthState} {next : Option Call} (hr : v.device.running[i]? = some r)
    (hcall : r.call.step userOf v.device.sessions v.device.auth o = some (ss, st, next)) :
    v.step userOf (.auth (.settle i o)) =
      some { v with
        device := v.device.advance i r ss st next
        signedOut := v.signedOutAfter (.settle i o) } := by
  simp [Visit.step, Device.step_of_call hr hcall]

/-- After a sign-out, a mounted call that was told that somebody is signed in can go on to show
it. -/
theorem told_shows {v : Visit} {i : ℕ} {call : Call}
    (hi : v.device.running[i]? = some ⟨call, true⟩) (htold : told call = true)
    (hout : v.signedOut = true) :
    ∃ es v', run (Visit.step userOf) v es = some v' ∧ v'.signedOut = true ∧
      v'.device.auth.isUserSignedIn = true := by
  have hfinish : ∀ {v : Visit}, v.device.running[i]? = some ⟨.check (.finish true), true⟩ →
      v.signedOut = true →
      ∃ es v', run (Visit.step userOf) v es = some v' ∧ v'.signedOut = true ∧
        v'.device.auth.isUserSignedIn = true := by
    intro v hi hout
    have hstep := @Visit.step_of_call userOf v i .resolve _ _ _ _ hi rfl
    refine ⟨_, _, run_cons_iff.2 ⟨_, hstep, run_nil _⟩, ?_, rfl⟩
    simp [Visit.signedOutAfter, hi, hout]
  have hlt : i < v.device.running.length := (List.getElem?_eq_some_iff.1 hi).1
  -- a step to `finish true` comes before, unless the call is there already
  have hbefore : ∀ {o : Outcome} {st : AuthState},
      call.step userOf v.device.sessions v.device.auth o =
        some (v.device.sessions, st, some (.check (.finish true))) →
      v.signedOutAfter (.settle i o) = true →
      ∃ es v', run (Visit.step userOf) v es = some v' ∧ v'.signedOut = true ∧
        v'.device.auth.isUserSignedIn = true := by
    intro o st hcall hsame
    have hstep := @Visit.step_of_call userOf v i o _ _ _ _ hi hcall
    obtain ⟨es, v', hrun, hend⟩ := @hfinish { v with
      device := v.device.advance i ⟨call, true⟩ v.device.sessions st (some (.check (.finish true)))
      signedOut := v.signedOutAfter (.settle i o) } (List.getElem?_set_self hlt) hsame
    exact ⟨_, v', run_cons_iff.2 ⟨_, hstep, hrun⟩, hend⟩
  cases call with
  | check c =>
    cases c with
    | awaitIsSignedIn => cases htold
    | awaitSignInSilently => exact @hbefore (.reject .other) _ rfl hout
    | setUserInfo info =>
      refine @hbefore .resolve _ rfl ?_
      simp [Visit.signedOutAfter, hi, hout]
    | finish isUserSignedIn =>
      obtain rfl : isUserSignedIn = true := htold
      exact hfinish hi hout
  | signIn c => cases htold
  | signOut c => cases htold

/-- A step that breaks the condition can be continued to a screen which, after the sign-out and
before any sign-in, no longer offers to sign in. -/
theorem shown_of_broken {v v' : Visit} {e : Event} (hbroken : staysOut v e = false)
    (hstep : v.step userOf e = some v') :
    ∃ es v'', run (Visit.step userOf) v' es = some v'' ∧ v''.signedOut = true ∧
      v''.device.auth.isUserSignedIn = true := by
  cases e with
  | submit p rating text now => cases hbroken
  | auth a =>
    obtain ⟨d, hd, rfl⟩ := Option.map_eq_some_iff.1 hstep
    cases a with
    | pressSignIn => cases hbroken
    | pressSignOut => cases hbroken
    | otherCall call => cases hbroken
    | remount => cases hbroken
    | settle i o =>
      obtain ⟨⟨call, mounted⟩, ss, st, next, hr, hcall, rfl⟩ := Device.step_settle hd
      cases o with
      | resolveAs user => cases hbroken
      | reject code => cases hbroken
      | resolve =>
        simp only [staysOut, hr] at hbroken
        split at hbroken
        · -- `_signOut` completes while the form is shown, or about to be
          next heq =>
          cases heq
          cases hcall
          have hout : v.signedOutAfter (.settle i .resolve) = true := by
            simp [Visit.signedOutAfter, hr]
          have hauth : (if mounted then v.device.auth else v.device.auth) = v.device.auth :=
            ite_self _
          cases hshown : v.device.auth.isUserSignedIn with
          | true => exact ⟨[], _, rfl, hout, (congrArg AuthState.isUserSignedIn hauth).trans hshown⟩
          | false =>
            rw [quiet, hshown] at hbroken
            obtain ⟨r, hmem, hmounted, htold⟩ : ∃ r ∈ v.device.running, r.mounted = true ∧
                told r.call = true := by simpa using hbroken
            -- the check stays in flight when `_signOut` ends
            have hmem' : r ∈ v.device.running.eraseIdx i := by
              obtain ⟨j, hj⟩ := List.mem_iff_getElem?.1 hmem
              apply List.mem_eraseIdx_iff_getElem?.2
              refine ⟨j, ?_, hj⟩
              rintro rfl
              rw [hr] at hj
              cases hj
              cases htold
            obtain ⟨j, hj⟩ := List.mem_iff_getElem?.1 hmem'
            refine @told_shows userOf _ j r.call ?_ htold hout
            rw [← hmounted]
            exact hj
        · -- Google has a session after the sign-out
          next heq =>
          cases heq
          simp only [Bool.or_eq_false_iff, Bool.not_eq_false', Option.isNone_eq_false_iff] at hbroken
          obtain ⟨hout, hgoogle⟩ := hbroken
          obtain ⟨⟨st', next'⟩, hcheck, heq⟩ := Option.map_eq_some_iff.1 hcall
          simp only [CheckCall.step, hgoogle] at hcheck
          cases hcheck
          cases heq
          have hlt : i < v.device.running.length := (List.getElem?_eq_some_iff.1 hr).1
          have hsame : v.signedOutAfter (.settle i .resolve) = true := by
            simp [Visit.signedOutAfter, hr, hout]
          exact told_shows (List.getElem?_set_self hlt) rfl hsame
        · cases hbroken

end LetItGo.Properties.SignOutEffect
