import LetItGo.Library.Runs
import LetItGo.Components.Reviews
import LetItGo.Properties.PostingAccount

/-!
# The user of a signed-in state

`isUserSignedIn` and `userInfo` are set by different steps. `signIn` sets both at once. The check at
mount sets `userInfo` in `getCurrentUserInfo`, which catches every rejection of the silent sign-in,
and then `isUserSignedIn`, whether or not there was one. A rejection is harmless exactly if `userInfo`
is there already.
-/

set_option autoImplicit false

namespace LetItGo.Properties.SignedInUser

open LetItGo.Library.Js
open LetItGo.Library.Runs
open LetItGo.Components
open LetItGo.Components.SignIn
open LetItGo.Properties.PostingAccount (accountOf)

/-- The condition on a step: when the mounted component's silent sign-in is rejected, `userInfo` has
been set. -/
def userThere (d : Device) : Action → Bool
  | .settle i (.reject _) =>
    match d.running[i]? with
    | some ⟨.check .awaitSignInSilently, true⟩ => d.auth.userInfo.isSome
    | _ => true
  | _ => true

/-- A signed-in state has a user, and so has a state that a check is about to make one. -/
structure HasUser (d : Device) : Prop where
  shown : d.auth.isUserSignedIn = true → d.auth.userInfo.isSome = true
  ready : d.EveryCall fun call => call = .check (.finish true) → d.auth.userInfo.isSome = true

variable {userOf : GoogleUser → User}

theorem hasUser_mount (ss : Sessions) {running : List Running}
    (h : ∀ r ∈ running, r.mounted = false) : HasUser (Device.mount ss running) where
  shown := by
    intro hshown
    cases hshown
  ready := by
    refine Device.everyCall_mount ?_ ss h
    intro hcall
    cases hcall

theorem hasUser_push {d : Device} (h : HasUser d) {r : Running}
    (hcall : r.mounted = true → r.call.answered = false) :
    HasUser { d with running := d.running ++ [r] } where
  shown := h.shown
  ready := by
    apply h.ready.push
    intro hmounted hfinish
    rw [hfinish] at hcall
    cases hcall hmounted

/-- A call that leaves the state as it is, and goes on to `finish true` only with a user there. -/
theorem hasUser_advance_same {d : Device} (h : HasUser d) {i : ℕ} {r : Running} {ss : Sessions}
    {st : AuthState} {next : Option Call} (hauth : (d.advance i r ss st next).auth = d.auth)
    (hnext : r.mounted = true → next = some (.check (.finish true)) →
      d.auth.userInfo.isSome = true) :
    HasUser (d.advance i r ss st next) where
  shown := by
    rw [hauth]
    exact h.shown
  ready := by
    rw [hauth]
    apply h.ready.advance
    rintro hmounted call hcall rfl
    exact hnext hmounted hcall

/-- A state with a user has one whatever the calls are. -/
theorem hasUser_of_isSome {d : Device} (h : d.auth.userInfo.isSome = true) : HasUser d :=
  ⟨fun _ => h, fun _ _ _ _ => h⟩

theorem hasUser_settle {d : Device} (h : HasUser d) {i : ℕ} {o : Outcome} {r : Running}
    {ss : Sessions} {st : AuthState} {next : Option Call} (hr : d.running[i]? = some r)
    (hkept : userThere d (.settle i o) = true)
    (heffect : Call.Effect userOf d.sessions d.auth r.call o ss st next) :
    HasUser (d.advance i r ss st next) := by
  have hmem : r ∈ d.running := List.mem_of_getElem? hr
  obtain ⟨call, mounted⟩ := r
  cases heffect with
  | waits hfirebase hnext =>
    apply hasUser_advance_same h (ite_self _)
    intro _ hfinish
    cases hnext _ hfinish
  | silent hgoogle =>
    apply hasUser_advance_same h (ite_self _)
    intro _ hfinish
    cases hfinish
  | silentRejected code =>
    -- the catch lets the check go on
    apply hasUser_advance_same h (ite_self _)
    rintro rfl -
    simpa only [userThere, hr] using hkept
  | credential info =>
    apply hasUser_advance_same h (ite_self _)
    intro _ hfinish
    cases hfinish
  | setUserInfo info =>
    cases mounted with
    | false => exact hasUser_advance_same h rfl (by simp)
    | true => exact hasUser_of_isSome rfl
  | setSignedIn info =>
    cases mounted with
    | false => exact hasUser_advance_same h rfl (by simp)
    | true => exact hasUser_of_isSome rfl
  | finish isUserSignedIn =>
    cases mounted with
    | false => exact hasUser_advance_same h rfl (by simp)
    | true =>
      refine ⟨?_, h.ready.advance (by simp)⟩
      intro hshown
      obtain rfl : isUserSignedIn = true := hshown
      exact h.ready _ hmem rfl rfl

/-- A step that meets the condition keeps the invariant. -/
theorem hasUser_step (d : Device) (a : Action) (d' : Device) (h : HasUser d)
    (hkept : userThere d a = true) (hstep : d.step userOf a = some d') : HasUser d' := by
  cases Device.next_of_step hstep with
  | pressSignIn => exact hasUser_push h fun _ => rfl
  | pressSignOut => exact hasUser_push h fun _ => rfl
  | otherCall call => exact hasUser_push h (by simp)
  | remount running hunmounted => exact hasUser_mount d.sessions hunmounted
  | settle i o r ss st next hr hcall => exact hasUser_settle h hr hkept (Call.step_effect hcall)

/-- In every run whose steps all meet the condition, whatever the sessions are at the start: a
signed-in state has a user, whose photo and name are what the two components show. -/
theorem signedIn_user (ss : Sessions) {as : List Action} {d : Device}
    (hkept : EveryStep (Device.step userOf) (fun d a => userThere d a = true)
      (Device.mount ss []) as)
    (hrun : run (Device.step userOf) (Device.mount ss []) as = some d)
    (hsigned : d.auth.isUserSignedIn = true) :
    ∃ info, d.auth.userInfo = some info ∧
      (∀ p rating text, ∃ disabled, ReviewSubmissionScreen.render p ⟨d.auth, rating, text⟩ =
        .ok (.form info.user.photo info.user.name (p.count.getD 0) disabled)) ∧
      ∀ props expandAll currentUser,
        Reviews.renderMiddle props ⟨d.auth, expandAll, false⟩ currentUser =
          .ok (.rateAndReview info.user.photo) := by
  have hmount : HasUser (Device.mount ss []) := hasUser_mount ss (by simp)
  have huser : HasUser d := run_guarded hasUser_step hmount hkept hrun
  obtain ⟨info, hinfo⟩ := Option.isSome_iff_exists.1 (huser.shown hsigned)
  refine ⟨info, hinfo, ?_, ?_⟩
  · intro p rating text
    simp [ReviewSubmissionScreen.render, hsigned, hinfo]
  · intro props expandAll currentUser
    simp [Reviews.renderMiddle, hsigned, hinfo]

/-- Ann's silent sign-in succeeds. -/
theorem signedIn_user_silently :
    run (Device.step accountOf) (Device.mount ⟨some ⟨"1", "Ann", "ann.jpg"⟩, none⟩ [])
        [.settle 0 .resolve, .settle 0 .resolve, .settle 0 .resolve, .settle 0 .resolve] =
        some ⟨⟨some ⟨"1", "Ann", "ann.jpg"⟩, none⟩, ⟨some ⟨⟨"1", "Ann", "ann.jpg"⟩⟩, true, false⟩,
          []⟩ ∧
      ∃ disabled, ReviewSubmissionScreen.render ⟨none, none⟩
        ⟨⟨some ⟨⟨"1", "Ann", "ann.jpg"⟩⟩, true, false⟩, none, none⟩ =
          .ok (.form "ann.jpg" "Ann" 0 disabled) := by
  have hrun : run (Device.step accountOf) (Device.mount ⟨some ⟨"1", "Ann", "ann.jpg"⟩, none⟩ [])
      [.settle 0 .resolve, .settle 0 .resolve, .settle 0 .resolve, .settle 0 .resolve] =
      some ⟨⟨some ⟨"1", "Ann", "ann.jpg"⟩, none⟩, ⟨some ⟨⟨"1", "Ann", "ann.jpg"⟩⟩, true, false⟩,
        []⟩ := rfl
  obtain ⟨info, hinfo, hform, -⟩ := signedIn_user _ (by decide) hrun rfl
  cases hinfo
  exact ⟨hrun, hform _ none none⟩

/-- Google has Ann's session, and her silent sign-in is rejected: the check ends with
`isUserSignedIn` and no user, and both components throw when they render. -/
theorem signedIn_without_user :
    ∃ d, run (Device.step accountOf) (Device.mount ⟨some ⟨"1", "Ann", "ann.jpg"⟩, none⟩ [])
        [.settle 0 .resolve, .settle 0 (.reject .signInRequired), .settle 0 .resolve] = some d ∧
      d.auth.isUserSignedIn = true ∧ d.auth.userInfo = none ∧
      ReviewSubmissionScreen.render ⟨none, none⟩ ⟨d.auth, none, none⟩ =
        .error (.typeError "this.state.userInfo.user.photo") ∧
      Reviews.render ⟨none, [], "COM1"⟩ ⟨d.auth, false, false⟩ none =
        .error (.typeError "this.state.userInfo.user.photo") :=
  ⟨_, rfl, rfl, rfl, rfl, rfl⟩

/-- A step that breaks the condition can be continued to a signed-in state without a user. -/
theorem noUser_of_broken {d d' : Device} {a : Action} (hbroken : userThere d a = false)
    (hstep : d.step userOf a = some d') :
    ∃ as d'', run (Device.step userOf) d' as = some d'' ∧ d''.auth.isUserSignedIn = true ∧
      d''.auth.userInfo = none := by
  cases a with
  | pressSignIn => cases hbroken
  | pressSignOut => cases hbroken
  | otherCall call => cases hbroken
  | remount => cases hbroken
  | settle i o =>
    obtain ⟨r, ss, st, next, hr, hcall, rfl⟩ := Device.step_settle hstep
    cases o with
    | resolve => cases hbroken
    | resolveAs user => cases hbroken
    | reject code =>
      simp only [userThere, hr] at hbroken
      split at hbroken
      · -- the rejected check finishes with `true`
        next heq =>
        cases heq
        cases hcall
        have hlt : i < d.running.length := (List.getElem?_eq_some_iff.1 hr).1
        have hnext : (d.advance i ⟨.check .awaitSignInSilently, true⟩ d.sessions d.auth
            (some (.check (.finish true)))).running[i]? = some ⟨.check (.finish true), true⟩ :=
          List.getElem?_set_self hlt
        have hfinish := @Device.step_of_call userOf _ i .resolve _ _ _ _ hnext rfl
        exact ⟨_, _, run_cons_iff.2 ⟨_, hfinish, run_nil _⟩, rfl,
          Option.isSome_eq_false_iff.1 hbroken |> Option.isNone_iff_eq_none.1⟩
      · cases hbroken

end LetItGo.Properties.SignedInUser
