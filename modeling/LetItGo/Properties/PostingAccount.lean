import LetItGo.Library.Runs
import LetItGo.Components.ReviewSubmissionScreen

/-!
# The account that posts

The form shows the Google user in `userInfo`; `submitReview` writes under the user of the Firebase
session. `signIn` brings the two together, the silent sign-in at mount looks at Google only, so a
Firebase session that is missing or belongs to somebody else goes unnoticed; and a call in flight
can change the Firebase session, or `userInfo`, under a form that is shown.

`sessionsKept` is the condition on a step under which this does not happen: `agrees_run` carries the
agreement of the two accounts over every run whose steps meet it, and `not_posts_of_broken` shows
that a step which breaks it can be continued to a form that shows one account and posts under
another, or under none.
-/

set_option autoImplicit false

namespace LetItGo.Properties.PostingAccount

open LetItGo.Library.Js
open LetItGo.Library.Runs
open LetItGo.Library.DocumentStore
open LetItGo.Components.SignIn
open LetItGo.Components.ReviewSubmissionScreen

variable (userOf : GoogleUser → User)

/-- There is a `userInfo`, and its account is the one of the Firebase session. -/
def Posts (firebase : Option User) (userInfo : Option UserInfo) : Prop :=
  ∃ info, userInfo = some info ∧ firebase = some (userOf info.user)

/-- The mounted screen shows the form, or a call of it has an answer still to be shown. -/
def shows (d : Device) : Bool :=
  d.auth.isUserSignedIn || d.running.any fun r => r.mounted && r.call.answered

/-- The condition on a step. When the mounted screen's silent sign-in is answered, Firebase has the
session of Google's user; when it is rejected, Firebase has the session of the user already in
`userInfo`; and `signInWithCredential` changes the Firebase session only while nothing is shown or
about to be. -/
def sessionsKept (d : Device) : Action → Bool
  | .settle i o =>
    match d.running[i]?, o with
    | some ⟨.check .awaitSignInSilently, true⟩, .resolve =>
      d.sessions.firebase = d.sessions.google.map userOf
    | some ⟨.check .awaitSignInSilently, true⟩, .reject _ =>
      d.auth.userInfo.isSome &&
        d.sessions.firebase = d.auth.userInfo.map fun info => userOf info.user
    | some ⟨.signIn (.awaitCredential info), _⟩, .resolve =>
      d.sessions.firebase = some (userOf info.user) || !shows d
    | _, _ => true
  | _ => true

/-! ## The invariant -/

/-- The `userInfo` in the state once the call has made its `setState`s. -/
def infoToShow (userInfo : Option UserInfo) : Call → Option UserInfo
  | .check (.setUserInfo info) => some info
  | .signIn (.setSignedIn info) => some info
  | _ => userInfo

/-- A call with an answer is going to show the account of the Firebase session. -/
def Ready (firebase : Option User) (userInfo : Option UserInfo) (call : Call) : Prop :=
  call.answered = true → Posts userOf firebase (infoToShow userInfo call)

/-- The two accounts agree now, and will when the calls in flight have made their `setState`s. -/
structure Agrees (d : Device) : Prop where
  shown : d.auth.isUserSignedIn = true → Posts userOf d.sessions.firebase d.auth.userInfo
  ready : ∀ r ∈ d.running, r.mounted = true →
    Ready userOf d.sessions.firebase d.auth.userInfo r.call

variable {userOf}

theorem posts_some {firebase : Option User} {info : UserInfo} :
    Posts userOf firebase (some info) ↔ firebase = some (userOf info.user) := by
  constructor
  · rintro ⟨info', hinfo, hfirebase⟩
    cases hinfo
    exact hfirebase
  · exact fun hfirebase => ⟨info, rfl, hfirebase⟩

theorem Posts.firebase_eq {firebase firebase' : Option User} {userInfo : Option UserInfo}
    (h : Posts userOf firebase userInfo) (h' : Posts userOf firebase' userInfo) :
    firebase = firebase' := by
  obtain ⟨info, hinfo, hfirebase⟩ := h
  obtain ⟨info', hinfo', hfirebase'⟩ := h'
  rw [hinfo, Option.some.injEq] at hinfo'
  rw [hfirebase, hfirebase', hinfo']

theorem ready_of_not_answered {firebase : Option User} {userInfo : Option UserInfo} {call : Call}
    (h : call.answered = false) : Ready userOf firebase userInfo call := by
  intro hanswered
  rw [h] at hanswered
  cases hanswered

/-- Once the Firebase session is that of `info`, writing `info` into the state keeps the calls
ready. -/
theorem Ready.setUserInfo {firebase : Option User} {userInfo : Option UserInfo} {info : UserInfo}
    {call : Call} (hinfo : firebase = some (userOf info.user))
    (h : Ready userOf firebase userInfo call) : Ready userOf firebase (some info) call := by
  intro hanswered
  have hposts := h hanswered
  unfold infoToShow at hposts ⊢
  split
  · exact hposts
  · exact hposts
  · exact posts_some.2 hinfo

theorem agrees_mount (ss : Sessions) {running : List Running}
    (h : ∀ r ∈ running, r.mounted = false) : Agrees userOf (Device.mount ss running) where
  shown := by
    intro hshown
    cases hshown
  ready := Device.everyCall_mount (ready_of_not_answered rfl) ss h

theorem agrees_push {d : Device} (h : Agrees userOf d) {r : Running}
    (hr : r.mounted = true → r.call.answered = false) :
    Agrees userOf { d with running := d.running ++ [r] } where
  shown := h.shown
  ready := Device.EveryCall.push h.ready fun hmounted => ready_of_not_answered (hr hmounted)

/-- A call moves on: it is enough to look at the state written, at the call's next point, and at the
other calls. -/
theorem agrees_advance {d : Device} {i : ℕ} {r : Running} {ss : Sessions} {st : AuthState}
    {next : Option Call}
    (hshown : (d.advance i r ss st next).auth.isUserSignedIn = true →
      Posts userOf ss.firebase (d.advance i r ss st next).auth.userInfo)
    (hnext : r.mounted = true → ∀ call, next = some call →
      Ready userOf ss.firebase (d.advance i r ss st next).auth.userInfo call)
    (hothers : ∀ r' ∈ d.running, r'.mounted = true →
      Ready userOf ss.firebase (d.advance i r ss st next).auth.userInfo r'.call) :
    Agrees userOf (d.advance i r ss st next) where
  shown := hshown
  ready := Device.EveryCall.advance hothers hnext

/-- A call that leaves the state and the Firebase session as they are. -/
theorem agrees_advance_same {d : Device} (h : Agrees userOf d) {i : ℕ} {r : Running}
    {ss : Sessions} {st : AuthState} {next : Option Call}
    (hauth : (d.advance i r ss st next).auth = d.auth)
    (hfirebase : ss.firebase = d.sessions.firebase)
    (hnext : r.mounted = true → ∀ call, next = some call →
      Ready userOf d.sessions.firebase d.auth.userInfo call) :
    Agrees userOf (d.advance i r ss st next) := by
  apply agrees_advance <;> rw [hauth, hfirebase]
  · exact h.shown
  · exact hnext
  · exact h.ready

/-- The `setState` of an unmounted component changes nothing. -/
theorem agrees_advance_unmounted {d : Device} (h : Agrees userOf d) {i : ℕ} {call : Call}
    {st : AuthState} {next : Option Call} :
    Agrees userOf (d.advance i ⟨call, false⟩ d.sessions st next) := by
  refine agrees_advance_same h rfl rfl ?_
  intro hmounted
  cases hmounted

theorem shows_eq_false {d : Device} (h : shows d = false) :
    d.auth.isUserSignedIn = false ∧
      ∀ r ∈ d.running, r.mounted = true → r.call.answered = false := by
  simp only [shows, Bool.or_eq_false_iff, List.any_eq_false, Bool.and_eq_true, not_and,
    Bool.not_eq_true] at h
  exact h

theorem agrees_settle {d : Device} (h : Agrees userOf d) {i : ℕ} {o : Outcome} {r : Running}
    {ss : Sessions} {st : AuthState} {next : Option Call} (hr : d.running[i]? = some r)
    (hkept : sessionsKept userOf d (.settle i o) = true)
    (heffect : Call.Effect userOf d.sessions d.auth r.call o ss st next) :
    Agrees userOf (d.advance i r ss st next) := by
  have hmem : r ∈ d.running := List.mem_of_getElem? hr
  obtain ⟨call, mounted⟩ := r
  cases heffect with
  | waits hfirebase hnext =>
    refine agrees_advance_same h (ite_self _) hfirebase ?_
    intro _ call' hcall'
    exact ready_of_not_answered (hnext call' hcall')
  | @silent user hgoogle =>
    refine agrees_advance_same h (ite_self _) rfl ?_
    rintro rfl call' hcall'
    cases hcall'
    simp only [sessionsKept, hr, hgoogle, decide_eq_true_eq] at hkept
    exact fun _ => posts_some.2 hkept
  | silentRejected code =>
    -- the user in `userInfo`, if any, is about to be shown
    refine agrees_advance_same h (ite_self _) rfl ?_
    rintro rfl call' hcall'
    cases hcall'
    simp only [sessionsKept, hr, Bool.and_eq_true, decide_eq_true_eq] at hkept
    obtain ⟨hsome, hfirebase⟩ := hkept
    obtain ⟨info, hinfo⟩ := Option.isSome_iff_exists.1 hsome
    rw [hinfo] at hfirebase
    exact fun _ => ⟨info, hinfo, hfirebase⟩
  | setUserInfo info =>
    cases mounted with
    | false => exact agrees_advance_unmounted h
    | true =>
      have hinfo : d.sessions.firebase = some (userOf info.user) :=
        posts_some.1 (h.ready _ hmem rfl rfl)
      apply agrees_advance
      · exact fun _ => ⟨info, rfl, hinfo⟩
      · intro _ call' hcall'
        cases hcall'
        exact fun _ => ⟨info, rfl, hinfo⟩
      · exact fun r' hr' hmounted => (h.ready r' hr' hmounted).setUserInfo hinfo
  | finish isUserSignedIn =>
    cases mounted with
    | false => exact agrees_advance_unmounted h
    | true =>
      apply agrees_advance
      · intro hsigned
        obtain rfl : isUserSignedIn = true := hsigned
        exact h.ready _ hmem rfl rfl
      · intro _ call' hcall'
        cases hcall'
      · exact h.ready
  | credential info =>
    simp only [sessionsKept, hr, Bool.or_eq_true, decide_eq_true_eq, Bool.not_eq_true'] at hkept
    rcases hkept with hsame | hnone
    · refine agrees_advance_same h (ite_self _) hsame.symm ?_
      intro _ call' hcall'
      cases hcall'
      exact fun _ => posts_some.2 hsame
    · -- the session changes, with nothing on screen that names an account
      obtain ⟨hsigned, hwaiting⟩ := shows_eq_false hnone
      have hauth : (d.advance i ⟨.signIn (.awaitCredential info), mounted⟩
          { d.sessions with firebase := some (userOf info.user) } d.auth
          (some (.signIn (.setSignedIn info)))).auth = d.auth := ite_self _
      apply agrees_advance <;> rw [hauth]
      · intro hsigned'
        rw [hsigned] at hsigned'
        cases hsigned'
      · intro _ call' hcall'
        cases hcall'
        exact fun _ => posts_some.2 rfl
      · exact fun r' hr' hmounted => ready_of_not_answered (hwaiting r' hr' hmounted)
  | setSignedIn info =>
    cases mounted with
    | false => exact agrees_advance_unmounted h
    | true =>
      have hinfo : d.sessions.firebase = some (userOf info.user) :=
        posts_some.1 (h.ready _ hmem rfl rfl)
      apply agrees_advance
      · exact fun _ => ⟨info, rfl, hinfo⟩
      · intro _ call' hcall'
        cases hcall'
      · exact fun r' hr' hmounted => (h.ready r' hr' hmounted).setUserInfo hinfo

/-- A step that meets the condition keeps the agreement. -/
theorem agrees_step (d : Device) (a : Action) (d' : Device) (h : Agrees userOf d)
    (hkept : sessionsKept userOf d a = true) (hstep : d.step userOf a = some d') :
    Agrees userOf d' := by
  cases Device.next_of_step hstep with
  | pressSignIn => exact agrees_push h fun _ => rfl
  | pressSignOut => exact agrees_push h fun _ => rfl
  | otherCall call => exact agrees_push h (by simp)
  | remount running hunmounted => exact agrees_mount d.sessions hunmounted
  | settle i o r ss st next hr hcall => exact agrees_settle h hr hkept (Call.step_effect hcall)

/-- So does a run whose steps all meet it. -/
theorem agrees_run {d d' : Device} {as : List Action} (h : Agrees userOf d)
    (hkept : EveryStep (Device.step userOf) (fun d a => sessionsKept userOf d a = true) d as)
    (hrun : run (Device.step userOf) d as = some d') : Agrees userOf d' :=
  run_guarded agrees_step h hkept hrun

/-! ## Steps that break the condition -/

/-- A mounted call with an answer can go on to show it. -/
theorem answered_shows {d : Device} {i : ℕ} {call : Call}
    (hi : d.running[i]? = some ⟨call, true⟩) (hanswered : call.answered = true) :
    ∃ as d', run (Device.step userOf) d as = some d' ∧ d'.auth.isUserSignedIn = true ∧
      d'.auth.userInfo = infoToShow d.auth.userInfo call ∧ d'.sessions = d.sessions := by
  have hlt : i < d.running.length := (List.getElem?_eq_some_iff.1 hi).1
  cases call with
  | check c =>
    cases c with
    | awaitIsSignedIn => cases hanswered
    | awaitSignInSilently => cases hanswered
    | setUserInfo info =>
      -- two `setState`s: the user, and then the flag
      have hfirst := @Device.step_of_call userOf d i .resolve _ _ _ _ hi rfl
      have hnext : (d.advance i ⟨.check (.setUserInfo info), true⟩ d.sessions
          (d.auth.setUserInfo info) (some (.check (.finish true)))).running[i]? =
            some ⟨.check (.finish true), true⟩ := List.getElem?_set_self hlt
      have hsecond := @Device.step_of_call userOf _ i .resolve _ _ _ _ hnext rfl
      have hrun := run_cons_iff.2 ⟨_, hfirst, run_cons_iff.2 ⟨_, hsecond, run_nil _⟩⟩
      exact ⟨_, _, hrun, rfl, rfl, rfl⟩
    | finish isUserSignedIn =>
      obtain rfl : isUserSignedIn = true := hanswered
      have hstep := @Device.step_of_call userOf d i .resolve _ _ _ _ hi rfl
      have hrun := run_cons_iff.2 ⟨_, hstep, run_nil _⟩
      exact ⟨_, _, hrun, rfl, rfl, rfl⟩
  | signIn c =>
    cases c with
    | awaitHasPlayServices => cases hanswered
    | awaitSignIn => cases hanswered
    | awaitCredential info => cases hanswered
    | setSignedIn info =>
      have hstep := @Device.step_of_call userOf d i .resolve _ _ _ _ hi rfl
      have hrun := run_cons_iff.2 ⟨_, hstep, run_nil _⟩
      exact ⟨_, _, hrun, rfl, rfl, rfl⟩
  | signOut c => cases hanswered

/-- So an answer of an account that Firebase does not have becomes a form that shows it. -/
theorem not_posts_of_not_ready {d : Device} {i : ℕ} {call : Call}
    (hi : d.running[i]? = some ⟨call, true⟩)
    (h : ¬ Ready userOf d.sessions.firebase d.auth.userInfo call) :
    ∃ as d', run (Device.step userOf) d as = some d' ∧ d'.auth.isUserSignedIn = true ∧
      ¬ Posts userOf d'.sessions.firebase d'.auth.userInfo := by
  obtain ⟨hanswered, hposts⟩ := Classical.not_imp.1 h
  obtain ⟨as, d', hrun, hsigned, hinfo, hsessions⟩ :=
    @answered_shows userOf d i call hi hanswered
  refine ⟨as, d', hrun, hsigned, ?_⟩
  rw [hinfo, hsessions]
  exact hposts

/-- A step that breaks the condition can be continued to a form that shows one account while
Firebase has another, or none. -/
theorem not_posts_of_broken {d d' : Device} {a : Action} (h : Agrees userOf d)
    (hbroken : sessionsKept userOf d a = false) (hstep : d.step userOf a = some d') :
    ∃ as d'', run (Device.step userOf) d' as = some d'' ∧ d''.auth.isUserSignedIn = true ∧
      ¬ Posts userOf d''.sessions.firebase d''.auth.userInfo := by
  cases a with
  | pressSignIn => cases hbroken
  | pressSignOut => cases hbroken
  | otherCall call => cases hbroken
  | remount => cases hbroken
  | settle i o =>
    obtain ⟨⟨call, mounted⟩, ss, st, next, hr, hcall, rfl⟩ := Device.step_settle hstep
    have hlt : i < d.running.length := (List.getElem?_eq_some_iff.1 hr).1
    simp only [sessionsKept, hr] at hbroken
    split at hbroken
    · -- the silent sign-in resolves with a user whose session Firebase does not have
      next heq =>
      cases heq
      obtain ⟨⟨st', next'⟩, hcheck, heq⟩ := Option.map_eq_some_iff.1 hcall
      obtain ⟨user, hgoogle, heq'⟩ := Option.map_eq_some_iff.1 hcheck
      cases heq'
      cases heq
      apply not_posts_of_not_ready (i := i) (List.getElem?_set_self hlt)
      intro hready
      rw [hgoogle, decide_eq_false_iff_not] at hbroken
      exact hbroken (posts_some.1 (hready rfl))
    · -- it is rejected, and the user in `userInfo` is not Firebase's
      next heq =>
      cases heq
      cases hcall
      apply not_posts_of_not_ready (i := i) (List.getElem?_set_self hlt)
      intro hready
      obtain ⟨info, hinfo, hfirebase⟩ := hready rfl
      simp only [Device.advance, if_true] at hinfo hfirebase
      simp [infoToShow] at hinfo
      simp [hinfo, hfirebase] at hbroken
    · -- the Firebase session changes under an account that is shown, or about to be
      next info _ heq =>
      cases heq
      cases hcall
      simp only [Bool.or_eq_false_iff, decide_eq_false_iff_not, Bool.not_eq_false'] at hbroken
      obtain ⟨hother, hshows⟩ := hbroken
      have hauth : (if mounted then d.auth else d.auth) = d.auth := ite_self _
      rcases Bool.or_eq_true_iff.1 hshows with hsigned | hwaiting
      · -- shown already
        refine ⟨[], _, rfl, (congrArg AuthState.isUserSignedIn hauth).trans hsigned, ?_⟩
        intro hposts
        simp only [Device.advance, hauth] at hposts
        exact hother ((h.shown hsigned).firebase_eq hposts)
      · -- about to be shown, by another call
        obtain ⟨r, hmem, hr'⟩ := List.any_eq_true.1 hwaiting
        obtain ⟨hmounted, hanswered⟩ := Bool.and_eq_true_iff.1 hr'
        obtain ⟨j, hj⟩ := List.mem_iff_getElem?.1 hmem
        have hij : i ≠ j := by
          rintro rfl
          rw [hr] at hj
          cases hj
          cases hanswered
        have hj' : (d.running.set i ⟨.signIn (.setSignedIn info), mounted⟩)[j]? =
            some ⟨r.call, true⟩ := by
          rw [List.getElem?_set_ne hij, hj, ← hmounted]
        apply not_posts_of_not_ready hj'
        intro hready
        have hposts := hready hanswered
        simp only [Device.advance, hauth] at hposts
        exact hother ((h.ready r hmem hmounted hanswered).firebase_eq hposts)
    · cases hbroken

/-! ## The form -/

/-- In every run whose steps all meet the condition, whatever the sessions are at the start: a form
that is shown shows a user's photo and name, Firebase has that user's account, and `submitReview`
writes under it. -/
theorem form_posts_as_shown (ss : Sessions) {as : List Action} {d : Device}
    (hkept : EveryStep (Device.step userOf) (fun d a => sessionsKept userOf d a = true)
      (Device.mount ss []) as)
    (hrun : run (Device.step userOf) (Device.mount ss []) as = some d)
    (hshown : d.auth.isUserSignedIn = true) :
    ∃ info, d.auth.userInfo = some info ∧ d.sessions.firebase = some (userOf info.user) ∧
      (∀ p rating text, ∃ disabled, render p ⟨d.auth, rating, text⟩ =
        .ok (.form info.user.photo info.user.name (p.count.getD 0) disabled)) ∧
      ∀ now ref text rating, ∃ doc, submitReview d.sessions.firebase now ref text rating = .ok doc ∧
        doc.1 = ref.doc (userOf info.user).uid ∧ doc.2.review.uid = (userOf info.user).uid := by
  have hmount : Agrees userOf (Device.mount ss []) := agrees_mount ss (by simp)
  have hagrees : Agrees userOf d := agrees_run hmount hkept hrun
  obtain ⟨info, hinfo, hfirebase⟩ := hagrees.shown hshown
  refine ⟨info, hinfo, hfirebase, ?_, ?_⟩
  · intro p rating text
    simp [render, hshown, hinfo]
  · intro now ref text rating
    rw [hfirebase]
    exact submitReview_some _ now ref text rating

/-- An account for each Google user. -/
def accountOf (user : GoogleUser) : User := ⟨"f" ++ user.id, some user.name, none⟩

/-- Signing in with no sessions at first, and everything succeeding. -/
theorem form_posts_as_shown_signIn :
    ∃ d, run (Device.step accountOf) (Device.mount ⟨none, none⟩ [])
        [.settle 0 .resolve, .settle 0 .resolve, .pressSignIn, .settle 0 .resolve,
          .settle 0 (.resolveAs ⟨"1", "Ann", "ann.jpg"⟩), .settle 0 .resolve,
          .settle 0 .resolve] = some d ∧
      d.auth.isUserSignedIn = true ∧
      ∃ info, d.auth.userInfo = some info ∧
        d.sessions.firebase = some (accountOf info.user) := by
  refine ⟨_, rfl, rfl, ?_⟩
  obtain ⟨info, hinfo, hfirebase, -⟩ := @form_posts_as_shown accountOf ⟨none, none⟩
    [.settle 0 .resolve, .settle 0 .resolve, .pressSignIn, .settle 0 .resolve,
      .settle 0 (.resolveAs ⟨"1", "Ann", "ann.jpg"⟩), .settle 0 .resolve, .settle 0 .resolve]
    _ (by decide) rfl rfl
  exact ⟨info, hinfo, hfirebase⟩

/-- Ann signs in to Google, Firebase rejects the credential, and she leaves the screen and comes
back: the silent sign-in shows the form with her name, and `submitReview` throws. -/
theorem form_without_firebase_user :
    ∃ d, run (Device.step accountOf) (Device.mount ⟨none, none⟩ [])
        [.settle 0 .resolve, .settle 0 .resolve, .pressSignIn, .settle 0 .resolve,
          .settle 0 (.resolveAs ⟨"1", "Ann", "ann.jpg"⟩), .settle 0 (.reject .other), .remount,
          .settle 0 .resolve, .settle 0 .resolve, .settle 0 .resolve,
          .settle 0 .resolve] = some d ∧
      render ⟨none, none⟩ ⟨d.auth, none, none⟩ = .ok (.form "ann.jpg" "Ann" 0 true) ∧
      d.sessions.firebase = none ∧
      submitReview d.sessions.firebase ⟨0, 0⟩ (constructorRef ⟨none, none⟩) "clean" none =
        .error (.typeError "user.uid") :=
  ⟨_, rfl, rfl, rfl, rfl⟩

end LetItGo.Properties.PostingAccount
