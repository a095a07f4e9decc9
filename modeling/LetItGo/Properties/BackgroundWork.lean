import LetItGo.Library.Potential
import LetItGo.Properties.Submissions

/-!
# What goes on by itself

The sign-in calls, the `set`s, the two requests of the list and the lookup of a page go on by
themselves: a promise settles, a `setState` runs. Each of them has a bounded number of steps to go,
and only what the user does starts new ones, so what goes on by itself is bounded by what the user has
done, and ends (`background_bounded`). The reads of the details page are left out, from whatever they
are answered: a read that succeeds issues the next one, and while the page is there they go on forever.
So is the end of a Firebase session, which nothing on the phone has started.
-/

set_option autoImplicit false

namespace LetItGo.Properties.BackgroundWork

open LetItGo.Library.DocumentStore
open LetItGo.Library.Js (Exception)
open LetItGo.Library.Potential
open LetItGo.Library.Runs
open LetItGo.Components
open LetItGo.Components.FirstScreen (Coords)
open LetItGo.Components.ReviewSubmissionScreen (ReviewDoc)
open LetItGo.Components.SignIn (AuthState Call CheckCall GoogleUser Outcome Sessions SignInCall
  SignOutCall User)
open LetItGo.Properties.CrashFreedom (annsSessions)
open LetItGo.Properties.Submissions (annSubmits)
open LetItGo.Systems.Navigator (onPress)
open LetItGo.Systems.SharedReviews
open LetItGo.Systems.WholeApp

universe u

/-- The action goes on by itself; the reads of the details page are left out, and the end of a
session. -/
def isBackground : Action → Bool
  | .first (.position _) => true
  | .first (.positionError _ _) => true
  | .first (.query _) => true
  | .first (.queryError _) => true
  | .page .lookupRead => true
  | .page (.lookupLocal _) => true
  | .page .lookupAnswer => true
  | .set _ => true
  | .settle _ _ => true
  | _ => false

/-- At most so many steps does an action start: a check takes four, and so does signing in; a lookup
and a `set` take two. -/
def starts : Action → ℕ
  | .pressRow _ => 6
  | .tapStar _ => 4
  | .pressSubmit _ => 2
  | .pressSignIn _ => 4
  | .pressSignOut => 3
  | _ => 0

/-! ## Steps to go -/

def checkLeft : CheckCall → ℕ
  | .awaitIsSignedIn => 4
  | .awaitSignInSilently => 3
  | .setUserInfo _ => 2
  | .finish _ => 1

def signInLeft : SignInCall → ℕ
  | .awaitHasPlayServices => 4
  | .awaitSignIn => 3
  | .awaitCredential _ => 2
  | .setSignedIn _ => 1

def signOutLeft : SignOutCall → ℕ
  | .awaitRevokeAccess => 3
  | .awaitSignOut => 2
  | .setUserNull => 1

def callLeft : Call → ℕ
  | .check c => checkLeft c
  | .signIn c => signInLeft c
  | .signOut c => signOutLeft c

def setLeft (r : PendingSet) : ℕ := if r.committed then 1 else 2

def listLeft (m : FirstScreen.Mounted) : ℕ := m.positionPending.toNat + m.queryPending.toNat

def lookupLeft : Option PendingLookup → ℕ
  | none => 0
  | some ⟨_, none⟩ => 2
  | some ⟨_, some _⟩ => 1

def screensLeft (s : Screens) : ℕ := listLeft s.first + lookupLeft (s.page.bind Page.lookup)

/-- The steps to go of the calls and the `set`s. -/
def inFlight (d : App) : ℕ :=
  (d.calls.map fun r => callLeft r.call).sum + (d.sets.map setLeft).sum

def shownLeft : Except Exception Screens → ℕ
  | .ok s => screensLeft s
  | .error _ => 0

/-- So many steps go on by themselves before the app is at rest. -/
def left (d : App) : ℕ := inFlight d + shownLeft d.screens

/-- Nothing is in flight but reads of the details page. -/
structure AtRest (d : App) : Prop where
  calls : d.calls = []
  sets : d.sets = []
  requests : ∀ s, d.screens = .ok s →
    s.first.positionPending = false ∧ s.first.queryPending = false
  lookup : ∀ s p, d.screens = .ok s → s.page = some p → p.lookup = none

theorem one_le_callLeft (c : Call) : 1 ≤ callLeft c := by
  rcases c with c | c | c <;> cases c <;> simp [callLeft, checkLeft, signInLeft, signOutLeft]

theorem one_le_setLeft (r : PendingSet) : 1 ≤ setLeft r := by
  unfold setLeft
  split <;> omega

theorem lookupLeft_eq_zero_iff {l : Option PendingLookup} : lookupLeft l = 0 ↔ l = none := by
  rcases l with _ | ⟨doc, _ | found⟩ <;> simp [lookupLeft]

theorem listLeft_eq_zero_iff {m : FirstScreen.Mounted} :
    listLeft m = 0 ↔ m.positionPending = false ∧ m.queryPending = false := by
  simp [listLeft]

theorem left_eq_zero_iff {d : App} : left d = 0 ↔ AtRest d := by
  have hcalls : (d.calls.map fun r => callLeft r.call).sum = 0 ↔ d.calls = [] :=
    sum_map_eq_zero_iff fun r => one_le_callLeft r.call
  have hsets : (d.sets.map setLeft).sum = 0 ↔ d.sets = [] := sum_map_eq_zero_iff one_le_setLeft
  unfold left inFlight
  cases hscreens : d.screens with
  | error e =>
    -- a list or a lookup that nobody sees has no steps to go
    simp only [shownLeft, Nat.add_zero, Nat.add_eq_zero_iff, hcalls, hsets]
    constructor
    · rintro ⟨hcalls, hsets⟩
      exact ⟨hcalls, hsets, by simp [hscreens], by simp [hscreens]⟩
    · intro h
      exact ⟨h.calls, h.sets⟩
  | ok s =>
    simp only [shownLeft, Nat.add_eq_zero_iff, hcalls, hsets, screensLeft, listLeft_eq_zero_iff,
      lookupLeft_eq_zero_iff]
    constructor
    · rintro ⟨⟨hcalls, hsets⟩, hrequests, hlookup⟩
      refine ⟨hcalls, hsets, ?_, ?_⟩
      · rintro s' hs'
        cases hscreens.symm.trans hs'
        exact hrequests
      · rintro s' p hs' hp
        cases hscreens.symm.trans hs'
        rw [hp] at hlookup
        exact hlookup
    · intro h
      refine ⟨⟨h.calls, h.sets⟩, h.requests s hscreens, ?_⟩
      cases hpage : s.page with
      | none => rfl
      | some p => exact h.lookup s p hscreens hpage

/-! ## One step of each -/

section

variable {userOf : GoogleUser → User} {ss ss' : Sessions} {auth auth' : AuthState} {o : Outcome}

theorem checkLeft_of_step {c : CheckCall} {next : Option CheckCall}
    (h : c.step ss auth o = some (auth', next)) : (next.map checkLeft).getD 0 + 1 ≤ checkLeft c := by
  cases c with
  | awaitIsSignedIn =>
    cases o with
    | resolve =>
      -- without a Google session the call skips two steps
      simp only [CheckCall.step] at h
      split at h <;> cases h <;> decide
    | resolveAs user => cases h
    | reject code =>
      cases h
      decide
  | awaitSignInSilently =>
    cases o with
    | resolve =>
      obtain ⟨user, -, heq⟩ := Option.map_eq_some_iff.1 h
      cases heq
      exact le_refl 3
    | resolveAs user => cases h
    | reject code =>
      -- the rejection is caught, and the last `setState` is still to come
      cases h
      decide
  | setUserInfo info =>
    cases o <;> cases h
    exact le_refl 2
  | finish isUserSignedIn =>
    cases o <;> cases h
    exact le_refl 1

theorem signInLeft_of_step {c : SignInCall} {next : Option SignInCall}
    (h : c.step userOf ss auth o = some (ss', auth', next)) :
    (next.map signInLeft).getD 0 + 1 ≤ signInLeft c := by
  cases c <;> cases o <;> cases h <;> simp [signInLeft]

theorem signOutLeft_of_step {c : SignOutCall} {next : Option SignOutCall}
    (h : c.step ss o = some (ss', next)) : (next.map signOutLeft).getD 0 + 1 ≤ signOutLeft c := by
  cases c <;> cases o <;> cases h <;> simp [signOutLeft]

/-- A step of a call takes one off. -/
theorem callLeft_of_step {c : Call} {next : Option Call}
    (h : c.step userOf ss auth o = some (ss', auth', next)) :
    (next.map callLeft).getD 0 + 1 ≤ callLeft c := by
  cases c with
  | check c =>
    obtain ⟨⟨auth₁, next₁⟩, hstep, heq⟩ := Option.map_eq_some_iff.1 h
    cases heq
    rw [Option.map_map]
    exact checkLeft_of_step hstep
  | signIn c =>
    obtain ⟨⟨ss₁, auth₁, next₁⟩, hstep, heq⟩ := Option.map_eq_some_iff.1 h
    cases heq
    rw [Option.map_map]
    exact signInLeft_of_step hstep
  | signOut c =>
    obtain ⟨⟨ss₁, next₁⟩, hstep, heq⟩ := Option.map_eq_some_iff.1 h
    cases heq
    rw [Option.map_map]
    exact signOutLeft_of_step hstep

/-- A call can always go on: every promise can be settled, if only by a rejection. -/
theorem exists_step_call (c : Call) : ∃ o x, c.step userOf ss auth o = some x := by
  rcases c with c | c | c
  · cases c with
    | awaitIsSignedIn => exact ⟨.reject .other, _, rfl⟩
    | awaitSignInSilently => exact ⟨.reject .other, _, rfl⟩
    | setUserInfo info => exact ⟨.resolve, _, rfl⟩
    | finish isUserSignedIn => exact ⟨.resolve, _, rfl⟩
  · cases c with
    | awaitHasPlayServices => exact ⟨.reject .other, _, rfl⟩
    | awaitSignIn => exact ⟨.reject .other, _, rfl⟩
    | awaitCredential info => exact ⟨.reject .other, _, rfl⟩
    | setSignedIn info => exact ⟨.resolve, _, rfl⟩
  · cases c with
    | awaitRevokeAccess => exact ⟨.reject .other, _, rfl⟩
    | awaitSignOut => exact ⟨.reject .other, _, rfl⟩
    | setUserNull => exact ⟨.resolve, _, rfl⟩

end

section

variable {getDistance : Coords → Coords → ℚ → ℚ} {localeCompare : String → String → ℤ}
  {userOf : GoogleUser → User}

theorem listLeft_of_step {m m' : FirstScreen.Mounted} {e : FirstScreen.Event}
    (h : m.step getDistance localeCompare e = some m') :
    (isBackground (.first e)).toNat + listLeft m' ≤ listLeft m := by
  cases e with
  | position p =>
    obtain ⟨hpending, heq⟩ := Option.ite_none_right_eq_some.1 h
    cases heq
    simp [isBackground, listLeft, hpending]
  | positionError code message =>
    obtain ⟨hpending, heq⟩ := Option.ite_none_right_eq_some.1 h
    cases heq
    simp [isBackground, listLeft, hpending]
  | query docs =>
    obtain ⟨hpending, heq⟩ := Option.ite_none_right_eq_some.1 h
    cases heq
    unfold FirstScreen.Mounted.queryArrived
    split <;> simp [isBackground, listLeft, hpending, Nat.add_comm]
  | queryError reason =>
    obtain ⟨hpending, heq⟩ := Option.ite_none_right_eq_some.1 h
    cases heq
    simp [isBackground, listLeft, hpending, Nat.add_comm]
  | changeState =>
    cases h
    exact (Nat.zero_add _).le
  | backdropPress =>
    obtain ⟨-, heq⟩ := Option.ite_none_right_eq_some.1 h
    cases heq
    exact (Nat.zero_add _).le
  | press box =>
    obtain ⟨-, heq⟩ := Option.ite_none_right_eq_some.1 h
    cases heq
    exact (Nat.zero_add _).le

theorem lookupLeft_of_step {p p' : Page} {db : Store ReviewDoc}
    {known : List (DocRef × ReviewDoc)} {e : PageEvent} (h : p.step db known e = some p') :
    (isBackground (.page e)).toNat + lookupLeft p'.lookup ≤ lookupLeft p.lookup := by
  cases e with
  | details e =>
    obtain ⟨-, hdetails⟩ := Option.ite_none_right_eq_some.1 h
    obtain ⟨details, -, rfl⟩ := Option.map_eq_some_iff.1 hdetails
    exact (Nat.zero_add _).le
  | takeLocal i docs =>
    obtain ⟨-, hdetails⟩ := Option.ite_none_right_eq_some.1 h
    obtain ⟨details, -, rfl⟩ := Option.map_eq_some_iff.1 hdetails
    exact (Nat.zero_add _).le
  | pressToggle =>
    cases h
    exact (Nat.zero_add _).le
  | lookupRead =>
    simp only [Page.step] at h
    split at h
    · next doc hlookup =>
      cases h
      simp [isBackground, lookupLeft, hlookup]
    · cases h
  | lookupLocal found =>
    simp only [Page.step] at h
    split at h
    · next doc hlookup =>
      cases h
      simp [isBackground, lookupLeft, hlookup]
    · cases h
  | lookupAnswer =>
    simp only [Page.step] at h
    split at h
    · next doc found hlookup =>
      cases h
      simp [isBackground, lookupLeft, hlookup]
    · cases h

/-! ## One step of the app -/

theorem left_of_ok {d : App} {s : Screens} (h : d.screens = .ok s) :
    left d = inFlight d + screensLeft s := by
  rw [left, h, shownLeft]

/-- With the same screens only what is in flight counts. -/
theorem left_of_screens {d d' : App} (h : d'.screens = d.screens) :
    left d' + inFlight d = left d + inFlight d' := by
  rw [left, left, h]
  omega

theorem inFlight_le_left (d : App) : inFlight d ≤ left d := Nat.le_add_right _ _

/-- What is displayed has its steps to go, or has none when it is gone. -/
theorem left_display_le (d : App) (s : Screens) :
    left (d.display s) ≤ inFlight d + screensLeft s := by
  unfold App.display
  cases s.render d.sessions.firebase with
  | error e => exact Nat.le_add_right _ _
  | ok view => exact le_refl _

theorem inFlight_push (d : App) (owner : ℕ) (c : Call) :
    inFlight (d.push owner c) = inFlight d + callLeft c := by
  simp [inFlight, App.push]
  omega

/-- A component that is mounted starts a check. -/
theorem inFlight_newComponent (d : App) : inFlight d.newComponent = inFlight d + 4 :=
  inFlight_push d d.nextKey (.check .awaitIsSignedIn)

theorem inFlight_set {d : App} {i : ℕ} {r : PendingSet} (h : d.sets[i]? = some r) (r' : PendingSet) :
    inFlight { d with sets := d.sets.set i r' } + setLeft r = inFlight d + setLeft r' := by
  have hsets := @sum_map_set _ setLeft _ _ _ h r'
  simp only [inFlight]
  omega

theorem inFlight_eraseSet {d : App} {i : ℕ} {r : PendingSet} (h : d.sets[i]? = some r) :
    inFlight { d with sets := d.sets.eraseIdx i } + setLeft r = inFlight d := by
  have hsets := @sum_map_eraseIdx _ setLeft _ _ _ h
  simp only [inFlight]
  omega

/-- The sign-in state of a component has nothing to do with its lookup. -/
theorem screensLeft_setAuth (s : Screens) (owner : ℕ) (auth : AuthState) :
    screensLeft (s.setAuth owner auth) = screensLeft s := by
  obtain ⟨first, _ | p⟩ := s
  · rfl
  · simp only [Screens.setAuth, screensLeft, Option.map_some, Option.bind_some, Page.setAuth]
    split <;> rfl

theorem screensLeft_goBack_le (s : Screens) : screensLeft s.goBack ≤ screensLeft s := by
  obtain ⟨first, _ | p⟩ := s
  · exact le_refl _
  · simp only [Screens.goBack]
    split
    · exact le_refl _
    · simp [screensLeft, lookupLeft]

/-- With less in flight, and the state of a component set. -/
theorem left_moved {d : App} {calls : List PendingCall}
    (hless : (calls.map fun r => callLeft r.call).sum + 1 ≤ (d.calls.map fun r => callLeft r.call).sum)
    (ss : Sessions) (owner : ℕ) (auth : AuthState) :
    1 + left (match d.screens with
      | .error _ => { d with sessions := ss, calls }
      | .ok s => App.display { d with sessions := ss, calls } (s.setAuth owner auth)) ≤ left d := by
  have hmoved : inFlight { d with sessions := ss, calls } + 1 ≤ inFlight d := by
    simp only [inFlight]
    omega
  cases hscreens : d.screens with
  | error e =>
    have hsame := @left_of_screens d { d with sessions := ss, calls, screens := .error e }
      hscreens.symm
    show 1 + left { d with sessions := ss, calls, screens := .error e } ≤ left d
    have hinFlight : inFlight { d with sessions := ss, calls, screens := .error e } =
      inFlight { d with sessions := ss, calls } := rfl
    omega
  | ok s =>
    have hshown := left_display_le { d with sessions := ss, calls, screens := .ok s }
      (s.setAuth owner auth)
    rw [screensLeft_setAuth] at hshown
    have hinFlight : inFlight { d with sessions := ss, calls, screens := .ok s } =
      inFlight { d with sessions := ss, calls } := rfl
    rw [left_of_ok hscreens]
    show 1 + left (App.display { d with sessions := ss, calls, screens := .ok s }
      (s.setAuth owner auth)) ≤ _
    omega

/-- A call that takes a step takes one off. -/
theorem left_advance {d : App} {i : ℕ} {r : PendingCall} {o : Outcome} {ss : Sessions}
    {auth auth' : AuthState} {next : Option Call} (hr : d.calls[i]? = some r)
    (hcall : r.call.step userOf d.sessions auth o = some (ss, auth', next)) :
    1 + left (d.advance i r ss auth' next) ≤ left d := by
  have hone := callLeft_of_step hcall
  cases next with
  | none =>
    have herase := @sum_map_eraseIdx _ (fun r => callLeft r.call) _ _ _ hr
    refine left_moved ?_ ss r.owner auth'
    dsimp only [Option.map_none, Option.getD_none] at hone ⊢
    omega
  | some call =>
    have hset := @sum_map_set _ (fun r => callLeft r.call) _ _ _ hr { r with call }
    refine left_moved ?_ ss r.owner auth'
    dsimp only [Option.map_some, Option.getD_some] at hone hset ⊢
    omega

/-- What an action costs is paid for by what it takes off and what it starts. -/
theorem left_of_step {d d' : App} {db : Store ReviewDoc} {a : Action}
    (h : d.step getDistance localeCompare userOf db a = some d') :
    (isBackground a).toNat + left d' ≤ left d + starts a := by
  cases App.next_of_step h with
  | @first s first e hscreens hfirst =>
    have hshown := left_display_le d { s with first }
    have hlist := listLeft_of_step hfirst
    rw [left_of_ok hscreens]
    simp only [screensLeft, starts] at hshown ⊢
    omega
  | @constructorFails first item e hscreens hid =>
    have hless := inFlight_le_left d
    show 0 + (inFlight d + 0) ≤ left d + 6
    omega
  | @mountFails first item e hscreens hfirebase =>
    -- the check of the card goes on after the exception
    have hnew := inFlight_newComponent d
    have hless := inFlight_le_left d
    show 0 + (inFlight d.newComponent + 0) ≤ left d + 6
    omega
  | @mountPage first item user doc hscreens hid hfirebase =>
    -- four steps for the check, two for the lookup
    have hshown := left_display_le d.newComponent
      ⟨first, some (Page.mount d.nextKey (onPress item) Reviews.State.mounted doc)⟩
    have hnew := inFlight_newComponent d
    rw [left_of_ok hscreens]
    simp only [screensLeft, Option.bind_some, Option.bind_none, Page.mount, lookupLeft, isBackground,
      Bool.toNat_false, starts] at hshown ⊢
    omega
  | @pressAgain first p item hscreens =>
    -- the mounted page keeps its lookup
    have hshown := left_display_le d ⟨first, some (p.update (onPress item))⟩
    rw [left_of_ok hscreens]
    simp only [screensLeft, Option.bind_some, Page.update, isBackground, Bool.toNat_false,
      starts] at hshown ⊢
    omega
  | @page first p p' e hscreens hstep =>
    have hshown := left_display_le { d with known := d.known ++ p.learns db e } ⟨first, some p'⟩
    have hpage := lookupLeft_of_step hstep
    have hknown : inFlight { d with known := d.known ++ p.learns db e } = inFlight d := rfl
    rw [left_of_ok hscreens]
    simp only [screensLeft, Option.bind_some, starts] at hshown ⊢
    omega
  | @formFails first p count e hscreens hform hid =>
    have hless := inFlight_le_left d
    show 0 + (inFlight d + 0) ≤ left d + 4
    omega
  | @openForm first p count hscreens hform hid =>
    have hshown := left_display_le d.newComponent ⟨first, some { p with
      form := some ⟨d.nextKey, ReviewSubmissionScreen.Mounted.mount
        (Reviews.onFinishRating p.params.title count)⟩ }⟩
    have hnew := inFlight_newComponent d
    rw [left_of_ok hscreens]
    simp only [screensLeft, Option.bind_some, isBackground, Bool.toNat_false, starts] at hshown ⊢
    omega
  | @tapAgain first p f count hscreens hform =>
    have hshown := left_display_le d ⟨first, some { p with
      form := some (f.update (Reviews.onFinishRating p.params.title count)) }⟩
    rw [left_of_ok hscreens]
    simp only [screensLeft, Option.bind_some, isBackground, Bool.toNat_false, starts] at hshown ⊢
    omega
  | @form first p f f' e hscreens hform hstep =>
    have hshown := left_display_le d ⟨first, some { p with form := some f' }⟩
    rw [left_of_ok hscreens]
    simp only [screensLeft, Option.bind_some, isBackground, Bool.toNat_false, starts] at hshown ⊢
    omega
  | @submitFails first p f now e hscreens hform hsubmit =>
    -- what the screens had to go is gone with them
    have hless := inFlight_le_left d
    show 0 + (inFlight d + 0) ≤ left d + 2
    omega
  | @submit first p f now write hscreens hform hsubmit =>
    have hsent : left { d with
        sets := d.sets ++ [⟨f.key, write, false⟩], known := d.known ++ [write] } = left d + 2 := by
      simp only [left, inFlight, List.map_append, List.sum_append]
      show _ + (_ + 2) + _ = _
      omega
    rw [hsent]
    exact (Nat.zero_add _).le
  | @commit i key write hset =>
    -- of its two steps the `set` has one to go
    have hless := inFlight_set hset ⟨key, write, true⟩
    have hsame := @left_of_screens d { d with sets := d.sets.set i ⟨key, write, true⟩ } rfl
    simp only [setLeft, if_true, Bool.false_eq_true, if_false] at hless
    simp only [isBackground, Bool.toNat_true, starts]
    omega
  | @resolve i key write s hset hscreens =>
    have hshown := left_display_le { d with sets := d.sets.eraseIdx i }
      { s with page := s.page.map fun p => p.closeForm key }
    have hless := inFlight_eraseSet hset
    have hsame : screensLeft { s with page := s.page.map fun p => p.closeForm key } =
        screensLeft s := by
      obtain ⟨first, _ | p⟩ := s <;> rfl
    rw [left_of_ok hscreens]
    simp only [setLeft, if_true, isBackground, Bool.toNat_true, starts] at hless ⊢
    omega
  | @resolveUnseen i key write e hset hscreens =>
    have hless := inFlight_eraseSet hset
    have hsame := @left_of_screens d { d with sets := d.sets.eraseIdx i } rfl
    simp only [setLeft, if_true] at hless
    simp only [isBackground, Bool.toNat_true, starts]
    omega
  | @reject i key write reason hset =>
    -- a `set` that is refused has had both at once
    have hless := inFlight_eraseSet hset
    have hsame : left _ + inFlight d = left d + inFlight { d with sets := d.sets.eraseIdx i } :=
      @left_of_screens d { d with sets := d.sets.eraseIdx i, alerts := d.alerts ++ [.rejected reason] }
        rfl
    simp only [setLeft, Bool.false_eq_true, if_false] at hless
    simp only [isBackground, Bool.toNat_true, starts]
    omega
  | @pressSignIn owner =>
    have hpush := inFlight_push d owner (.signIn .awaitHasPlayServices)
    have hsame := @left_of_screens d (d.push owner (.signIn .awaitHasPlayServices)) rfl
    simp only [callLeft, signInLeft] at hpush
    simp only [isBackground, Bool.toNat_false, starts]
    omega
  | @pressSignOut first p f =>
    have hpush := inFlight_push d f.key (.signOut .awaitRevokeAccess)
    have hsame := @left_of_screens d (d.push f.key (.signOut .awaitRevokeAccess)) rfl
    simp only [callLeft, signOutLeft] at hpush
    simp only [isBackground, Bool.toNat_false, starts]
    omega
  | settle hr hauth hcall =>
    exact left_advance hr hcall
  | sessionEnds =>
    have hsame : left { d with sessions := { d.sessions with firebase := none } } = left d := rfl
    rw [hsame]
    exact (Nat.zero_add _).le
  | @goBack s hscreens =>
    -- a page that is left takes its lookup along
    have hshown := left_display_le d s.goBack
    have hless := screensLeft_goBack_le s
    rw [left_of_ok hscreens]
    simp only [isBackground, Bool.toNat_false, starts]
    omega

/-! ## At rest -/

variable (getDistance localeCompare userOf) in
/-- Something can go on by itself. -/
def GoesOn (d : App) (db : Store ReviewDoc) : Prop :=
  ∃ a, isBackground a = true ∧ (d.step getDistance localeCompare userOf db a).isSome = true

theorem goesOn_of_call {d : App} (h : d.calls ≠ []) (db : Store ReviewDoc) :
    GoesOn getDistance localeCompare userOf d db := by
  obtain ⟨r, calls, hcons⟩ := List.exists_cons_of_ne_nil h
  obtain ⟨o, x, hx⟩ := @exists_step_call userOf d.sessions
    ((d.auth r.owner).getD AuthState.initial) r.call
  have hfirst : d.calls[0]? = some r := by
    rw [hcons]
    rfl
  -- the first call in flight, whoever made it
  refine ⟨.settle 0 o, rfl, ?_⟩
  simp only [App.step, hfirst, Option.bind_some, hx, Option.map_some, Option.isSome_some]

/-- The server writes, or the promise resolves. -/
theorem goesOn_of_set {d : App} (h : d.sets ≠ []) (db : Store ReviewDoc) :
    GoesOn getDistance localeCompare userOf d db := by
  obtain ⟨⟨key, write, committed⟩, sets, hcons⟩ := List.exists_cons_of_ne_nil h
  have hfirst : d.sets[0]? = some ⟨key, write, committed⟩ := by
    rw [hcons]
    rfl
  cases committed with
  | false =>
    refine ⟨.set (.commit 0), rfl, ?_⟩
    simp only [App.step, App.setStep, hfirst, Option.isSome_some]
  | true =>
    refine ⟨.set (.resolve 0), rfl, ?_⟩
    cases hscreens : d.screens <;>
      simp only [App.step, App.setStep, hfirst, hscreens, Option.isSome_some]

theorem goesOn_of_request {d : App} {s : Screens} (hscreens : d.screens = .ok s)
    (h : listLeft s.first ≠ 0) (db : Store ReviewDoc) :
    GoesOn getDistance localeCompare userOf d db := by
  rw [Ne, listLeft_eq_zero_iff, not_and_or, Bool.not_eq_false, Bool.not_eq_false] at h
  rcases h with hposition | hquery
  · refine ⟨.first (.positionError 0 ""), rfl, ?_⟩
    simp only [App.step, hscreens, FirstScreen.Mounted.step, hposition, if_true, Option.map_some,
      Option.isSome_some]
  · refine ⟨.first (.queryError ""), rfl, ?_⟩
    simp only [App.step, hscreens, FirstScreen.Mounted.step, hquery, if_true, Option.map_some,
      Option.isSome_some]

theorem goesOn_of_lookup {d : App} {first : FirstScreen.Mounted} {p : Page} {lookup : PendingLookup}
    (hscreens : d.screens = .ok ⟨first, some p⟩) (h : p.lookup = some lookup)
    (db : Store ReviewDoc) : GoesOn getDistance localeCompare userOf d db := by
  have hpage := App.mountedPage_eq_some_iff.2 hscreens
  obtain ⟨doc, _ | found⟩ := lookup
  · refine ⟨.page .lookupRead, rfl, ?_⟩
    simp only [App.step, hpage, Option.bind_some, Page.step, h, Option.map_some, Option.isSome_some]
  · refine ⟨.page .lookupAnswer, rfl, ?_⟩
    simp only [App.step, hpage, Option.bind_some, Page.step, h, Option.map_some, Option.isSome_some]

/-- While the app is not at rest something can go on by itself. -/
theorem goesOn_of_not_atRest {d : App} (h : ¬ AtRest d) (db : Store ReviewDoc) :
    GoesOn getDistance localeCompare userOf d db := by
  by_contra hno
  apply h
  -- each part of being at rest, since otherwise that part could go on
  refine ⟨?_, ?_, ?_, ?_⟩
  · by_contra hcalls
    exact hno (goesOn_of_call hcalls db)
  · by_contra hsets
    exact hno (goesOn_of_set hsets db)
  · intro s hscreens
    by_contra hpending
    exact hno (goesOn_of_request hscreens (listLeft_eq_zero_iff.not.2 hpending) db)
  · rintro ⟨first, page⟩ p hscreens rfl
    by_contra hlookup
    obtain ⟨lookup, hsome⟩ := Option.ne_none_iff_exists'.1 hlookup
    exact hno (goesOn_of_lookup hscreens hsome db)

/-- What goes on by itself starts nothing. -/
theorem starts_background {a : Action} (h : isBackground a = true) : starts a = 0 := by
  cases a <;> first | rfl | cases h

end

/-! ## Many phones -/

section

variable {ι : Type u} [DecidableEq ι] {getDistance : Coords → Coords → ℚ → ℚ}
  {localeCompare : String → String → ℤ} {userOf : GoogleUser → User}

/-- What happens on the phone. -/
def onPhone (i : ι) (xs : List (ι × Action)) : List Action :=
  (xs.filter fun x => x.1 = i).map Prod.snd

theorem sum_onPhone (f : Action → ℕ) (i : ι) (xs : List (ι × Action)) :
    (xs.map fun x => if x.1 = i then f x.2 else 0).sum = ((onPhone i xs).map f).sum := by
  induction xs with
  | nil => rfl
  | cons x xs ih =>
    rw [List.map_cons, List.sum_cons, ih]
    by_cases hx : x.1 = i <;> simp [onPhone, hx]

theorem left_of_world_step (i : ι) (w : World ι) (x : ι × Action) (w' : World ι)
    (h : w.step getDistance localeCompare userOf x = some w') :
    (if x.1 = i then (isBackground x.2).toNat else 0) + left (w'.phone i) ≤
      left (w.phone i) + if x.1 = i then starts x.2 else 0 := by
  obtain ⟨j, a⟩ := x
  obtain ⟨d, hd, rfl⟩ := World.step_eq_some h
  by_cases hij : j = i
  · subst hij
    simp only [if_true, Function.update_self]
    exact left_of_step hd
  · simp only [hij, if_false, Function.update_of_ne (Ne.symm hij)]
    omega

/-- A phone that is not at rest can go on by itself, and has less to do then. -/
theorem exists_world_step {i : ι} {w : World ι} (h : ¬ AtRest (w.phone i)) :
    ∃ a w', isBackground a = true ∧ w.step getDistance localeCompare userOf (i, a) = some w' ∧
      left (w'.phone i) < left (w.phone i) := by
  obtain ⟨a, ha, hsome⟩ := @goesOn_of_not_atRest getDistance localeCompare userOf _ h w.db
  obtain ⟨d, hd⟩ := Option.isSome_iff_exists.1 hsome
  have hstep : w.step getDistance localeCompare userOf (i, a) =
      some ⟨commit ((w.phone i).posts a) w.db, Function.update w.phone i d⟩ := by
    rw [World.step, hd]
    rfl
  have hless := left_of_world_step i w (i, a) _ hstep
  rw [if_pos rfl, if_pos rfl, ha, starts_background ha, Bool.toNat_true] at hless
  exact ⟨a, _, ha, hstep, by omega⟩

theorem atRest_iff {i : ι} {w : World ι} :
    AtRest (w.phone i) ↔
      ∀ a, isBackground a = true → w.step getDistance localeCompare userOf (i, a) = none := by
  constructor
  · intro hrest a ha
    by_contra hsome
    obtain ⟨w', hstep⟩ := Option.ne_none_iff_exists'.1 hsome
    have hless := left_of_world_step i w (i, a) w' hstep
    rw [if_pos rfl, if_pos rfl, ha, starts_background ha, left_eq_zero_iff.2 hrest] at hless
    exact absurd hless (by simp)
  · intro hnone
    by_contra hrest
    obtain ⟨a, w', ha, hstep, -⟩ := exists_world_step hrest
    rw [hnone a ha] at hstep
    cases hstep

/-- In every run on any phones: at most so much goes on by itself on a phone as its user has started, and
the two requests of the list; it can only stop when nothing is in flight there any more but reads of
the details page; and it can always go on until then. -/
theorem background_bounded {db : Store ReviewDoc} {ss : ι → Sessions} {xs : List (ι × Action)}
    {w : World ι}
    (hrun : run (World.step getDistance localeCompare userOf) (World.start db ss) xs = some w)
    (i : ι) :
    (onPhone i xs).countP isBackground ≤ 2 + ((onPhone i xs).map starts).sum ∧
      (AtRest (w.phone i) ↔
        ∀ a, isBackground a = true → w.step getDistance localeCompare userOf (i, a) = none) ∧
      ∃ ys w', (∀ y ∈ ys, y.1 = i ∧ isBackground y.2 = true) ∧
        run (World.step getDistance localeCompare userOf) w ys = some w' ∧ AtRest (w'.phone i) := by
  refine ⟨?_, atRest_iff, ?_⟩
  · have hpaid := cost_add_le (left_of_world_step i) hrun
    rw [sum_onPhone (fun a => (isBackground a).toNat), sum_onPhone, sum_map_toNat] at hpaid
    have hstart : left ((World.start db ss).phone i) = 2 := rfl
    omega
  · -- any step of the phone by itself brings it nearer
    have hgoes : ∀ w : World ι, left (w.phone i) ≠ 0 → ∃ y w', (y.1 = i ∧ isBackground y.2 = true) ∧
        w.step getDistance localeCompare userOf y = some w' ∧
        left (w'.phone i) < left (w.phone i) := by
      intro w hne
      obtain ⟨a, w', ha, hstep, hless⟩ := exists_world_step (mt left_eq_zero_iff.2 hne)
      exact ⟨(i, a), w', ⟨rfl, ha⟩, hstep, hless⟩
    obtain ⟨ys, w', hys, hgo, hleft⟩ := exists_run_to_rest hgoes w
    exact ⟨ys, w', hys, hgo, left_eq_zero_iff.1 hleft⟩

end

/-- Ann has pressed Submit: ten steps went on by themselves, and the `set` is in flight. -/
theorem background_bounded_ann :
    ∃ w : World Unit,
      run (World.step (fun _ _ _ => 0) (fun _ _ => 0) fun user => ⟨user.id, some user.name, none⟩)
        (World.start ∅ fun _ => annsSessions) (annSubmits ()) = some w ∧
      (onPhone () (annSubmits ())).countP isBackground ≤
        2 + ((onPhone () (annSubmits ())).map starts).sum ∧
      (AtRest (w.phone ()) ↔
        ∀ a, isBackground a = true →
          w.step (fun _ _ _ => 0) (fun _ _ => 0) (fun user => ⟨user.id, some user.name, none⟩)
            ((), a) = none) ∧
      ∃ ys w', (∀ y ∈ ys, y.1 = () ∧ isBackground y.2 = true) ∧
        run (World.step (fun _ _ _ => 0) (fun _ _ => 0) fun user => ⟨user.id, some user.name, none⟩)
          w ys = some w' ∧ AtRest (w'.phone ()) := by
  have hrun : run (World.step (fun _ _ _ => 0) (fun _ _ => 0)
      fun user => ⟨user.id, some user.name, none⟩) (World.start ∅ fun _ : Unit => annsSessions)
      (annSubmits ()) = some _ := rfl
  exact ⟨_, hrun, background_bounded hrun ()⟩

end LetItGo.Properties.BackgroundWork
