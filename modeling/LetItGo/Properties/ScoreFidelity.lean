import LetItGo.Library.Runs
import LetItGo.Components.Reviews

/-!
# From the first star to the stored score

A tap on the `n`-th star of 'Rate n Review' opens the submission screen with `count = n`, which
becomes the default of the star widget there, not the screen's `rating`. `submitReview` stores
`rating`, or 3 while there is none. The widget keeps a tap as long as the form stays on screen; a
form that disappears and appears again has a new widget, while `rating` keeps the last tap.

`score_eq_shown_iff` says when the score stored is the rating shown: a star was tapped since the
form appeared, or the last tap before that, 3 without one, happens to be `n`.
-/

set_option autoImplicit false

namespace LetItGo.Properties.ScoreFidelity

open LetItGo.Library.Js
open LetItGo.Library.Runs
open LetItGo.Library.DocumentStore
open LetItGo.Components.SignIn
open LetItGo.Components.ReviewSubmissionScreen
open LetItGo.Components.Reviews (onFinishRating)

/-- What a sequence of events did to the stars: the last star tapped, and whether a star was tapped
since the sign-in check last answered that nobody is signed in, which takes the form away. -/
structure Taps where
  last : Option ℕ
  sinceShown : Bool
  deriving DecidableEq, Repr

def Taps.note (t : Taps) : Event → Taps
  | .tapStar k => ⟨some k.val, true⟩
  | .finishCheck false => { t with sinceShown := false }
  | _ => t

def taps (es : List Event) : Taps := es.foldl Taps.note ⟨none, false⟩

/-- The form is on screen. -/
def formShown (st : State) : Bool := st.auth.isUserSignedIn && st.auth.userInfo.isSome

/-- The screen after events with the taps `t`. -/
structure Tracks (n : ℕ) (m : Mounted) (t : Taps) : Prop where
  count : m.params.count = some n
  rating : m.state.rating = t.last
  star : ∃ k : Option Star, t.last = k.map Star.val
  tapped : t.sinceShown = true → t.last ≠ none
  shown : m.stars.isSome = formShown m.state
  hidden : m.stars = none → t.sinceShown = false
  widget : ∀ w, m.stars = some w →
    w.defaultRating = n ∧ w.tapped = if t.sinceShown then t.last else none

/-! ## One event -/

theorem setState_stars (m : Mounted) (st : State) :
    (m.setState st).stars =
      if formShown st then some (m.stars.getD ⟨m.params.count.getD 0, none⟩) else none := by
  cases hsigned : st.auth.isUserSignedIn <;> cases hinfo : st.auth.userInfo <;>
    simp [Mounted.setState, render, formShown, hsigned, hinfo]

/-- A `setState` that leaves the form where it is, or shows it, or comes when no star was tapped
since it appeared. -/
theorem tracks_setState {n : ℕ} {m : Mounted} {t : Taps} {st : State}
    (hcount : m.params.count = some n) (hrating : st.rating = t.last)
    (hstar : ∃ k : Option Star, t.last = k.map Star.val)
    (htapped : t.sinceShown = true → t.last ≠ none)
    (hhidden : m.stars = none → t.sinceShown = false)
    (hwidget : ∀ w, m.stars = some w →
      w.defaultRating = n ∧ w.tapped = if t.sinceShown then t.last else none)
    (hkeep : formShown st = false → t.sinceShown = false) : Tracks n (m.setState st) t where
  count := hcount
  rating := hrating
  star := hstar
  tapped := htapped
  shown := by
    show (m.setState st).stars.isSome = formShown st
    rw [setState_stars]
    cases formShown st <;> rfl
  hidden := by
    intro hnone
    rw [setState_stars] at hnone
    cases hform : formShown st with
    | false => exact hkeep hform
    | true => simp [hform] at hnone
  widget := by
    intro w hw
    rw [setState_stars] at hw
    cases hform : formShown st with
    | false => simp [hform] at hw
    | true =>
      simp only [hform, if_true, Option.some.injEq] at hw
      cases hstars : m.stars with
      | none =>
        -- a new widget: it shows the default, and nothing was tapped since it appeared
        rw [hstars, hcount] at hw
        subst hw
        simp [hhidden hstars]
      | some w' =>
        rw [hstars] at hw
        subst hw
        exact hwidget w' hstars

theorem tracks_step {n : ℕ} {m m' : Mounted} {t : Taps} {e : Event} (h : Tracks n m t)
    (hstep : m.step e = some m') : Tracks n m' (t.note e) := by
  -- a `setState` that keeps a form that is shown loses no tap
  have hlost : ∀ st : State, (formShown m.state = true → formShown st = true) →
      formShown st = false → t.sinceShown = false := by
    intro st hmono hform
    apply h.hidden
    rw [← Option.not_isSome_iff_eq_none, h.shown]
    intro hshown
    rw [hmono hshown] at hform
    cases hform
  cases e with
  | setUserInfo info =>
    cases hstep
    refine tracks_setState h.count h.rating h.star h.tapped h.hidden h.widget (hlost _ ?_)
    simp only [formShown, AuthState.setUserInfo, Bool.and_eq_true]
    exact fun hs => ⟨hs.1, rfl⟩
  | finishCheck b =>
    cases hstep
    cases b with
    | true =>
      refine tracks_setState h.count h.rating h.star h.tapped h.hidden h.widget (hlost _ ?_)
      simp only [formShown, AuthState.finishCheck, Bool.and_eq_true]
      exact fun hs => ⟨trivial, hs.2⟩
    | false =>
      -- the form is gone, whatever was tapped in it
      constructor
      case count => exact h.count
      case rating => exact h.rating
      case star => exact h.star
      case tapped => simp [Taps.note]
      case shown =>
        rw [setState_stars]
        rfl
      case hidden => simp [Taps.note]
      case widget => simp [setState_stars, formShown, AuthState.finishCheck]
  | setSignedIn info =>
    -- the form is there after it, whether it was before or not
    cases hstep
    refine tracks_setState h.count h.rating h.star h.tapped h.hidden h.widget (hlost _ ?_)
    intro _
    rfl
  | tapStar k =>
    simp only [Mounted.step] at hstep
    cases hstars : m.stars with
    | none => simp [hstars] at hstep
    | some w =>
      simp only [hstars, Option.some.injEq] at hstep
      subst hstep
      have hform : formShown m.state = true := by rw [← h.shown, hstars]; rfl
      have hdefault : w.defaultRating = n := (h.widget w hstars).1
      refine tracks_setState h.count rfl ⟨some k, rfl⟩ (by simp [Taps.note]) (by simp) ?_ ?_
      · intro w' hw'
        cases hw'
        exact ⟨hdefault, rfl⟩
      · intro hgone
        have hsame : formShown { m.state with rating := some k.val } = formShown m.state := rfl
        rw [hsame, hform] at hgone
        cases hgone
  | editText text =>
    simp only [Mounted.step] at hstep
    cases hstars : m.stars with
    | none => simp [hstars] at hstep
    | some w =>
      simp only [hstars, Option.some.injEq] at hstep
      subst hstep
      exact tracks_setState h.count h.rating h.star h.tapped h.hidden h.widget
        (hlost _ fun hs => hs)

/-! ## A whole visit -/

theorem tracks_run {n : ℕ} {es : List Event} :
    ∀ {m m' : Mounted} {t : Taps}, Tracks n m t → run Mounted.step m es = some m' →
      Tracks n m' (es.foldl Taps.note t) := by
  induction es with
  | nil =>
    intro m m' t h hrun
    cases hrun
    exact h
  | cons e es ih =>
    intro m m' t h hrun
    obtain ⟨m₁, hstep, hrest⟩ := run_cons_iff.1 hrun
    exact ih (tracks_step h hstep) hrest

theorem tracks_mount (title : Option String) (n : Star) :
    Tracks n.val (Mounted.mount (onFinishRating title n)) ⟨none, false⟩ where
  count := rfl
  rating := rfl
  star := ⟨none, rfl⟩
  tapped := by simp
  shown := rfl
  hidden := fun _ => rfl
  widget := by
    intro w hw
    cases hw

/-- A press of Submit that writes comes from a form on screen and stores the rating, or 3. -/
theorem pressSubmit_score {n : ℕ} {m : Mounted} {t : Taps} (h : Tracks n m t)
    {user : Option User} {now : Timestamp} {doc : DocRef × ReviewDoc}
    (hpress : m.pressSubmit user now = some (.ok doc)) :
    formShown m.state = true ∧ doc.2.review.score = t.last.getD 3 := by
  obtain ⟨k, hk⟩ := h.star
  simp only [Mounted.pressSubmit] at hpress
  cases hsigned : m.state.auth.isUserSignedIn with
  | false => simp [render, hsigned] at hpress
  | true =>
    cases hinfo : m.state.auth.userInfo with
    | none => simp [render, hsigned, hinfo] at hpress
    | some info =>
      refine ⟨by simp [formShown, hsigned, hinfo], ?_⟩
      split at hpress
      · obtain ⟨text, -, hsubmit⟩ := Option.map_eq_some_iff.1 hpress
        rw [h.rating, hk] at hsubmit
        rw [hk]
        exact submitReview_star hsubmit
      · cases hpress

/-- For every number `n` of stars tapped in 'Rate n Review' and every sequence of events on the
submission screen that ends with a press of Submit: the score stored is the rating the stars show,
which is the last star tapped on the screen, or `n`, if and only if a star was tapped since the form
appeared, or the last star tapped, 3 when there is none, is `n`. -/
theorem score_eq_shown_iff (title : Option String) (n : Star) (es : List Event)
    (user : Option User) (now : Timestamp) {m : Mounted} {doc : DocRef × ReviewDoc}
    (hrun : run Mounted.step (Mounted.mount (onFinishRating title n)) es = some m)
    (hpress : m.pressSubmit user now = some (.ok doc)) :
    (m.starsShown = some doc.2.review.score ∧
        m.starsShown = some ((taps es).last.getD n.val)) ↔
      ((taps es).sinceShown = true ∨ (taps es).last.getD 3 = n.val) := by
  have h : Tracks n.val m (taps es) := tracks_run (tracks_mount title n) hrun
  obtain ⟨hform, hscore⟩ := pressSubmit_score h hpress
  obtain ⟨w, hw⟩ : ∃ w, m.stars = some w := Option.isSome_iff_exists.1 (h.shown.trans hform)
  obtain ⟨hdefault, htapped⟩ := h.widget w hw
  have hshown : m.starsShown = some ((if (taps es).sinceShown then (taps es).last else none).getD
      n.val) := by
    rw [Mounted.starsShown, hw, Option.map_some, AirbnbRating.shown, hdefault, htapped]
  rw [hshown, hscore]
  cases hsince : (taps es).sinceShown with
  | true =>
    -- the widget and `state.rating` have the same tap
    cases hlast : (taps es).last with
    | none => exact absurd hlast (h.tapped hsince)
    | some k => simp
  | false =>
    -- the widget shows its default
    cases hlast : (taps es).last with
    | none => simp [eq_comm]
    | some k =>
      simp only [Bool.false_eq_true, if_false, Option.getD_none, Option.getD_some,
        Option.some.injEq, false_or]
      constructor
      · rintro ⟨hk, -⟩
        exact hk.symm
      · intro hk
        exact ⟨hk.symm, hk.symm⟩

/-- Two stars in 'Rate n Review', then four on the submission screen: four are shown and stored. -/
theorem score_eq_shown_tapped :
    ∃ m doc,
      run Mounted.step (Mounted.mount (onFinishRating (some "COM1") ⟨2, by decide, by decide⟩))
        [.setSignedIn ⟨⟨"1", "Ann", "ann.jpg"⟩⟩, .tapStar ⟨4, by decide, by decide⟩,
          .editText "clean"] = some m ∧
      m.pressSubmit (some ⟨"u1", none, none⟩) ⟨0, 0⟩ = some (.ok doc) ∧
      m.starsShown = some doc.2.review.score ∧ doc.2.review.score = 4 :=
  ⟨_, _, rfl, rfl, ((score_eq_shown_iff (some "COM1") ⟨2, by decide, by decide⟩
    [.setSignedIn ⟨⟨"1", "Ann", "ann.jpg"⟩⟩, .tapStar ⟨4, by decide, by decide⟩,
      .editText "clean"] (some ⟨"u1", none, none⟩) ⟨0, 0⟩ rfl rfl).2 (Or.inl rfl)).1, rfl⟩

/-- Five stars in 'Rate n Review' and none on the submission screen: five are shown, three are
stored. -/
theorem score_of_default_stars :
    ∃ m doc,
      run Mounted.step (Mounted.mount (onFinishRating (some "COM1") ⟨5, by decide, by decide⟩))
        [.setSignedIn ⟨⟨"1", "Ann", "ann.jpg"⟩⟩, .editText "clean"] = some m ∧
      m.pressSubmit (some ⟨"u1", none, none⟩) ⟨0, 0⟩ = some (.ok doc) ∧
      m.starsShown = some 5 ∧ doc.2.review.score = 3 :=
  ⟨_, _, rfl, rfl, rfl, rfl⟩

end LetItGo.Properties.ScoreFidelity
