import Mathlib.Data.Int.Cast.Lemmas
import LetItGo.Systems.DetailsPage

/-!
# Reads that issue reads

A successful read ends in a `setState`, which leads to `componentDidUpdate`, which issues the next
read. So the number of reads issued is one for the mounting, one for each update from outside, and
one for each success (`issued_run`), and only failures make the outstanding reads fewer
(`pending_run`). `readsSettle_iff` draws the consequence: a run keeps to one read for the mounting
and one for each update from outside exactly when no read of it succeeds.
-/

set_option autoImplicit false

namespace LetItGo.Properties.ReadLoop

open LetItGo.Library.AsyncReads
open LetItGo.Library.Runs
open LetItGo.Components.DetailsScreen
open LetItGo.Components.ReviewSubmissionScreen (ReviewDoc)
open LetItGo.Systems.DetailsPage

/-- A read succeeds. -/
def isSuccess : Action → Bool
  | .succeed _ => true
  | _ => false

/-- A read fails. -/
def isFailure : Action → Bool
  | .fail _ => true
  | _ => false

/-- The reads of a run settle: at every point of it, at most one read has been issued for the
mounting and one for each update from outside, and from a point on at which no update comes from
outside any more, no read is issued and each one that settles leaves one less outstanding. -/
def ReadsSettle (content : List ReviewDoc) (as : List Action) (p : Page) : Prop :=
  ∀ pre post m, as = pre ++ post → run Page.step (Page.mount content) pre = some m →
    m.details.reads.issued ≤ 1 + pre.countP Action.isExternal ∧
      (post.countP Action.isExternal = 0 →
        p.details.reads.issued = m.details.reads.issued ∧
          p.details.reads.pending.length + post.countP isSuccess + post.countP isFailure =
            m.details.reads.pending.length)

/-! ## What an action adds -/

/-- The reads that an action issues. -/
def issues (a : Action) : ℕ := a.isExternal.toNat + (isSuccess a).toNat

/-- What an action adds to the outstanding reads. -/
def leaves (a : Action) : ℤ := a.isExternal.toNat - (isFailure a).toNat

theorem sum_toNat_eq_countP (q : Action → Bool) (as : List Action) :
    (as.map fun a => (q a).toNat).sum = as.countP q := by
  induction as with
  | nil => rfl
  | cons a as ih =>
    rw [List.map_cons, List.sum_cons, ih, List.countP_cons]
    cases q a <;> simp [Nat.add_comm]

theorem sum_issues (as : List Action) :
    (as.map issues).sum = as.countP Action.isExternal + as.countP isSuccess := by
  rw [← sum_toNat_eq_countP, ← sum_toNat_eq_countP, ← List.sum_map_add]
  rfl

theorem sum_leaves (as : List Action) :
    (as.map leaves).sum = as.countP Action.isExternal - as.countP isFailure := by
  induction as with
  | nil => rfl
  | cons a as ih =>
    rw [List.map_cons, List.sum_cons, ih, List.countP_cons, List.countP_cons]
    cases a <;> simp [leaves, Action.isExternal, isFailure] <;> omega

theorem counts_step {p p' : Page} {a : Action} (hstep : p.step a = some p') :
    p'.details.reads.issued = p.details.reads.issued + issues a ∧
      (p'.details.reads.pending.length : ℤ) = p.details.reads.pending.length + leaves a := by
  cases Page.next_of_step hstep with
  | update a st ha =>
    have hother : isSuccess a = false ∧ isFailure a = false := by
      cases a <;> first | exact ⟨rfl, rfl⟩ | cases ha
    obtain ⟨hissued, hpending⟩ := p.details.reads.issue_counts
    simp [issues, leaves, ha, hother, Details.setState, hissued, hpending]
  | write content => simp [issues, leaves, Action.isExternal, isSuccess, isFailure]
  | take i reads htake =>
    obtain ⟨hissued, hpending⟩ := Reads.take_counts htake
    simp [issues, leaves, Action.isExternal, isSuccess, isFailure, hissued, hpending]
  | succeed i n docs reads hans =>
    -- the answered read goes, and the update after the `setState` issues one
    obtain ⟨hanswered, hleft⟩ := Reads.answer_counts hans
    obtain ⟨hissued, hpending⟩ := reads.issue_counts
    simp [issues, leaves, Action.isExternal, isSuccess, isFailure, hissued, hpending, hanswered,
      ← hleft]
  | fail i reads hfail =>
    obtain ⟨hissued, hpending⟩ := Reads.fail_counts hfail
    simp [issues, leaves, Action.isExternal, isSuccess, isFailure, hissued, ← hpending]

/-! ## Along a run -/

theorem issued_run {p p' : Page} {as : List Action} (hrun : run Page.step p as = some p') :
    p'.details.reads.issued =
      p.details.reads.issued + (as.countP Action.isExternal + as.countP isSuccess) := by
  have hstep : ∀ p a p', Page.step p a = some p' →
      p'.details.reads.issued = p.details.reads.issued + issues a :=
    fun _ _ _ h => (counts_step h).1
  rw [← sum_issues]
  exact run_weight (m := fun p : Page => p.details.reads.issued) hstep hrun

theorem pending_run {p p' : Page} {as : List Action} (hrun : run Page.step p as = some p') :
    p'.details.reads.pending.length + as.countP isFailure =
      p.details.reads.pending.length + as.countP Action.isExternal := by
  have hstep : ∀ p a p', Page.step p a = some p' →
      (p'.details.reads.pending.length : ℤ) = p.details.reads.pending.length + leaves a :=
    fun _ _ _ h => (counts_step h).2
  have hweight := run_weight (m := fun p : Page => (p.details.reads.pending.length : ℤ)) hstep hrun
  rw [sum_leaves] at hweight
  omega

/-- The reads of a run settle if and only if no read of it succeeds. -/
theorem readsSettle_iff {content : List ReviewDoc} {as : List Action} {p : Page}
    (hrun : run Page.step (Page.mount content) as = some p) :
    ReadsSettle content as p ↔ as.countP isSuccess = 0 := by
  have hmount : (Page.mount content).details.reads.issued = 1 := rfl
  constructor
  · -- the bound at the end of the run leaves no room for a success
    intro h
    obtain ⟨hbound, -⟩ := h as [] p (List.append_nil as).symm hrun
    have hissued := issued_run hrun
    omega
  · rintro hnone pre post m rfl hpre
    rw [List.countP_append] at hnone
    have hissued := issued_run hpre
    refine ⟨by omega, fun hquiet => ?_⟩
    obtain ⟨m', hm', hpost⟩ := run_append_iff.1 hrun
    rw [hpre] at hm'
    cases hm'
    have hissued' := issued_run hpost
    have hpending' := pending_run hpost
    omega

/-- The one read of the mounting fails, and so does the one that the overlay causes. -/
theorem readsSettle_failing :
    ∃ p, run Page.step (Page.mount []) [.openOverlay, .fail 0, .fail 0] = some p ∧
      ReadsSettle [] [.openOverlay, .fail 0, .fail 0] p :=
  ⟨_, rfl, (@readsSettle_iff [] [.openOverlay, .fail 0, .fail 0] _ rfl).2 rfl⟩

/-- The read of the mounting succeeds: with no update from outside, a second read is issued, and one
is still outstanding. -/
theorem success_issues_read :
    ∃ p, run Page.step (Page.mount []) [.take 0, .succeed 0] = some p ∧
      p.details.reads.issued = 2 ∧ p.details.reads.pending.length = 1 ∧
      ¬ ReadsSettle [] [.take 0, .succeed 0] p := by
  refine ⟨_, rfl, rfl, rfl, ?_⟩
  intro h
  obtain ⟨hbound, -⟩ := h [.take 0, .succeed 0] [] _ rfl rfl
  exact absurd hbound (by decide)

end LetItGo.Properties.ReadLoop
