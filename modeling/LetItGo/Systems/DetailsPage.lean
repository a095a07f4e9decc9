import LetItGo.Library.Runs
import LetItGo.Components.DetailsScreen

/-!
# The details page and its collection

The details page together with the collection it reads, which others write to. Reads are issued by
the page, take the collection as it is at some moment, and succeed or fail in any order.

`Page.succeeded` records the reads that have succeeded, with what each took. Nothing reads it; it is
there to say what the page shows (`Page.Shows`): what the read that was answered last took.
-/

set_option autoImplicit false

namespace LetItGo.Systems.DetailsPage

open LetItGo.Library.AsyncReads
open LetItGo.Library.Runs
open LetItGo.Components.DetailsScreen
open LetItGo.Components.ReviewSubmissionScreen (ReviewDoc)

/-- The collection's documents, the mounted page, and the reads that have succeeded, with their
numbers, in the order of their answers. -/
structure Page where
  content : List ReviewDoc
  details : Details
  succeeded : List (ℕ × List ReviewDoc)
  deriving DecidableEq

/-- The page when it has been opened. -/
def Page.mount (content : List ReviewDoc) : Page := ⟨content, Details.mount, []⟩

inductive Action where
  | openOverlay
  | closeOverlay
  /-- New parameters or a transition of the navigator. -/
  | navigationUpdate
  /-- The collection changes. -/
  | write (content : List ReviewDoc)
  /-- The outstanding read at position `i` takes the collection as it is. -/
  | take (i : ℕ)
  /-- It succeeds. -/
  | succeed (i : ℕ)
  /-- It fails. -/
  | fail (i : ℕ)
  deriving DecidableEq

def Page.step (p : Page) : Action → Option Page
  | .openOverlay => some { p with details := p.details.openOverlay }
  | .closeOverlay => some { p with details := p.details.closeOverlay }
  | .navigationUpdate => some { p with details := p.details.navigationUpdate }
  | .write content => some { p with content }
  | .take i => (p.details.take i p.content).map fun details => { p with details }
  | .succeed i =>
    (p.details.succeed i).map fun x =>
      { p with details := x.2.2, succeeded := p.succeeded ++ [(x.1, x.2.1)] }
  | .fail i => (p.details.fail i).map fun details => { p with details }

/-- An update caused by the user or by the navigator. -/
def Action.isExternal : Action → Bool
  | .openOverlay => true
  | .closeOverlay => true
  | .navigationUpdate => true
  | _ => false

/-! ## What a step does -/

/-- The steps by what they do: an update from outside leaves the list and the average alone and
issues a read, a success sets both and issues a read, the others issue none. -/
inductive Page.Next (p : Page) : Action → Page → Prop where
  | update (a : Action) (st : State) : a.isExternal = true →
      st.reviews = p.details.state.reviews → st.avgRating = p.details.state.avgRating →
      Next p a { p with details := p.details.setState st }
  | write (content : List ReviewDoc) : Next p (.write content) { p with content }
  | take (i : ℕ) (reads : Reads (List ReviewDoc)) :
      p.details.reads.take i p.content = some reads →
      Next p (.take i) { p with details := { p.details with reads } }
  | succeed (i n : ℕ) (docs : List ReviewDoc) (reads : Reads (List ReviewDoc)) :
      p.details.reads.answer i = some (n, docs, reads) →
      Next p (.succeed i)
        { p with
          details := ⟨p.details.state.setReviews docs, reads.issue⟩
          succeeded := p.succeeded ++ [(n, docs)] }
  | fail (i : ℕ) (reads : Reads (List ReviewDoc)) : p.details.reads.fail i = some reads →
      Next p (.fail i) { p with details := { p.details with reads } }

theorem Page.next_of_step {p p' : Page} {a : Action} (hstep : p.step a = some p') :
    Page.Next p a p' := by
  cases a with
  | openOverlay =>
    cases hstep
    exact .update .openOverlay _ rfl rfl rfl
  | closeOverlay =>
    cases hstep
    exact .update .closeOverlay _ rfl rfl rfl
  | navigationUpdate =>
    cases hstep
    exact .update .navigationUpdate _ rfl rfl rfl
  | write content =>
    cases hstep
    exact .write content
  | take i =>
    obtain ⟨details, htake, rfl⟩ := Option.map_eq_some_iff.1 hstep
    obtain ⟨reads, hreads, rfl⟩ := Details.take_eq_some htake
    exact .take i reads hreads
  | succeed i =>
    obtain ⟨⟨n, docs, details⟩, hsucceed, rfl⟩ := Option.map_eq_some_iff.1 hstep
    obtain ⟨reads, hans, rfl⟩ := Details.succeed_eq_some hsucceed
    exact .succeed i n docs reads hans
  | fail i =>
    obtain ⟨details, hfail, rfl⟩ := Option.map_eq_some_iff.1 hstep
    obtain ⟨reads, hreads, rfl⟩ := Details.fail_eq_some hfail
    exact .fail i reads hreads

/-! ## What the page shows -/

/-- The list and the average are those of a read that took `docs`. -/
def Page.Shows (p : Page) (docs : List ReviewDoc) : Prop :=
  p.details.state.reviews = loadReviews docs ∧
    p.details.state.avgRating = some (averageRating (loadReviews docs))

/-- The page shows what the read answered last took, and nothing while no read has succeeded. -/
def Page.ShowsLast (p : Page) : Prop :=
  match p.succeeded.getLast? with
  | none => p.details.state.reviews = [] ∧ p.details.state.avgRating = none
  | some r => p.Shows r.2

theorem Page.showsLast_mount (content : List ReviewDoc) : (Page.mount content).ShowsLast :=
  ⟨rfl, rfl⟩

/-- Only a success changes the list or the average. -/
theorem Page.showsLast_step {p p' : Page} {a : Action} (h : p.ShowsLast)
    (hstep : p.step a = some p') : p'.ShowsLast := by
  cases Page.next_of_step hstep with
  | update a st ha hreviews havg =>
    unfold Page.ShowsLast Page.Shows at h ⊢
    rw [← hreviews, ← havg] at h
    exact h
  | succeed i n docs reads hans =>
    simp only [Page.ShowsLast, List.getLast?_concat]
    exact ⟨rfl, rfl⟩
  | write => exact h
  | take => exact h
  | fail => exact h

theorem Page.showsLast_run {content : List ReviewDoc} {as : List Action} {p : Page}
    (hrun : run Page.step (Page.mount content) as = some p) : p.ShowsLast :=
  run_invariant (fun _ _ _ h hstep => Page.showsLast_step h hstep) (Page.showsLast_mount content)
    hrun

/-! ## What the reads have taken -/

/-- The collection, everything taken by an outstanding read and everything a read succeeded with
satisfies `P`. -/
structure Page.Holds (P : List ReviewDoc → Prop) (p : Page) : Prop where
  content : P p.content
  reads : p.details.reads.Holds P
  succeeded : ∀ r ∈ p.succeeded, P r.2

/-- It stays so while `P` holds of what is written. -/
theorem Page.holds_step {P : List ReviewDoc → Prop} {p p' : Page} {a : Action} (h : p.Holds P)
    (hwrite : ∀ content, a = .write content → P content) (hstep : p.step a = some p') :
    p'.Holds P := by
  cases Page.next_of_step hstep with
  | update a st => exact ⟨h.content, h.reads.issue, h.succeeded⟩
  | write content => exact ⟨hwrite content rfl, h.reads, h.succeeded⟩
  | take i reads htake => exact ⟨h.content, h.reads.take h.content htake, h.succeeded⟩
  | succeed i n docs reads hans =>
    obtain ⟨hdocs, hreads⟩ := h.reads.answer hans
    refine ⟨h.content, hreads.issue, ?_⟩
    intro r hr
    rcases List.mem_append.1 hr with hr | hr
    · exact h.succeeded r hr
    · obtain rfl := List.mem_singleton.1 hr
      exact hdocs
  | fail i reads hfail => exact ⟨h.content, h.reads.fail hfail, h.succeeded⟩

/-- What reads take and succeed with is the collection as it was at first or as it was written in
the run. -/
theorem Page.holds_run {P : List ReviewDoc → Prop} {content : List ReviewDoc} {as : List Action}
    {p : Page} (hcontent : P content) (hwrites : ∀ c, Action.write c ∈ as → P c)
    (hrun : run Page.step (Page.mount content) as = some p) : p.Holds P := by
  refine run_guarded (c := fun _ a => ∀ content, a = .write content → P content)
    (fun _ _ _ h hwrite hstep => Page.holds_step h hwrite hstep) ⟨hcontent, ?_, ?_⟩ ?_ hrun
  · exact (Reads.holds_idle P).issue
  · intro r hr
    cases hr
  · apply everyStep_of_forall
    rintro _ a ha c rfl
    exact hwrites c ha

end LetItGo.Systems.DetailsPage
