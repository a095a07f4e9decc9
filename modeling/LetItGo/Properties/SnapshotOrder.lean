import LetItGo.Systems.DetailsPage

/-!
# Which read the page shows

Reads are neither numbered nor cancelled by the code, so a late answer replaces the list whatever it
took: the page always shows the read that was answered last. As long as the answers come in the
order of issue, that is the most recently issued read among those that have succeeded. It can still
have taken the collection before an earlier one did; only if the reads also take it in the order of
issue does the page never go back to an older snapshot.

`Dated` adds the moments to a run, a moment being the number of changes of the collection so far:
nothing in the code knows them.
-/

set_option autoImplicit false

namespace LetItGo.Properties.SnapshotOrder

open LetItGo.Library.AsyncReads
open LetItGo.Library.Runs
open LetItGo.Components.DetailsScreen (Details State)
open LetItGo.Components.ReviewSubmissionScreen (ReviewDoc)
open LetItGo.Systems.DetailsPage

/-- The page shows the most recently issued read among those that have succeeded. -/
def ShowsNewest (p : Page) : Prop :=
  ∀ r ∈ p.succeeded, (∀ r' ∈ p.succeeded, r'.1 ≤ r.1) → p.Shows r.2

/-- The condition on a step: a read that succeeds was issued after all that have succeeded before
it. -/
def inIssueOrder (p : Page) : Action → Bool
  | .succeed i =>
    match p.details.reads.pending[i]? with
    | some r => p.succeeded.all fun r' => r'.1 < r.number
    | none => true
  | _ => true

/-- The reads that have succeeded did so in the order of issue. -/
def Ordered (p : Page) : Prop := p.succeeded.Pairwise fun r r' => r.1 < r'.1

theorem ordered_step {p p' : Page} {a : Action} (h : Ordered p) (ha : inIssueOrder p a = true)
    (hstep : p.step a = some p') : Ordered p' := by
  cases Page.next_of_step hstep with
  | succeed i n docs reads hans =>
    obtain ⟨hpending, -⟩ := Reads.answer_eq_some hans
    simp only [inIssueOrder, hpending, List.all_eq_true, decide_eq_true_eq] at ha
    refine List.pairwise_append.2 ⟨h, List.pairwise_singleton _ _, ?_⟩
    intro r hr r' hr'
    obtain rfl := List.mem_singleton.1 hr'
    exact ha r hr
  | update => exact h
  | write => exact h
  | take => exact h
  | fail => exact h

/-- Where the reads succeed in order, the last one to succeed is the newest. -/
theorem showsNewest_of_ordered {p : Page} (hlast : p.ShowsLast) (h : Ordered p) :
    ShowsNewest p := by
  intro r hr hmax
  obtain ⟨pre, post, hsplit⟩ := List.append_of_mem hr
  -- nothing can have succeeded after `r`: its number would be larger
  have hpost : post = [] := by
    cases post with
    | nil => rfl
    | cons r' post =>
      rw [Ordered, hsplit] at h
      have hlt : r.1 < r'.1 :=
        List.rel_of_pairwise_cons (List.pairwise_append.1 h).2.1 List.mem_cons_self
      have hle : r'.1 ≤ r.1 := hmax r' (by simp [hsplit])
      omega
  rw [hpost] at hsplit
  simp only [Page.ShowsLast, hsplit, List.getLast?_concat] at hlast
  exact hlast

/-! ## Moments -/

/-- A page with what its collection held before each change, and for each read the moment at which it
has taken the collection. -/
structure Dated where
  page : Page
  past : List (List ReviewDoc)
  takenAt : ℕ → ℕ

namespace Dated

def mount (content : List ReviewDoc) : Dated := ⟨Page.mount content, [], fun _ => 0⟩

/-- What the collection held at each moment so far, the present one last. -/
def contents (d : Dated) : List (List ReviewDoc) := d.past ++ [d.page.content]

def date (d : Dated) : Action → Page → Dated
  | .write _, page => ⟨page, d.contents, d.takenAt⟩
  | .take i, page =>
    match d.page.details.reads.pending[i]? with
    | some r => ⟨page, d.past, Function.update d.takenAt r.number d.past.length⟩
    | none => ⟨page, d.past, d.takenAt⟩
  | _, page => ⟨page, d.past, d.takenAt⟩

def step (d : Dated) (a : Action) : Option Dated := (d.page.step a).map (d.date a)

@[simp] theorem page_date (d : Dated) (a : Action) (page : Page) : (d.date a page).page = page := by
  cases a with
  | take i =>
    simp only [date]
    split <;> rfl
  | _ => rfl

/-- The outstanding reads that have taken the collection and those that have succeeded, with what
they took. -/
def Took (d : Dated) (n : ℕ) (docs : List ReviewDoc) : Prop :=
  (n, docs) ∈ d.page.succeeded ∨ ⟨n, some docs⟩ ∈ d.page.details.reads.pending

/-- The page has never gone back: what it has shown, one after the other, is what the collection held
at the moments of the reads, and no moment comes before an earlier one. -/
structure NeverBack (d : Dated) : Prop where
  held : ∀ r ∈ d.page.succeeded, d.contents[d.takenAt r.1]? = some r.2
  forward : d.page.succeeded.Pairwise fun r r' => d.takenAt r.1 ≤ d.takenAt r'.1

end Dated

/-- The condition on a step: a read that takes the collection was issued after all outstanding reads
that have taken it before. -/
def inTakeOrder (p : Page) : Action → Bool
  | .take i =>
    match p.details.reads.pending[i]? with
    | some r => p.details.reads.pending.all fun r' => r'.taken.isNone || r'.number < r.number
    | none => true
  | _ => true

namespace Dated

/-- What a read has taken is what the collection held at its moment, no outstanding read has taken it
before one that was issued earlier, and no success has gone back. -/
structure Inv (d : Dated) : Prop where
  pending : d.page.details.reads.InOrder
  fresh : ∀ r ∈ d.page.succeeded, r.1 < d.page.details.reads.issued ∧
    r.1 ∉ d.page.details.reads.numbers
  held : ∀ n docs, d.Took n docs → d.contents[d.takenAt n]? = some docs
  follow : ∀ n docs n' docs', d.Took n docs → ⟨n', some docs'⟩ ∈ d.page.details.reads.pending →
    n < n' → d.takenAt n ≤ d.takenAt n'
  forward : d.page.succeeded.Pairwise fun r r' => d.takenAt r.1 ≤ d.takenAt r'.1

variable {d : Dated}

theorem Inv.neverBack (h : d.Inv) : d.NeverBack :=
  ⟨fun r hr => h.held r.1 r.2 (Or.inl hr), h.forward⟩

theorem inv_mount (content : List ReviewDoc) : (mount content).Inv := by
  -- the one read outstanding has taken nothing
  have hnone : ∀ n docs, ⟨n, some docs⟩ ∉ (mount content).page.details.reads.pending := by
    intro n docs hmem
    have heq := List.mem_singleton.1 hmem
    cases heq
  refine ⟨Reads.inOrder_idle.issue, ?_, ?_, ?_, List.Pairwise.nil⟩
  · intro r hr
    cases hr
  · rintro n docs (hmem | hmem)
    · cases hmem
    · exact absurd hmem (hnone n docs)
  · intro n docs n' docs' _ hmem
    exact absurd hmem (hnone n' docs')

/-- Nothing is taken at a moment that has not come. -/
theorem Inv.takenAt_le (h : d.Inv) {n : ℕ} {docs : List ReviewDoc} (htook : d.Took n docs) :
    d.takenAt n ≤ d.past.length := by
  obtain ⟨hlt, -⟩ := List.getElem?_eq_some_iff.1 (h.held n docs htook)
  simpa [contents, Nat.lt_succ_iff] using hlt

/-- Where nothing more has been taken, and nothing more has succeeded, the invariant stays. -/
theorem Inv.of_pending (h : d.Inv) {details : Details}
    (hreads : details.reads.InOrder) (hissued : d.page.details.reads.issued ≤ details.reads.issued)
    (hnumbers : ∀ n ∈ details.reads.numbers, n ∈ d.page.details.reads.numbers ∨
      n = d.page.details.reads.issued)
    (htaken : ∀ n docs, ⟨n, some docs⟩ ∈ details.reads.pending →
      ⟨n, some docs⟩ ∈ d.page.details.reads.pending) :
    (⟨{ d.page with details }, d.past, d.takenAt⟩ : Dated).Inv where
  pending := hreads
  fresh := by
    intro r hr
    obtain ⟨hlt, hnot⟩ := h.fresh r hr
    refine ⟨hlt.trans_le hissued, fun hmem => ?_⟩
    rcases hnumbers r.1 hmem with hmem | heq
    · exact hnot hmem
    · exact absurd heq hlt.ne
  held := fun n docs hn => h.held n docs (hn.imp_right (htaken n docs))
  follow := fun n docs n' docs' hn hn' =>
    h.follow n docs n' docs' (hn.imp_right (htaken n docs)) (htaken n' docs' hn')
  forward := h.forward

theorem mem_numbers {r : Reads (List ReviewDoc)} {n : ℕ} {taken : Option (List ReviewDoc)}
    (h : ⟨n, taken⟩ ∈ r.pending) : n ∈ r.numbers :=
  List.mem_map.2 ⟨_, h, rfl⟩

/-- An update issues a read. -/
theorem Inv.issue (h : d.Inv) (st : State) :
    (⟨{ d.page with details := d.page.details.setState st }, d.past, d.takenAt⟩ : Dated).Inv := by
  refine h.of_pending h.pending.issue (Nat.le_succ _) ?_ ?_
  · intro n hn
    obtain ⟨r, hr, rfl⟩ := List.mem_map.1 hn
    rcases List.mem_append.1 hr with hr | hr
    · exact Or.inl (mem_numbers hr)
    · rw [List.mem_singleton.1 hr]
      exact Or.inr rfl
  · intro n docs hmem
    rcases List.mem_append.1 hmem with hmem | hmem
    · exact hmem
    · cases List.mem_singleton.1 hmem

theorem Inv.write (h : d.Inv) (content : List ReviewDoc) :
    (⟨{ d.page with content }, d.contents, d.takenAt⟩ : Dated).Inv where
  pending := h.pending
  fresh := h.fresh
  held := by
    intro n docs hn
    have hheld := h.held n docs hn
    obtain ⟨hlt, -⟩ := List.getElem?_eq_some_iff.1 hheld
    rw [contents, List.getElem?_append_left hlt]
    exact hheld
  follow := h.follow
  forward := h.forward

/-- A read that takes the collection takes it at the present moment. -/
theorem Inv.take (h : d.Inv) {i n : ℕ} {reads : Reads (List ReviewDoc)}
    (hn : d.page.details.reads.pending[i]? = some ⟨n, none⟩)
    (htake : d.page.details.reads.take i d.page.content = some reads)
    (horder : ∀ r ∈ d.page.details.reads.pending, r.taken.isNone = true ∨ r.number < n) :
    (⟨{ d.page with details := { d.page.details with reads } }, d.past,
      Function.update d.takenAt n d.past.length⟩ : Dated).Inv := by
  obtain ⟨m, hm, hreads⟩ := Reads.take_eq_some htake
  rw [hn] at hm
  cases hm
  have hsucceeded : ∀ r ∈ d.page.succeeded, r.1 ≠ n := by
    intro r hr heq
    exact (h.fresh r hr).2 (heq ▸ mem_numbers (List.mem_of_getElem? hn))
  -- what is outstanding and has taken something did so before, with a smaller number, or just now
  have hpending : ∀ m docs, ⟨m, some docs⟩ ∈ reads.pending →
      (m < n ∧ ⟨m, some docs⟩ ∈ d.page.details.reads.pending) ∨
        (m = n ∧ docs = d.page.content) := by
    intro m docs hmem
    rw [hreads] at hmem
    rcases List.mem_or_eq_of_mem_set hmem with hmem | heq
    · exact Or.inl ⟨by simpa using horder _ hmem, hmem⟩
    · cases heq
      exact Or.inr ⟨rfl, rfl⟩
  have htook : ∀ m docs, (m, docs) ∈ d.page.succeeded ∨ ⟨m, some docs⟩ ∈ reads.pending →
      (m ≠ n ∧ d.Took m docs) ∨ (m = n ∧ docs = d.page.content) := by
    rintro m docs (hmem | hmem)
    · exact Or.inl ⟨hsucceeded _ hmem, Or.inl hmem⟩
    · rcases hpending m docs hmem with ⟨hlt, hmem⟩ | hnow
      · exact Or.inl ⟨hlt.ne, Or.inr hmem⟩
      · exact Or.inr hnow
  refine ⟨h.pending.take htake, ?_, ?_, ?_, ?_⟩
  · intro r hr
    simp only [Reads.take_numbers htake, (Reads.take_counts htake).1]
    exact h.fresh r hr
  · intro m docs hm
    rcases htook m docs hm with ⟨hne, hm⟩ | ⟨rfl, rfl⟩
    · simp only [Function.update_of_ne hne]
      exact h.held m docs hm
    · simp [contents]
  · intro m docs m' docs' hm hm' hlt
    rcases hpending m' docs' hm' with ⟨hlt', hm'⟩ | ⟨rfl, rfl⟩
    · rcases htook m docs hm with ⟨hne, hm⟩ | ⟨rfl, rfl⟩
      · simp only [Function.update_of_ne hne, Function.update_of_ne hlt'.ne]
        exact h.follow m docs m' docs' hm hm' hlt
      · exact absurd hlt hlt'.asymm
    · rcases htook m docs hm with ⟨hne, hm⟩ | ⟨rfl, rfl⟩
      · simp only [Function.update_of_ne hne, Function.update_self]
        exact h.takenAt_le hm
      · exact absurd hlt (lt_irrefl _)
  · refine h.forward.imp_of_mem fun {r r'} hr hr' hle => ?_
    simp only [Function.update_of_ne (hsucceeded r hr), Function.update_of_ne (hsucceeded r' hr')]
    exact hle

/-- A read that succeeds after all that were issued before it shows no earlier moment. -/
theorem Inv.succeed (h : d.Inv) {i n : ℕ} {docs : List ReviewDoc} {reads : Reads (List ReviewDoc)}
    (hans : d.page.details.reads.answer i = some (n, docs, reads))
    (horder : ∀ r ∈ d.page.succeeded, r.1 < n) :
    (⟨{ d.page with
        details := { d.page.details with reads }
        succeeded := d.page.succeeded ++ [(n, docs)] }, d.past, d.takenAt⟩ : Dated).Inv := by
  obtain ⟨hn, hreads⟩ := Reads.answer_eq_some hans
  obtain ⟨hleft, hlt, hnot⟩ := h.pending.answer hans
  have hmem : ∀ r ∈ reads.pending, r ∈ d.page.details.reads.pending := by
    rw [hreads]
    exact fun r hr => List.mem_of_mem_eraseIdx hr
  have htook : ∀ m docs', (m, docs') ∈ d.page.succeeded ++ [(n, docs)] ∨
      ⟨m, some docs'⟩ ∈ reads.pending → d.Took m docs' := by
    rintro m docs' (hsucc | hpend)
    · rcases List.mem_append.1 hsucc with hsucc | hsucc
      · exact Or.inl hsucc
      · cases List.mem_singleton.1 hsucc
        exact Or.inr (List.mem_of_getElem? hn)
    · exact Or.inr (hmem _ hpend)
  refine ⟨hleft, ?_, fun m docs' hm => h.held m docs' (htook m docs' hm),
    fun m docs' m' docs'' hm hm' => h.follow m docs' m' docs'' (htook m docs' hm) (hmem _ hm'), ?_⟩
  · intro r hr
    have hissued : reads.issued = d.page.details.reads.issued := (Reads.answer_counts hans).1
    rcases List.mem_append.1 hr with hr | hr
    · obtain ⟨hr, hno⟩ := h.fresh r hr
      refine ⟨hissued ▸ hr, fun hnum => hno ?_⟩
      rw [(Reads.answer_numbers hans).2] at hnum
      exact List.mem_of_mem_eraseIdx hnum
    · rw [List.mem_singleton.1 hr]
      exact ⟨hissued ▸ hlt, hnot⟩
  · refine List.pairwise_append.2 ⟨h.forward, List.pairwise_singleton _ _, ?_⟩
    intro r hr r' hr'
    rw [List.mem_singleton.1 hr']
    exact h.follow r.1 r.2 n docs (Or.inl hr) (List.mem_of_getElem? hn) (horder r hr)

theorem inv_step {d' : Dated} {a : Action} (h : d.Inv) (hissue : inIssueOrder d.page a = true)
    (htake : inTakeOrder d.page a = true) (hstep : d.step a = some d') : d'.Inv := by
  obtain ⟨page, hpage, rfl⟩ := Option.map_eq_some_iff.1 hstep
  cases Page.next_of_step hpage with
  | update a st ha =>
    have hdate : d.date a { d.page with details := d.page.details.setState st } =
        ⟨{ d.page with details := d.page.details.setState st }, d.past, d.takenAt⟩ := by
      cases a <;> first | rfl | cases ha
    rw [hdate]
    exact h.issue st
  | write content => exact h.write content
  | take i reads hreads =>
    obtain ⟨n, hn, -⟩ := Reads.take_eq_some hreads
    simp only [inTakeOrder, hn, List.all_eq_true, Bool.or_eq_true, decide_eq_true_eq] at htake
    simp only [date, hn]
    exact h.take hn hreads htake
  | succeed i n docs reads hans =>
    obtain ⟨hn, -⟩ := Reads.answer_eq_some hans
    simp only [inIssueOrder, hn, List.all_eq_true, decide_eq_true_eq] at hissue
    exact (h.succeed hans hissue).issue _
  | fail i reads hfail =>
    obtain ⟨-, hreads⟩ := Reads.fail_eq_some hfail
    refine h.of_pending (h.pending.fail hfail) (Reads.fail_counts hfail).1.ge ?_ ?_
    · intro n hn
      rw [Reads.fail_numbers hfail] at hn
      exact Or.inl (List.mem_of_mem_eraseIdx hn)
    · intro n docs hmem
      rw [hreads] at hmem
      exact List.mem_of_mem_eraseIdx hmem

/-- Every run of the page has its moments. -/
theorem exists_run {as : List Action} {p : Page} (hrun : run Page.step d.page as = some p) :
    ∃ d', run step d as = some d' ∧ d'.page = p := by
  induction as generalizing d with
  | nil =>
    cases hrun
    exact ⟨d, rfl, rfl⟩
  | cons a as ih =>
    obtain ⟨m, hm, hrest⟩ := run_cons_iff.1 hrun
    have hstep : d.step a = some (d.date a m) := by simp [step, hm]
    obtain ⟨d', hd', hpage⟩ := ih (d := d.date a m) (by rwa [page_date])
    exact ⟨d', run_cons_iff.2 ⟨_, hstep, hd'⟩, hpage⟩

theorem everyStep_of_page {c : Page → Action → Prop} {as : List Action}
    (h : EveryStep Page.step c d.page as) : EveryStep step (fun d a => c d.page a) d as := by
  induction as generalizing d with
  | nil => trivial
  | cons a as ih =>
    refine ⟨h.1, ?_⟩
    cases hm : d.page.step a with
    | none => simp [step, hm]
    | some m =>
      have hstep : d.step a = some (d.date a m) := by simp [step, hm]
      rw [hstep]
      apply ih
      rw [page_date]
      exact ((everyStep_cons_of_step hm).1 h).2

end Dated

/-! ## Along a run -/

/-- In every run the page shows the read that was answered last among those that have succeeded. Where
they succeed in the order of issue, it shows the most recently issued one; where outstanding reads take
the collection in this order too, the page never goes back to an older snapshot. -/
theorem shows_last_answered {content : List ReviewDoc} {as : List Action} {p : Page}
    (hrun : run Page.step (Page.mount content) as = some p) :
    p.ShowsLast ∧
      (EveryStep Page.step (fun p a => inIssueOrder p a = true) (Page.mount content) as →
        ShowsNewest p ∧
          (EveryStep Page.step (fun p a => inTakeOrder p a = true) (Page.mount content) as →
            ∃ d, run Dated.step (Dated.mount content) as = some d ∧ d.page = p ∧ d.NeverBack)) := by
  have hlast : p.ShowsLast := Page.showsLast_run hrun
  refine ⟨hlast, fun hissue => ⟨?_, fun htake => ?_⟩⟩
  · have hmount : Ordered (Page.mount content) := List.Pairwise.nil
    have hordered : Ordered p :=
      run_guarded (fun _ _ _ h ha hstep => ordered_step h ha hstep) hmount hissue hrun
    exact showsNewest_of_ordered hlast hordered
  · obtain ⟨d, hd, hpage⟩ := Dated.exists_run (d := Dated.mount content) hrun
    have hguard := Dated.everyStep_of_page (d := Dated.mount content) (hissue.and htake)
    have hinv : d.Inv := run_guarded (fun _ _ _ h ha hstep => Dated.inv_step h ha.1 ha.2 hstep)
      (Dated.inv_mount content) hguard hd
    exact ⟨d, hd, hpage, hinv.neverBack⟩

/-- A review with nothing but a date and a score. -/
def anonymous (seconds : ℤ) (score : ℕ) : ReviewDoc :=
  ⟨⟨⟨seconds, 0⟩, none, none, none, "", score, ""⟩⟩

/-- Two reads in order: the second one is shown, and the page does not go back. -/
theorem shows_last_answered_twice :
    ∃ p, run Page.step (Page.mount [])
        [.openOverlay, .take 0, .write [anonymous 1 5], .take 1, .succeed 0, .succeed 0] = some p ∧
      p.succeeded = [(0, []), (1, [anonymous 1 5])] ∧ ShowsNewest p ∧
      ∃ d, run Dated.step (Dated.mount [])
          [.openOverlay, .take 0, .write [anonymous 1 5], .take 1, .succeed 0, .succeed 0] = some d ∧
        d.page = p ∧ d.NeverBack := by
  refine ⟨_, rfl, rfl, ?_⟩
  obtain ⟨hnewest, hback⟩ := (@shows_last_answered []
    [.openOverlay, .take 0, .write [anonymous 1 5], .take 1, .succeed 0, .succeed 0] _ rfl).2
      (by decide)
  exact ⟨hnewest, hback (by decide)⟩

/-- The read of the mounting takes the empty collection and is answered after the read issued when
the overlay opened, which took one review: the page goes back to the empty list. -/
theorem late_answer_replaces :
    ∃ p, run Page.step (Page.mount [])
        [.openOverlay, .take 0, .write [anonymous 1 5], .take 1, .succeed 1, .succeed 0] = some p ∧
      p.succeeded = [(1, [anonymous 1 5]), (0, [])] ∧ p.details.state.reviews = [] ∧
      ¬ ShowsNewest p := by
  refine ⟨_, rfl, rfl, by decide, ?_⟩
  intro h
  have hshows := h (1, [anonymous 1 5]) (by decide) (by decide)
  exact absurd hshows.1 (by decide)

/-- The same with answers in order: the read of the overlay takes the empty collection before that of
the mounting takes one review, and is shown after it. -/
theorem early_take_goes_back :
    ∃ d, run Dated.step (Dated.mount [])
        [.openOverlay, .take 1, .write [anonymous 1 5], .take 0, .succeed 0, .succeed 0] = some d ∧
      d.page.succeeded = [(0, [anonymous 1 5]), (1, [])] ∧ d.page.details.state.reviews = [] ∧
      ShowsNewest d.page ∧ ¬ d.NeverBack := by
  have hrun : run Page.step (Page.mount [])
      [.openOverlay, .take 1, .write [anonymous 1 5], .take 0, .succeed 0, .succeed 0] = some _ := rfl
  refine ⟨_, rfl, rfl, by decide, ?_, fun h => ?_⟩
  · exact showsNewest_of_ordered (Page.showsLast_run hrun) (by unfold Ordered; decide)
  · exact absurd h.forward (by decide)

end LetItGo.Properties.SnapshotOrder
