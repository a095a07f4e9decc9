import LetItGo.Properties.PageShowsBoard

/-!
# Pages catch up

A details page can show an old moment of the board, and after a newer one an older again. But once
nothing is posted under its title any more, none of its outstanding reads has taken something outdated
and the server answers those to come, it cannot go wrong: whatever happens on this phone and on all
others, the next read that succeeds brings the page up to date, and it stays so (`page_catches_up`).
-/

set_option autoImplicit false

namespace LetItGo.Properties.PageCatchesUp

open LetItGo.Library.AsyncReads
open LetItGo.Library.DocumentStore
open LetItGo.Library.Runs
open LetItGo.Library.Traces
open LetItGo.Components
open LetItGo.Components.DetailsScreen (Details averageRating loadReviews)
open LetItGo.Components.FirstScreen (Coords)
open LetItGo.Components.ReviewSubmissionScreen (ReviewDoc)
open LetItGo.Components.SignIn (GoogleUser Sessions User)
open LetItGo.Properties.CrashFreedom (annsSessions)
open LetItGo.Properties.PageShowsBoard
open LetItGo.Properties.Submissions
open LetItGo.Systems.ReviewBoard
open LetItGo.Systems.ReviewStore (snapshot)
open LetItGo.Systems.SharedReviews
open LetItGo.Systems.WholeApp

universe u

variable {ι : Type u}

/-- The page shows what stands under the title now, and the average of it. -/
structure UpToDate (w : World ι) (title : String) (p : Page) : Prop where
  lists : (board w.db).Lists title p.details.state.reviews
  average : p.details.state.avgRating = some (averageRating p.details.state.reviews)

/-- The documents load as what stands under the title. -/
def Current (w : World ι) (title : String) (docs : List ReviewDoc) : Prop :=
  (board w.db).Lists title (loadReviews docs)

/-- A read of the page on the phone has succeeded. -/
def Succeeded (i : ι) (zs : List (ι × Action)) : Prop :=
  ∃ j, (i, Action.page (.details (.succeed j))) ∈ zs

/-- The page reads the collection of the title, its reads have taken what stands there, and it is up
to date, or shows what another page showed and has not had a success. -/
structure Fresh (w : World ι) (i : ι) (title : String) (p₁ : Page) (zs : List (ι × Action))
    (p : Page) : Prop where
  ref : p.ref = DetailsScreen.constructorRef (some title)
  reads : p.details.reads.Holds (Current w title)
  shows : UpToDate w title p ∨ ¬ Succeeded i zs ∧
    p.details.state.reviews = p₁.details.state.reviews ∧
    p.details.state.avgRating = p₁.details.state.avgRating

/-! ## One step of a page -/

theorem upToDate_of_docs {w : World ι} {title : String} {p : Page} {docs : List ReviewDoc}
    (hdocs : Current w title docs) (hreviews : p.details.state.reviews = loadReviews docs)
    (havg : p.details.state.avgRating = some (averageRating (loadReviews docs))) :
    UpToDate w title p := by
  refine ⟨?_, ?_⟩
  · rw [hreviews]
    exact hdocs
  · rw [havg, hreviews]

theorem current_of_takes {w : World ι} {title : String} {p : Page} {j : ℕ} {docs : List ReviewDoc}
    (hdb : AllWellFormed w.db) (href : p.ref = DetailsScreen.constructorRef (some title))
    (htakes : p.takes w.db (.take j docs) = true) : Current w title docs := by
  have hperm := of_decide_eq_true htakes
  rw [href] at hperm
  exact lists_snapshot hdb hperm

theorem succeeded_append {i : ι} {zs : List (ι × Action)} {x : ι × Action} :
    Succeeded i (zs ++ [x]) ↔ Succeeded i zs ∨ ∃ j, x = (i, .page (.details (.succeed j))) := by
  simp only [Succeeded, List.mem_append, List.mem_singleton, exists_or, eq_comm]

theorem not_succeeded_append {i : ι} {zs : List (ι × Action)} {x : ι × Action}
    (h : ¬ Succeeded i zs) (hx : ∀ j, x ≠ (i, .page (.details (.succeed j)))) :
    ¬ Succeeded i (zs ++ [x]) := by
  rw [succeeded_append]
  rintro (hzs | ⟨j, hj⟩)
  · exact h hzs
  · exact hx j hj

/-- A change that is no success keeps what is shown or brings it up to date. -/
theorem Fresh.shows_of_change {w : World ι} {i : ι} {title : String} {p₁ p p' : Page}
    {zs : List (ι × Action)} {x : ι × Action} (h : Fresh w i title p₁ zs p)
    (hx : ∀ j, x ≠ (i, .page (.details (.succeed j))))
    (hreviews : p'.details.state.reviews = p.details.state.reviews)
    (havg : p'.details.state.avgRating = p.details.state.avgRating) :
    UpToDate w title p' ∨ ¬ Succeeded i (zs ++ [x]) ∧
      p'.details.state.reviews = p₁.details.state.reviews ∧
      p'.details.state.avgRating = p₁.details.state.avgRating := by
  rw [hreviews, havg]
  rcases h.shows with ⟨hlists, haverage⟩ | ⟨hno, hshown⟩
  · refine Or.inl ⟨?_, ?_⟩
    · rw [hreviews]
      exact hlists
    · rw [havg, hreviews]
      exact haverage
  · exact Or.inr ⟨not_succeeded_append hno hx, hshown⟩

theorem Fresh.change {w : World ι} {i : ι} {title : String} {p₁ p p' : Page}
    {zs : List (ι × Action)} {a : Action} {known : List (DocRef × ReviewDoc)} {nextKey : ℕ}
    (h : Fresh w i title p₁ zs p) (hdb : AllWellFormed w.db)
    (hchange : Page.Change w.db known nextKey p a p')
    (hserver : ∀ j docs, a ≠ .page (.takeLocal j docs))
    (hsuccess : ∀ j, a = .page (.details (.succeed j)) →
      p.details.step (.succeed j) = some p'.details) :
    Fresh w i title p₁ (zs ++ [(i, a)]) p' := by
  have href : p'.ref = DetailsScreen.constructorRef (some title) := by
    rw [hchange.key_ref.2]
    exact h.ref
  by_cases ha : ∃ j, a = .page (.details (.succeed j))
  · obtain ⟨j, rfl⟩ := ha
    have hstep := hsuccess j rfl
    have hreads := Details.step_holds h.reads (by rintro i docs ⟨⟩) hstep
    obtain ⟨docs, hdocs, hreviews, havg⟩ := Details.succeed_shows h.reads hstep
    exact ⟨href, hreads.1, Or.inl (upToDate_of_docs hdocs hreviews havg)⟩
  · have hx : ∀ j, (i, a) ≠ (i, Action.page (.details (.succeed j))) := by
      intro j heq
      exact ha ⟨j, (Prod.mk.inj heq).2⟩
    rcases hchange.details_cases with hsame | ⟨e, htakes, hstep⟩ | ⟨j, docs, hlocal, -⟩
    · refine ⟨href, ?_, h.shows_of_change hx (by rw [hsame]) (by rw [hsame])⟩
      rw [hsame]
      exact h.reads
    · have hreads := Details.step_holds h.reads
        (by rintro j docs rfl; exact current_of_takes hdb h.ref htakes) hstep
      refine ⟨href, hreads.1, ?_⟩
      rcases Details.step_shows h.reads hstep with ⟨hreviews, havg⟩ | ⟨docs, hdocs, hreviews, havg⟩
      · exact h.shows_of_change hx hreviews havg
      · exact Or.inl (upToDate_of_docs hdocs hreviews havg)
    · exact absurd hlocal (hserver j docs)

/-- What happens on another phone is nothing to the page. -/
theorem Fresh.other {w : World ι} {i j : ι} {title : String} {p₁ p : Page} {zs : List (ι × Action)}
    {a : Action} (h : Fresh w i title p₁ zs p) (hji : j ≠ i) :
    Fresh w i title p₁ (zs ++ [(j, a)]) p where
  ref := h.ref
  reads := h.reads
  shows := h.shows_of_change (fun _ heq => hji (Prod.mk.inj heq).1) rfl rfl

/-- Nor are writes under other titles. -/
theorem Fresh.congr {w w' : World ι} {i : ι} {title : String} {p₁ p : Page}
    {zs : List (ι × Action)} (h : Fresh w i title p₁ zs p)
    (hsame : board w'.db title = board w.db title) : Fresh w' i title p₁ zs p where
  ref := h.ref
  reads := h.reads.imp fun _ hdocs => hdocs.congr hsame
  shows := h.shows.imp_left fun hup => ⟨hup.lists.congr hsame, hup.average⟩

/-! ## One step of the world -/

theorem Page.details_of_step {db : Store ReviewDoc} {known : List (DocRef × ReviewDoc)} {p p' : Page}
    {e : DetailsScreen.Event} (h : p.step db known (.details e) = some p') :
    p.details.step e = some p'.details := by
  obtain ⟨-, hmap⟩ := Option.ite_none_right_eq_some.1 h
  obtain ⟨details, hdetails, rfl⟩ := Option.map_eq_some_iff.1 hmap
  exact hdetails

section

variable [DecidableEq ι] (getDistance : Coords → Coords → ℚ → ℚ)
  (localeCompare : String → String → ℤ) (userOf : GoogleUser → User)

/-- Nothing is posted under the title in the run. -/
def Quiet (w : World ι) (title : String) (zs : List (ι × Action)) : Prop :=
  ∀ post ∈ trace (World.step getDistance localeCompare userOf)
    (fun w x => (w.posts x).flatMap postOf) w zs, post.title ≠ title

variable {getDistance localeCompare userOf}

/-- The page that a read has succeeded on is the page that was there, after this success. -/
theorem App.page_of_success {d d' : App} {db : Store ReviewDoc} {j : ℕ}
    (hnext : App.Next getDistance localeCompare userOf db d (.page (.details (.succeed j))) d')
    {first first' : FirstScreen.Mounted} {p p' : Page} (hscreens : d.screens = .ok ⟨first, some p⟩)
    (hscreens' : d'.screens = .ok ⟨first', some p'⟩) :
    p.details.step (.succeed j) = some p'.details := by
  cases hnext with
  | @page first₀ p₀ p₁ _ hscreens₀ hstep =>
    rw [hscreens] at hscreens₀
    cases hscreens₀
    obtain ⟨heq, -⟩ := App.display_screens_eq_ok_iff.1 hscreens'
    cases heq
    exact Page.details_of_step hstep

theorem board_title_of_step {w w' : World ι} {x : ι × Action} {title : String} (h : Sound w)
    (hstep : w.step getDistance localeCompare userOf x = some w')
    (hquiet : ∀ post ∈ (w.posts x).flatMap postOf, post.title ≠ title) :
    board w'.db title = board w.db title := by
  rw [World.db_of_step hstep, board_commit (posts_wellFormed h.ready x)]
  exact Board.foldl_post_of_other hquiet _

theorem quiet_of_trace_eq_nil {w : World ι} {title : String} {zs : List (ι × Action)}
    (h : trace (World.step getDistance localeCompare userOf)
      (fun w x => (w.posts x).flatMap postOf) w zs = []) :
    Quiet getDistance localeCompare userOf w title zs := by
  intro post hpost
  rw [h] at hpost
  cases hpost

theorem quiet_append {w₁ w w' : World ι} {title : String} {zs : List (ι × Action)}
    {x : ι × Action} (hrun : run (World.step getDistance localeCompare userOf) w₁ zs = some w)
    (hstep : w.step getDistance localeCompare userOf x = some w') :
    Quiet getDistance localeCompare userOf w₁ title (zs ++ [x]) ↔
      Quiet getDistance localeCompare userOf w₁ title zs ∧
        ∀ post ∈ (w.posts x).flatMap postOf, post.title ≠ title := by
  unfold Quiet
  rw [trace_append hrun, trace_cons_of_step hstep, trace_nil, List.append_nil]
  exact List.forall_mem_append

/-- The mounted page of the phone, as long as it is the one with this key. -/
def Watches (i : ι) (title : String) (p₁ : Page) (zs : List (ι × Action)) (w : World ι) : Prop :=
  p₁.key < (w.phone i).nextKey ∧
    ∀ first p, (w.phone i).screens = .ok ⟨first, some p⟩ → p.key = p₁.key →
      Fresh w i title p₁ zs p

theorem watches_step {w w' : World ι} {i : ι} {title : String} {p₁ : Page}
    {zs : List (ι × Action)} {x : ι × Action} (hsound : Sound w)
    (h : Watches i title p₁ zs w) (hstep : w.step getDistance localeCompare userOf x = some w')
    (hserver : ∀ j docs, x ≠ (i, .page (.takeLocal j docs)))
    (hquiet : ∀ post ∈ (w.posts x).flatMap postOf, post.title ≠ title) :
    Watches i title p₁ (zs ++ [x]) w' := by
  obtain ⟨j, a⟩ := x
  have hsame := board_title_of_step hsound hstep hquiet
  obtain ⟨hkey, hfresh⟩ := h
  obtain ⟨d, hd, hw'⟩ := World.step_eq_some hstep
  by_cases hji : j = i
  · subst hji
    have hnext := App.next_of_step hd
    have hphone : w'.phone j = d := by
      rw [hw']
      exact Function.update_self j d w.phone
    rw [Watches, hphone]
    refine ⟨hkey.trans_le (App.nextKey_le_of_next hnext), fun first' p' hscreens' hp' => ?_⟩
    rcases App.page_of_next hnext hscreens' with ⟨item, doc, -, -, -, rfl⟩ |
      ⟨first, p, hscreens, hchange⟩
    · -- a page that has just been opened has a newer key
      exact absurd hp' hkey.ne'
    · rw [hchange.key_ref.1] at hp'
      refine ((hfresh first p hscreens hp').change hsound.db hchange ?_ ?_).congr hsame
      · rintro k docs rfl
        exact hserver k docs rfl
      · rintro k rfl
        exact App.page_of_success hnext hscreens hscreens'
  · have hphone : w'.phone i = w.phone i := by
      rw [hw']
      exact Function.update_of_ne (Ne.symm hji) d w.phone
    rw [Watches, hphone]
    exact ⟨hkey, fun first p hscreens hp => ((hfresh first p hscreens hp).other hji).congr hsame⟩

/-! ## Every run -/

/-- In every run on any phones, on from a state in which a page is mounted whose outstanding reads have
taken nothing but what stands under its title: as long as nothing is posted there and the server answers
the reads of the page, it is up to date, or no read of it has succeeded and it shows what it showed. -/
theorem page_catches_up {db : Store ReviewDoc} (hdb : AllWellFormed db) (ss : ι → Sessions)
    {xs zs : List (ι × Action)} {w₁ w : World ι} {i : ι} {title : String}
    {first₁ first : FirstScreen.Mounted} {p₁ p : Page}
    (hbefore : run (World.step getDistance localeCompare userOf) (World.start db ss) xs = some w₁)
    (hpage₁ : (w₁.phone i).screens = .ok ⟨first₁, some p₁⟩)
    (href : p₁.ref = DetailsScreen.constructorRef (some title))
    (hreads : p₁.details.reads.Holds (Current w₁ title))
    (hrun : run (World.step getDistance localeCompare userOf) w₁ zs = some w)
    (hquiet : Quiet getDistance localeCompare userOf w₁ title zs) (hserver : ServerReads i zs)
    (hpage : (w.phone i).screens = .ok ⟨first, some p⟩) (hkey : p.key = p₁.key) :
    UpToDate w title p ∨ ¬ Succeeded i zs ∧
      p.details.state.reviews = p₁.details.state.reviews ∧
      p.details.state.avgRating = p₁.details.state.avgRating := by
  have hsound₁ : Sound w₁ := sound_run (sound_start hdb ss) hbefore
  have hwatches : Quiet getDistance localeCompare userOf w₁ title zs → ServerReads i zs →
      Watches i title p₁ zs w := by
    refine run_prefix_invariant (I := fun zs w =>
      Quiet getDistance localeCompare userOf w₁ title zs → ServerReads i zs →
        Watches i title p₁ zs w) ?_ ?_ hrun
    · intro _ _
      refine ⟨(hsound₁.keys i).page first₁ p₁ hpage₁, fun first p hscreens _ => ?_⟩
      rw [hpage₁] at hscreens
      cases hscreens
      exact ⟨href, hreads, Or.inr ⟨fun ⟨j, hj⟩ => (nomatch hj), rfl, rfl⟩⟩
    · intro zs w x w' hzs h hstep hquiet hserver
      obtain ⟨hquietzs, hquietx⟩ := (quiet_append hzs hstep).1 hquiet
      obtain ⟨hserverzs, hserverx⟩ := serverReads_append.1 hserver
      exact watches_step (sound_run hsound₁ hzs) (h hquietzs hserverzs) hstep hserverx hquietx
  exact ((hwatches hquiet hserver).2 first p hpage hkey).shows

end

/-- The page of COM1 is open when Ann's review is written, and its first read comes after that. -/
theorem page_catches_up_ann :
    ∃ w₁ w first₁ p₁ first p,
      run (World.step (fun _ _ _ => 0) (fun _ _ => 0) fun user => ⟨user.id, some user.name, none⟩)
        (World.start ∅ fun _ : Bool => annsSessions)
        ((readsCom1 false annsWrite.2).take 3 ++ annSubmits true ++ [(true, .set (.commit 0))]) =
          some w₁ ∧
      (w₁.phone false).screens = .ok ⟨first₁, some p₁⟩ ∧ p₁.details.state.reviews = [] ∧
      run (World.step (fun _ _ _ => 0) (fun _ _ => 0) fun user => ⟨user.id, some user.name, none⟩)
        w₁ ((readsCom1 false annsWrite.2).drop 3) = some w ∧
      (w.phone false).screens = .ok ⟨first, some p⟩ ∧
      p.details.state.reviews = [DetailsScreen.loadReview annsWrite.2] ∧
      (UpToDate w "COM1" p ∨ ¬ Succeeded false ((readsCom1 false annsWrite.2).drop 3) ∧
        p.details.state.reviews = p₁.details.state.reviews ∧
        p.details.state.avgRating = p₁.details.state.avgRating) := by
  have hbefore : run (World.step (fun _ _ _ => 0) (fun _ _ => 0)
      fun user => ⟨user.id, some user.name, none⟩) (World.start ∅ fun _ : Bool => annsSessions)
      ((readsCom1 false annsWrite.2).take 3 ++ annSubmits true ++ [(true, .set (.commit 0))]) =
        some _ := rfl
  refine ⟨_, _, _, _, _, _, hbefore, rfl, rfl, rfl, rfl, rfl, ?_⟩
  have hreads : ∀ (w₁ : World Bool) (p₁ : Page), p₁.details.reads.pending = [⟨0, none⟩] →
      p₁.details.reads.Holds (Current w₁ "COM1") := by
    intro w₁ p₁ hpending r hr docs hdocs
    rw [hpending, List.mem_singleton] at hr
    rw [hr] at hdocs
    cases hdocs
  refine page_catches_up (i := false) allWellFormed_empty (fun _ : Bool => annsSessions) hbefore rfl
    rfl (hreads _ _ rfl) rfl (quiet_of_trace_eq_nil rfl) (by simp [ServerReads, readsCom1]) rfl rfl

end LetItGo.Properties.PageCatchesUp
