import LetItGo.Systems.AppDevices
import LetItGo.Properties.AverageAgreement
import LetItGo.Properties.Submissions

/-!
# What the details pages show of the board

On every phone, whatever happens on the others, a details page shows nothing yet, or all that stood
under one toilet's name at one moment since the page was opened: for every user the review that was
the user's last at that moment, newest first (`page_shows_board`). The moments of two answers need not
be in order, but no page ever shows a mixture or a review posted elsewhere. This is so as long as the
server answers the reads of the page; what the client answers from its cache can be older than the page,
or of several moments. An average of anything but its list no page shows, whoever answers
(`ratingsAgree_everywhere`).
-/

set_option autoImplicit false

namespace LetItGo.Properties.PageShowsBoard

open LetItGo.Library.AsyncReads
open LetItGo.Library.DocumentStore
open LetItGo.Library.Runs
open LetItGo.Library.Traces
open LetItGo.Components
open LetItGo.Components.DetailsScreen (Details averageRating loadReviews)
open LetItGo.Components.FirstScreen (Coords)
open LetItGo.Components.ReviewSubmissionScreen (ReviewDoc Star)
open LetItGo.Components.SignIn (GoogleUser Sessions User)
open LetItGo.Properties.AverageAgreement
open LetItGo.Properties.CrashFreedom (annsSessions)
open LetItGo.Properties.Submissions
open LetItGo.Properties.ToiletLoading (oneToilet record)
open LetItGo.Systems.Navigator (onPress)
open LetItGo.Systems.ReviewBoard
open LetItGo.Systems.ReviewStore (snapshot)
open LetItGo.Systems.SharedReviews
open LetItGo.Systems.WholeApp

universe u

variable {ι : Type u}

section

variable {getDistance : Coords → Coords → ℚ → ℚ} {localeCompare : String → String → ℤ}
  {userOf : GoogleUser → User}

/-! ## The documents -/

/-- A well formed document is one that `submitReview` writes. -/
theorem submitted_of_wellFormed {w : DocRef × ReviewDoc} (h : WellFormed w) : Submitted w.2 := by
  obtain ⟨ref, ⟨⟨date, id, name, photoURL, text, score, uid⟩⟩⟩ := w
  obtain ⟨hone, hfive⟩ : 1 ≤ score ∧ score ≤ 5 := h.score
  obtain rfl : id = none := h.id
  refine ⟨some ⟨uid, name, photoURL⟩, date, collection "reviews", text, some ⟨score, hone, hfive⟩,
    (collection "reviews").doc uid, ?_⟩
  have hscore : score ≠ 0 := by omega
  simp [ReviewSubmissionScreen.submitReview, hscore]

/-! ## What holds in every state -/

/-- What the phone knows of the collection is as the submission screen writes it. -/
def KnownWellFormed (d : App) : Prop := ∀ write ∈ d.known, WellFormed write

theorem knownWellFormed_next {d d' : App} {db : Store ReviewDoc} {a : Action} (h : KnownWellFormed d)
    (hdb : AllWellFormed db) (hready : PhoneReady d)
    (hnext : App.Next getDistance localeCompare userOf db d a d') : KnownWellFormed d' := by
  intro write hwrite
  rcases App.mem_known_of_next hnext hwrite with hknown | hget |
    ⟨first, p, f, now, -, hscreens, hform, hsubmit⟩
  · exact h write hknown
  · exact hdb write.1 write.2 hget
  · exact ((hready.form first p f hscreens hform).submit hsubmit).1

/-- What holds in every state of every run. -/
structure Sound (w : World ι) : Prop where
  db : AllWellFormed w.db
  ready : ∀ i, PhoneReady (w.phone i)
  known : ∀ i, KnownWellFormed (w.phone i)
  keys : ∀ i, (w.phone i).Keys

theorem sound_start {db : Store ReviewDoc} (h : AllWellFormed db) (ss : ι → Sessions) :
    Sound (World.start db ss) where
  db := h
  ready := fun i => phoneReady_start (ss i)
  known := by
    intro i write hwrite
    cases hwrite
  keys := fun i => App.keys_start (ss i)

variable [DecidableEq ι]

theorem sound_step {w w' : World ι} {x : ι × Action} (h : Sound w)
    (hstep : w.step getDistance localeCompare userOf x = some w') : Sound w' where
  db := allWellFormed_step h.db h.ready hstep
  ready := phonesReady_step h.ready hstep
  known := World.phones_of_step (Q := fun _ d => KnownWellFormed d)
    (fun _ hknown hnext => knownWellFormed_next hknown h.db (h.ready x.1) hnext) h.known hstep
  keys := World.phones_of_step (Q := fun _ d => d.Keys)
    (fun _ hkeys hnext => hkeys.next hnext) h.keys hstep

theorem sound_run {w w' : World ι} {xs : List (ι × Action)} (h : Sound w)
    (hrun : run (World.step getDistance localeCompare userOf) w xs = some w') : Sound w' :=
  run_invariant (fun _ _ _ h hstep => sound_step h hstep) h hrun

/-! ## Writes are posts -/

/-- In every run on any phones the collection holds the board on which the writes made so far, in
their order, have been posted. -/
theorem world_refines_board {db : Store ReviewDoc} (ss : ι → Sessions) {xs : List (ι × Action)}
    {w : World ι}
    (hrun : run (World.step getDistance localeCompare userOf) (World.start db ss) xs = some w) :
    run Board.step (board db) (trace (World.step getDistance localeCompare userOf)
      (fun w x => (w.posts x).flatMap postOf) (World.start db ss) xs) = some (board w.db) := by
  have hmatched : ∃ b, run Board.step (board db) (trace (World.step getDistance localeCompare userOf)
      (fun w x => (w.posts x).flatMap postOf) (World.start db ss) xs) = some b ∧
        b = board w.db ∧ ∀ i, PhoneReady (w.phone i) := by
    refine run_simulates (R := fun (w : World ι) b =>
      b = board w.db ∧ ∀ i, PhoneReady (w.phone i)) ?_ ⟨rfl, fun i => phoneReady_start (ss i)⟩ hrun
    rintro w₁ x w₂ b ⟨rfl, hready⟩ hstep
    refine ⟨_, Board.run_step _ _, ?_, phonesReady_step hready hstep⟩
    rw [World.db_of_step hstep, board_commit (posts_wellFormed hready x)]
  obtain ⟨b, hb, rfl, -⟩ := hmatched
  exact hb

/-! ## What a page shows -/

/-- `P` holds of what the reads of the page have taken, and of what it shows, if it shows anything
yet. -/
structure Shows (P : List ReviewDoc → Prop) (p : Page) : Prop where
  reads : p.details.reads.Holds P
  shows : (p.details.state.reviews = [] ∧ p.details.state.avgRating = none) ∨
    ∃ docs, P docs ∧ p.details.state.reviews = loadReviews docs ∧
      p.details.state.avgRating = some (averageRating (loadReviews docs))

omit [DecidableEq ι] in
theorem shows_mount {P : List ReviewDoc → Prop} (key : ℕ) (item : FirstScreen.Toilet) (doc : DocRef) :
    Shows P (Page.mount key (onPress item) Reviews.State.mounted doc) where
  reads := (Reads.holds_idle _).issue
  shows := Or.inl ⟨rfl, rfl⟩

theorem Shows.imp {P Q : List ReviewDoc → Prop} {p : Page} (h : Shows P p)
    (hPQ : ∀ docs, P docs → Q docs) : Shows Q p where
  reads := h.reads.imp hPQ
  shows := h.shows.imp_right fun ⟨docs, hdocs, hshown⟩ => ⟨docs, hPQ docs hdocs, hshown⟩

/-- A page goes on so if `P` holds of what a read takes, from the server or without it. -/
theorem Shows.change {P : List ReviewDoc → Prop} {p p' : Page} {db : Store ReviewDoc}
    {known : List (DocRef × ReviewDoc)} {nextKey : ℕ} {a : Action} (h : Shows P p)
    (hchange : Page.Change db known nextKey p a p')
    (hserver : ∀ i docs, p.takes db (.take i docs) = true → P docs)
    (hlocal : ∀ i docs, a = .page (.takeLocal i docs) → p.knows db known docs = true →
      P (docs.map Prod.snd)) : Shows P p' := by
  -- a read that takes something, or any other step of the details page
  have hdetails : ∀ e, (∀ i docs, e = .take i docs → P docs) → p.details.step e = some p'.details →
      Shows P p' := by
    intro e htakes hstep
    refine ⟨(Details.step_holds h.reads htakes hstep).1, ?_⟩
    rcases Details.step_shows h.reads hstep with ⟨hreviews, havg⟩ | hshown
    · rw [hreviews, havg]
      exact h.shows
    · exact Or.inr hshown
  rcases hchange.details_cases with hsame | ⟨e, htakes, hstep⟩ | ⟨i, docs, ha, hknows, hstep⟩
  · refine ⟨?_, ?_⟩ <;> rw [hsame]
    · exact h.reads
    · exact h.shows
  · refine hdetails e ?_ hstep
    rintro i docs rfl
    exact hserver i docs htakes
  · refine hdetails _ ?_ hstep
    rintro j docs' ⟨⟩
    exact hlocal i docs ha hknows

/-! ## Its stars -/

/-- The documents are all as `submitReview` writes them. -/
def AllSubmitted (docs : List ReviewDoc) : Prop := ∀ doc ∈ docs, Submitted doc

theorem allSubmitted_of_takes {db : Store ReviewDoc} {p : Page} {i : ℕ} {docs : List ReviewDoc}
    (hdb : AllWellFormed db) (htakes : p.takes db (.take i docs) = true) : AllSubmitted docs := by
  intro doc hdoc
  have hperm : docs.Perm ((p.ref.docs db).map Prod.snd) := of_decide_eq_true htakes
  obtain ⟨⟨id, doc'⟩, hmem, rfl⟩ := List.mem_map.1 (hperm.mem_iff.1 hdoc)
  exact submitted_of_wellFormed (hdb _ doc' (mem_docs.1 hmem))

theorem allSubmitted_of_knows {db : Store ReviewDoc} {known : List (DocRef × ReviewDoc)} {p : Page}
    {docs : List (String × ReviewDoc)} (hdb : AllWellFormed db)
    (hknown : ∀ write ∈ known, WellFormed write) (hknows : p.knows db known docs = true) :
    AllSubmitted (docs.map Prod.snd) := by
  intro doc hdoc
  obtain ⟨x, hx, rfl⟩ := List.mem_map.1 hdoc
  rcases (of_decide_eq_true hknows).2 x hx with hmem | hget
  · exact submitted_of_wellFormed (hknown _ hmem)
  · exact submitted_of_wellFormed (hdb _ _ hget)

/-- In every run on any phones, from a collection of well formed documents: on each details page the
list is newest first, the message stands for the empty list and only for it, and else the stars are
the mean of the listed scores, with a label between one and five. -/
theorem ratingsAgree_everywhere {db : Store ReviewDoc} (hdb : AllWellFormed db) (ss : ι → Sessions)
    {xs : List (ι × Action)} {w : World ι}
    (hrun : run (World.step getDistance localeCompare userOf) (World.start db ss) xs = some w)
    {i : ι} {first : FirstScreen.Mounted} {p : Page}
    (hpage : (w.phone i).screens = .ok ⟨first, some p⟩) : RatingsAgree p.details.state := by
  have hall : Sound w ∧ ∀ i first p, (w.phone i).screens = .ok ⟨first, some p⟩ →
      Shows AllSubmitted p := by
    refine run_invariant (I := fun w : World ι => Sound w ∧
      ∀ i first p, (w.phone i).screens = .ok ⟨first, some p⟩ → Shows AllSubmitted p) ?_ ?_ hrun
    · rintro w₁ ⟨i, a⟩ w₂ ⟨hsound, hshows⟩ hstep
      refine ⟨sound_step hsound hstep, World.phones_of_step (Q := fun _ d => ∀ first p,
        d.screens = .ok ⟨first, some p⟩ → Shows AllSubmitted p) ?_ hshows hstep⟩
      intro d hold hnext first' p' hscreens'
      rcases App.page_of_next hnext hscreens' with ⟨item, doc, -, -, -, rfl⟩ |
        ⟨first, p, hscreens, hchange⟩
      · exact shows_mount _ item doc
      · exact (hold first p hscreens).change hchange
          (fun _ _ htakes => allSubmitted_of_takes hsound.db htakes)
          fun _ _ _ hknows => allSubmitted_of_knows hsound.db (hsound.known i) hknows
    · refine ⟨sound_start hdb ss, ?_⟩
      rintro i first p ⟨⟩
  rcases (hall.2 i first p hpage).shows with ⟨hreviews, havg⟩ | ⟨docs, hsubmitted, hreviews, havg⟩
  · exact ratingsAgree_of_nothing hreviews havg
  · exact ratingsAgree_of_snapshot hsubmitted hreviews havg

/-! ## The moment it shows -/

/-- The server answers the reads of the page on the phone in the run, with what it has: none is
answered from the client's cache, or with what the phone has sent added to it. -/
def ServerReads (i : ι) (zs : List (ι × Action)) : Prop :=
  ∀ j docs, (i, Action.page (.takeLocal j docs)) ∉ zs

omit [DecidableEq ι] in
theorem serverReads_append {i : ι} {zs : List (ι × Action)} {x : ι × Action} :
    ServerReads i (zs ++ [x]) ↔
      ServerReads i zs ∧ ∀ j docs, x ≠ (i, .page (.takeLocal j docs)) := by
  simp only [ServerReads, List.mem_append, List.mem_singleton, not_or, forall_and, ne_eq, eq_comm]

variable (getDistance localeCompare userOf) in
/-- The documents load as what stood on the board under the title at some moment of the run. -/
def Seen (w₁ : World ι) (zs : List (ι × Action)) (title : String) (docs : List ReviewDoc) : Prop :=
  ∃ ys w, ys <+: zs ∧ run (World.step getDistance localeCompare userOf) w₁ ys = some w ∧
    (board w.db).Lists title (loadReviews docs)

variable (getDistance localeCompare userOf) in
/-- The page reads the collection of the title, and shows a moment of it in the run. -/
structure Follows (w₁ : World ι) (zs : List (ι × Action)) (title : String) (p : Page) : Prop where
  ref : p.ref = DetailsScreen.constructorRef (some title)
  shows : Shows (Seen getDistance localeCompare userOf w₁ zs title) p

theorem Seen.extend {w₁ : World ι} {zs : List (ι × Action)} {title : String}
    {docs : List ReviewDoc} (h : Seen getDistance localeCompare userOf w₁ zs title docs)
    (x : ι × Action) : Seen getDistance localeCompare userOf w₁ (zs ++ [x]) title docs := by
  obtain ⟨ys, w, hprefix, hrun, hlists⟩ := h
  exact ⟨ys, w, hprefix.trans (List.prefix_append zs [x]), hrun, hlists⟩

theorem Follows.extend {w₁ : World ι} {zs : List (ι × Action)} {title : String} {p : Page}
    (h : Follows getDistance localeCompare userOf w₁ zs title p) (x : ι × Action) :
    Follows getDistance localeCompare userOf w₁ (zs ++ [x]) title p where
  ref := h.ref
  shows := h.shows.imp fun _ hseen => hseen.extend x

/-- What a read takes now is a moment of the run: the present one. -/
theorem seen_of_takes {w₁ w : World ι} {zs : List (ι × Action)} {title : String} {p : Page}
    {i : ℕ} {docs : List ReviewDoc}
    (hrun : run (World.step getDistance localeCompare userOf) w₁ zs = some w)
    (hdb : AllWellFormed w.db) (href : p.ref = DetailsScreen.constructorRef (some title))
    (htakes : p.takes w.db (.take i docs) = true) :
    Seen getDistance localeCompare userOf w₁ zs title docs := by
  have hdocs : docs.Perm (snapshot title w.db) := by
    have hperm := of_decide_eq_true htakes
    rw [href] at hperm
    exact hperm
  exact ⟨zs, w, List.prefix_refl zs, hrun, lists_snapshot hdb hdocs⟩

/-- In every run that goes on from a state with well formed documents: each page opened in it follows
the board, as long as the server answers its reads. -/
theorem follows_run {w₁ w : World ι} {zs : List (ι × Action)} (h : Sound w₁)
    (hrun : run (World.step getDistance localeCompare userOf) w₁ zs = some w) :
    ∀ i, ServerReads i zs → ∀ first p, (w.phone i).screens = .ok ⟨first, some p⟩ →
      (w₁.phone i).nextKey ≤ p.key →
      ∃ title, Follows getDistance localeCompare userOf w₁ zs title p := by
  have hall : (∀ i, (w₁.phone i).nextKey ≤ (w.phone i).nextKey) ∧
      ∀ i, ServerReads i zs → ∀ first p, (w.phone i).screens = .ok ⟨first, some p⟩ →
        (w₁.phone i).nextKey ≤ p.key →
        ∃ title, Follows getDistance localeCompare userOf w₁ zs title p := by
    refine run_prefix_invariant (I := fun zs (w : World ι) =>
      (∀ i, (w₁.phone i).nextKey ≤ (w.phone i).nextKey) ∧
      ∀ i, ServerReads i zs → ∀ first p, (w.phone i).screens = .ok ⟨first, some p⟩ →
        (w₁.phone i).nextKey ≤ p.key →
        ∃ title, Follows getDistance localeCompare userOf w₁ zs title p) ?_ ?_ hrun
    · refine ⟨fun i => le_refl _, fun i _ first p hscreens hopened => ?_⟩
      -- a page there already has an older key
      exact absurd ((h.keys i).page first p hscreens) (by omega)
    · rintro zs w ⟨i, a⟩ w' hzs ⟨hkeys, hfollows⟩ hstep
      have hdb : AllWellFormed w.db := (sound_run h hzs).db
      refine ⟨?_, ?_⟩
      · exact World.phones_of_step (Q := fun j d => (w₁.phone j).nextKey ≤ d.nextKey)
          (fun d hle hnext => hle.trans (App.nextKey_le_of_next hnext)) hkeys hstep
      · refine World.phones_of_step (Q := fun j d => ServerReads j (zs ++ [(i, a)]) → ∀ first p,
          d.screens = .ok ⟨first, some p⟩ → (w₁.phone j).nextKey ≤ p.key →
            ∃ title, Follows getDistance localeCompare userOf w₁ (zs ++ [(i, a)]) title p) ?_ ?_ hstep
        · intro d _ hnext hserver first' p' hscreens' hopened
          obtain ⟨hbefore, hnow⟩ := serverReads_append.1 hserver
          rcases App.page_of_next hnext hscreens' with ⟨item, doc, -, -, -, rfl⟩ |
            ⟨first, p, hscreens, hchange⟩
          · exact ⟨item.name, rfl, shows_mount _ item doc⟩
          · rw [hchange.key_ref.1] at hopened
            obtain ⟨title, hfollow⟩ := hfollows i hbefore first p hscreens hopened
            refine ⟨title, Follows.extend ⟨?_, hfollow.shows.change hchange ?_ ?_⟩ _⟩
            · rw [hchange.key_ref.2]
              exact hfollow.ref
            · exact fun _ _ htakes => seen_of_takes hzs hdb hfollow.ref htakes
            · rintro k docs rfl -
              exact absurd rfl (hnow k docs)
        · intro j hserver first p hscreens hopened
          obtain ⟨title, hfollow⟩ :=
            hfollows j (serverReads_append.1 hserver).1 first p hscreens hopened
          exact ⟨title, hfollow.extend _⟩
  exact hall.2

/-- In every run on any phones, from a collection of well formed documents, and on from every state in
it: each details page that has been opened since that state, and whose reads the server answers, shows
nothing yet, or all that stood under the title of the collection it reads at one moment since that state,
and no more. -/
theorem page_shows_board {db : Store ReviewDoc} (hdb : AllWellFormed db) (ss : ι → Sessions)
    {xs zs : List (ι × Action)} {w₁ w : World ι}
    (hbefore : run (World.step getDistance localeCompare userOf) (World.start db ss) xs = some w₁)
    (hrun : run (World.step getDistance localeCompare userOf) w₁ zs = some w) {i : ι}
    {first : FirstScreen.Mounted} {p : Page} (hpage : (w.phone i).screens = .ok ⟨first, some p⟩)
    (hopened : (w₁.phone i).nextKey ≤ p.key) (hserver : ServerReads i zs) :
    ∃ title, p.ref = DetailsScreen.constructorRef (some title) ∧
      ((p.details.state.reviews = [] ∧ p.details.state.avgRating = none) ∨
        ∃ ys w₂, ys <+: zs ∧ run (World.step getDistance localeCompare userOf) w₁ ys = some w₂ ∧
          (board w₂.db).Lists title p.details.state.reviews) := by
  have hsound : Sound w₁ := sound_run (sound_start hdb ss) hbefore
  obtain ⟨title, hfollow⟩ := follows_run hsound hrun i hserver first p hpage hopened
  refine ⟨title, hfollow.ref, hfollow.shows.shows.imp_right ?_⟩
  rintro ⟨docs, ⟨ys, w₂, hprefix, hys, hlists⟩, hreviews, -⟩
  rw [hreviews]
  exact ⟨ys, w₂, hprefix, hys, hlists⟩

end

/-- Ann's write is a post. -/
theorem world_refines_board_ann :
    ∃ w, run (World.step (fun _ _ _ => 0) (fun _ _ => 0) fun user => ⟨user.id, some user.name, none⟩)
        (World.start ∅ fun _ : Bool => annsSessions)
        (annSubmits true ++ [(true, .set (.commit 0))]) = some w ∧
      run Board.step (board ∅) [⟨"COM1", DetailsScreen.loadReview annsWrite.2⟩] = some (board w.db) := by
  have hrun : run (World.step (fun _ _ _ => 0) (fun _ _ => 0)
      fun user => ⟨user.id, some user.name, none⟩) (World.start ∅ fun _ : Bool => annsSessions)
      (annSubmits true ++ [(true, .set (.commit 0))]) = some _ := rfl
  exact ⟨_, hrun, world_refines_board (fun _ : Bool => annsSessions) hrun⟩

/-- The page of COM1 is opened, and its first read is answered with one document. -/
def readsCom1 {κ : Type} (phone : κ) (doc : ReviewDoc) : List (κ × Action) :=
  [.first (.position ⟨⟨1, 103⟩⟩), .first (.query [oneToilet]),
    .pressRow (record (fun _ _ _ => 0) ⟨⟨1, 103⟩⟩ oneToilet), .page (.details (.take 0 [doc])),
    .page (.details (.succeed 0))].map fun a => (phone, a)

/-- Ann's review is written, and somebody else opens the page of COM1. -/
theorem page_shows_anns_review :
    ∃ w₁ w first p,
      run (World.step (fun _ _ _ => 0) (fun _ _ => 0) fun user => ⟨user.id, some user.name, none⟩)
        (World.start ∅ fun _ : Bool => annsSessions)
        (annSubmits true ++ [(true, .set (.commit 0))]) = some w₁ ∧
      run (World.step (fun _ _ _ => 0) (fun _ _ => 0) fun user => ⟨user.id, some user.name, none⟩)
        w₁ (readsCom1 false annsWrite.2) = some w ∧
      (w.phone false).screens = .ok ⟨first, some p⟩ ∧
      p.details.state.reviews = [DetailsScreen.loadReview annsWrite.2] ∧
      ∃ title, p.ref = DetailsScreen.constructorRef (some title) ∧
        ((p.details.state.reviews = [] ∧ p.details.state.avgRating = none) ∨
          ∃ ys w₂, ys <+: readsCom1 false annsWrite.2 ∧
            run (World.step (fun _ _ _ => 0) (fun _ _ => 0)
              fun user => ⟨user.id, some user.name, none⟩) w₁ ys = some w₂ ∧
            (board w₂.db).Lists title p.details.state.reviews) := by
  have hbefore : run (World.step (fun _ _ _ => 0) (fun _ _ => 0)
      fun user => ⟨user.id, some user.name, none⟩) (World.start ∅ fun _ : Bool => annsSessions)
      (annSubmits true ++ [(true, .set (.commit 0))]) = some _ := rfl
  refine ⟨_, _, _, _, hbefore, rfl, rfl, rfl, ?_⟩
  exact page_shows_board (i := false) allWellFormed_empty (fun _ : Bool => annsSessions) hbefore rfl
    rfl (Nat.zero_le 0) (by simp [ServerReads, readsCom1])

/-- Its stars are those of the one review. -/
theorem ratingsAgree_anns_review :
    ∃ w first p,
      run (World.step (fun _ _ _ => 0) (fun _ _ => 0) fun user => ⟨user.id, some user.name, none⟩)
        (World.start ∅ fun _ : Bool => annsSessions)
        (annSubmits true ++ [(true, .set (.commit 0))] ++ readsCom1 false annsWrite.2) = some w ∧
      (w.phone false).screens = .ok ⟨first, some p⟩ ∧ RatingsAgree p.details.state := by
  have hrun : run (World.step (fun _ _ _ => 0) (fun _ _ => 0)
      fun user => ⟨user.id, some user.name, none⟩) (World.start ∅ fun _ : Bool => annsSessions)
      (annSubmits true ++ [(true, .set (.commit 0))] ++ readsCom1 false annsWrite.2) = some _ := rfl
  refine ⟨_, _, _, hrun, rfl, ?_⟩
  exact ratingsAgree_everywhere (i := false) allWellFormed_empty (fun _ : Bool => annsSessions) hrun rfl

end LetItGo.Properties.PageShowsBoard
