import LetItGo.Library.Runs
import LetItGo.Systems.ReviewStore

/-!
# The board of reviews

What the reviews collection is for: a board on which, under the name of each toilet, every user has
at most one review, the one that was posted last. `board` reads it off the collection, as long as the
documents are as the submission screen writes them (`AllWellFormed`); then a write is a post
(`board_commit`), and what a details page loads from a snapshot is what stands under the toilet's name,
newest first (`lists_snapshot`).
-/

set_option autoImplicit false

namespace LetItGo.Systems.ReviewBoard

open LetItGo.Library.Js
open LetItGo.Library.DocumentStore
open LetItGo.Library.Runs
open LetItGo.Components
open LetItGo.Components.DetailsScreen (LoadedReview loadReview loadReviews loadReviews_newest_first)
open LetItGo.Components.ReviewSubmissionScreen (ReviewDoc)
open LetItGo.Systems.ReviewStore

/-! ## The board -/

/-- The review of each user, by the user's id, under the name of each toilet. -/
abbrev Board := String → String → Option LoadedReview

/-- A review under the name of a toilet. -/
structure Post where
  title : String
  review : LoadedReview
  deriving DecidableEq, Repr

/-- A post replaces the author's review of the toilet. -/
def Board.post (b : Board) (p : Post) : Board := fun title uid =>
  if title = p.title ∧ uid = p.review.uid then some p.review else b title uid

/-- The board as a machine that takes every post. -/
def Board.step (b : Board) (p : Post) : Option Board := some (b.post p)

/-- A list of what stands under the name of a toilet, newest first. -/
structure Board.Lists (b : Board) (title : String) (reviews : List LoadedReview) : Prop where
  each : ∀ uid, reviews.filter (fun review => review.uid = uid) = (b title uid).toList
  newestFirst : reviews.Pairwise fun r r' => r'.date.time ≤ r.date.time

theorem Board.run_step (b : Board) (ps : List Post) :
    run Board.step b ps = some (ps.foldl Board.post b) := by
  induction ps generalizing b with
  | nil => rfl
  | cons p ps ih => exact run_cons_iff.2 ⟨b.post p, rfl, ih (b.post p)⟩

/-- Posts under other names leave what stands under a name. -/
theorem Board.foldl_post_of_other {title : String} {ps : List Post}
    (h : ∀ p ∈ ps, p.title ≠ title) (b : Board) : ps.foldl Board.post b title = b title := by
  induction ps generalizing b with
  | nil => rfl
  | cons p ps ih =>
    rw [List.foldl_cons, ih fun q hq => h q (List.mem_cons_of_mem p hq)]
    funext uid
    have hother : title ≠ p.title := (h p List.mem_cons_self).symm
    simp only [Board.post, hother, false_and, if_false]

/-- Only what stands under the name counts. -/
theorem Board.Lists.congr {b b' : Board} {title : String} {reviews : List LoadedReview}
    (h : b.Lists title reviews) (heq : b' title = b title) : b'.Lists title reviews where
  each := fun uid => by rw [heq, h.each]
  newestFirst := h.newestFirst

/-! ## The format of the collection -/

/-- A write as the submission screen makes it: it goes to the author's document of a toilet's
collection, and its review has a text, between one and five stars, and no id. -/
structure WellFormed (w : DocRef × ReviewDoc) : Prop where
  place : ∃ title, w.1 = (DetailsScreen.constructorRef (some title)).doc w.2.review.uid
  text : w.2.review.review ≠ ""
  score : 1 ≤ w.2.review.score ∧ w.2.review.score ≤ 5
  id : w.2.review.id = none

/-- Every document of the collection is as the submission screen writes it. -/
def AllWellFormed (db : Store ReviewDoc) : Prop :=
  ∀ (ref : DocRef) doc, ref.get db = some doc → WellFormed (ref, doc)

theorem allWellFormed_empty : AllWellFormed ∅ := by
  intro ref doc h
  cases h

theorem AllWellFormed.set {db : Store ReviewDoc} (h : AllWellFormed db) {w : DocRef × ReviewDoc}
    (hw : WellFormed w) : AllWellFormed (w.1.set w.2 db) := by
  intro ref doc hget
  rw [DocRef.get_set] at hget
  split at hget
  · next heq =>
    cases hget
    rw [heq]
    exact hw
  · exact h ref doc hget

theorem allWellFormed_commit {db : Store ReviewDoc} (h : AllWellFormed db)
    {ws : List (DocRef × ReviewDoc)} (hws : ∀ w ∈ ws, WellFormed w) :
    AllWellFormed (commit ws db) := by
  induction ws generalizing db with
  | nil => exact h
  | cons w ws ih =>
    exact ih (h.set (hws w List.mem_cons_self)) fun w' hw' => hws w' (List.mem_cons_of_mem w hw')

/-- So documents stand under the ids of their authors. -/
theorem AllWellFormed.keyed {db : Store ReviewDoc} (h : AllWellFormed db) : Keyed db := by
  intro c id doc hget
  obtain ⟨title, hplace⟩ := (h _ doc hget).place
  exact (CollectionRef.doc_inj.1 hplace).2.symm

/-! ## The board that the collection holds -/

/-- The board that is read off the collection. -/
def board (db : Store ReviewDoc) : Board := fun title uid =>
  (((DetailsScreen.constructorRef (some title)).doc uid).get db).map loadReview

/-- A write to the collection as a post. -/
def postOf (w : DocRef × ReviewDoc) : List Post :=
  match w.1.path with
  | ["reviews", title, "users", _] => [⟨title, loadReview w.2⟩]
  | _ => []

theorem board_set {w : DocRef × ReviewDoc} (h : WellFormed w) (db : Store ReviewDoc) :
    board (w.1.set w.2 db) = (postOf w).foldl Board.post (board db) := by
  obtain ⟨title, hplace⟩ := h.place
  have hpost : postOf w = [⟨title, loadReview w.2⟩] := by
    simp only [postOf, hplace]
    rfl
  rw [hpost]
  funext title' uid
  have hsame : (DetailsScreen.constructorRef (some title')).doc uid =
      (DetailsScreen.constructorRef (some title)).doc w.2.review.uid ↔
        title' = title ∧ uid = w.2.review.uid := by
    rw [CollectionRef.doc_inj, DetailsScreen.constructorRef_inj]
  have huid : (loadReview w.2).uid = w.2.review.uid := rfl
  simp only [board, hplace, DocRef.get_set, hsame, List.foldl_cons, List.foldl_nil, Board.post, huid]
  split <;> rfl

/-- Writes to the collection are posts on the board. -/
theorem board_commit {ws : List (DocRef × ReviewDoc)} (h : ∀ w ∈ ws, WellFormed w)
    (db : Store ReviewDoc) :
    board (commit ws db) = (ws.flatMap postOf).foldl Board.post (board db) := by
  induction ws generalizing db with
  | nil => rfl
  | cons w ws ih =>
    rw [List.flatMap_cons, List.foldl_append, ← board_set (h w List.mem_cons_self)]
    exact ih (fun w' hw' => h w' (List.mem_cons_of_mem w hw')) _

/-- What a page loads from a snapshot is what stands on the board under its title. -/
theorem lists_snapshot {db : Store ReviewDoc} (h : AllWellFormed db) {title : String}
    {docs : List ReviewDoc} (hdocs : docs.Perm (snapshot title db)) :
    (board db).Lists title (loadReviews docs) where
  each := fun uid => loadReviews_filter_uid h.keyed hdocs uid
  newestFirst := loadReviews_newest_first docs

end LetItGo.Systems.ReviewBoard
