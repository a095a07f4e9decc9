import LetItGo.Components.DetailsScreen

/-!
# Reviews in the store

What `submitReview` writes and `getReviewsData` reads back. A store is `Keyed` when every document
of a `users` collection stands under the `uid` of its review; submissions keep it so. In a keyed
store a snapshot of a collection loads, for every user, the review under the user's id and no other
(`loadReviews_filter_uid`).
-/

set_option autoImplicit false

namespace LetItGo.Systems.ReviewStore

open LetItGo.Library.Js
open LetItGo.Library.DocumentStore
open LetItGo.Components
open LetItGo.Components.SignIn (User)
open LetItGo.Components.ReviewSubmissionScreen
open LetItGo.Components.DetailsScreen (LoadedReview loadReview loadReviews loadReviews_perm)

/-- A call of `submitReview` by `user` on the screen opened for the toilet `title`. -/
structure Submission where
  user : User
  title : String
  now : Timestamp
  text : String
  rating : Option ℕ
  deriving DecidableEq

/-- The document it writes. -/
def Submission.write (s : Submission) : Except Exception (DocRef × ReviewDoc) :=
  submitReview (some s.user) s.now (constructorRef ⟨none, some s.title⟩) s.text s.rating

/-- The writes of a sequence of submissions. -/
def writes (ss : List Submission) : List (DocRef × ReviewDoc) :=
  ss.filterMap fun s => s.write.toOption

/-- The submission as a review in a list: the author's id, name and photo, the text, the stars, 3
without any, and the instant. -/
def Submission.entry (s : Submission) : LoadedReview where
  photoURL := s.user.photoURL
  date := s.now.toDate
  id := none
  name := s.user.displayName
  review := s.text
  score :=
    match s.rating with
    | none => 3
    | some r => if r = 0 then 3 else r
  uid := s.user.uid

/-- The last submission of the user `uid` on the toilet `title`. -/
def lastSubmission (ss : List Submission) (title uid : String) : Option Submission :=
  ss.reverse.find? fun s => s.title = title ∧ s.user.uid = uid

/-- The documents that the details page of `title` reads. -/
def snapshot (title : String) (db : Store ReviewDoc) : List ReviewDoc :=
  ((DetailsScreen.constructorRef (some title)).docs db).map Prod.snd

/-! ## What is written is what is read -/

/-- A submission writes the user's document of the toilet's collection, from which the submission
loads. -/
theorem Submission.write_eq (s : Submission) :
    ∃ doc, s.write =
        .ok ((DetailsScreen.constructorRef (some s.title)).doc s.user.uid, doc) ∧
      doc.review.uid = s.user.uid ∧ loadReview doc = s.entry :=
  ⟨_, rfl, rfl, rfl⟩

theorem writes_concat (ss : List Submission) (s : Submission) :
    writes (ss ++ [s]) = writes ss ++ s.write.toOption.toList := by
  rw [writes, List.filterMap_append]
  rfl

theorem lastSubmission_concat (ss : List Submission) (s : Submission) (title uid : String) :
    lastSubmission (ss ++ [s]) title uid =
      if s.title = title ∧ s.user.uid = uid then some s else lastSubmission ss title uid := by
  unfold lastSubmission
  rw [List.reverse_concat, List.find?_cons]
  by_cases h : s.title = title ∧ s.user.uid = uid <;> simp [h]

/-- The last write to a user's document is that of the user's last submission. -/
theorem lastWrite_writes (ss : List Submission) (title uid : String) :
    (lastWrite (writes ss) ((DetailsScreen.constructorRef (some title)).doc uid)).map loadReview =
      (lastSubmission ss title uid).map Submission.entry := by
  induction ss using List.reverseRecOn with
  | nil => rfl
  | append_singleton ss s ih =>
    obtain ⟨doc, hwrite, -, hentry⟩ := s.write_eq
    have hsame : (DetailsScreen.constructorRef (some s.title)).doc s.user.uid =
        (DetailsScreen.constructorRef (some title)).doc uid ↔
          s.title = title ∧ s.user.uid = uid := by
      rw [CollectionRef.doc_inj, DetailsScreen.constructorRef_inj]
    rw [writes_concat, hwrite, lastSubmission_concat]
    show (lastWrite (writes ss ++ [_]) _).map loadReview = _
    rw [lastWrite_concat]
    -- the newest submission goes to the document exactly if it is the user's on this toilet
    by_cases h : s.title = title ∧ s.user.uid = uid
    · rw [if_pos h, if_pos (hsame.2 h)]
      simp [hentry]
    · rw [if_neg h, if_neg fun h' => h (hsame.1 h')]
      exact ih

/-! ## Documents under their users' ids -/

/-- In every `users` collection the documents stand under the ids of their authors. -/
def Keyed (db : Store ReviewDoc) : Prop :=
  ∀ (c : CollectionRef) id doc, (c.doc id).get db = some doc → doc.review.uid = id

theorem keyed_empty : Keyed ∅ := by
  intro c id doc h
  cases h

theorem Keyed.set {db : Store ReviewDoc} (h : Keyed db) {c : CollectionRef} {id : String}
    {doc : ReviewDoc} (hdoc : doc.review.uid = id) : Keyed ((c.doc id).set doc db) := by
  intro c' id' doc' hget
  rw [DocRef.get_set] at hget
  split at hget
  · next heq =>
    cases hget
    rw [hdoc, (CollectionRef.doc_inj.1 heq).2]
  · exact h c' id' doc' hget

theorem keyed_writes (ss : List Submission) {db : Store ReviewDoc} (h : Keyed db) :
    Keyed (commit (writes ss) db) := by
  induction ss using List.reverseRecOn with
  | nil => exact h
  | append_singleton ss s ih =>
    obtain ⟨doc, hwrite, huid, -⟩ := s.write_eq
    rw [writes_concat, commit_append, hwrite]
    exact ih.set huid

/-- In a keyed store, what a snapshot loads of a user is the review under the user's id. -/
theorem loadReviews_filter_uid {db : Store ReviewDoc} (h : Keyed db) {title : String}
    {docs : List ReviewDoc} (hdocs : docs.Perm (snapshot title db)) (uid : String) :
    (loadReviews docs).filter (fun review => review.uid = uid) =
      (((DetailsScreen.constructorRef (some title)).doc uid |>.get db).map loadReview).toList := by
  have hkeyed : ∀ x ∈ (DetailsScreen.constructorRef (some title)).docs db,
      x.2.review.uid = x.1 := fun x hx => h _ _ _ (mem_docs.1 hx)
  have hload : (loadReviews docs).Perm
      (((DetailsScreen.constructorRef (some title)).docs db).map fun x => loadReview x.2) := by
    refine (loadReviews_perm docs).trans ((hdocs.map loadReview).trans (List.Perm.of_eq ?_))
    rw [snapshot, List.map_map]
    rfl
  have hfilter := hload.filter fun review => review.uid = uid
  rw [List.filter_map] at hfilter
  -- by author is by id
  have hids : ((DetailsScreen.constructorRef (some title)).docs db).filter
      ((fun review => decide (review.uid = uid)) ∘ fun x => loadReview x.2) =
        ((DetailsScreen.constructorRef (some title)).docs db).filter (fun x => x.1 = uid) := by
    apply List.filter_congr
    intro x hx
    simp [loadReview, hkeyed x hx]
  rw [hids, docs_filter_id] at hfilter
  cases hget : ((DetailsScreen.constructorRef (some title)).doc uid).get db with
  | none =>
    rw [hget] at hfilter
    exact List.perm_nil.1 hfilter
  | some doc =>
    rw [hget] at hfilter
    exact List.perm_singleton.1 hfilter

end LetItGo.Systems.ReviewStore
