import LetItGo.Systems.ReviewStore

/-!
# Submit, then read

The details page of a toilet lists, for each user who submitted on it, that user's last submission,
and nobody else. The submission screen and the details page spell out the collection and the record
separately; `Submission.write_eq` is where they meet.
-/

set_option autoImplicit false

namespace LetItGo.Properties.SubmitThenRead

open LetItGo.Library.DocumentStore
open LetItGo.Components
open LetItGo.Components.SignIn (User)
open LetItGo.Components.ReviewSubmissionScreen
open LetItGo.Components.DetailsScreen (loadReview loadReviews)
open LetItGo.Systems.ReviewStore

/-- Writes to other toilets' collections leave a document as it is. -/
theorem lastWrite_writes_filter (ss : List Submission) (title uid : String) :
    lastWrite (writes (ss.filter fun s => s.title = title))
        ((DetailsScreen.constructorRef (some title)).doc uid) =
      lastWrite (writes ss) ((DetailsScreen.constructorRef (some title)).doc uid) := by
  induction ss using List.reverseRecOn with
  | nil => rfl
  | append_singleton ss s ih =>
    obtain ⟨doc, hwrite, -, -⟩ := s.write_eq
    have hconcat : ∀ ss' : List Submission, writes (ss' ++ [s]) = writes ss' ++
        [((DetailsScreen.constructorRef (some s.title)).doc s.user.uid, doc)] := by
      intro ss'
      rw [writes_concat, hwrite]
      rfl
    rw [List.filter_append, hconcat, lastWrite_concat]
    by_cases h : s.title = title
    · -- kept by the filter
      rw [List.filter_cons_of_pos (by simpa using h), List.filter_nil, hconcat, lastWrite_concat, ih]
    · -- dropped, and not a write to the document
      have hother : (DetailsScreen.constructorRef (some s.title)).doc s.user.uid ≠
          (DetailsScreen.constructorRef (some title)).doc uid := by
        rw [Ne, CollectionRef.doc_inj, DetailsScreen.constructorRef_inj]
        exact fun hsame => h hsame.1
      rw [List.filter_cons_of_neg (by simpa using h), List.filter_nil, List.append_nil, if_neg hother,
        ih]

/-- For every sequence of submissions committed to an empty store, every toilet and every answer to
a read of its collection: the list holds of every user exactly that user's last submission on the
toilet, if there is one; and the answer is one that the submissions on this toilet alone would
give. -/
theorem loadReviews_of_submissions (ss : List Submission) (title : String) {docs : List ReviewDoc}
    (hdocs : docs.Perm (snapshot title (commit (writes ss) ∅))) :
    (∀ uid, (loadReviews docs).filter (fun review => review.uid = uid) =
        ((lastSubmission ss title uid).map Submission.entry).toList) ∧
      docs.Perm (snapshot title (commit (writes (ss.filter fun s => s.title = title)) ∅)) := by
  have hget : ∀ ws (d : DocRef), d.get (commit ws (∅ : Store ReviewDoc)) = lastWrite ws d := by
    intro ws d
    rw [get_commit]
    exact Option.or_none
  constructor
  · intro uid
    rw [loadReviews_filter_uid (keyed_writes ss keyed_empty) hdocs uid, hget, lastWrite_writes]
  · refine hdocs.trans ((docs_perm fun uid => ?_).map _)
    rw [hget, hget, lastWrite_writes_filter]

def ann : User := ⟨"u1", some "Ann", none⟩

/-- Ann submits on COM1, Bob on COM2, and Ann again on COM1. -/
def threeSubmissions : List Submission :=
  [⟨ann, "COM1", ⟨1, 0⟩, "ok", some 2⟩, ⟨⟨"u2", some "Bob", none⟩, "COM2", ⟨2, 0⟩, "no", some 1⟩,
    ⟨ann, "COM1", ⟨3, 0⟩, "clean", none⟩]

/-- COM1 lists Ann's second submission. -/
theorem loadReviews_of_submissions_com1 :
    (loadReviews (snapshot "COM1" (commit (writes threeSubmissions) ∅))).filter
        (fun review => review.uid = "u1") =
      [⟨none, ⟨3000⟩, none, some "Ann", "clean", 3, "u1"⟩] :=
  (loadReviews_of_submissions threeSubmissions "COM1" (List.Perm.refl _)).1 "u1"

end LetItGo.Properties.SubmitThenRead
