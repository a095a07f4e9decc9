import LetItGo.Library.Traces
import LetItGo.Systems.WholeApp

/-!
# Many phones and one collection

Everybody who uses the app, and the reviews collection that they share. The phones take their steps
in any order, one at a time; the collection changes only when the server commits a `set` that some
phone has sent, and a read takes it as it is then.

A phone's part of a run of the world is a run of the app (`phone_run`), so what holds of every run of
the app holds of every phone; the collection is what the writes so far have made of it (`db_run`).
-/

set_option autoImplicit false

namespace LetItGo.Systems.SharedReviews

open LetItGo.Library.DocumentStore
open LetItGo.Library.Runs
open LetItGo.Library.Traces
open LetItGo.Components.FirstScreen (Coords)
open LetItGo.Components.ReviewSubmissionScreen (ReviewDoc)
open LetItGo.Components.SignIn (GoogleUser Sessions User)
open LetItGo.Systems.WholeApp

universe u v

structure World (ι : Type u) where
  db : Store ReviewDoc
  phone : ι → App

variable {ι : Type u}

/-- The app has been started on every phone. -/
def World.start (db : Store ReviewDoc) (ss : ι → Sessions) : World ι := ⟨db, fun i => App.start (ss i)⟩

/-- What the server writes in a step. -/
def World.posts (w : World ι) (x : ι × Action) : List (DocRef × ReviewDoc) :=
  (w.phone x.1).posts x.2

section

variable [DecidableEq ι]

/-- What a step emits on the phone `i`. -/
def World.on {β : Type v} (emit : App → Action → List β) (i : ι) (w : World ι) (x : ι × Action) :
    List β :=
  if x.1 = i then emit (w.phone i) x.2 else []

variable (getDistance : Coords → Coords → ℚ → ℚ) (localeCompare : String → String → ℤ)
  (userOf : GoogleUser → User)

/-- One action on one phone. -/
def World.step (w : World ι) (x : ι × Action) : Option (World ι) :=
  ((w.phone x.1).step getDistance localeCompare userOf w.db x.2).map fun d =>
    { db := commit (w.posts x) w.db
      phone := Function.update w.phone x.1 d }

variable {getDistance localeCompare userOf}

theorem World.step_eq_some {w w' : World ι} {i : ι} {a : Action}
    (h : w.step getDistance localeCompare userOf (i, a) = some w') :
    ∃ d, (w.phone i).step getDistance localeCompare userOf w.db a = some d ∧
      w' = ⟨commit ((w.phone i).posts a) w.db, Function.update w.phone i d⟩ := by
  obtain ⟨d, hd, rfl⟩ := Option.map_eq_some_iff.1 h
  exact ⟨d, hd, rfl⟩

theorem World.db_of_step {w w' : World ι} {x : ι × Action}
    (hstep : w.step getDistance localeCompare userOf x = some w') :
    w'.db = commit (w.posts x) w.db := by
  obtain ⟨d, -, rfl⟩ := World.step_eq_some hstep
  rfl

/-- The collection is what the writes have made of it, in their order. -/
theorem World.db_run {w w' : World ι} {xs : List (ι × Action)}
    (hrun : run (World.step getDistance localeCompare userOf) w xs = some w') :
    w'.db = commit (trace (World.step getDistance localeCompare userOf) World.posts w xs) w.db := by
  have hdb : w'.db = commit
      ([] ++ trace (World.step getDistance localeCompare userOf) World.posts w xs) w.db := by
    refine run_history (I := fun l (w' : World ι) => w'.db = commit l w.db) ?_ rfl hrun
    intro l w₁ x w₂ hw₁ hstep
    rw [World.db_of_step hstep, commit_append, ← hw₁]
  exact hdb

/-- What holds of every phone and is kept by the phone that takes a step holds of every phone after
it. -/
theorem World.phones_of_step {Q : ι → App → Prop} {w w' : World ι} {i : ι} {a : Action}
    (hphone : ∀ d, Q i (w.phone i) → App.Next getDistance localeCompare userOf w.db (w.phone i) a d →
      Q i d) (h : ∀ j, Q j (w.phone j))
    (hstep : w.step getDistance localeCompare userOf (i, a) = some w') : ∀ j, Q j (w'.phone j) := by
  obtain ⟨d, hd, rfl⟩ := World.step_eq_some hstep
  intro j
  show Q j (Function.update w.phone i d j)
  by_cases hij : j = i
  · subst hij
    rw [Function.update_self]
    exact hphone d (h j) (App.next_of_step hd)
  · rw [Function.update_of_ne hij]
    exact h j

end

end LetItGo.Systems.SharedReviews
