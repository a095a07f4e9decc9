import Mathlib.Data.List.AList
import Mathlib.Data.List.Induction

/-!
# A document store

Documents live at paths, lists of names in which collections and documents alternate. `set` replaces
the whole document at its path, `get` on a document reads it, and a collection lists the documents
one name below it. The store is a Mathlib `AList` keyed by paths, so a path holds one document.

`mem_docs` reads a collection back document by document, `docs_nodup_ids` says that it lists each
document once, and `get_commit` that after a list of writes a document holds the last one made to
it, or what it held before.
-/

set_option autoImplicit false

namespace LetItGo.Library.DocumentStore

universe u

variable {D : Type u}

abbrev Path := List String

/-- A collection, by its path. -/
structure CollectionRef where
  path : Path
  deriving DecidableEq

/-- A document, by its path. -/
structure DocRef where
  path : Path
  deriving DecidableEq

/-- The documents stored, keyed by their paths. -/
abbrev Store (D : Type u) := AList fun _ : Path => D

/-- A collection at the root. -/
def collection (name : String) : CollectionRef := ⟨[name]⟩

/-- The document with an id, which is kept whole. -/
def CollectionRef.doc (c : CollectionRef) (id : String) : DocRef := ⟨c.path ++ [id]⟩

def DocRef.collection (d : DocRef) (name : String) : CollectionRef := ⟨d.path ++ [name]⟩

/-- The segments of a path, less those that a slash at its beginning or end leaves empty. -/
def segments (path : String) : List (List Char) :=
  (path.toList.splitOn '/').filter fun segment => segment ≠ []

/-- The client takes an id for a path from the collection on, and throws unless it leads to a
document: without an empty segment inside, and with an odd number of segments. -/
def isDocId (id : String) : Bool :=
  (id.toList.tails.all fun rest => not (['/', '/'].isPrefixOf rest)) &&
    (segments id).length % 2 = 1

example : isDocId "COM1" = true ∧ isDocId "E4/E5" = false ∧ isDocId "" = false := by decide

/-- Replace the document. -/
def DocRef.set (d : DocRef) (data : D) (db : Store D) : Store D := db.insert d.path data

def DocRef.get (d : DocRef) (db : Store D) : Option D := db.lookup d.path

/-- The id under which the collection lists the document at path `p`, if it does. -/
def CollectionRef.idOf (c : CollectionRef) (p : Path) : Option String :=
  if p.dropLast = c.path then p.getLast? else none

/-- The documents of a collection with their ids, each once. -/
def CollectionRef.docs (c : CollectionRef) (db : Store D) : List (String × D) :=
  db.entries.filterMap fun e => (c.idOf e.1).map fun id => (id, e.2)

/-! ## References -/

theorem CollectionRef.doc_inj {c c' : CollectionRef} {id id' : String} :
    c.doc id = c'.doc id' ↔ c = c' ∧ id = id' := by
  constructor
  · intro h
    have hpath : c.path ++ [id] = c'.path ++ [id'] := congrArg DocRef.path h
    obtain ⟨hc, hid⟩ := List.append_inj' hpath rfl
    exact ⟨by cases c; cases c'; cases hc; rfl, List.singleton_inj.1 hid⟩
  · rintro ⟨rfl, rfl⟩
    rfl

theorem DocRef.collection_inj {d d' : DocRef} {name name' : String} :
    d.collection name = d'.collection name' ↔ d = d' ∧ name = name' := by
  constructor
  · intro h
    have hpath : d.path ++ [name] = d'.path ++ [name'] := congrArg CollectionRef.path h
    obtain ⟨hd, hname⟩ := List.append_inj' hpath rfl
    exact ⟨by cases d; cases d'; cases hd; rfl, List.singleton_inj.1 hname⟩
  · rintro ⟨rfl, rfl⟩
    rfl

theorem CollectionRef.idOf_eq_some_iff {c : CollectionRef} {p : Path} {id : String} :
    c.idOf p = some id ↔ p = (c.doc id).path := by
  unfold CollectionRef.idOf CollectionRef.doc
  constructor
  · intro h
    split at h
    · next hc =>
      obtain ⟨init, rfl⟩ := List.getLast?_eq_some_iff.1 h
      rw [← hc, List.dropLast_concat]
    · cases h
  · rintro rfl
    simp

/-! ## Reading after writing -/

@[simp] theorem DocRef.get_set_self (d : DocRef) (data : D) (db : Store D) :
    d.get (d.set data db) = some data :=
  AList.lookup_insert db

theorem DocRef.get_set_of_ne {d d' : DocRef} (h : d' ≠ d) (data : D) (db : Store D) :
    d'.get (d.set data db) = d'.get db := by
  apply AList.lookup_insert_ne
  intro hpath
  apply h
  cases d
  cases d'
  cases hpath
  rfl

theorem DocRef.get_set (d d' : DocRef) (data : D) (db : Store D) :
    d'.get (d.set data db) = if d' = d then some data else d'.get db := by
  split
  · next h => rw [h, DocRef.get_set_self]
  · next h => exact DocRef.get_set_of_ne h data db

/-- A collection lists exactly the documents that can be read one name below it. -/
theorem mem_docs {c : CollectionRef} {db : Store D} {id : String} {data : D} :
    (id, data) ∈ c.docs db ↔ (c.doc id).get db = some data := by
  have hlookup : (c.doc id).get db = some data ↔ ⟨(c.doc id).path, data⟩ ∈ db.entries :=
    AList.mem_lookup_iff
  rw [hlookup, CollectionRef.docs, List.mem_filterMap]
  constructor
  · rintro ⟨⟨p, data'⟩, hmem, hid⟩
    obtain ⟨id', hid', heq⟩ := Option.map_eq_some_iff.1 hid
    cases heq
    rw [CollectionRef.idOf_eq_some_iff] at hid'
    subst hid'
    exact hmem
  · intro hmem
    exact ⟨_, hmem, by rw [CollectionRef.idOf_eq_some_iff.2 rfl]; rfl⟩

/-- A collection lists each document once. -/
theorem docs_nodup_ids (c : CollectionRef) (db : Store D) :
    ((c.docs db).map Prod.fst).Nodup := by
  unfold CollectionRef.docs
  rw [List.Nodup, List.pairwise_map]
  -- two entries with one id have one path
  apply (List.nodupKeys_iff_pairwise.1 db.nodupKeys).filterMap
  intro e e' hne x hx y hy hxy
  obtain ⟨id, hid, rfl⟩ := Option.map_eq_some_iff.1 hx
  obtain ⟨id', hid', rfl⟩ := Option.map_eq_some_iff.1 hy
  have hids : id = id' := hxy
  subst hids
  rw [CollectionRef.idOf_eq_some_iff] at hid hid'
  exact hne (hid.trans hid'.symm)

/-- The documents a collection lists under one id. -/
theorem docs_filter_id (c : CollectionRef) (db : Store D) (id : String) :
    (c.docs db).filter (fun x => x.1 = id) = (((c.doc id).get db).map fun d => (id, d)).toList := by
  have hnodup := docs_nodup_ids c db
  cases hget : (c.doc id).get db with
  | none =>
    apply List.filter_eq_nil_iff.2
    rintro ⟨id', data⟩ hmem hid
    obtain rfl : id' = id := of_decide_eq_true hid
    rw [mem_docs, hget] at hmem
    cases hmem
  | some data =>
    have hmem : (id, data) ∈ c.docs db := mem_docs.2 hget
    -- the one document with this id, and the others before and after it
    obtain ⟨pre, post, hsplit⟩ := List.append_of_mem hmem
    rw [hsplit, List.map_append, List.map_cons, List.nodup_middle, List.nodup_cons,
      List.mem_append] at hnodup
    have hnone : ∀ l : List (String × D), id ∉ l.map Prod.fst →
        l.filter (fun x => x.1 = id) = [] := by
      intro l hl
      apply List.filter_eq_nil_iff.2
      intro x hx hid
      exact hl (List.mem_map.2 ⟨x, hx, of_decide_eq_true hid⟩)
    rw [hsplit, List.filter_append, List.filter_cons_of_pos (by simp),
      hnone pre fun h => hnodup.1 (Or.inl h), hnone post fun h => hnodup.1 (Or.inr h)]
    rfl

/-- Stores in which a collection's documents read the same list the same. -/
theorem docs_perm {c : CollectionRef} {db db' : Store D}
    (h : ∀ id, (c.doc id).get db = (c.doc id).get db') : (c.docs db).Perm (c.docs db') := by
  have hnodup : ∀ db : Store D, (c.docs db).Nodup := fun db => (docs_nodup_ids c db).of_map _
  rw [List.perm_ext_iff_of_nodup (hnodup db) (hnodup db')]
  rintro ⟨id, data⟩
  rw [mem_docs, mem_docs, h id]

/-! ## Lists of writes -/

/-- The store after the writes, in order. -/
def commit (ws : List (DocRef × D)) (db : Store D) : Store D :=
  ws.foldl (fun db w => w.1.set w.2 db) db

/-- The last of the writes that goes to `d`. -/
def lastWrite (ws : List (DocRef × D)) (d : DocRef) : Option D :=
  (ws.reverse.find? fun w => w.1 = d).map Prod.snd

theorem commit_append (ws ws' : List (DocRef × D)) (db : Store D) :
    commit (ws ++ ws') db = commit ws' (commit ws db) :=
  List.foldl_append

theorem lastWrite_concat (ws : List (DocRef × D)) (w : DocRef × D) (d : DocRef) :
    lastWrite (ws ++ [w]) d = if w.1 = d then some w.2 else lastWrite ws d := by
  unfold lastWrite
  rw [List.reverse_concat, List.find?_cons]
  by_cases h : w.1 = d <;> simp [h]

/-- **Last write wins.** -/
theorem get_commit (ws : List (DocRef × D)) (d : DocRef) (db : Store D) :
    d.get (commit ws db) = (lastWrite ws d).or (d.get db) := by
  induction ws using List.reverseRecOn with
  | nil => rfl
  | append_singleton ws w ih =>
    have hset : commit (ws ++ [w]) db = w.1.set w.2 (commit ws db) := commit_append ws [w] db
    rw [hset, lastWrite_concat, DocRef.get_set, ih]
    by_cases h : w.1 = d
    · rw [if_pos h, if_pos h.symm]
      rfl
    · rw [if_neg h, if_neg fun h' => h h'.symm]

end LetItGo.Library.DocumentStore
