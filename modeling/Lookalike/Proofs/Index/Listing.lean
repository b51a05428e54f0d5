import Lookalike.Proofs.Index.CatalogueDocument
import Mathlib.Data.List.Basic

/-!
# Catalogues as lists

A catalogue keeps its chunks in a search tree and their order in a vector, and every operation
changes both. Together they stand for one list of chunks with different identities: what is done to
a catalogue is done to this list, and what is looked up in a catalogue is looked up in the list. A
document is loaded as the list of its members, or not at all.
-/

namespace Lookalike.Catalogue

/-- What can be done to a catalogue. -/
inductive Change where
  | set (x : Chunk)
  | remove (id : String)
  | removeFile (filePath : String)
  | load (d : Disk) (folder : String)

/-- Carries out a change. Loading takes the catalogue of the document, if that can be loaded. -/
def changed (c : Catalogue) : Change → Catalogue
  | .set x => c.set x
  | .remove id => c.remove id
  | .removeFile filePath => (c.removeFile filePath).2
  | .load d folder => (load d folder).toOption.getD c

def changedBy (c : Catalogue) (changes : List Change) : Catalogue := changes.foldl changed c

section Lists

/-- The chunks of a document in order. Every member has to be a chunk under its own identity, and no
identity may be repeated. -/
def listOf? (bytes : Bytes) : Option (List Chunk) := do
  let members := Json.readMembers bytes
  let xs ← members.found.mapM memberChunk?
  guard (members.complete ∧ (xs.map (·.id)).Nodup)
  return xs

/-- The chunks of the document in a folder. -/
def listIn? (d : Disk) (folder : String) : Option (List Chunk) :=
  (IndexContents.ofDisk d folder catalogueName).toOption.bind listOf?

/-- Carries out a change on a list of chunks. A chunk takes the place of the one that has its
identity; if there is none, it comes last. -/
def listChanged (xs : List Chunk) : Change → List Chunk
  | .set x =>
    if x.id ∈ xs.map (·.id) then xs.map fun y => if y.id = x.id then x else y else xs ++ [x]
  | .remove id => xs.filter (·.id ≠ id)
  | .removeFile filePath => xs.filter (·.filePath ≠ filePath)
  | .load d folder => (listIn? d folder).getD xs

def listChangedBy (xs : List Chunk) (changes : List Change) : List Chunk :=
  changes.foldl listChanged xs

end Lists

/-- The catalogue stands for the list: it is well-formed, and whatever is read off it is the same
for the list. -/
structure Represents (c : Catalogue) (xs : List Chunk) : Prop extends WellFormed c where
  chunks : c.chunks = xs
  ids : c.ids = xs.map (·.id)
  size : c.size = xs.length
  get? : ∀ id, c.get? id = xs.find? (·.id = id)
  ofFile : ∀ filePath, c.ofFile filePath = xs.filter (·.filePath = filePath)
  removed : ∀ filePath, (c.removeFile filePath).1 = (xs.filter (·.filePath = filePath)).map (·.id)
  findContent? : ∀ contentHash, c.findContent? contentHash =
    xs.find? (·.contentHash = contentHash)

variable {c d : Catalogue}

theorem chunks_eq (c : Catalogue) : c.chunks = c.ids.filterMap (c.get? ·) := rfl

theorem get?_eq_find? (w : WellFormed c) (id : String) :
    c.get? id = c.chunks.find? (·.id = id) := by
  cases found : c.get? id with
  | none =>
    symm
    rw [List.find?_eq_none]
    intro x member same
    have own := (mem_chunks w).mp member
    rw [of_decide_eq_true same, found] at own
    cases own
  | some x =>
    have own := w.keyed id x found
    have member : x ∈ c.chunks := (mem_chunks w).mpr (own.symm ▸ found)
    have known : (c.chunks.find? (·.id = id)).isSome :=
      List.find?_isSome.mpr ⟨x, member, by simpa using own⟩
    obtain ⟨y, first⟩ := Option.isSome_iff_exists.mp known
    have at_y := (mem_chunks w).mp (List.mem_of_find?_eq_some first)
    have same : y.id = id := by simpa using List.find?_some first
    rw [same, found] at at_y
    rw [first, at_y]

/-- A well-formed catalogue stands for the list of its chunks. -/
theorem represents_chunks (w : WellFormed c) : Represents c c.chunks where
  toWellFormed := w
  chunks := rfl
  ids := (map_id_chunks w).symm
  size := by rw [size_eq_length_ids, ← map_id_chunks w, List.length_map]
  get? := get?_eq_find? w
  ofFile _ := rfl
  removed _ := rfl
  findContent? _ := rfl

section Edits

/-- If a catalogue is left with those of its chunks that pass a test, their order stays. -/
theorem chunks_of_filter {keep : Chunk → Bool}
    (ids : d.ids = c.ids.filter fun id => (d.get? id).isSome)
    (found : ∀ id, d.get? id = (c.get? id).filter keep) : d.chunks = c.chunks.filter keep := by
  rw [chunks_eq, chunks_eq, ids, List.filterMap_filter, List.filter_filterMap]
  refine List.filterMap_congr fun id _ => ?_
  rw [found]
  cases (c.get? id).filter keep <;> simp

theorem chunks_remove (w : WellFormed c) (gone : String) :
    (c.remove gone).chunks = c.chunks.filter (·.id ≠ gone) := by
  have found (id : String) : (c.remove gone).get? id = (c.get? id).filter (·.id ≠ gone) := by
    rw [get?_remove]
    cases there : c.get? id with
    | none => simp
    | some x =>
      have own := w.keyed id x there
      by_cases same : gone = id <;> simp [Option.filter, own, same, eq_comm]
  refine chunks_of_filter ?_ found
  rw [ids_remove w]
  refine List.filter_congr fun id listed => ?_
  have there := (w.listed id).mp listed
  rw [get?_remove]
  by_cases same : gone = id
  · simp [same]
  · simp [same, Ne.symm same, there]

theorem chunks_removeFile (w : WellFormed c) (filePath : String) :
    (c.removeFile filePath).2.chunks = c.chunks.filter (·.filePath ≠ filePath) :=
  chunks_of_filter (ids_removeFile c filePath) (get?_removeFile w filePath)

theorem chunks_set (w : WellFormed c) (x : Chunk) : (c.set x).chunks =
    if x.id ∈ c.chunks.map (·.id) then c.chunks.map fun y => if y.id = x.id then x else y
    else c.chunks ++ [x] := by
  have ids : (c.set x).ids = if c.contains x.id then c.ids else c.ids ++ [x.id] := ids_put c x.id x
  have known_iff : x.id ∈ c.chunks.map (·.id) ↔ c.contains x.id := by
    rw [map_id_chunks w, w.listed, contains_eq_isSome_get?]
  rw [chunks_eq, ids]
  simp only [known_iff]
  split
  next known =>
    rw [chunks_eq, List.map_filterMap]
    refine List.filterMap_congr fun id _ => ?_
    rw [get?_set]
    cases there : c.get? id with
    | none =>
      have other : x.id ≠ id := by
        rintro rfl
        rw [contains_eq_isSome_get?, there] at known
        cases known
      simp [other]
    | some y => by_cases same : x.id = id <;> simp [w.keyed id y there, same, eq_comm]
  next unknown =>
    rw [chunks_eq, List.filterMap_append]
    refine congrArg₂ (· ++ ·) (List.filterMap_congr fun id listed => ?_) (by simp)
    have other : x.id ≠ id := by
      rintro rfl
      rw [w.listed, ← contains_eq_isSome_get?] at listed
      exact unknown listed
    rw [get?_set, if_neg other]

end Edits

section Loading

theorem listOf?_eq_some {bytes : Bytes} {xs : List Chunk} : listOf? bytes = some xs ↔
    (Json.readMembers bytes).complete ∧
      (Json.readMembers bytes).found.map memberChunk? = xs.map some ∧ (xs.map (·.id)).Nodup := by
  simp only [listOf?, guard, Option.bind_eq_bind, Option.bind_eq_some_iff, Json.mapM_eq_some_iff,
    Option.pure_def, Option.some.injEq]
  constructor
  · rintro ⟨ys, reads, _, passed, rfl⟩
    split at passed
    next good => exact ⟨good.1, reads, good.2⟩
    next => cases passed
  · rintro ⟨complete, reads, distinct⟩
    exact ⟨xs, reads, (), if_pos ⟨complete, distinct⟩, rfl⟩

/-- A document that is taken in is the list of the chunks of the catalogue. -/
theorem Orderly.listOf? {bytes : Bytes} {entries : List (String × Chunk)}
    (o : Orderly bytes c entries) : listOf? bytes = some c.chunks := by
  have chunks : c.chunks = entries.map (·.2) := by
    rw [chunks_eq, o.ids, List.filterMap_map, ← List.filterMap_eq_map]
    exact List.filterMap_congr fun e member => o.found e member
  have own_ids : (entries.map (·.2)).map (·.id) = entries.map (·.1) := by
    rw [List.map_map]
    exact List.map_congr_left fun e member => o.keyed e member
  have reads := congrArg (List.map fun (key, x?) =>
    Option.filter (fun x : Chunk => key = some x.id) x?) o.reads
  rw [List.map_map, List.map_map] at reads
  refine listOf?_eq_some.mpr ⟨o.complete, ?_, by rw [chunks, own_ids]; exact o.distinct⟩
  rw [chunks, List.map_map]
  refine Eq.trans reads (List.map_congr_left fun e member => ?_)
  simp [o.keyed e member]

/-- A document is loaded as the list of its chunks, or it is turned down as a list as well. -/
theorem listOf?_eq (path : String) (bytes : Bytes) :
    listOf? bytes = (readCatalogue path bytes).toOption.map chunks := by
  cases read : readCatalogue path bytes with
  | ok c =>
    obtain ⟨entries, orderly⟩ := orderly_of_readCatalogue read
    exact orderly.listOf?
  | error e =>
    refine Option.eq_none_iff_forall_ne_some.mpr fun xs listed => ?_
    obtain ⟨complete, reads, distinct⟩ := listOf?_eq_some.mp listed
    obtain ⟨c, taken_in, _⟩ := readCatalogue_grown complete reads distinct path
    rw [read] at taken_in
    cases taken_in

theorem listIn?_eq (d : Disk) (folder : String) :
    listIn? d folder = (load d folder).toOption.map chunks := by
  rw [listIn?, load, loadDocument, IndexContents.document]
  cases IndexContents.ofDisk d folder catalogueName with
  | ok bytes => exact listOf?_eq _ bytes
  | error e => cases e <;> rfl

theorem wellFormed_load {d : Disk} {folder : String} (loaded : load d folder = .ok c) :
    WellFormed c := by
  rw [load, loadDocument, IndexContents.document] at loaded
  split at loaded
  next => exact wellFormed_readCatalogue loaded
  next => cases loaded
  next => cases loaded

end Loading

/-- A change of a catalogue is the change of the list that it stands for. -/
theorem Represents.changed {xs : List Chunk} (h : Represents c xs) (change : Change) :
    Represents (c.changed change) (listChanged xs change) := by
  have w := h.toWellFormed
  obtain rfl := h.chunks
  cases change with
  | set x =>
    rw [listChanged, ← chunks_set w]
    exact represents_chunks (wellFormed_set w x)
  | remove id =>
    rw [listChanged, ← chunks_remove w]
    exact represents_chunks (wellFormed_remove w id)
  | removeFile filePath =>
    rw [listChanged, ← chunks_removeFile w]
    exact represents_chunks (wellFormed_removeFile w filePath)
  | load d folder =>
    rw [listChanged, listIn?_eq, Catalogue.changed]
    cases loaded : load d folder with
    | ok e => exact represents_chunks (wellFormed_load loaded)
    | error => exact h

theorem Represents.changedBy {xs : List Chunk} (h : Represents c xs) (changes : List Change) :
    Represents (c.changedBy changes) (listChangedBy xs changes) := by
  induction changes generalizing c xs with
  | nil => exact h
  | cons change changes ih => exact ih (h.changed change)

/-- Whatever is set, removed and loaded, in whatever order: the order of the catalogue has no
identity twice and lists those that are found, each chunk is found under its own identity, and all
that is read off the catalogue is read off the list to which the same was done. -/
theorem represents_changed_list (changes : List Change) :
    Represents (empty.changedBy changes) (listChangedBy [] changes) :=
  (represents_chunks wellFormed_empty).changedBy changes

end Lookalike.Catalogue
