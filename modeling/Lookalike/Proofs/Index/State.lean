import Lookalike.Index.Plan
import Lookalike.Proofs.Code.Identity
import Lookalike.Proofs.Index.Catalogue

/-!
# Regular states

In a regular state every chunk of the catalogue was cut from the file that it names, every vector
belongs to a chunk of the catalogue, and all vectors have one length. The empty state is regular,
and what a run does to a state in single steps keeps it so. A regular state need not have a vector
for every chunk: states that do are synchronised.
-/

namespace Lookalike

section Outcomes

variable {ε α β : Type}

theorem bind_eq_ok {x : Except ε α} {f : α → Except ε β} {b : β} :
    (x >>= f) = .ok b ↔ ∃ a, x = .ok a ∧ f a = .ok b := by
  cases x with
  | error e => simp [bind, Except.bind]
  | ok a => simp [bind, Except.bind]

theorem exists_of_isOk {x : Except ε α} (h : x.isOk) : ∃ a, x = .ok a := by
  cases x with
  | error e => cases h
  | ok a => exact ⟨a, rfl⟩

theorem ne_ok_of_isOk {x : Except ε α} (h : x.isOk = false) (a : α) : x ≠ .ok a := by
  rintro rfl
  cases h

theorem exists_of_any {x : Except ε α} {p : α → Bool} (h : x.toOption.any p) :
    ∃ a, x = .ok a ∧ p a := by
  cases x with
  | error e => cases h
  | ok a => exact ⟨a, rfl, h⟩

end Outcomes

namespace IndexState

open VectorTable (startsWith)

structure Regular (s : IndexState) : Prop where
  wellFormed : s.catalogue.WellFormed
  genuine : ∀ id c, s.catalogue.get? id = some c → Chunk.CutFrom c.filePath c
  cataloged : ∀ id, (s.table.get? id).isSome → (s.catalogue.get? id).isSome
  uniform : s.table.Uniform

/-- The chunks and the vectors have the same identities. -/
def Synchronised (s : IndexState) : Prop :=
  ∀ id, (s.catalogue.get? id).isSome ↔ (s.table.get? id).isSome

variable {s : IndexState}

theorem Regular.path_of_found (r : Regular s) {filePath id : String} {c : Chunk}
    (found : s.catalogue.get? id = some c) (h : Chunk.IsIdOf filePath id) :
    c.filePath = filePath := by
  have own := r.wellFormed.keyed id c found
  have identity := (r.genuine id c found).identity
  rw [own] at identity
  exact Chunk.path_unique identity h

theorem Regular.isIdOf (r : Regular s) {id : String} {c : Chunk}
    (found : s.catalogue.get? id = some c) : Chunk.IsIdOf c.filePath id := by
  have own := r.wellFormed.keyed id c found
  have identity := (r.genuine id c found).identity
  rwa [own] at identity

theorem Regular.withManifest (r : Regular s) (m : Option Manifest) :
    Regular { s with manifest := m } := ⟨r.wellFormed, r.genuine, r.cataloged, r.uniform⟩

theorem regular_ofDimension (dimension : Option Nat) : Regular (.ofDimension dimension) where
  wellFormed := Catalogue.wellFormed_empty
  genuine := by intro id c found; simp [ofDimension] at found
  cataloged := by intro id found; simp [ofDimension] at found
  uniform := VectorTable.uniform_ofDimension dimension

section Removal

@[simp]
theorem get?_catalogue_removeChunk (s : IndexState) (gone id : String) :
    (s.removeChunk gone).catalogue.get? id = if gone = id then none else s.catalogue.get? id :=
  Catalogue.get?_remove s.catalogue gone id

@[simp]
theorem get?_table_removeChunk (s : IndexState) (gone id : String) :
    (s.removeChunk gone).table.get? id = if gone = id then none else s.table.get? id :=
  VectorTable.get?_remove s.table gone id

theorem regular_removeChunk (r : Regular s) (gone : String) : Regular (s.removeChunk gone) where
  wellFormed := Catalogue.wellFormed_remove r.wellFormed gone
  genuine := by
    intro id c found
    rw [get?_catalogue_removeChunk] at found
    split at found
    next => cases found
    next => exact r.genuine id c found
  cataloged := by
    intro id found
    rw [get?_table_removeChunk] at found
    rw [get?_catalogue_removeChunk]
    split at found
    next => cases found
    next different =>
      rw [if_neg different]
      exact r.cataloged id found
  uniform := VectorTable.uniform_remove r.uniform gone

variable (r : Regular s) (gone : List String)

include r in
theorem regular_foldl_removeChunk : Regular (gone.foldl removeChunk s) :=
  List.foldlRecOn gone removeChunk r fun _ regular id _ => regular_removeChunk regular id

theorem get?_catalogue_foldl_removeChunk (s : IndexState) (id : String) :
    (gone.foldl removeChunk s).catalogue.get? id =
      if id ∈ gone then none else s.catalogue.get? id :=
  look_foldl_removal (fun s id => s.catalogue.get? id) get?_catalogue_removeChunk gone s id

theorem get?_table_foldl_removeChunk (s : IndexState) (id : String) :
    (gone.foldl removeChunk s).table.get? id = if id ∈ gone then none else s.table.get? id :=
  look_foldl_removal (fun s id => s.table.get? id) get?_table_removeChunk gone s id

theorem files_foldl_removeChunk (s : IndexState) : (gone.foldl removeChunk s).files = s.files :=
  read_foldl files removeChunk (fun _ _ => rfl) gone s

end Removal

section Deletion

/-- A state without a file: its chunks go by the path that they name, its vectors by how their
identities start. -/
def withoutFile (s : IndexState) (path : String) : IndexState :=
  { s with
    catalogue := (s.catalogue.removeFile path).2
    table := (s.table.removeFile path).2
    files := s.files.erase path }

theorem regular_withoutFile (r : Regular s) (path : String) : Regular (s.withoutFile path) where
  wellFormed := Catalogue.wellFormed_removeFile r.wellFormed path
  genuine := by
    intro id c found
    rw [withoutFile, Catalogue.get?_removeFile r.wellFormed] at found
    exact r.genuine id c (Option.filter_eq_some_iff.mp found).1
  cataloged := by
    intro id found
    rw [withoutFile, VectorTable.get?_removeFile] at found
    rw [withoutFile, Catalogue.get?_removeFile r.wellFormed]
    split at found
    next => cases found
    next foreign =>
      obtain ⟨c, there⟩ := Option.isSome_iff_exists.mp (r.cataloged id found)
      have other : c.filePath ≠ path := fun same =>
        foreign (Chunk.startsWith_own (same ▸ r.isIdOf there))
      simp [there, Option.filter, other]
  uniform := VectorTable.uniform_removeFile r.uniform path

/-- The identity starts as those of a file among the given ones do. -/
def StartsUnder (paths : List String) (id : String) : Prop :=
  ∃ p ∈ paths, startsWith (Chunk.idStart p) id

/-- What is left of a regular state after some files were deleted. -/
structure Left (s : IndexState) (deleted : List String) (t : IndexState) : Prop where
  regular : Regular t
  catalogue : ∀ id, t.catalogue.get? id = (s.catalogue.get? id).filter (·.filePath ∉ deleted)
  lost : ∀ id, StartsUnder deleted id → t.table.get? id = none
  kept : ∀ id, ¬StartsUnder deleted id → t.table.get? id = s.table.get? id
  files : ∀ p, t.files.get? p = if p ∈ deleted then none else s.files.get? p

theorem get?_catalogue_foldl_withoutFile (r : Regular s) (deleted : List String) (id : String) :
    (deleted.foldl withoutFile s).catalogue.get? id =
      (s.catalogue.get? id).filter (·.filePath ∉ deleted) := by
  induction deleted generalizing s with
  | nil => cases h : s.catalogue.get? id <;> simp [h, Option.filter]
  | cons first deleted ih =>
    rw [List.foldl_cons, ih (regular_withoutFile r first), withoutFile,
      Catalogue.get?_removeFile r.wellFormed, Option.filter_filter]
    cases h : s.catalogue.get? id with
    | none => rfl
    | some c => simp [Option.filter]

theorem get?_table_foldl_withoutFile (s : IndexState) (deleted : List String) (id : String) :
    (deleted.foldl withoutFile s).table.get? id =
      if ∃ p ∈ deleted, startsWith (Chunk.idStart p) id then none else s.table.get? id := by
  have one (s : IndexState) (path id : String) : (s.withoutFile path).table.get? id =
      if startsWith (Chunk.idStart path) id then none else s.table.get? id :=
    VectorTable.get?_removeFile s.table path id
  exact look_foldl (fun s id => s.table.get? id) (fun _ _ => none) (fun _ _ => rfl) one deleted s id

theorem left_of_foldl (r : Regular s) (deleted : List String) :
    Left s deleted (deleted.foldl withoutFile s) where
  regular := List.foldlRecOn deleted withoutFile r fun _ regular path _ =>
    regular_withoutFile regular path
  catalogue := get?_catalogue_foldl_withoutFile r deleted
  lost := fun id begun => (get?_table_foldl_withoutFile s deleted id).trans (if_pos begun)
  kept := fun id outside => (get?_table_foldl_withoutFile s deleted id).trans (if_neg outside)
  files := look_foldl_removal (fun s path => s.files.get? path)
    (fun s path => SortedMap.get?_erase s.files path) deleted s

end Deletion

end IndexState

end Lookalike
