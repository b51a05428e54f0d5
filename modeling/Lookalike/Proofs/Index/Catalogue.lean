import Lookalike.Index.Catalogue
import Lookalike.Proofs.SortedMap

/-!
# Well-formed catalogues

In a well-formed catalogue the order lists the identities that are found, each once, and every
chunk stands under its own identity. All operations keep this, and each has one equation that tells
what is found afterwards.
-/

namespace Lookalike.Catalogue

structure Listed (c : Catalogue) : Prop where
  distinct : c.ids.Nodup
  listed : ∀ id, id ∈ c.ids ↔ (c.get? id).isSome

structure WellFormed (c : Catalogue) : Prop extends Listed c where
  keyed : ∀ id x, c.get? id = some x → x.id = id

theorem contains_eq_isSome_get? (c : Catalogue) (id : String) :
    c.contains id = (c.get? id).isSome := Std.TreeMap.contains_eq_isSome_getElem?

theorem size_eq_length_ids (c : Catalogue) : c.size = c.ids.length := by simp [size, ids]

section Put

@[simp]
theorem get?_empty (id : String) : empty.get? id = none := by
  simp [empty, get?]

@[simp]
theorem get?_put (c : Catalogue) (key : String) (x : Chunk) (id : String) :
    (c.put key x).get? id = if key = id then some x else c.get? id := by
  simp [put, get?, Std.TreeMap.getElem?_insert]

theorem ids_put (c : Catalogue) (key : String) (x : Chunk) :
    (c.put key x).ids = if c.contains key then c.ids else c.ids ++ [key] := by
  rw [put, ids, ids, contains]
  split
  next => rfl
  next => simp

@[simp]
theorem get?_set (c : Catalogue) (x : Chunk) (id : String) :
    (c.set x).get? id = if x.id = id then some x else c.get? id := get?_put c x.id x id

theorem wellFormed_empty : WellFormed empty where
  distinct := by simp [empty, ids]
  listed := by simp [empty, ids, get?]
  keyed := by simp

theorem listed_put {c : Catalogue} (w : Listed c) (key : String) (x : Chunk) :
    Listed (c.put key x) where
  distinct := by
    rw [ids_put]
    split
    next => exact w.distinct
    next fresh =>
      refine List.nodup_append.mpr ⟨w.distinct, by simp, fun id hid other hother same => ?_⟩
      rw [List.mem_singleton.mp hother] at same
      rw [same, w.listed, ← contains_eq_isSome_get?] at hid
      exact fresh hid
  listed := by
    intro id
    rw [ids_put, get?_put, contains_eq_isSome_get?]
    by_cases same : key = id
    · subst same
      split
      next known => simp [w.listed, known]
      next => simp
    · split
      next => simp [w.listed]
      next => simp [w.listed, Ne.symm same]

theorem wellFormed_put {c : Catalogue} (w : WellFormed c) {key : String} {x : Chunk}
    (own : x.id = key) : WellFormed (c.put key x) where
  toListed := listed_put w.toListed key x
  keyed := by
    intro id y found
    rw [get?_put] at found
    split at found
    next same =>
      cases found
      exact own.trans same
    next => exact w.keyed id y found

theorem wellFormed_set {c : Catalogue} (w : WellFormed c) (x : Chunk) : WellFormed (c.set x) :=
  wellFormed_put w rfl

end Put

section Chunks

variable {c : Catalogue}

theorem mem_chunks (w : WellFormed c) {x : Chunk} : x ∈ c.chunks ↔ c.get? x.id = some x := by
  simp only [chunks, List.mem_filterMap]
  constructor
  · rintro ⟨id, _, found⟩
    have own := w.keyed id x found
    rw [own]
    exact found
  · intro found
    exact ⟨x.id, (w.listed x.id).mpr (by simp [found]), found⟩

/-- The chunks stand in the order of their identities. -/
theorem map_id_chunks (w : WellFormed c) : c.chunks.map (·.id) = c.ids := by
  have each : ∀ id ∈ c.ids, ∃ x, c.get? id = some x ∧ x.id = id := by
    intro id hid
    obtain ⟨x, found⟩ := Option.isSome_iff_exists.mp ((w.listed id).mp hid)
    exact ⟨x, found, w.keyed id x found⟩
  show (c.ids.filterMap (c.get? ·)).map (·.id) = c.ids
  generalize c.ids = ids at each
  induction ids with
  | nil => rfl
  | cons id ids ih =>
    obtain ⟨x, found, own⟩ := each id List.mem_cons_self
    have others := ih fun id hid => each id (List.mem_cons_of_mem _ hid)
    simp [found, own, others]

theorem mem_ofFile (w : WellFormed c) {filePath : String} {x : Chunk} :
    x ∈ c.ofFile filePath ↔ c.get? x.id = some x ∧ x.filePath = filePath := by
  simp [ofFile, mem_chunks w]

/-- The identities of the chunks of a file are those under which such a chunk is found. -/
theorem mem_ids_ofFile (w : WellFormed c) {filePath id : String} :
    id ∈ (c.ofFile filePath).map (·.id) ↔ ∃ x, c.get? id = some x ∧ x.filePath = filePath := by
  simp only [List.mem_map, mem_ofFile w]
  constructor
  · rintro ⟨x, ⟨found, path⟩, rfl⟩
    exact ⟨x, found, path⟩
  · rintro ⟨x, found, path⟩
    have own := w.keyed id x found
    exact ⟨x, ⟨own.symm ▸ found, path⟩, own⟩

theorem findContent?_eq_some (w : WellFormed c) {contentHash : String} {x : Chunk}
    (h : c.findContent? contentHash = some x) :
    c.get? x.id = some x ∧ x.contentHash = contentHash := by
  have found := List.mem_of_find?_eq_some h
  have same := List.find?_some h
  exact ⟨(mem_chunks w).mp found, by simpa using same⟩

end Chunks

section Removal

variable {c : Catalogue}

theorem get?_remove (c : Catalogue) (gone id : String) :
    (c.remove gone).get? id = if gone = id then none else c.get? id := by
  simp only [remove]
  split
  next => simp [get?, Std.TreeMap.getElem?_erase]
  next absent =>
    split
    next same =>
      subst same
      have none_there : ¬(c.get? gone).isSome := by
        rw [← contains_eq_isSome_get?]
        exact absent
      simpa using none_there
    next => rfl

theorem ids_remove (w : WellFormed c) (gone : String) :
    (c.remove gone).ids = c.ids.filter (· ≠ gone) := by
  simp only [remove]
  split
  next => simp [ids]
  next absent =>
    symm
    rw [List.filter_eq_self]
    intro id hid
    have there : c.contains id := by
      rw [contains_eq_isSome_get?]
      exact (w.listed id).mp hid
    have different : id ≠ gone := fun same => absent (same ▸ there)
    simpa using different

theorem wellFormed_remove (w : WellFormed c) (gone : String) : WellFormed (c.remove gone) where
  distinct := by
    rw [ids_remove w]
    exact w.distinct.filter _
  listed := by
    intro id
    rw [ids_remove w, get?_remove, List.mem_filter, w.listed]
    by_cases same : gone = id
    · simp [same]
    · simp [same, Ne.symm same]
  keyed := by
    intro id x found
    rw [get?_remove] at found
    split at found
    next => cases found
    next => exact w.keyed id x found

theorem get?_removeFile_eq_ite (c : Catalogue) (filePath id : String) :
    (c.removeFile filePath).2.get? id =
      if id ∈ (c.removeFile filePath).1 then none else c.get? id := by
  have one (m : Std.TreeMap String Chunk) (gone wanted : String) :
      (m.erase gone)[wanted]? = if gone = wanted then none else m[wanted]? := by
    simp [Std.TreeMap.getElem?_erase]
  exact look_foldl_removal (fun m id => m[id]?) one ((c.ofFile filePath).map (·.id)) c.byId id

theorem get?_removeFile (w : WellFormed c) (filePath id : String) :
    (c.removeFile filePath).2.get? id = (c.get? id).filter (·.filePath ≠ filePath) := by
  rw [get?_removeFile_eq_ite, removeFile]
  simp only [mem_ids_ofFile w]
  cases there : c.get? id with
  | none => simp
  | some x => by_cases path : x.filePath = filePath <;> simp [path, Option.filter]

theorem ids_removeFile (c : Catalogue) (filePath : String) :
    (c.removeFile filePath).2.ids =
      c.ids.filter fun id => ((c.removeFile filePath).2.get? id).isSome := by
  simp [removeFile, ids, get?]

theorem wellFormed_removeFile (w : WellFormed c) (filePath : String) :
    WellFormed (c.removeFile filePath).2 where
  distinct := by
    rw [ids_removeFile]
    exact w.distinct.filter _
  listed := by
    intro id
    rw [ids_removeFile, List.mem_filter, w.listed, get?_removeFile w]
    cases c.get? id <;> simp
  keyed := by
    intro id x found
    rw [get?_removeFile w] at found
    exact w.keyed id x (Option.filter_eq_some_iff.mp found).1

end Removal

end Lookalike.Catalogue
