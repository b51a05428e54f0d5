import Lookalike.Index.Scan
import Lookalike.Proofs.Disk

/-!
# What a scan finds

On a disk whose files have proper names and lie in folders, every file of a snapshot can be read at
its path below the root, and the snapshot has the hash of what is read.
-/

namespace Lookalike

open Path (Proper components join parts isPlain)

namespace Path

theorem proper_of_mem_parts {k : String} {part : List Char} (member : part ∈ parts k)
    (plain : isPlain part) (down : part ≠ ['.', '.']) : Proper (String.ofList part) := by
  have alone : parts (String.ofList part) = [part] := by
    rw [parts, String.toList_ofList]
    exact List.splitOn_eq_singleton (slash_not_mem_parts member)
  refine ⟨?_, ?_, ?_⟩
  · intro other there
    rw [alone] at there
    rw [List.mem_singleton.mp there]
    exact plain
  · rw [names, alone]
    rfl
  · intro same
    have := congrArg String.toList same
    rw [String.toList_ofList] at this
    exact down this

theorem intercalate_names (k : String) : String.intercalate "/" (names k) = k := by
  refine String.toList_injective ?_
  rw [String.toList_intercalate, names, parts, List.map_map]
  have same : String.toList ∘ String.ofList = id := funext fun _ => String.toList_ofList
  rw [same, List.map_id]
  exact List.intercalate_splitOn '/'

theorem Proper.mem_parts {name : String} (h : Proper name) : name.toList ∈ parts name := by
  have single := h.single
  rw [names, List.map_eq_singleton_iff] at single
  obtain ⟨part, alone, rfl⟩ := single
  rw [alone, String.toList_ofList]
  exact List.mem_singleton_self part

/-- The parts of a path that is put together from proper names are these. -/
theorem parts_intercalate {place : List String} (proper : ∀ name ∈ place, Proper name)
    (not_empty : place ≠ []) :
    parts (String.intercalate "/" place) = place.map String.toList := by
  rw [parts, String.toList_intercalate]
  refine List.splitOn_intercalate '/' ?_ (by simpa using not_empty)
  intro part member
  obtain ⟨name, is_name, rfl⟩ := List.mem_map.mp member
  exact slash_not_mem_parts (proper name is_name).mem_parts

theorem names_intercalate {place : List String} (proper : ∀ name ∈ place, Proper name)
    (not_empty : place ≠ []) : names (String.intercalate "/" place) = place := by
  rw [names, parts_intercalate proper not_empty, List.map_map]
  have same : String.ofList ∘ String.toList = id := funext fun _ => String.ofList_toList
  rw [same, List.map_id]

theorem plain_intercalate {place : List String} (proper : ∀ name ∈ place, Proper name)
    (not_empty : place ≠ []) : Plain (String.intercalate "/" place) := by
  intro part member
  rw [parts_intercalate proper not_empty] at member
  obtain ⟨name, is_name, rfl⟩ := List.mem_map.mp member
  exact (proper name is_name).plain _ (proper name is_name).mem_parts

end Path

namespace Disk

/-- Files have proper names and lie in folders. -/
structure Sound (d : Disk) : Prop where
  named : ∀ k ∈ d.files.keys, ∀ part ∈ parts k, isPlain part ∧ part ≠ ['.', '.']
  housed : ∀ k ∈ d.files.keys, ∀ n < (Path.names k).length, d.isFolder ((Path.names k).take n)

instance (d : Disk) : Decidable d.Sound :=
  decidable_of_iff
    ((∀ k ∈ d.files.keys, ∀ part ∈ parts k, isPlain part ∧ part ≠ ['.', '.']) ∧
      ∀ k ∈ d.files.keys, ∀ n < (Path.names k).length, d.isFolder ((Path.names k).take n))
    ⟨fun h => ⟨h.1, h.2⟩, fun h => ⟨h.named, h.housed⟩⟩

variable {d : Disk} {place rest : Location} {bytes : List UInt8}

/-- Proper names lead from a folder through folders to what lies below it. -/
theorem follow_below (proper : ∀ name ∈ rest, Proper name)
    (folders : ∀ n < rest.length, d.isFolder (place ++ rest.take n))
    (last : d.isFolder (place ++ rest) || d.isFile (place ++ rest)) :
    d.follow place rest = .ok (place ++ rest) := by
  induction rest generalizing place with
  | nil => simp [follow]
  | cons name rest ih =>
    have here : d.isFolder place := by simpa using folders 0 (by simp)
    have next : d.isFolder (place ++ [name]) || d.isFile (place ++ [name]) := by
      cases rest with
      | nil => exact last
      | cons other rest =>
        have := folders 1 (by simp)
        simp at this
        simp [this]
    have shift (xs : List String) : place ++ [name] ++ xs = place ++ name :: xs := by simp
    rw [follow_name (proper name List.mem_cons_self), if_pos here, if_pos next]
    rw [ih (fun other member => proper other (List.mem_cons_of_mem _ member)), shift]
    · intro n bound
      rw [shift]
      exact folders (n + 1) (by simpa using bound)
    · rw [shift]
      exact last

theorem below?_eq_some {k : String} {below : Location} (h : below? place k = some below) :
    Path.names k = place ++ below ∧ below ≠ [] := by
  rw [below?] at h
  simp only [Bool.and_eq_true, decide_eq_true_eq, Option.ite_none_right_eq_some, Option.some.injEq]
    at h
  obtain ⟨⟨begins, longer⟩, rfl⟩ := h
  rw [List.isPrefixOf_iff_prefix] at begins
  obtain ⟨rest, whole⟩ := begins
  have whole : Path.names k = place ++ rest := whole.symm
  have dropped : (Path.names k).drop place.length = rest := by rw [whole, List.drop_left]
  refine ⟨?_, ?_⟩
  · show _ = place ++ (Path.names k).drop place.length
    rw [dropped, whole]
  · intro none_left
    have none_left : (Path.names k).drop place.length = [] := none_left
    rw [dropped] at none_left
    have longer : place.length < (Path.names k).length := longer
    rw [whole, none_left] at longer
    simp at longer

theorem Sound.proper (sound : d.Sound) {k : String} (is_key : k ∈ d.files.keys) :
    ∀ name ∈ Path.names k, Proper name := by
  intro name member
  obtain ⟨part, is_part, rfl⟩ := List.mem_map.mp member
  have ⟨plain, down⟩ := sound.named k is_key part is_part
  exact Path.proper_of_mem_parts is_part plain down

/-- A plain path leads on from where the path before it leads. -/
theorem locate_join {root path : String} (at_root : d.locate root = .ok place)
    (plain : Path.Plain path) : d.locate (join root path) = d.follow place (Path.names path) := by
  have followed : d.follow d.workingFolder (components root) = .ok place := by
    rw [locate] at at_root
    split at at_root
    next => cases at_root
    next => exact at_root
  rw [locate, join_ne_empty plain, Path.components_join plain, follow_append, followed]
  rfl

/-- A file below a folder has proper names, and its path from there leads to it. -/
theorem Sound.locate_below (sound : d.Sound) {root : String} (at_root : d.locate root = .ok place)
    {below : Location} (member : (below, bytes) ∈ d.filesBelow place) :
    (∀ name ∈ place ++ below, Proper name) ∧ below ≠ [] ∧
      d.locate (join root (key below)) = .ok (place ++ below) ∧
      d.files.get? (key (place ++ below)) = some bytes := by
  obtain ⟨⟨k, content⟩, entry, found⟩ := List.mem_filterMap.mp member
  obtain ⟨names, is_below, same⟩ := Option.map_eq_some_iff.mp found
  cases same
  obtain ⟨whole, some_name⟩ := below?_eq_some is_below
  have at_key : d.files.get? k = some bytes := (d.files.mem_entries_iff k bytes).mp entry
  have is_key : k ∈ d.files.keys := (d.files.mem_keys_iff k).mpr (by rw [at_key]; rfl)
  have named : ∀ name ∈ place ++ below, Proper name := whole ▸ sound.proper is_key
  have proper : ∀ name ∈ below, Proper name := fun name is_name =>
    named name (List.mem_append_right place is_name)
  have folders : ∀ n < below.length, d.isFolder (place ++ below.take n) := by
    intro n bound
    have house := sound.housed k is_key (place.length + n)
    rw [whole, List.take_length_add_append] at house
    exact house (by rw [List.length_append]; omega)
  have same_key : key (place ++ below) = k := by rw [← whole, key, Path.intercalate_names]
  have file : d.isFolder (place ++ below) || d.isFile (place ++ below) := by
    rw [isFile, same_key, SortedMap.contains_eq_isSome_get?, at_key]
    simp
  refine ⟨named, some_name, ?_, by rw [same_key, at_key]⟩
  rw [key, locate_join at_root (Path.plain_intercalate proper some_name),
    Path.names_intercalate proper some_name, follow_below proper folders file]

/-- A file below a folder is read at its path from there. -/
theorem Sound.read_below (sound : d.Sound) {root : String} (at_root : d.locate root = .ok place)
    {below : Location} (member : (below, bytes) ∈ d.filesBelow place) :
    d.read (join root (key below)) = .ok bytes := by
  obtain ⟨_, _, leads, at_key⟩ := sound.locate_below at_root member
  rw [read, leads]
  dsimp only
  rw [at_key]

end Disk

namespace Scan

/-- What a snapshot has of a path is the hash of a file below the root. -/
theorem source_of_snapshot {d : Disk} {root : String} {exclude : List String} {current : Snapshot}
    (h : snapshot d root exclude = .ok current) {path hash : String}
    (found : current.get? path = some hash) :
    ∃ place names bytes, d.locate root = .ok place ∧ (names, bytes) ∈ d.filesBelow place ∧
      path = Disk.key names ∧ hash = Blake3.hex bytes := by
  rw [snapshot] at h
  split at h
  next => cases h
  next exclusions _ =>
    split at h
    next =>
      cases h
      cases found
    next place at_root =>
      cases h
      obtain ⟨⟨names, bytes⟩, source, same⟩ := List.mem_map.mp (SortedMap.mem_of_get?_ofList found)
      cases same
      exact ⟨place, names, bytes, at_root, (List.mem_filter.mp source).1, rfl, rfl⟩

/-- A file of a snapshot is read at its path, with the hash of the snapshot. -/
theorem snapshot_read {d : Disk} (sound : d.Sound) {root : String} {exclude : List String}
    {current : Snapshot} (h : snapshot d root exclude = .ok current) {path hash : String}
    (found : current.get? path = some hash) :
    ∃ bytes, d.read (join root path) = .ok bytes ∧ hash = Blake3.hex bytes := by
  obtain ⟨place, names, bytes, at_root, below, rfl, same⟩ := source_of_snapshot h found
  exact ⟨bytes, sound.read_below at_root below, same⟩

end Scan

end Lookalike
