import Lookalike.Index.Snapshot
import Lookalike.Proofs.SortedMap

/-!
# Differences of snapshots

What the four classes of a difference hold: a path is deleted if only the previous snapshot has it,
it is to be processed if the current one has it with a hash that the previous one does not, and it
is unchanged if both have it with the same hash. The classes of the current paths do not overlap.
-/

namespace Lookalike

theorem FileDiff.empty_of_unchanged {diff : FileDiff} (h : diff.hasChanges = false) :
    diff.deleted = [] ∧ diff.toProcess = [] := by
  simp only [hasChanges, Bool.not_eq_false', Bool.and_eq_true, List.isEmpty_iff] at h
  obtain ⟨⟨added, modified⟩, deleted⟩ := h
  refine ⟨deleted, ?_⟩
  rw [toProcess, added, modified]
  exact (perm_sorted _ _).eq_nil

theorem FileDiff.toProcess_ne_nil {diff : FileDiff} (changes : diff.hasChanges)
    (none_deleted : diff.deleted = []) : diff.toProcess ≠ [] := by
  intro nothing
  have parts := perm_sorted (fun a b => decide (a ≤ b)) (diff.added ++ diff.modified)
  rw [show sorted _ _ = diff.toProcess from rfl, nothing] at parts
  obtain ⟨added, modified⟩ := List.append_eq_nil_iff.mp parts.symm.eq_nil
  simp [hasChanges, added, modified, none_deleted] at changes

theorem FileDiff.mem_toProcess {diff : FileDiff} {path : String} :
    path ∈ diff.toProcess ↔ path ∈ diff.added ∨ path ∈ diff.modified := by
  rw [toProcess, (perm_sorted _ _).mem_iff, List.mem_append]

namespace Snapshot

variable (current previous : Snapshot)

theorem mem_deleted (path : String) : path ∈ (diff current previous).deleted ↔
    (previous.get? path).isSome ∧ current.get? path = none := by
  simp [diff, SortedMap.mem_keys_iff, SortedMap.contains_eq_isSome_get?]

/-- The paths of one class are those whose hash is told to be so. -/
theorem mem_class (c : Change) (path : String) :
    path ∈ (current.entries.filter fun (path, hash) => change previous path hash = c).map (·.1) ↔
      ∃ hash, current.get? path = some hash ∧ change previous path hash = c := by
  simp only [List.mem_map, List.mem_filter, decide_eq_true_eq]
  constructor
  · rintro ⟨⟨p, hash⟩, ⟨member, same⟩, rfl⟩
    exact ⟨hash, (current.mem_entries_iff p hash).mp member, same⟩
  · rintro ⟨hash, found, same⟩
    exact ⟨(path, hash), ⟨(current.mem_entries_iff path hash).mpr found, same⟩, rfl⟩

section Change

variable {previous : Snapshot} {path hash : String}

theorem change_eq_added : change previous path hash = .added ↔ previous.get? path = none := by
  rw [change]
  cases previous.get? path with
  | none => simp
  | some old => by_cases same : old = hash <;> simp [same]

theorem change_eq_modified : change previous path hash = .modified ↔
    ∃ old, previous.get? path = some old ∧ old ≠ hash := by
  rw [change]
  cases previous.get? path with
  | none => simp
  | some old => by_cases same : old = hash <;> simp [same]

theorem change_eq_unchanged :
    change previous path hash = .unchanged ↔ previous.get? path = some hash := by
  rw [change]
  cases previous.get? path with
  | none => simp
  | some old => by_cases same : old = hash <;> simp [same]

theorem change_ne_unchanged :
    (change previous path hash = .added ∨ change previous path hash = .modified) ↔
      previous.get? path ≠ some hash := by
  rw [Ne, ← change_eq_unchanged]
  cases change previous path hash <;> simp

end Change

theorem mem_added (path : String) : path ∈ (diff current previous).added ↔
    (current.get? path).isSome ∧ previous.get? path = none := by
  refine (mem_class current previous .added path).trans ?_
  simp only [change_eq_added, exists_and_right, Option.isSome_iff_exists]

theorem mem_modified (path : String) : path ∈ (diff current previous).modified ↔
    ∃ hash old, current.get? path = some hash ∧ previous.get? path = some old ∧ old ≠ hash := by
  refine (mem_class current previous .modified path).trans ?_
  simp only [change_eq_modified, exists_and_left]

theorem mem_unchanged (path : String) : path ∈ (diff current previous).unchanged ↔
    ∃ hash, current.get? path = some hash ∧ previous.get? path = some hash := by
  refine (mem_class current previous .unchanged path).trans ?_
  simp only [change_eq_unchanged]

theorem mem_toProcess (path : String) : path ∈ (diff current previous).toProcess ↔
    ∃ hash, current.get? path = some hash ∧ previous.get? path ≠ some hash := by
  rw [FileDiff.mem_toProcess]
  simp only [diff, mem_class, ← change_ne_unchanged]
  constructor
  · rintro (⟨hash, found, added⟩ | ⟨hash, found, modified⟩)
    · exact ⟨hash, found, .inl added⟩
    · exact ⟨hash, found, .inr modified⟩
  · rintro ⟨hash, found, added | modified⟩
    · exact .inl ⟨hash, found, added⟩
    · exact .inr ⟨hash, found, modified⟩

/-- A path that is neither deleted nor processed is recorded as it is. -/
theorem get?_of_left_alone {current previous : Snapshot} {path : String}
    (present : path ∉ (diff current previous).deleted)
    (uncut : path ∉ (diff current previous).toProcess) :
    previous.get? path = current.get? path := by
  rw [mem_deleted] at present
  rw [mem_toProcess] at uncut
  cases now : current.get? path with
  | none =>
    rw [now] at present
    simpa using present
  | some hash => exact Classical.byContradiction fun other => uncut ⟨hash, now, other⟩

theorem nodup_class (c : Change) :
    ((current.entries.filter fun (path, hash) => change previous path hash = c).map (·.1)).Nodup :=
  (List.filter_sublist.map _).nodup current.nodup_keys

theorem nodup_toProcess : (diff current previous).toProcess.Nodup := by
  rw [FileDiff.toProcess, (perm_sorted _ _).nodup_iff]
  refine List.nodup_append.mpr ⟨nodup_class current previous .added,
    nodup_class current previous .modified, ?_⟩
  rintro path added other modified rfl
  obtain ⟨hash, found, is_added⟩ := (mem_class current previous .added path).mp added
  obtain ⟨hash', found', is_modified⟩ := (mem_class current previous .modified path).mp modified
  rw [found] at found'
  cases found'
  rw [is_added] at is_modified
  cases is_modified

theorem sorted_toProcess : (diff current previous).toProcess.Pairwise (· ≤ ·) := by
  have ordered := pairwise_sorted (fun a b : String => decide (a ≤ b))
    (by simpa using String.le_total) (by simpa using fun _ _ _ => String.le_trans)
    ((diff current previous).added ++ (diff current previous).modified)
  simpa [FileDiff.toProcess] using ordered

/-- Every current path is in one class. -/
theorem size_eq : current.size = (diff current previous).added.length +
    (diff current previous).modified.length + (diff current previous).unchanged.length := by
  simp only [diff, List.length_map, SortedMap.size]
  induction current.entries with
  | nil => rfl
  | cons e entries ih =>
    simp only [List.filter_cons, List.length_cons, ih]
    cases change previous e.1 e.2 <;> simp <;> omega

/-- What is processed is there. -/
theorem not_deleted_of_mem_toProcess {path : String}
    (h : path ∈ (diff current previous).toProcess) : path ∉ (diff current previous).deleted := by
  obtain ⟨hash, found, _⟩ := (mem_toProcess current previous path).mp h
  rw [mem_deleted, found]
  rintro ⟨_, absent⟩
  cases absent

end Snapshot

end Lookalike
