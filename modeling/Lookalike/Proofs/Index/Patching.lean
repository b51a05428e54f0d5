import Lookalike.Proofs.Index.Snapshot
import Mathlib.Data.List.Lattice

/-!
# A difference is a patch

The difference of two snapshots has every path of either of them once, in the list that tells what
happened to it. What it does not have are hashes; with those of the current snapshot it makes the
current snapshot out of the previous one: the deleted paths are forgotten, and the hash of each path
that is to be processed is recorded.
-/

namespace Lookalike

def FileDiff.lists (d : FileDiff) : List (List String) :=
  [d.added, d.modified, d.deleted, d.unchanged]

namespace Snapshot

variable {current previous : Snapshot}

section Lists

/-- The lists of a difference are in strict order and hold the paths of both snapshots, each path in
one list, according to what happened to it. -/
structure Classified (current previous : Snapshot) (d : FileDiff) : Prop where
  ordered : ∀ paths ∈ d.lists, paths.Pairwise (· < ·)
  apart : d.lists.Pairwise List.Disjoint
  whole : ∀ path, (∃ paths ∈ d.lists, path ∈ paths) ↔ path ∈ current.keys ∨ path ∈ previous.keys
  added : ∀ path, path ∈ d.added ↔ (current.get? path).isSome ∧ previous.get? path = none
  modified : ∀ path, path ∈ d.modified ↔ ∃ hash old, current.get? path = some hash ∧
    previous.get? path = some old ∧ old ≠ hash
  deleted : ∀ path, path ∈ d.deleted ↔ (previous.get? path).isSome ∧ current.get? path = none
  unchanged : ∀ path, path ∈ d.unchanged ↔ ∃ hash, current.get? path = some hash ∧
    previous.get? path = some hash

theorem pairwise_class (current previous : Snapshot) (c : Change) :
    ((current.entries.filter fun (path, hash) => change previous path hash = c).map (·.1)).Pairwise
      (· < ·) :=
  current.pairwise_keys.sublist (List.filter_sublist.map _)

theorem pairwise_lists {paths : List String} (member : paths ∈ (diff current previous).lists) :
    paths.Pairwise (· < ·) := by
  simp only [FileDiff.lists, List.mem_cons, List.not_mem_nil, or_false] at member
  rcases member with rfl | rfl | rfl | rfl
  · exact pairwise_class current previous .added
  · exact pairwise_class current previous .modified
  · exact previous.pairwise_keys.sublist List.filter_sublist
  · exact pairwise_class current previous .unchanged

/-- A current path is in one class only. -/
theorem disjoint_classes {c e : Change} (different : c ≠ e) : List.Disjoint
    ((current.entries.filter fun (path, hash) => change previous path hash = c).map (·.1))
    ((current.entries.filter fun (path, hash) => change previous path hash = e).map (·.1)) := by
  intro path in_c in_e
  obtain ⟨hash, found, is_c⟩ := (mem_class current previous c path).mp in_c
  obtain ⟨hash', found', is_e⟩ := (mem_class current previous e path).mp in_e
  cases found.symm.trans found'
  exact different (is_c.symm.trans is_e)

theorem disjoint_deleted (c : Change) : List.Disjoint (diff current previous).deleted
    ((current.entries.filter fun (path, hash) => change previous path hash = c).map (·.1)) := by
  intro path gone in_c
  obtain ⟨hash, found, _⟩ := (mem_class current previous c path).mp in_c
  rw [mem_deleted, found] at gone
  cases gone.2

theorem disjoint_lists : (diff current previous).lists.Pairwise List.Disjoint := by
  simp only [FileDiff.lists, List.pairwise_cons, List.forall_mem_cons, List.not_mem_nil,
    false_imp_iff, implies_true, List.Pairwise.nil, and_true]
  exact ⟨⟨disjoint_classes (by decide), (disjoint_deleted .added).symm,
      disjoint_classes (by decide)⟩,
    ⟨(disjoint_deleted .modified).symm, disjoint_classes (by decide)⟩, disjoint_deleted .unchanged⟩

theorem exists_mem_lists_iff (path : String) :
    (∃ paths ∈ (diff current previous).lists, path ∈ paths) ↔
      path ∈ current.keys ∨ path ∈ previous.keys := by
  simp only [FileDiff.lists, List.exists_mem_cons_iff, List.not_mem_nil, false_and, exists_false,
    or_false, mem_added, mem_modified, mem_deleted, mem_unchanged, SortedMap.mem_keys_iff]
  cases current.get? path with
  | none => simp
  | some hash =>
    cases previous.get? path with
    | none => simp
    | some old => by_cases same : old = hash <;> simp [same]

theorem classified_diff (current previous : Snapshot) :
    Classified current previous (diff current previous) where
  ordered _ := pairwise_lists
  apart := disjoint_lists
  whole := exists_mem_lists_iff
  added := mem_added current previous
  modified := mem_modified current previous
  deleted := mem_deleted current previous
  unchanged := mem_unchanged current previous

theorem pairwise_toProcess (current previous : Snapshot) :
    (diff current previous).toProcess.Pairwise (· < ·) := by
  have strict := (sorted_toProcess current previous).and (nodup_toProcess current previous)
  refine strict.imp fun ⟨le, different⟩ => String.not_le.mp fun ge => different ?_
  exact String.le_antisymm le ge

end Lists

section Patch

variable {s : Snapshot} {paths : List String}

def forgetAll (s : Snapshot) (paths : List String) : Snapshot := paths.foldl SortedMap.erase s

/-- Records the hash that the current snapshot has for a path. -/
def record (current s : Snapshot) (path : String) : Snapshot :=
  ((current.get? path).map (s.insert path)).getD s

def recordAll (current s : Snapshot) (paths : List String) : Snapshot :=
  paths.foldl current.record s

theorem get?_forgetAll (path : String) : (s.forgetAll paths).get? path =
    if path ∈ paths then none else s.get? path :=
  look_foldl_removal SortedMap.get? SortedMap.get?_erase paths s path

theorem get?_record (first path : String) : (current.record s first).get? path =
    if first = path then (current.get? path).or (s.get? path) else s.get? path := by
  rw [record]
  by_cases same : first = path
  · subst same
    cases current.get? first <;> simp
  · cases current.get? first <;> simp [same]

theorem get?_recordAll (path : String) : (current.recordAll s paths).get? path =
    if path ∈ paths then (current.get? path).or (s.get? path) else s.get? path := by
  have again (path : String) (found : Option String) :
      (current.get? path).or ((current.get? path).or found) = (current.get? path).or found := by
    cases current.get? path <;> rfl
  simpa [recordAll] using look_foldl SortedMap.get? (fun path => (current.get? path).or) again
    (fun _ => get?_record) paths s path

variable (current previous : Snapshot)

/-- The previous snapshot after the difference was carried out on it. -/
def patched : Snapshot :=
  current.recordAll (previous.forgetAll (diff current previous).deleted)
    (diff current previous).toProcess

theorem patched_eq : current.patched previous = current := by
  apply SortedMap.ext_get?
  intro path
  rw [patched, get?_recordAll, get?_forgetAll]
  split
  next processed =>
    obtain ⟨hash, found, _⟩ := (mem_toProcess current previous path).mp processed
    rw [found, Option.some_or]
  next uncut =>
    split
    next gone => exact ((mem_deleted current previous path).mp gone).2.symm
    next present => exact get?_of_left_alone present uncut

theorem hasChanges_self : (diff current current).hasChanges = false := by
  have none_of {paths : List String} (absent : ∀ path, path ∉ paths) : paths = [] :=
    List.eq_nil_iff_forall_not_mem.mpr absent
  have added : (diff current current).added = [] := by
    refine none_of fun path member => ?_
    obtain ⟨known, unknown⟩ := (mem_added current current path).mp member
    rw [unknown] at known
    cases known
  have modified : (diff current current).modified = [] := by
    refine none_of fun path member => ?_
    obtain ⟨hash, old, found, known, other⟩ := (mem_modified current current path).mp member
    exact other (Option.some.inj (known.symm.trans found))
  have deleted : (diff current current).deleted = [] := by
    refine none_of fun path member => ?_
    obtain ⟨known, unknown⟩ := (mem_deleted current current path).mp member
    rw [unknown] at known
    cases known
  simp [FileDiff.hasChanges, added, modified, deleted]

/-- The difference has every path of both snapshots in one of four ordered lists, according to what
happened to it. Where the previous snapshot is recorded, forgetting the deleted paths and recording
the current hash of those that are to be processed gives the current snapshot, and nothing is left
to be changed. -/
theorem diff_is_patch : Classified current previous (diff current previous) ∧
    (diff current previous).toProcess.Pairwise (· < ·) ∧
    (∀ path, path ∈ (diff current previous).toProcess ↔
      path ∈ (diff current previous).added ∨ path ∈ (diff current previous).modified) ∧
    current.patched previous = current ∧
    (diff current (current.patched previous)).hasChanges = false := by
  refine ⟨classified_diff current previous, pairwise_toProcess current previous,
    fun path => FileDiff.mem_toProcess, patched_eq current previous, ?_⟩
  rw [patched_eq]
  exact hasChanges_self current

end Patch

end Snapshot

end Lookalike
