import Lookalike.Proofs.Index.Places

/-!
# Trees beside an index folder

The name of the index folder is hidden, so unless a rule keeps the folder a scan passes over it. No
rule that is looked up on the way lies in it either. Disks that differ in the index folder only are
then one tree: a scan finds the same files, and they are read alike.
-/

namespace Lookalike

open Path (Proper join)

namespace Disk

variable {d e : Disk} {gone place : Location}

/-- Two disks hold the same outside a folder. -/
structure SameOutside (gone : Location) (d e : Disk) : Prop where
  files : ∀ k, ¬gone <+: Path.names k → d.files.get? k = e.files.get? k
  folders : ∀ k, ¬gone <+: Path.names k → d.folders.contains k = e.folders.contains k

/-- Removing a folder leaves all that is outside. -/
theorem sameOutside_removeAt (named : Named gone) (d : Disk) :
    SameOutside gone d (d.removeAt gone) := by
  have stays {k : String} (outside : ¬gone <+: Path.names k) : isWithin gone k = false :=
    Bool.eq_false_iff.mpr fun within => outside (prefix_names_of_isWithin named within)
  have kept {α : Type} (m : SortedMap α) {k : String} (outside : ¬gone <+: Path.names k) :
      m.get? k = (m.filter fun k _ => !isWithin gone k).get? k := by
    apply Option.ext
    intro found
    rw [SortedMap.get?_filter_eq_some, stays outside]
    simp
  refine ⟨fun k => kept d.files, fun k outside => ?_⟩
  rw [SortedMap.contains_eq_isSome_get?, SortedMap.contains_eq_isSome_get?, kept _ outside]
  rfl

theorem SameOutside.isFile (same : SameOutside gone d e) (named : Named place) (below : place ≠ [])
    (outside : ¬gone <+: place) : d.isFile place = e.isFile place := by
  have own : Path.names (key place) = place := Path.names_intercalate named below
  rw [Disk.isFile, Disk.isFile, SortedMap.contains_eq_isSome_get?,
    SortedMap.contains_eq_isSome_get?, same.files _ (by rwa [own])]

theorem SameOutside.isFolder (same : SameOutside gone d e) (named : Named place)
    (below : place ≠ []) (outside : ¬gone <+: place) : d.isFolder place = e.isFolder place := by
  have own : Path.names (key place) = place := Path.names_intercalate named below
  rw [Disk.isFolder, Disk.isFolder, same.folders _ (by rwa [own])]

end Disk

namespace Scan

open Disk (Named SameOutside key)

variable {d e : Disk} {root names tail : Location} {exclusions : List IgnoreRule}

/-- What goes on from a folder above the index folder, or from one beside it, under other names is
not in the index folder. -/
theorem not_prefix {n : Nat} (beside : n ≤ root.length ∨ names.head? ≠ some indexFolder)
    (free : indexFolder ∉ tail) :
    ¬root ++ [indexFolder] <+: (root ++ names).take n ++ tail := by
  rintro ⟨rest, whole⟩
  have there : ((root ++ names).take n ++ tail)[root.length]? = some indexFolder := by
    rw [← whole]
    simp
  rw [List.getElem?_append] at there
  split at there
  next reached =>
    rw [List.length_take] at reached
    rcases beside with above | other
    · omega
    · rw [List.getElem?_take_of_lt (by omega), List.getElem?_append_right (Nat.le_refl _),
        Nat.sub_self, ← List.head?_eq_getElem?] at there
      exact other there
  next => exact free (List.mem_of_getElem? there)

/-- Where a folder holds its rules, and what makes it a repository. -/
def rulePlaces : List Location :=
  [[".ignore"], [".gitignore"], [".git", "info", "exclude"], [".git"]]

theorem named_of_mem_rulePlaces {rule : Location} (member : rule ∈ rulePlaces) : Named rule := by
  intro name there
  have known : name ∈ rulePlaces.flatten := List.mem_flatten.mpr ⟨rule, member, there⟩
  simp only [rulePlaces, List.flatten_cons, List.flatten_nil, List.cons_append, List.nil_append,
    List.mem_cons, List.not_mem_nil, or_false] at known
  rcases known with rfl | rfl | rfl | rfl | rfl | rfl
  all_goals exact ⟨by decide, by decide, by decide⟩

theorem free_of_mem_rulePlaces : ∀ rule ∈ rulePlaces, indexFolder ∉ rule := by decide

section Rules

variable (same : SameOutside (root ++ [indexFolder]) d e)

include same

/-- The rules of a folder above the index folder or beside it. -/
theorem folderRules_congr {n : Nat} (named : Named (root ++ names))
    (beside : n ≤ root.length ∨ names.head? ≠ some indexFolder) :
    folderRules d ((root ++ names).take n) = folderRules e ((root ++ names).take n) := by
  have apart (rule : Location) (member : rule ∈ rulePlaces) :
      Named ((root ++ names).take n ++ rule) ∧
        ¬root ++ [indexFolder] <+: (root ++ names).take n ++ rule :=
    ⟨(named.of_prefix (List.take_prefix n _)).append (named_of_mem_rulePlaces member),
      not_prefix beside (free_of_mem_rulePlaces rule member)⟩
  have file (rule : Location) (some_name : rule ≠ []) (member : rule ∈ rulePlaces) :
      d.files.get? (key ((root ++ names).take n ++ rule)) =
        e.files.get? (key ((root ++ names).take n ++ rule)) := by
    obtain ⟨all_named, outside⟩ := apart rule member
    have own := Path.names_intercalate all_named (by simp [some_name])
    refine same.files _ ?_
    rwa [key, own]
  obtain ⟨git_named, git_outside⟩ := apart [".git"] (by decide)
  simp only [folderRules]
  rw [file [".ignore"] (by decide) (by decide),
    file [".gitignore"] (by decide) (by decide),
    file [".git", "info", "exclude"] (by decide) (by decide),
    same.isFolder git_named (by simp) git_outside, same.isFile git_named (by simp) git_outside]

/-- The rules above an entry are the same on both disks, if the entry is the index folder or is not
in it. -/
theorem foldersAbove_rules_congr (named : Named (root ++ names))
    (beside : names = [indexFolder] ∨ names.head? ≠ some indexFolder) :
    ((foldersAbove (root ++ names)).map fun (folder, path) => (folderRules d folder, path)) =
      (foldersAbove (root ++ names)).map fun (folder, path) => (folderRules e folder, path) := by
  have rules : ∀ n < (root ++ names).length,
      folderRules d ((root ++ names).take n) = folderRules e ((root ++ names).take n) := by
    intro n bound
    refine folderRules_congr same named (beside.imp_left fun own => ?_)
    rw [own, List.length_append, List.length_singleton] at bound
    omega
  refine List.map_congr_left fun above member => ?_
  obtain ⟨n, bound, rfl⟩ := List.mem_map.mp member
  simp only [rules n (by simpa using bound)]

/-- The walk passes over an entry on both disks or on neither, if the entry is the index folder or
is not in it. -/
theorem isSkipped_congr (named : Named (root ++ names)) (isFolder : Bool)
    (beside : names = [indexFolder] ∨ names.head? ≠ some indexFolder) :
    isSkipped d exclusions root names isFolder = isSkipped e exclusions root names isFolder := by
  rw [isSkipped, isSkipped, fileVerdict, fileVerdict, foldersAbove_rules_congr same named beside]

theorem isReached_congr (named : Named (root ++ names))
    (beside : names.head? ≠ some indexFolder) :
    isReached d exclusions root names = isReached e exclusions root names := by
  have above : ∀ n, (n = 0 || !isSkipped d exclusions root (names.take n) true) =
      (n = 0 || !isSkipped e exclusions root (names.take n) true) := by
    intro n
    cases n with
    | zero => rfl
    | succ n =>
      rw [isSkipped_congr same (named.of_prefix ?_) true (.inr ?_)]
      · exact (List.prefix_append_right_inj root).mpr (List.take_prefix _ names)
      · rwa [List.head?_take, if_neg (Nat.succ_ne_zero n)]
  simp only [isReached, isSkipped_congr same named false (.inr beside), above]

end Rules

section Sources

/-- The source file that an entry of the disk is, if it is one. -/
def source? (d : Disk) (exclusions : List IgnoreRule) (root : Location)
    (entry : String × List UInt8) : Option (Location × List UInt8) :=
  ((Disk.below? root entry.1).map fun names => (names, entry.2)).filter fun (names, _) =>
    Path.isIndexable (key names) && isReached d exclusions root names

theorem sources_eq_filterMap (d : Disk) (exclusions : List IgnoreRule) (root : Location) :
    sources d exclusions root = d.files.entries.filterMap (source? d exclusions root) := by
  rw [sources, Disk.filesBelow, List.filter_filterMap]
  rfl

/-- Behind a folder that the walk passes over no source is found. The folder itself is none. -/
theorem source?_eq_none (skipped : isSkipped d exclusions root [indexFolder] true)
    {entry : String × List UInt8} (inside : root ++ [indexFolder] <+: Path.names entry.1) :
    source? d exclusions root entry = none := by
  rw [source?, Option.filter_eq_none_iff]
  intro found there
  obtain ⟨names, is_below, rfl⟩ := Option.map_eq_some_iff.mp there
  obtain ⟨whole, _⟩ := Disk.below?_eq_some is_below
  rw [whole, List.prefix_append_right_inj] at inside
  obtain ⟨rest, rfl⟩ := inside
  cases rest with
  | nil =>
    have no_source : Path.isIndexable (key [indexFolder]) = false := by decide
    simp [no_source]
  | cons first rest =>
    have unreached : isReached d exclusions root (indexFolder :: first :: rest) = false := by
      refine Bool.eq_false_iff.mpr fun reached => ?_
      simp only [isReached, Bool.and_eq_true, List.all_eq_true] at reached
      have second := reached.2 1 (by simp)
      simp [skipped] at second
    simp [unreached]

theorem source?_congr (same : SameOutside (root ++ [indexFolder]) d e)
    {entry : String × List UInt8} (proper : ∀ name ∈ Path.names entry.1, Proper name)
    (outside : ¬root ++ [indexFolder] <+: Path.names entry.1) :
    source? d exclusions root entry = source? e exclusions root entry := by
  rw [source?, source?]
  cases is_below : Disk.below? root entry.1 with
  | none => rfl
  | some names =>
    obtain ⟨whole, _⟩ := Disk.below?_eq_some is_below
    rw [whole] at proper outside
    have beside : names.head? ≠ some indexFolder := by
      intro first
      obtain ⟨rest, rfl⟩ := List.head?_eq_some_iff.mp first
      exact outside ⟨rest, by simp⟩
    have reached : isReached d exclusions root names = isReached e exclusions root names :=
      isReached_congr same proper beside
    simp only [Option.map_some, Option.filter, reached]

variable (other_sound : e.Sound) (same : SameOutside (root ++ [indexFolder]) d e)
variable (named : Named root)

include other_sound same named

/-- On disks that differ in the index folder only, the walk finds the same sources. -/
theorem sources_congr (skipped : isSkipped d exclusions root [indexFolder] true) :
    sources d exclusions root = sources e exclusions root := by
  have skipped_other : isSkipped e exclusions root [indexFolder] true := by
    rw [← isSkipped_congr same (named.append (Disk.named_singleton Disk.proper_indexFolder)) true
      (.inl rfl)]
    exact skipped
  have outside_only {f : Disk} (skipped : isSkipped f exclusions root [indexFolder] true) :
      sources f exclusions root =
        (f.files.filter fun k _ => decide ¬root ++ [indexFolder] <+: Path.names k).entries.filterMap
          (source? f exclusions root) := by
    rw [sources_eq_filterMap, SortedMap.filter, List.filterMap_filter]
    refine List.filterMap_congr fun entry _ => ?_
    by_cases inside : root ++ [indexFolder] <+: Path.names entry.1
    · simp [inside, source?_eq_none skipped inside]
    · simp [inside]
  have files : (d.files.filter fun k _ => decide ¬root ++ [indexFolder] <+: Path.names k) =
      e.files.filter fun k _ => decide ¬root ++ [indexFolder] <+: Path.names k := by
    apply SortedMap.ext_get?
    intro k
    apply Option.ext
    intro bytes
    rw [SortedMap.get?_filter_eq_some, SortedMap.get?_filter_eq_some]
    by_cases inside : root ++ [indexFolder] <+: Path.names k
    · simp [inside]
    · rw [same.files k inside]
  rw [outside_only skipped, outside_only skipped_other, files]
  refine List.filterMap_congr fun entry member => ?_
  obtain ⟨k, bytes⟩ := entry
  obtain ⟨there, outside⟩ := SortedMap.get?_filter_eq_some.mp
    ((SortedMap.mem_entries_iff _ k bytes).mp member)
  have is_key : k ∈ e.files.keys := (e.files.mem_keys_iff k).mpr (by rw [there]; rfl)
  exact source?_congr same (other_sound.proper is_key) (by simpa using outside)

/-- Disks that differ in the index folder only are one tree to a scan that passes over it: the
snapshots are the same, and so is what is read at their paths. -/
theorem one_tree (sound : d.Sound) {path : String} {exclude : List String}
    (at_root : d.locate path = .ok root) (at_root_other : e.locate path = .ok root)
    (skipped : ∀ exclusions, exclusionRules? exclude = some exclusions →
      isSkipped d exclusions root [indexFolder] true) :
    snapshot d path exclude = snapshot e path exclude ∧
      ∀ current, snapshot d path exclude = .ok current →
        ∀ file ∈ current.keys, d.read (join path file) = e.read (join path file) := by
  rw [snapshot, snapshot, at_root, at_root_other]
  cases given : exclusionRules? exclude with
  | none => exact ⟨rfl, fun _ failed => by cases failed⟩
  | some exclusions =>
    have sources_same := sources_congr other_sound same named (skipped exclusions given)
    refine ⟨by simp only [sources_same], ?_⟩
    rintro _ ⟨⟩ file tracked
    obtain ⟨hash, found⟩ := Option.isSome_iff_exists.mp
      ((SortedMap.mem_keys_iff _ file).mp tracked)
    obtain ⟨⟨names, bytes⟩, source, equal⟩ := List.mem_map.mp (SortedMap.mem_of_get?_ofList found)
    cases equal
    have source_other := source
    rw [sources_same] at source_other
    rw [sound.read_below at_root (List.mem_filter.mp source).1,
      other_sound.read_below at_root_other (List.mem_filter.mp source_other).1]

end Sources

end Scan

end Lookalike
