import Lookalike.Proofs.Index.VersionGate

/-!
# How a file is addressed

The path that a scan records for a file is put together from the names that lead to it from the
root. Who asks for the file names it by that path, with a dot in front, or by an absolute path. An
absolute path is taken apart by its names again, so it gives the recorded path whatever the names
are. In the others backslashes are taken for separators: they give the recorded path only if no name
of the file has one.
-/

namespace Lookalike

open Path (Plain Proper components join names)

namespace Path

variable {path root file : String}

/-- The path with slashes for its backslashes. -/
def slashed (path : String) : String :=
  String.ofList (path.toList.map fun c => if c = '\\' then '/' else c)

theorem slashed_eq_iff : slashed path = path ↔ '\\' ∉ path.toList := by
  have as_lists : slashed path = path ↔
      path.toList.map (fun c => if c = '\\' then '/' else c) = path.toList.map id := by
    rw [← String.toList_inj, slashed, String.toList_ofList, List.map_id]
  rw [as_lists, List.map_inj_left]
  constructor
  · intro same member
    have slash := same '\\' member
    simp at slash
  · intro absent c member
    have other : c ≠ '\\' := fun is => absent (is ▸ member)
    simp [other]

theorem afterPrefix?_append (front back : List String) :
    afterPrefix? front (front ++ back) = some back := by
  induction front with
  | nil => rfl
  | cons name front ih => rw [List.cons_append, afterPrefix?, if_pos rfl, ih]

/-- A path below a root is read off its components. -/
theorem relative?_below (below : components file = components root ++ names path) :
    relative? root file = some path := by
  have some_name : names path ≠ [] := by
    simpa [names] using parts_ne_nil path
  rw [relative?, below, afterPrefix?_append]
  cases shape : names path with
  | nil => exact absurd shape some_name
  | cons first rest =>
    dsimp only
    rw [← shape, intercalate_names]

end Path

open Path (slashed)

section Normalize

variable {d : Disk} {root path file : String}

theorem dropDots_of_plain (plain : Plain path) :
    normalizeFilePath.dropDots path.toList = path.toList := by
  rw [normalizeFilePath.dropDots.eq_def]
  split
  next rest begins =>
    have split_off : Path.parts path = ['.'] :: rest.splitOn '/' := by
      rw [Path.parts, begins]
      exact List.splitOn_append_cons_self ['.'] rest
    have dot : Path.isPlain ['.'] := plain ['.'] (by rw [split_off]; exact List.mem_cons_self)
    simp [Path.isPlain] at dot
  next => rfl

theorem normalizeFilePath_of_relative (relative : file.startsWith "/" = false) :
    normalizeFilePath d root file =
      slashed (String.ofList (normalizeFilePath.dropDots file.toList)) := by
  rw [normalizeFilePath, relative, slashed, String.toList_ofList]
  rfl

theorem normalizeFilePath_of_plain (plain : Plain path) :
    normalizeFilePath d root path = slashed path := by
  rw [normalizeFilePath_of_relative plain.not_startsWith, dropDots_of_plain plain,
    String.ofList_toList]

theorem normalizeFilePath_dotted (plain : Plain path) :
    normalizeFilePath d root ("./" ++ path) = slashed path := by
  have relative : ("./" ++ path).startsWith "/" = false := by
    rw [String.startsWith_string_eq_false_iff]
    simp
  have dropped : normalizeFilePath.dropDots ("./" ++ path).toList =
      normalizeFilePath.dropDots path.toList := by
    rw [String.toList_append]
    rfl
  rw [normalizeFilePath_of_relative relative, dropped, dropDots_of_plain plain,
    String.ofList_toList]

/-- What an absolute path resolves to is taken apart by its components. -/
theorem normalizeFilePath_of_absolute (absolute : file.startsWith "/")
    (below : components ((d.canonical file).toOption.getD file) = components root ++ names path) :
    normalizeFilePath d root file = path := by
  rw [normalizeFilePath, if_pos absolute]
  dsimp only
  rw [Path.relative?_below below]
  rfl

end Normalize

/-- What a file at a path below a root is taken for: by the path itself, also after a dot, by its
own absolute path, and by any other absolute path that leads to it. -/
structure Addressed (d : Disk) (root absolute path : String) : Prop where
  byPath : ∀ base, normalizeFilePath d base path = slashed path
  byDot : ∀ base, normalizeFilePath d base ("./" ++ path) = slashed path
  byAbsolute : normalizeFilePath d root absolute = path
  byDetour : ∀ file, file.startsWith "/" → d.canonical file = .ok absolute →
    normalizeFilePath d root file = path

namespace Disk

variable {d : Disk} {place below : Location} {root path : String}

theorem addressed_below (named : Named (place ++ below)) (some_name : below ≠ []) (d : Disk) :
    Addressed d (pathOf place) (pathOf (place ++ below)) (key below) := by
  have front : Named place := named.of_prefix (List.prefix_append place below)
  have proper : Named below := fun name member => named name (List.mem_append_right place member)
  have plain : Plain (key below) := Path.plain_intercalate proper some_name
  have own : Path.names (key below) = below := Path.names_intercalate proper some_name
  have apart : components (pathOf (place ++ below)) =
      components (pathOf place) ++ Path.names (key below) := by
    rw [components_pathOf named, components_pathOf front, own, List.cons_append]
  have is_absolute : (pathOf (place ++ below)).startsWith "/" := by
    rw [String.startsWith_string_iff, pathOf, String.toList_append]
    exact List.prefix_append _ _
  refine ⟨fun _ => normalizeFilePath_of_plain plain, fun _ => normalizeFilePath_dotted plain, ?_,
    ?_⟩
  · refine normalizeFilePath_of_absolute is_absolute ?_
    -- Whether or not there is such a file now, its path stays as it is.
    cases resolves : d.canonical (pathOf (place ++ below)) with
    | error e => exact apart
    | ok found =>
      rw [canonical_pathOf named resolves]
      exact apart
  · intro file starts resolves
    refine normalizeFilePath_of_absolute starts ?_
    rw [resolves]
    exact apart

/-- The path of a file that a scan recorded leads to a place below that of the root. -/
theorem Sound.located (sound : d.Sound) {exclude : List String} {current : Snapshot}
    (scanned : Scan.snapshot d root exclude = .ok current) (recorded : path ∈ current.keys) :
    ∃ place below, d.locate root = .ok place ∧ d.locate (join root path) = .ok (place ++ below) ∧
      Named (place ++ below) ∧ below ≠ [] ∧ path = key below := by
  obtain ⟨hash, found⟩ := Option.isSome_iff_exists.mp ((current.mem_keys_iff path).mp recorded)
  obtain ⟨place, below, bytes, at_root, member, rfl, _⟩ := Scan.source_of_snapshot scanned found
  obtain ⟨named, some_name, leads, _⟩ := sound.locate_below at_root member
  exact ⟨place, below, at_root, leads, named, some_name, rfl⟩

end Disk

namespace Registry

variable {σ : Type} {r : Registry σ} {d : Disk} {folder file wanted : String} {line : UInt64}
variable {top : Nat} {threshold : Float32}

theorem findSimilar_eq_query (names_it : ∀ root, normalizeFilePath d root file = wanted) :
    r.findSimilar d folder file line top threshold =
      r.query d folder (·.findSimilar wanted line top threshold) := by
  simp only [findSimilar, names_it]

/-- The session of a folder has the absolute path of the folder for its root. -/
theorem findSimilar_eq_query_of_root (admitted : r.AllAdmitted fun _ => True) {root : String}
    (at_folder : d.canonical folder = .ok root)
    (names_it : normalizeFilePath d root file = wanted) :
    r.findSimilar d folder file line top threshold =
      r.query d folder (·.findSimilar wanted line top threshold) := by
  rw [findSimilar, query, query]
  rcases load_cases d folder with ⟨e, failed⟩ | ⟨indexed, _⟩
  · rw [failed]
    rfl
  · rw [load_eq indexed at_folder]
    cases loads : (r.sessionFor root r.provider.model).ensureLoaded d with
    | error e => rfl
    | ok s =>
      have own := admitted.sessionFor root r.provider.model
      have same_root := (own.ensureLoaded (fun _ _ => trivial) loads).root
      simp only [Except.bind, same_root, names_it]

/-- What the registry looks up when it is asked for a file at a path below a root. -/
structure LooksUp (r : Registry σ) (root absolute path : String) : Prop where
  byPath : ∀ d folder line top threshold, r.findSimilar d folder path line top threshold =
    r.query d folder (·.findSimilar (slashed path) line top threshold)
  byDot : ∀ d folder line top threshold, r.findSimilar d folder ("./" ++ path) line top threshold =
    r.query d folder (·.findSimilar (slashed path) line top threshold)
  byAbsolute : ∀ d folder line top threshold, d.canonical folder = .ok root →
    r.findSimilar d folder absolute line top threshold =
      r.query d folder (·.findSimilar path line top threshold)

theorem looksUp_of_addressed (admitted : r.AllAdmitted fun _ => True) {root absolute path : String}
    (addressed : ∀ d, Addressed d root absolute path) : r.LooksUp root absolute path where
  byPath d _ _ _ _ := findSimilar_eq_query (addressed d).byPath
  byDot d _ _ _ _ := findSimilar_eq_query (addressed d).byDot
  byAbsolute d _ _ _ _ at_folder :=
    findSimilar_eq_query_of_root admitted at_folder (addressed d).byAbsolute

/-- A file that a scan of a root recorded is addressed by its absolute path, whatever happened to
the disk since, and a registry looks the recorded path up, whatever it was called for before. By the
recorded path itself, and by that after a dot, it is addressed if and only if the path has no
backslash; else the path with slashes in their place is looked up. -/
theorem recorded_addressed {d : Disk} (sound : d.Sound) {root : String} {exclude : List String}
    {current : Snapshot} (scanned : Scan.snapshot d root exclude = .ok current) {path : String}
    (recorded : path ∈ current.keys) : (slashed path = path ↔ '\\' ∉ path.toList) ∧
      ∃ key absolute, d.canonical root = .ok key ∧ d.canonical (join root path) = .ok absolute ∧
        (∀ e, Addressed e key absolute path) ∧
        ∀ (provider : Provider σ) (settings : IndexerSettings) (w : World σ)
          (calls : List (Call σ)),
          ((new provider settings).reached w calls).1.LooksUp key absolute path := by
  obtain ⟨place, below, at_root, at_file, named, some_name, rfl⟩ := sound.located scanned recorded
  have addressed := Disk.addressed_below named some_name
  refine ⟨Path.slashed_eq_iff, Disk.pathOf place, Disk.pathOf (place ++ below), ?_, ?_, addressed,
    fun provider settings w calls => looksUp_of_addressed ?_ addressed⟩
  · rw [Disk.canonical, at_root]
    rfl
  · rw [Disk.canonical, at_file]
    rfl
  · have none_kept : (new provider settings).AllAdmitted fun _ => True :=
      allAdmitted_clear (new provider settings)
    exact none_kept.reached (fun _ _ => trivial)
      (allSupplied_of_all (fun _ => trivial) (new provider settings) w calls)

section Sample

/-- A folder with two files, one of them with a backslash in its name. -/
def backslashSample : Disk :=
  (({} : Disk).withFile "r/a\\b.js" []).withFile "r/c/d.js" []

theorem sound_backslashSample : backslashSample.Sound := ⟨by decide +kernel, by decide +kernel⟩

theorem scanned_backslashSample : ∃ current, Scan.snapshot backslashSample "/r" [] = .ok current ∧
    current.keys = ["a\\b.js", "c/d.js"] := by
  have read : (Scan.snapshot backslashSample "/r" []).isOk := by decide +kernel
  obtain ⟨current, scanned⟩ := exists_of_isOk read
  have keys : (Scan.snapshot backslashSample "/r" []).toOption.map SortedMap.keys =
      some ["a\\b.js", "c/d.js"] := by
    decide +kernel
  rw [scanned] at keys
  exact ⟨current, scanned, Option.some.inj keys⟩

/-- Both files are addressed by their absolute paths. -/
theorem recorded_addressed_backslashSample :
    backslashSample.Sound ∧ ∃ current, Scan.snapshot backslashSample "/r" [] = .ok current ∧
      normalizeFilePath backslashSample "/r" "/r/a\\b.js" = "a\\b.js" ∧
      normalizeFilePath backslashSample "/r" "/r/c/d.js" = "c/d.js" := by
  obtain ⟨current, scanned, keys⟩ := scanned_backslashSample
  have at_root : backslashSample.canonical "/r" = .ok "/r" := by decide +kernel
  have addressed (path file : String) (recorded : path ∈ current.keys)
      (at_file : backslashSample.canonical (join "/r" path) = .ok file) :
      normalizeFilePath backslashSample "/r" file = path := by
    obtain ⟨_, key, absolute, root, leads, names_it, _⟩ :=
      recorded_addressed (σ := Unit) sound_backslashSample scanned recorded
    cases root.symm.trans at_root
    cases leads.symm.trans at_file
    exact (names_it backslashSample).byAbsolute
  exact ⟨sound_backslashSample, current, scanned,
    addressed "a\\b.js" "/r/a\\b.js" (by simp [keys]) (by decide +kernel),
    addressed "c/d.js" "/r/c/d.js" (by simp [keys]) (by decide +kernel)⟩

/-- The recorded path with the backslash does not address its file, nor does it after a dot. -/
theorem not_addressed_by_name :
    backslashSample.Sound ∧ backslashSample.canonical "/r" = .ok "/r" ∧
      ∃ current, Scan.snapshot backslashSample "/r" [] = .ok current ∧ "a\\b.js" ∈ current.keys ∧
        normalizeFilePath backslashSample "/r" "a\\b.js" = "a/b.js" ∧
        normalizeFilePath backslashSample "/r" "./a\\b.js" = "a/b.js" := by
  obtain ⟨current, scanned, keys⟩ := scanned_backslashSample
  exact ⟨sound_backslashSample, by decide +kernel, current, scanned, by simp [keys],
    by decide +kernel, by decide +kernel⟩

end Sample

end Registry

end Lookalike
