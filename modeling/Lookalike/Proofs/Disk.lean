import Lookalike.Disk
import Lookalike.Proofs.Path
import Lookalike.Proofs.SortedMap

/-!
# Folders and documents on a disk

Where a folder is depends on the folders of a disk only, so writing and moving documents in it does
not move it. Reading a document in a folder is looking it up below the place of the folder.
-/

namespace Lookalike

namespace Path

/-- A name that leads from a folder to an entry in it. -/
structure Proper (name : String) : Prop where
  plain : Plain name
  single : names name = [name]
  down : name ≠ ".."

variable {name : String}

theorem slash_not_mem_parts {path : String} {part : List Char} (h : part ∈ parts path) :
    '/' ∉ part := by
  have apart (text : List Char) : ∀ part ∈ text.splitOn '/', '/' ∉ part := by
    induction text with
    | nil => simp
    | cons c text ih =>
      intro part member
      rw [List.splitOn_cons_eq_if_modifyHead] at member
      split at member
      · rcases List.mem_cons.mp member with rfl | member
        · exact List.not_mem_nil
        · exact ih part member
      next other =>
        cases split : text.splitOn '/' with
        | nil => simp [split] at member
        | cons first rest =>
          rw [split] at ih member
          rcases List.mem_cons.mp member with rfl | member
          · intro slash
            rcases List.mem_cons.mp slash with rfl | slash
            · simp at other
            · exact ih first List.mem_cons_self slash
          · exact ih part (List.mem_cons_of_mem first member)
  exact apart path.toList part h

/-- Only the first component of a path may be a slash. -/
theorem slash_not_mem_tail (path : String) : "/" ∉ (components path).tail := by
  have rest_apart : ∀ {xs : List (List Char)}, (∀ part ∈ xs, part ∈ parts path) →
      "/" ∉ (xs.filter isPlain).map String.ofList := by
    intro xs within member
    obtain ⟨part, kept, same⟩ := List.mem_map.mp member
    have slash : '/' ∈ part := by
      have := congrArg String.toList same
      rw [String.toList_ofList] at this
      simp [this]
    exact slash_not_mem_parts (within part (List.mem_filter.mp kept).1) slash
  by_cases empty : path = ""
  · subst empty
    simp [components]
  · rw [components_eq_ofParts empty]
    cases split : parts path with
    | nil => simp [ofParts]
    | cons first rest =>
      exact rest_apart fun part member => split ▸ List.mem_cons_of_mem first member

theorem Proper.ne_slash (h : Proper name) : name ≠ "/" := by
  rintro rfl
  exact absurd h.single (by decide)

theorem Proper.ne_dot (h : Proper name) : name ≠ "." := by
  rintro rfl
  have plain : isPlain ['.'] = true := h.plain ['.'] (by decide)
  simp [isPlain] at plain

theorem components_join_name {base : String} (h : Proper name) :
    components (join base name) = components base ++ [name] := by
  rw [components_join h.plain, h.single]

end Path

namespace Disk

open Path (components join Proper)

variable {d e : Disk} {place : Location}

section Following

theorem follow_name {name : String} (h : Proper name) (d : Disk) (place : Location)
    (rest : List String) : d.follow place (name :: rest) =
      if d.isFolder place then
        if d.isFolder (place ++ [name]) || d.isFile (place ++ [name]) then
          d.follow (place ++ [name]) rest
        else .error .notFound
      else .error .refused := by
  rw [follow]
  · exact h.ne_slash
  · exact h.ne_dot
  · exact h.down

theorem follow_append (d : Disk) (place : Location) (front back : List String) :
    d.follow place (front ++ back) = (d.follow place front).bind (d.follow · back) := by
  fun_induction follow d place front with
  | case1 => rfl
  | case2 place rest ih => simpa [follow] using ih
  | case3 place rest ih => simpa [follow] using ih
  | case4 place rest folder ih => simpa [follow, folder] using ih
  | case5 place rest no_folder => simp [follow, no_folder, Except.bind]
  | case6 place name rest _ _ _ next folder known ih =>
    simpa [follow, folder, known, next] using ih
  | case7 place name rest _ _ _ next folder unknown =>
    have unknown : (d.isFolder (place ++ [name]) || d.isFile (place ++ [name])) = false := by
      simpa using unknown
    simp only [List.cons_append, follow, folder, unknown, if_true, Except.bind]
    rfl
  | case8 place name rest _ _ _ no_folder =>
    simp only [List.cons_append, follow, no_folder, Except.bind]
    rfl

/-- From what is no folder no way leads to a folder, except back from the top. -/
theorem not_isFolder_of_follow {names : List String} {target : Location}
    (no_folder : d.isFolder place = false) (downward : "/" ∉ names)
    (h : d.follow place names = .ok target) : d.isFolder target = false := by
  fun_induction follow d place names with
  | case1 =>
    cases h
    exact no_folder
  | case2 => simp at downward
  | case3 place rest ih => exact ih no_folder (by simp_all) h
  | case4 place rest folder => simp [no_folder] at folder
  | case5 => cases h
  | case6 place name rest _ _ _ next folder => simp [no_folder] at folder
  | case7 => cases h
  | case8 => cases h

/-- A way that leads to a folder leads there on every disk with the same folders. -/
theorem follow_of_folders {names : List String} {place target : Location}
    (same : e.folders = d.folders) (h : d.follow place names = .ok target)
    (folder : d.isFolder target)
    (downward : "/" ∉ names.tail) : e.follow place names = .ok target := by
  have folders (place : Location) : e.isFolder place = d.isFolder place := by
    simp only [isFolder, same]
  have tail {rest : List String} (h : "/" ∉ rest) : "/" ∉ rest.tail := fun member =>
    h (List.mem_of_mem_tail member)
  fun_induction follow d place names with
  | case1 => exact h
  | case2 place rest ih => exact ih h (tail downward)
  | case3 place rest ih =>
    rw [follow]
    exact ih h (tail downward)
  | case4 place rest above ih =>
    rw [follow, folders, if_pos above]
    exact ih h (tail downward)
  | case5 => cases h
  | case6 place name rest _ _ _ next above known ih =>
    rw [follow, folders, if_pos above]
    · by_cases below : d.isFolder next
      · rw [folders, below, Bool.true_or, if_pos rfl]
        exact ih h (tail downward)
      · have no_folder := not_isFolder_of_follow (by simpa using below) downward h
        simp [no_folder] at folder
    all_goals assumption
  | case7 => cases h
  | case8 => cases h

/-- What can be followed on a disk can be followed where there is more. -/
theorem follow_mono {names : List String} {place target : Location}
    (folders : ∀ p, d.isFolder p → e.isFolder p) (files : ∀ p, d.isFile p → e.isFile p)
    (h : d.follow place names = .ok target) : e.follow place names = .ok target := by
  fun_induction follow d place names with
  | case1 => exact h
  | case2 place rest ih => exact ih h
  | case3 place rest ih =>
    rw [follow]
    exact ih h
  | case4 place rest above ih =>
    rw [follow, if_pos (folders _ above)]
    exact ih h
  | case5 => cases h
  | case6 place name rest _ _ _ next above known ih =>
    have known : e.isFolder next || e.isFile next := by
      rcases Bool.or_eq_true_iff.mp known with folder | file
      · simp [folders _ folder]
      · simp [files _ file]
    rw [follow, if_pos (folders _ above), if_pos known]
    · exact ih h
    all_goals assumption
  | case7 => cases h
  | case8 => cases h

end Following

section Documents

/-- The path leads to a folder at this place. -/
structure FolderAt (d : Disk) (folder : String) (place : Location) : Prop where
  leads : d.follow d.workingFolder (components folder) = .ok place
  isFolder : d.isFolder place

variable {folder name : String} {bytes : List UInt8}

theorem FolderAt.unique {other : Location} (h : d.FolderAt folder place)
    (k : d.FolderAt folder other) : place = other := by
  have same := h.leads.symm.trans k.leads
  cases same
  rfl

/-- Where a folder is depends on the folders only. -/
theorem FolderAt.of_folders (h : d.FolderAt folder place) (folders : e.folders = d.folders)
    (working : e.workingFolder = d.workingFolder) : e.FolderAt folder place where
  leads := by
    rw [working]
    exact follow_of_folders folders h.leads h.isFolder (Path.slash_not_mem_tail folder)
  isFolder := by simpa only [Disk.isFolder, folders] using h.isFolder

theorem join_ne_empty {path : String} (plain : Path.Plain path) :
    (join folder path).isEmpty = false := by
  have with_components : components (join folder path) ≠ [] := by
    rw [Path.components_join plain, Path.names]
    simp [Path.parts_ne_nil]
  by_cases empty : join folder path = ""
  · exact absurd (by rw [empty]; rfl) with_components
  · simpa using empty

theorem key_concat (place : Location) (name : String) : key (place ++ [name]) =
    if place.isEmpty then name else key place ++ "/" ++ name := by
  cases place with
  | nil => simp [key]
  | cons first rest =>
    rw [key, String.intercalate_append_of_ne_nil (by simp) (by simp)]
    simp [key]

theorem key_concat_inj {place : Location} {name other : String} :
    key (place ++ [name]) = key (place ++ [other]) ↔ name = other := by
  constructor
  · intro same
    rw [key_concat, key_concat] at same
    split at same
    · exact same
    · exact String.append_right_inj _ |>.mp same
  · rintro rfl
    rfl

theorem FolderAt.locate_join (h : d.FolderAt folder place) (proper : Proper name) :
    d.locate (join folder name) =
      if d.isFolder (place ++ [name]) || d.isFile (place ++ [name]) then .ok (place ++ [name])
      else .error .notFound := by
  rw [locate, join_ne_empty proper.plain, Path.components_join_name proper, follow_append, h.leads]
  simp only [Except.bind, follow_name proper, h.isFolder, if_true, follow]
  rfl

theorem read_join (proper : Proper name) : d.read (join folder name) = .ok bytes ↔
    ∃ place, d.FolderAt folder place ∧ d.files.get? (key (place ++ [name])) = some bytes := by
  constructor
  · intro h
    cases way : d.follow d.workingFolder (components folder) with
    | error =>
      rw [read, locate, join_ne_empty proper.plain, Path.components_join_name proper, follow_append,
        way] at h
      cases h
    | ok place =>
      by_cases above : d.isFolder place
      · have at_place : d.FolderAt folder place := ⟨way, above⟩
        rw [read, at_place.locate_join proper] at h
        split at h
        next => cases h
        next found =>
          split at found
          next =>
            cases found
            split at h
            next there =>
              cases h
              exact ⟨place, at_place, there⟩
            next => cases h
          next => cases found
      · rw [read, locate, join_ne_empty proper.plain, Path.components_join_name proper,
          follow_append,
          way] at h
        simp [Except.bind, follow_name proper, above] at h
  · rintro ⟨place, at_place, there⟩
    have known : d.isFile (place ++ [name]) := by
      rw [isFile, SortedMap.contains_eq_isSome_get?, there]
      rfl
    rw [read, at_place.locate_join proper, known, Bool.or_true, if_pos rfl]
    simp only [there]

theorem locateNew_join (proper : Proper name) {target : Location} :
    d.locateNew (join folder name) = .ok target ↔
      ∃ place, d.FolderAt folder place ∧ target = place ++ [name] := by
  rw [locateNew, Path.components_join_name proper]
  simp only [List.getLast?_concat, List.dropLast_concat]
  constructor
  · intro h
    split at h
    next => cases h
    next place way =>
      split at h
      next above =>
        cases h
        exact ⟨place, ⟨way, above⟩, rfl⟩
      next => cases h
  · rintro ⟨place, at_place, rfl⟩
    simp only [at_place.leads, at_place.isFolder, if_true]

theorem write_join_ok (proper : Proper name) (h : d.write (join folder name) bytes = .ok e) :
    ∃ place, d.FolderAt folder place ∧
      e = { d with files := d.files.insert (key (place ++ [name])) bytes } := by
  rw [write] at h
  split at h
  next => cases h
  next target found =>
    obtain ⟨place, at_place, rfl⟩ := (locateNew_join proper).mp found
    split at h
    next => cases h
    next =>
      cases h
      exact ⟨place, at_place, rfl⟩

theorem rename_join_ok {old new : String} (proper_old : Proper old) (proper_new : Proper new)
    (h : d.rename (join folder old) (join folder new) = .ok e) :
    ∃ place bytes, d.FolderAt folder place ∧ d.files.get? (key (place ++ [old])) = some bytes ∧
      e = { d with
        files := (d.files.erase (key (place ++ [old]))).insert (key (place ++ [new])) bytes } := by
  rw [rename] at h
  split at h
  next a b found_old found_new =>
    obtain ⟨place, at_place, rfl⟩ := (locateNew_join proper_new).mp found_new
    split at h
    next bytes there =>
      split at h
      next => cases h
      next =>
        cases h
        have readable : d.read (join folder old) = .ok bytes := by
          rw [read, found_old]
          simp only [there]
        obtain ⟨other, at_other, here⟩ := (read_join proper_old).mp readable
        obtain rfl := at_place.unique at_other
        have same : a = place ++ [old] := by
          rw [at_place.locate_join proper_old] at found_old
          split at found_old
          next =>
            cases found_old
            rfl
          next => cases found_old
        subst same
        exact ⟨place, bytes, at_place, here, rfl⟩
    next => cases h
  next => cases h
  next => cases h

/-- What can be read after something was removed could be read before. -/
theorem read_removeAt {gone : Location} (proper : Proper name)
    (h : (d.removeAt gone).read (join folder name) = .ok bytes) :
    d.read (join folder name) = .ok bytes := by
  have folders (p : Location) (h : (d.removeAt gone).isFolder p) : d.isFolder p := by
    rcases Bool.or_eq_true_iff.mp h with top | there
    · simp [isFolder, top]
    · obtain ⟨u, found⟩ := Option.isSome_iff_exists.mp
        ((SortedMap.contains_eq_isSome_get? _ _).symm.trans there)
      simp [isFolder, SortedMap.contains_eq_isSome_get?, (SortedMap.get?_filter_eq_some.mp found).1]
  have files (p : Location) (h : (d.removeAt gone).isFile p) : d.isFile p := by
    obtain ⟨b, found⟩ := Option.isSome_iff_exists.mp
      ((SortedMap.contains_eq_isSome_get? _ _).symm.trans h)
    simp [isFile, SortedMap.contains_eq_isSome_get?, (SortedMap.get?_filter_eq_some.mp found).1]
  obtain ⟨place, at_place, there⟩ := (read_join proper).mp h
  exact (read_join proper).mpr ⟨place, ⟨follow_mono folders files at_place.leads,
    folders place at_place.isFolder⟩, (SortedMap.get?_filter_eq_some.mp there).1⟩

end Documents

end Disk

end Lookalike
