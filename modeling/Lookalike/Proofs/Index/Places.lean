import Lookalike.Proofs.Index.Persisting
import Lookalike.Proofs.Index.Scan
import Mathlib.Data.List.Infix

/-!
# Index folders of different places

The registry keeps its sessions by the absolute paths of their roots. Such a path is made of proper
names, so it leads to one place only, and the documents of different roots are different files.
Writing the documents of one root therefore leaves those of all others as they are, and removing a
folder leaves those that do not lie below it.
-/

namespace Lookalike

open IndexContents (Within)
open Path (Proper components join parts)

namespace Path

/-- A component that is no step of its own is a name. -/
theorem proper_of_mem_components {path name : String} (member : name ∈ components path)
    (no_slash : name ≠ "/") (no_dot : name ≠ ".") (no_up : name ≠ "..") : Proper name := by
  have not_empty : path ≠ "" := by
    rintro rfl
    simp [components] at member
  have of_part {part : List Char} (there : part ∈ parts path) (some_name : part ≠ [])
      (no_dot : String.ofList part ≠ ".") (no_up : String.ofList part ≠ "..") :
      Proper (String.ofList part) := by
    refine proper_of_mem_parts there ?_ fun same => no_up (by rw [same])
    have not_dot : part ≠ ['.'] := fun same => no_dot (by rw [same])
    simp [isPlain, some_name, not_dot]
  rw [components_eq_ofParts not_empty] at member
  cases split : parts path with
  | nil => exact absurd split (parts_ne_nil path)
  | cons first rest =>
    rw [split] at member
    rcases List.mem_cons.mp member with rfl | later
    · split at no_slash
      next => exact absurd rfl no_slash
      next some_name =>
        rw [if_neg some_name] at no_dot no_up ⊢
        exact of_part (split ▸ List.mem_cons_self) (by simpa using some_name) no_dot no_up
    · obtain ⟨part, kept, rfl⟩ := List.mem_map.mp later
      obtain ⟨there, plain⟩ := List.mem_filter.mp kept
      have some_name : part ≠ [] := by
        rintro rfl
        simp [isPlain] at plain
      exact of_part (split ▸ List.mem_cons_of_mem first there) some_name no_dot no_up

end Path

namespace Disk

variable {d e : Disk} {place other target gone : Location} {name : String} {bytes : List UInt8}

/-- All names of the location are proper ones. -/
def Named (place : Location) : Prop := ∀ name ∈ place, Proper name

theorem Named.append (h : Named place) (k : Named other) : Named (place ++ other) := by
  intro name member
  rcases List.mem_append.mp member with member | member
  · exact h name member
  · exact k name member

theorem named_singleton (proper : Proper name) : Named [name] := by
  intro other member
  rwa [List.mem_singleton.mp member]

theorem Named.of_prefix (h : Named place) (front : other <+: place) : Named other :=
  fun name member => h name (front.subset member)

/-- Proper names are told apart by the keys of their locations. -/
theorem key_inj (h : Named place) (k : Named other) (not_top : place ≠ []) (not_top' : other ≠ [])
    (same : key place = key other) : place = other := by
  have split := congrArg Path.names same
  rwa [key, key, Path.names_intercalate h not_top, Path.names_intercalate k not_top'] at split

section Canonical

theorem named_of_follow {steps : List String} (start : Named place)
    (proper : ∀ name ∈ steps, name ≠ "/" → name ≠ "." → name ≠ ".." → Proper name)
    (h : d.follow place steps = .ok target) : Named target := by
  have later {first : String} {rest : List String}
      (proper : ∀ name ∈ first :: rest, name ≠ "/" → name ≠ "." → name ≠ ".." → Proper name) :
      ∀ name ∈ rest, name ≠ "/" → name ≠ "." → name ≠ ".." → Proper name :=
    fun name member => proper name (List.mem_cons_of_mem first member)
  fun_induction follow d place steps with
  | case1 =>
    cases h
    exact start
  | case2 place rest ih => exact ih (fun _ member => by cases member) (later proper) h
  | case3 place rest ih => exact ih start (later proper) h
  | case4 place rest _ ih =>
    exact ih (start.of_prefix (List.dropLast_prefix place)) (later proper) h
  | case5 => cases h
  | case6 place name rest no_slash no_dot no_up next _ _ ih =>
    have own : Proper name := proper name List.mem_cons_self no_slash no_dot no_up
    exact ih (start.append (named_singleton own)) (later proper) h
  | case7 => cases h
  | case8 => cases h

theorem named_of_locate (working : Named d.workingFolder) {path : String}
    (h : d.locate path = .ok place) : Named place := by
  rw [locate] at h
  split at h
  next => cases h
  next => exact named_of_follow working (fun _ => Path.proper_of_mem_components) h

theorem components_pathOf (named : Named place) : components (pathOf place) = "/" :: place := by
  by_cases top : place = []
  · subst top
    decide
  · have plain : Path.Plain (key place) := Path.plain_intercalate named top
    have own : Path.names (key place) = place := Path.names_intercalate named top
    have split : parts (pathOf place) = [] :: parts (key place) := by
      simp [pathOf, parts, List.splitOn_cons_eq_if_modifyHead]
    rw [Path.components_eq_ofParts (by simp [pathOf]), split, Path.ofParts, plain.filter]
    exact congrArg (List.cons "/") own

theorem proper_indexFolder : Proper indexFolder := ⟨by decide, by decide, by decide⟩

theorem components_indexFolderOf (named : Named place) :
    components (indexFolderOf (pathOf place)) = "/" :: (place ++ [indexFolder]) := by
  rw [indexFolderOf, Path.components_join_name proper_indexFolder, components_pathOf named]
  rfl

end Canonical

/-- Proper names lead to the place that they name. -/
theorem follow_named {rest : List String} (named : Named rest)
    (h : d.follow place rest = .ok target) : target = place ++ rest := by
  induction rest generalizing place with
  | nil =>
    cases h
    simp
  | cons name rest ih =>
    rw [follow_name (named name List.mem_cons_self)] at h
    split at h
    next =>
      split at h
      next =>
        have shape := ih (fun n member => named n (List.mem_cons_of_mem _ member)) h
        simpa using shape
      next => cases h
    next => cases h

/-- An absolute path without detours is canonical. -/
theorem canonical_pathOf (named : Named place) {key : String}
    (h : d.canonical (pathOf place) = .ok key) : key = pathOf place := by
  have not_empty : (pathOf place).isEmpty = false := by simp [pathOf]
  rw [canonical, locate, not_empty, components_pathOf named, follow] at h
  cases way : d.follow [] place with
  | error e =>
    rw [way] at h
    cases h
  | ok target =>
    rw [way] at h
    cases h
    rw [follow_named named way, List.nil_append]

section Documents

/-- Proper names that lead to a folder lead through folders. -/
theorem folders_of_follow {rest : List String} (named : Named rest)
    (h : d.follow place rest = .ok target) (folder : d.isFolder target) :
    ∀ p, p <+: rest → d.isFolder (place ++ p) := by
  induction rest generalizing place with
  | nil =>
    cases h
    intro p front
    rw [List.prefix_nil.mp front]
    simpa using folder
  | cons name rest ih =>
    rw [follow_name (named name List.mem_cons_self)] at h
    split at h
    next here =>
      split at h
      next =>
        have folders := ih (fun n member => named n (List.mem_cons_of_mem _ member)) h
        intro p front
        cases p with
        | nil => simpa using here
        | cons first p =>
          obtain ⟨rfl, later⟩ := List.cons_prefix_cons.mp front
          simpa using folders p later
      next => cases h
    next => cases h

/-- The index folder of a place is where its path says, and all that is above it is a folder. -/
theorem folderAt_indexFolder_iff (named : Named place) :
    d.FolderAt (indexFolderOf (pathOf place)) target ↔
      target = place ++ [indexFolder] ∧ ∀ p, p <+: place ++ [indexFolder] → d.isFolder p := by
  have named_folder : Named (place ++ [indexFolder]) :=
    named.append (named_singleton proper_indexFolder)
  constructor
  · intro h
    have leads := h.leads
    rw [components_indexFolderOf named, follow] at leads
    have folders := folders_of_follow named_folder leads h.isFolder
    have shape := follow_named named_folder leads
    exact ⟨shape, folders⟩
  · rintro ⟨rfl, folders⟩
    have last := folders _ (List.prefix_refl _)
    refine ⟨?_, last⟩
    rw [components_indexFolderOf named, follow]
    have way : d.follow [] (place ++ [indexFolder]) = .ok ([] ++ (place ++ [indexFolder])) :=
      follow_below named_folder (fun n _ => folders _ (List.take_prefix n _)) (by simp [last])
    exact way

theorem read_document_iff (named : Named place) (proper : Proper name) :
    IndexContents.ofDisk d (indexFolderOf (pathOf place)) name = .ok bytes ↔
      (∀ p, p <+: place ++ [indexFolder] → d.isFolder p) ∧
        d.files.get? (key (place ++ [indexFolder] ++ [name])) = some bytes := by
  rw [IndexContents.ofDisk, read_join proper]
  simp only [folderAt_indexFolder_iff named]
  constructor
  · rintro ⟨_, ⟨rfl, folders⟩, there⟩
    exact ⟨folders, there⟩
  · rintro ⟨folders, there⟩
    exact ⟨_, ⟨rfl, folders⟩, there⟩

/-- Documents of different places are different files. -/
theorem document_key_ne (h : Named place) (k : Named other) (different : other ≠ place)
    {wanted : String} (proper : Proper name) (proper' : Proper wanted) :
    key (place ++ [indexFolder] ++ [name]) ≠ key (other ++ [indexFolder] ++ [wanted]) := by
  intro same
  have folder := named_singleton proper_indexFolder
  have equal := key_inj ((h.append folder).append (named_singleton proper))
    ((k.append folder).append (named_singleton proper')) (by simp) (by simp) same
  have front := List.append_inj_left' equal rfl
  exact different (List.append_inj_left' front rfl).symm

end Documents

/-- From one disk to another the documents of some places stay: what can be read there can be read
afterwards as well. -/
structure Spares (some_places : Location → Prop) (d e : Disk) : Prop where
  working : e.workingFolder = d.workingFolder
  documents : ∀ place, Named place → some_places place →
    Within (.ofDisk d (indexFolderOf (pathOf place))) (.ofDisk e (indexFolderOf (pathOf place)))

section Sparing

variable {some_places : Location → Prop}

theorem Spares.refl (some_places : Location → Prop) (d : Disk) : Spares some_places d d :=
  ⟨rfl, fun _ _ _ => .refl _⟩

theorem Spares.trans {f : Disk} (h : Spares some_places d e) (k : Spares some_places e f) :
    Spares some_places d f where
  working := k.working.trans h.working
  documents := fun place named chosen =>
    (h.documents place named chosen).trans (k.documents place named chosen)

/-- Fewer places are spared all the more. -/
theorem Spares.imp {fewer : Location → Prop} (h : Spares some_places d e)
    (weaker : ∀ place, fewer place → some_places place) : Spares fewer d e where
  working := h.working
  documents := fun place named chosen => h.documents place named (weaker place chosen)

/-- A document stays if its file does and the folders above it. -/
theorem within_of_kept (named : Named place)
    (folders : ∀ p, p <+: place ++ [indexFolder] → d.isFolder p → e.isFolder p)
    (files : ∀ name ∈ documentNames, ∀ bytes,
      d.files.get? (key (place ++ [indexFolder] ++ [name])) = some bytes →
      e.files.get? (key (place ++ [indexFolder] ++ [name])) = some bytes) :
    Within (.ofDisk d (indexFolderOf (pathOf place)))
      (.ofDisk e (indexFolderOf (pathOf place))) := by
  intro name member bytes there
  have proper := proper_of_mem_documentNames name member
  obtain ⟨way, found⟩ := (read_document_iff named proper).mp there
  exact (read_document_iff named proper).mpr
    ⟨fun p front => folders p front (way p front), files name member bytes found⟩

/-- Others may change a source file: it does not lie in an index folder. -/
theorem spares_of_source {file : Location} (named : Named file) (source : indexFolder ∉ file)
    (not_top : file ≠ []) (folders : e.folders = d.folders)
    (working : e.workingFolder = d.workingFolder)
    (files : ∀ k, k ≠ key file → e.files.get? k = d.files.get? k) :
    Spares (fun _ => True) d e := by
  refine ⟨working, fun place place_named _ => within_of_kept place_named (fun p _ there => ?_) ?_⟩
  · simpa only [isFolder, folders] using there
  · intro name member bytes found
    have proper := proper_of_mem_documentNames name member
    have folder := place_named.append (named_singleton proper_indexFolder)
    rw [files, found]
    intro same
    have own := key_inj (folder.append (named_singleton proper)) named (by simp) not_top same
    exact source (by simp [← own])

/-- Creating folders changes no file and takes no folder away. -/
theorem createFrom_kept {steps : List String} (h : d.createFrom place steps = .ok e) :
    e.files = d.files ∧ e.workingFolder = d.workingFolder ∧
      ∀ p, d.isFolder p → e.isFolder p := by
  fun_induction createFrom d place steps with
  | case1 =>
    cases h
    exact ⟨rfl, rfl, fun _ there => there⟩
  | case2 _ _ _ ih => exact ih h
  | case3 _ _ _ ih => exact ih h
  | case4 _ _ _ ih => exact ih h
  | case5 => cases h
  | case6 _ _ _ _ _ _ _ _ _ _ ih => exact ih h
  | case7 d place name rest _ _ _ next _ _ ih =>
    obtain ⟨files, working, folders⟩ := ih h
    refine ⟨files, working, fun p there => folders p ?_⟩
    simp only [isFolder, SortedMap.contains_eq_isSome_get?, SortedMap.get?_insert] at there ⊢
    split <;> simp_all

theorem spares_createFolders {path : String} (h : d.createFolders path = .ok e) :
    Spares (fun _ => True) d e := by
  obtain ⟨files, working, folders⟩ := createFrom_kept h
  refine ⟨working, fun place named _ => within_of_kept named (fun p _ => folders p) ?_⟩
  intro name _ bytes found
  rwa [files]

section Writing

variable (named : Named place) (proper : Proper name)

include named proper

/-- Writing a file into an index folder spares all other places. -/
theorem spares_write
    (h : d.write (join (indexFolderOf (pathOf place)) name) bytes = .ok e) :
    Spares (· ≠ place) d e := by
  obtain ⟨_, at_place, rfl⟩ := write_join_ok proper h
  obtain ⟨rfl, _⟩ := (folderAt_indexFolder_iff named).mp at_place
  refine ⟨rfl, fun other other_named different => within_of_kept other_named (fun _ _ => id) ?_⟩
  intro wanted member content found
  have wanted_proper := proper_of_mem_documentNames wanted member
  rw [SortedMap.get?_insert,
    if_neg (document_key_ne named other_named different proper wanted_proper)]
  exact found

theorem spares_rename {old : String} (proper_old : Proper old)
    (h : d.rename (join (indexFolderOf (pathOf place)) old)
      (join (indexFolderOf (pathOf place)) name) = .ok e) : Spares (· ≠ place) d e := by
  obtain ⟨_, content, at_place, _, rfl⟩ := rename_join_ok proper_old proper h
  obtain ⟨rfl, _⟩ := (folderAt_indexFolder_iff named).mp at_place
  refine ⟨rfl, fun other other_named different => within_of_kept other_named (fun _ _ => id) ?_⟩
  intro wanted member content found
  have wanted_proper := proper_of_mem_documentNames wanted member
  rw [SortedMap.get?_insert,
    if_neg (document_key_ne named other_named different proper wanted_proper),
    SortedMap.get?_erase,
    if_neg (document_key_ne named other_named different proper_old wanted_proper)]
  exact found

end Writing

/-- What lies within a location by its key lies below it by its names. -/
theorem prefix_names_of_isWithin (named : Named gone) {k : String} (within : isWithin gone k) :
    gone <+: Path.names k := by
  by_cases top : gone = []
  · rw [top]
    exact List.nil_prefix
  · have own : Path.names (key gone) = gone := Path.names_intercalate named top
    simp only [isWithin, Bool.or_eq_true, decide_eq_true_eq, List.isEmpty_iff, top, false_or]
      at within
    rcases within with rfl | begun
    · rw [own]
    · obtain ⟨rest, whole⟩ := List.isPrefixOf_iff_prefix.mp begun
      have split : parts k = parts (key gone) ++ rest.splitOn '/' := by
        rw [parts, ← whole]
        simp [parts, List.splitOn_append_cons_self]
      refine ⟨(rest.splitOn '/').map String.ofList, ?_⟩
      rw [Path.names, split, List.map_append, ← Path.names, own]

theorem prefix_of_isWithin (h : Named gone) (k : Named place) (not_top : place ≠ [])
    (within : isWithin gone (key place)) : gone <+: place := by
  have own : Path.names (key place) = place := Path.names_intercalate k not_top
  have front := prefix_names_of_isWithin h within
  rwa [own] at front

theorem removeFolder_ok {path : String} (h : d.removeFolder path = .ok e) :
    ∃ gone, d.locate path = .ok gone ∧ d.isFile gone = false ∧ e = d.removeAt gone := by
  rw [removeFolder] at h
  split at h
  next => cases h
  next gone at_path =>
    split at h
    next => cases h
    next no_file =>
      cases h
      exact ⟨gone, at_path, by simpa using no_file, rfl⟩

/-- Removing a folder spares the places whose index folders do not lie below it. -/
theorem spares_removeAt (named : Named gone) (no_file : d.isFile gone = false) :
    Spares (fun place => ¬gone <+: place ++ [indexFolder]) d (d.removeAt gone) := by
  refine ⟨rfl, fun place place_named apart => ?_⟩
  have folder_named := place_named.append (named_singleton proper_indexFolder)
  refine within_of_kept place_named (fun p front there => ?_) fun name member bytes found => ?_
  · by_cases top : p = []
    · simp [isFolder, top]
    · have outside : isWithin gone (key p) = false := by
        refine Bool.eq_false_iff.mpr fun within => apart ?_
        exact (prefix_of_isWithin named (folder_named.of_prefix front) top within).trans front
      simp only [isFolder, List.isEmpty_iff, top, Bool.or_eq_true, false_or,
        SortedMap.contains_eq_isSome_get?, Option.isSome_iff_exists] at there ⊢
      obtain ⟨u, there⟩ := there
      exact ⟨u, SortedMap.get?_filter_eq_some.mpr ⟨there, by simp [outside]⟩⟩
  · refine SortedMap.get?_filter_eq_some.mpr ⟨found, ?_⟩
    have proper := proper_of_mem_documentNames name member
    have outside : isWithin gone (key (place ++ [indexFolder] ++ [name])) = false := by
      refine Bool.eq_false_iff.mpr fun within => ?_
      have below := prefix_of_isWithin named (folder_named.append (named_singleton proper))
        (by simp) within
      -- What is removed is a folder, so it is not the document itself.
      rcases List.prefix_concat_iff.mp below with same | above
      · rw [isFile, SortedMap.contains_eq_isSome_get?, same, found] at no_file
        cases no_file
      · exact apart above
    rw [outside]
    rfl

end Sparing

end Disk

namespace Action

variable {σ : Type} {w w' : World σ} {place : Location}

theorem spares_replaceDocument (named : Disk.Named place) {name : String}
    (member : name ∈ documentNames) {bytes : Bytes} {r : Except IndexError Unit}
    (h : run (replaceDocument (join (indexFolderOf (Disk.pathOf place)) name) bytes) w = (r, w')) :
    Disk.Spares (· ≠ place) w.disk w'.disk := by
  have proper := proper_of_mem_documentNames name member
  have proper_first := proper_beside name member
  simp only [replaceDocument, join_beside member] at h
  rw [run_bind, run_changeDisk] at h
  cases written : w.disk.write (join (indexFolderOf (Disk.pathOf place)) (beside name)) bytes with
  | error e =>
    rw [written] at h
    cases h
    exact .refl _ _
  | ok d =>
    have first := Disk.spares_write named proper_first written
    rw [written] at h
    dsimp only at h
    rw [run_changeDisk] at h
    dsimp only at h
    cases moved : d.rename (join (indexFolderOf (Disk.pathOf place)) (beside name))
      (join (indexFolderOf (Disk.pathOf place)) name) with
    | error e =>
      rw [moved] at h
      cases h
      exact first
    | ok e =>
      rw [moved] at h
      cases h
      exact first.trans (Disk.spares_rename named proper proper_first moved)

end Action

namespace Session

open Action

variable {σ : Type} {s : Session σ} {t : IndexState} {m : Manifest} {w w' : World σ}
  {place : Location}

theorem spares_replaceDocuments (named : Disk.Named place) (root : s.root = Disk.pathOf place)
    {documents : List (String × Bytes)} (known : ∀ p ∈ documents, p.1 ∈ documentNames)
    {r : Except IndexError Unit}
    (h : run (documents.forM fun (name, bytes) => replaceDocument (join s.folder name) bytes) w =
      (r, w')) : Disk.Spares (· ≠ place) w.disk w'.disk := by
  induction documents generalizing w with
  | nil =>
    cases h
    exact .refl _ _
  | cons first documents ih =>
    obtain ⟨name, bytes⟩ := first
    have own := known (name, bytes) List.mem_cons_self
    rw [List.forM, run_bind] at h
    generalize started : run (replaceDocument (join s.folder name) bytes) w = result at h
    obtain ⟨q, u⟩ := result
    have spared : Disk.Spares (· ≠ place) w.disk u.disk := by
      rw [folder, root] at started
      exact spares_replaceDocument named own started
    cases q with
    | error e =>
      cases h
      exact spared
    | ok => exact spared.trans (ih (fun p member => known p (List.mem_cons_of_mem _ member)) h)

/-- Writing a state spares all places but the root of the session, whether it fails or not. -/
theorem spares_persist (named : Disk.Named place) (root : s.root = Disk.pathOf place)
    {r : Except IndexError Unit} (h : run (s.persist t m) w = (r, w')) :
    Disk.Spares (· ≠ place) w.disk w'.disk := by
  rw [persist, run_bind, run_changeDisk] at h
  cases created : w.disk.createFolders s.folder with
  | error e =>
    rw [created] at h
    cases h
    exact .refl _ _
  | ok d =>
    rw [created] at h
    have spared : Disk.Spares (· ≠ place) w.disk d :=
      (Disk.spares_createFolders created).imp fun _ _ => trivial
    exact spared.trans (spares_replaceDocuments named root (fun _ => mem_documentNames) h)

end Session

end Lookalike
