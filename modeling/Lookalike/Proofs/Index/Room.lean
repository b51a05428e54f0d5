import Lookalike.Proofs.Index.Persisting

/-!
# Room for an index

Writing an index succeeds exactly if its folder can be created and no folder is in the place of a
document, or of the file that a document is written to first. Nothing else matters, in particular
not what the documents hold that are there.
-/

namespace Lookalike

open Action (run run_bind run_changeDisk changeDisk replaceDocument)
open Path (join Proper)

namespace Disk

variable {d e : Disk} {folder name : String} {bytes : Bytes} {place : Location}

/-- A document can be replaced in a folder. -/
def Takes (d : Disk) (folder name : String) : Prop :=
  ∃ place, d.FolderAt folder place ∧ d.isFolder (place ++ [beside name]) = false ∧
    d.isFolder (place ++ [name]) = false

/-- The folder can be created, and every document can be replaced in it. -/
def HasRoom (d : Disk) (folder : String) : Prop :=
  ∃ e, d.createFolders folder = .ok e ∧ ∀ name ∈ documentNames, e.Takes folder name

instance (d : Disk) (folder name : String) : Decidable (d.Takes folder name) :=
  match way : d.follow d.workingFolder (Path.components folder) with
  | .error _ => .isFalse fun ⟨_, at_place, _⟩ => nomatch way.symm.trans at_place.leads
  | .ok place =>
    decidable_of_iff (d.isFolder place ∧ d.isFolder (place ++ [beside name]) = false ∧
        d.isFolder (place ++ [name]) = false)
      ⟨fun ⟨isFolder, free⟩ => ⟨place, ⟨way, isFolder⟩, free⟩,
        fun ⟨_, at_place, free⟩ =>
          Except.ok.inj (way.symm.trans at_place.leads) ▸ ⟨at_place.isFolder, free⟩⟩

instance (d : Disk) (folder : String) : Decidable (d.HasRoom folder) :=
  match created : d.createFolders folder with
  | .error _ => .isFalse fun ⟨_, also, _⟩ => nomatch created.symm.trans also
  | .ok e =>
    decidable_of_iff (∀ name ∈ documentNames, e.Takes folder name)
      ⟨fun takes => ⟨e, created, takes⟩,
        fun ⟨_, also, takes⟩ => Except.ok.inj (created.symm.trans also) ▸ takes⟩

/-- The folders of two disks are the same. -/
structure SameFolders (d e : Disk) : Prop where
  folders : e.folders = d.folders
  working : e.workingFolder = d.workingFolder

theorem SameFolders.symm (h : SameFolders d e) : SameFolders e d := ⟨h.folders.symm, h.working.symm⟩

theorem SameFolders.trans {f : Disk} (h : SameFolders d e) (k : SameFolders e f) :
    SameFolders d f := ⟨k.folders.trans h.folders, k.working.trans h.working⟩

theorem SameFolders.folderAt (h : SameFolders d e) (at_place : d.FolderAt folder place) :
    e.FolderAt folder place := at_place.of_folders h.folders h.working

theorem SameFolders.isFolder (h : SameFolders d e) (place : Location) :
    e.isFolder place = d.isFolder place := by
  simp only [Disk.isFolder, h.folders]

/-- Whether a document can be replaced depends on the folders only. -/
theorem SameFolders.takes_iff (h : SameFolders d e) :
    e.Takes folder name ↔ d.Takes folder name := by
  constructor
  · rintro ⟨place, at_place, free⟩
    refine ⟨place, h.symm.folderAt at_place, ?_⟩
    rwa [h.isFolder, h.isFolder] at free
  · rintro ⟨place, at_place, free⟩
    refine ⟨place, h.folderAt at_place, ?_⟩
    rwa [h.isFolder, h.isFolder]

theorem sameFolders_of_write {path : String} (h : d.write path bytes = .ok e) :
    SameFolders d e := by
  rw [write] at h
  split at h
  next => cases h
  next =>
    split at h
    next => cases h
    next =>
      cases h
      exact ⟨rfl, rfl⟩

theorem sameFolders_of_rename {old new : String} (h : d.rename old new = .ok e) :
    SameFolders d e := by
  rw [rename] at h
  split at h
  next =>
    split at h
    next =>
      split at h
      next => cases h
      next =>
        cases h
        exact ⟨rfl, rfl⟩
    next => cases h
  next => cases h
  next => cases h

/-- A file can be written into a folder if no folder is in its place. -/
theorem exists_write_iff (bytes : Bytes) (proper : Proper name) :
    (∃ e, d.write (join folder name) bytes = .ok e) ↔
      ∃ place, d.FolderAt folder place ∧ d.isFolder (place ++ [name]) = false := by
  constructor
  · rintro ⟨e, h⟩
    rw [write] at h
    split at h
    next => cases h
    next target found =>
      obtain ⟨place, at_place, rfl⟩ := (locateNew_join proper).mp found
      split at h
      next => cases h
      next free => exact ⟨place, at_place, by simpa using free⟩
  · rintro ⟨place, at_place, free⟩
    rw [write, (locateNew_join proper).mpr ⟨place, at_place, rfl⟩]
    simp [free]

/-- What was written into a folder can be moved to where no folder is. -/
theorem exists_rename_iff {old new : String} (proper_old : Proper old) (proper_new : Proper new)
    (at_place : d.FolderAt folder place)
    (there : d.files.get? (key (place ++ [old])) = some bytes) :
    (∃ e, d.rename (join folder old) (join folder new) = .ok e) ↔
      d.isFolder (place ++ [new]) = false := by
  have known : d.isFile (place ++ [old]) := by
    rw [isFile, SortedMap.contains_eq_isSome_get?, there]
    rfl
  rw [rename, at_place.locate_join proper_old, known, Bool.or_true, if_pos rfl,
    (locateNew_join proper_new).mpr ⟨place, at_place, rfl⟩]
  simp only [there]
  cases d.isFolder (place ++ [new]) <;> simp

end Disk

namespace Action

variable {σ : Type} {w : World σ} {folder name : String} {bytes : Bytes}

theorem changeDisk_ok_iff {change : Disk → Except DiskError Disk} :
    (run (changeDisk change) w).1 = .ok () ↔ ∃ d, change w.disk = .ok d := by
  rw [run_changeDisk]
  cases change w.disk <;> simp

/-- What follows a change of the disk meets the changed disk. -/
theorem changeDisk_then_ok_iff {α : Type} {change : Disk → Except DiskError Disk}
    {f : Unit → Action σ α} {a : α} : (run (changeDisk change >>= f) w).1 = .ok a ↔
      ∃ d, change w.disk = .ok d ∧ (run (f ()) { w with disk := d }).1 = .ok a := by
  rw [run_bind, run_changeDisk]
  cases change w.disk <;> simp

theorem sameFolders_changeDisk (change : Disk → Except DiskError Disk)
    (keeps : ∀ {d e}, change d = .ok e → Disk.SameFolders d e) :
    Disk.SameFolders w.disk (run (changeDisk change) w).2.disk := by
  rw [run_changeDisk]
  split
  next changed => exact keeps changed
  next => exact ⟨rfl, rfl⟩

theorem sameFolders_replaceDocument (path : String) (bytes : Bytes) :
    Disk.SameFolders w.disk (run (replaceDocument path bytes) w).2.disk := by
  have wrote := sameFolders_changeDisk (w := w) (·.write (path ++ ".tmp") bytes)
    Disk.sameFolders_of_write
  rw [replaceDocument, run_bind]
  generalize run (changeDisk (·.write (path ++ ".tmp") bytes)) w = ended at wrote
  obtain ⟨_ | _, v⟩ := ended
  · exact wrote
  · exact wrote.trans (sameFolders_changeDisk _ Disk.sameFolders_of_rename)

/-- Replacing a document succeeds exactly if the folder takes it. -/
theorem replaceDocument_ok_iff (member : name ∈ documentNames) :
    (run (replaceDocument (join folder name) bytes) w).1 = .ok () ↔ w.disk.Takes folder name := by
  have proper := proper_of_mem_documentNames name member
  have proper_beside := proper_beside name member
  have moves {d : Disk} (written : w.disk.write (join folder (beside name)) bytes = .ok d)
      {place : Location} (at_place : w.disk.FolderAt folder place) :
      (∃ e, d.rename (join folder (beside name)) (join folder name) = .ok e) ↔
        w.disk.isFolder (place ++ [name]) = false := by
    obtain ⟨other, at_other, shape⟩ := Disk.write_join_ok proper_beside written
    obtain rfl := at_place.unique at_other
    have same := Disk.sameFolders_of_write written
    have there : d.files.get? (Disk.key (place ++ [beside name])) = some bytes := by
      rw [shape]
      simp
    rw [Disk.exists_rename_iff proper_beside proper (same.folderAt at_place) there, same.isFolder]
  rw [replaceDocument, join_beside member, changeDisk_then_ok_iff]
  simp only [changeDisk_ok_iff]
  constructor
  · rintro ⟨d, written, moved⟩
    obtain ⟨place, at_place, free⟩ :=
      (Disk.exists_write_iff bytes proper_beside).mp ⟨d, written⟩
    exact ⟨place, at_place, free, (moves written at_place).mp moved⟩
  · rintro ⟨place, at_place, free_beside, free⟩
    obtain ⟨d, written⟩ :=
      (Disk.exists_write_iff bytes proper_beside).mpr ⟨place, at_place, free_beside⟩
    exact ⟨d, written, (moves written at_place).mpr free⟩

/-- Documents are replaced one after the other if the folder takes each of them as it is. -/
theorem replaceDocuments_ok_iff {documents : List (String × Bytes)}
    (known : ∀ p ∈ documents, p.1 ∈ documentNames) :
    (run (documents.forM fun (name, bytes) => replaceDocument (join folder name) bytes) w).1 =
      .ok () ↔ ∀ p ∈ documents, w.disk.Takes folder p.1 := by
  induction documents generalizing w with
  | nil => exact iff_of_true rfl (by simp)
  | cons first documents ih =>
    obtain ⟨name, bytes⟩ := first
    have own : (run (replaceDocument (join folder name) bytes) w).1 = .ok () ↔
        w.disk.Takes folder name := replaceDocument_ok_iff (known (name, bytes) List.mem_cons_self)
    have same := sameFolders_replaceDocument (w := w) (join folder name) bytes
    rw [List.forM, run_bind, List.forall_mem_cons, ← own]
    generalize run (replaceDocument (join folder name) bytes) w = ended at same ⊢
    obtain ⟨_ | _, v⟩ := ended
    · simp
    · have later := ih (w := v) fun p member => known p (List.mem_cons_of_mem _ member)
      simp only [same.takes_iff] at later
      rw [and_iff_right rfl]
      exact later

end Action

namespace Session

variable {σ : Type} (s : Session σ) (t : IndexState) (m : Manifest) (w : World σ)

/-- Writing an index succeeds exactly if the disk has room for it. -/
theorem persist_ok_iff : (run (s.persist t m) w).1 = .ok () ↔ w.disk.HasRoom s.folder := by
  have names (d : Disk) : (∀ p ∈ t.documents m, d.Takes s.folder p.1) ↔
      ∀ name ∈ documentNames, d.Takes s.folder name := by
    rw [← map_fst_documents t m, List.forall_mem_map]
  rw [persist, Action.changeDisk_then_ok_iff, Disk.HasRoom]
  simp only [Action.replaceDocuments_ok_iff fun _ => mem_documentNames, names]

end Session

end Lookalike
