import Lookalike.Proofs.Disk
import Lookalike.Proofs.Index.Reading
import Lookalike.Proofs.Index.Run

/-!
# Writing an index folder

A state is written by replacing the four documents one after the other. Whenever that ends, some of
the first documents are new and all others are as they were: all of them are new if nothing failed.
-/

namespace Lookalike

open Action (run run_bind changeDisk replaceDocument)
open Path (join Proper)

section Names

theorem nodup_documentNames : documentNames.Nodup := by decide

theorem map_fst_documents (t : IndexState) (m : Manifest) :
    (t.documents m).map (·.1) = documentNames := rfl

theorem mem_documentNames {t : IndexState} {m : Manifest} {p : String × Bytes}
    (h : p ∈ t.documents m) : p.1 ∈ documentNames :=
  map_fst_documents t m ▸ List.mem_map_of_mem h

theorem proper_of_mem_documentNames : ∀ name ∈ documentNames, Proper name := by
  intro name member
  simp only [documentNames, List.mem_cons, List.not_mem_nil, or_false] at member
  rcases member with rfl | rfl | rfl | rfl
  all_goals exact ⟨by decide, by decide, by decide⟩

/-- The name of the file that a document is written to first. -/
def beside (name : String) : String := name ++ ".tmp"

theorem proper_beside : ∀ name ∈ documentNames, Proper (beside name) := by
  intro name member
  simp only [documentNames, List.mem_cons, List.not_mem_nil, or_false] at member
  rcases member with rfl | rfl | rfl | rfl
  all_goals exact ⟨by decide, by decide, by decide⟩

theorem beside_not_document : ∀ name ∈ documentNames, beside name ∉ documentNames := by decide

theorem join_beside {folder name : String} (member : name ∈ documentNames) :
    join folder name ++ ".tmp" = join folder (beside name) := by
  have plain := (proper_of_mem_documentNames name member).plain.not_startsWith
  have plain_beside := (proper_beside name member).plain.not_startsWith
  rw [beside] at plain_beside
  simp only [join, plain, plain_beside, Bool.false_or, beside]
  split
  next => rfl
  next => split <;> rw [String.append_assoc]

end Names

namespace IndexContents

/-- The same documents can be read, with the same bytes. -/
def Same (contents others : IndexContents) : Prop :=
  ∀ name ∈ documentNames, ∀ bytes, contents name = .ok bytes ↔ others name = .ok bytes

/-- Contents of which some documents are replaced. -/
def replaced (contents : IndexContents) (documents : List (String × Bytes)) : IndexContents :=
  fun name =>
    match documents.lookup name with
    | some bytes => .ok bytes
    | none => contents name

variable {contents others : IndexContents}

theorem Same.symm (h : Same contents others) : Same others contents := fun name member bytes =>
  (h name member bytes).symm

theorem Same.trans {more : IndexContents} (h : Same contents others) (k : Same others more) :
    Same contents more := fun name member bytes =>
  (h name member bytes).trans (k name member bytes)

theorem Same.within (h : Same contents others) : Within contents others :=
  fun name member bytes => (h name member bytes).mp

theorem Same.replaced (h : Same contents others) (documents : List (String × Bytes)) :
    Same (contents.replaced documents) (others.replaced documents) := by
  intro name member bytes
  rw [IndexContents.replaced, IndexContents.replaced]
  split
  · rfl
  · exact h name member bytes

/-- What is replaced first is as good as replaced last if its name does not come again. -/
theorem replaced_cons (contents : IndexContents) {name : String} (bytes : Bytes)
    {documents : List (String × Bytes)} (other : name ∉ documents.map (·.1)) :
    (contents.replaced [(name, bytes)]).replaced documents =
      contents.replaced ((name, bytes) :: documents) := by
  funext wanted
  by_cases same : wanted = name
  · subst same
    have absent : documents.lookup wanted = none := by
      rw [List.lookup_eq_none_iff]
      intro p member
      simpa using fun h => other (List.mem_map.mpr ⟨p, member, h.symm⟩)
    simp [replaced, absent]
  · have different : (wanted == name) = false := by simpa using same
    simp [replaced, List.lookup_cons, different]

end IndexContents

namespace Disk

variable {d e : Disk} {folder name : String} {bytes : Bytes} {place : Location}

theorem FolderAt.read_join (h : d.FolderAt folder place) (proper : Proper name) :
    d.read (join folder name) = .ok bytes ↔ d.files.get? (key (place ++ [name])) = some bytes := by
  rw [Disk.read_join proper]
  constructor
  · rintro ⟨other, at_other, there⟩
    rw [h.unique at_other]
    exact there
  · intro there
    exact ⟨place, h, there⟩

/-- A folder that is there is not created. -/
theorem createFrom_of_follow {names : List String} {target : Location}
    (h : d.follow place names = .ok target) (folder : d.isFolder target)
    (downward : "/" ∉ names.tail) (created : d.createFrom place names = .ok e) : e = d := by
  have tail {rest : List String} (h : "/" ∉ rest) : "/" ∉ rest.tail := fun member =>
    h (List.mem_of_mem_tail member)
  fun_induction follow d place names with
  | case1 =>
    cases created
    rfl
  | case2 place rest ih => exact ih h (tail downward) created
  | case3 place rest ih => exact ih h (tail downward) (by rwa [createFrom] at created)
  | case4 place rest above ih => exact ih h (tail downward) (by rwa [createFrom] at created)
  | case5 => cases h
  | case6 place name rest no_slash no_dot no_up next above known ih =>
    have below : d.isFolder next := Classical.byContradiction fun no_folder => by
      have := not_isFolder_of_follow (by simpa using no_folder) downward h
      simp [this] at folder
    rw [createFrom] at created
    · split at created
      next => cases created
      next => exact ih h (tail downward) created
    all_goals assumption
  | case7 => cases h
  | case8 => cases h

theorem FolderAt.createFolders (h : d.FolderAt folder place)
    (created : d.createFolders folder = .ok e) :
    e = d := createFrom_of_follow h.leads h.isFolder (Path.slash_not_mem_tail folder) created

/-- Writing beside a document changes no document. -/
theorem same_of_write (member : name ∈ documentNames)
    (h : d.write (join folder (beside name)) bytes = .ok e) :
    IndexContents.Same (.ofDisk e folder) (.ofDisk d folder) := by
  obtain ⟨place, at_place, rfl⟩ := write_join_ok (proper_beside name member) h
  have at_after : FolderAt { d with files := d.files.insert (key (place ++ [beside name])) bytes }
    folder place := at_place.of_folders rfl rfl
  intro other is_document content
  have proper := proper_of_mem_documentNames other is_document
  have different : beside name ≠ other := fun same =>
    beside_not_document name member (same ▸ is_document)
  rw [IndexContents.ofDisk, IndexContents.ofDisk, at_after.read_join proper,
    at_place.read_join proper, SortedMap.get?_insert,
    if_neg fun same => different (key_concat_inj.mp same)]

/-- Moving what was written beside a document over it changes this document only. -/
theorem same_of_rename (member : name ∈ documentNames)
    (written : d.write (join folder (beside name)) bytes = .ok e) {f : Disk}
    (moved : e.rename (join folder (beside name)) (join folder name) = .ok f) :
    IndexContents.Same (.ofDisk f folder)
      ((IndexContents.ofDisk d folder).replaced [(name, bytes)]) := by
  have proper_name := proper_of_mem_documentNames name member
  obtain ⟨place, at_place, shape⟩ := write_join_ok (proper_beside name member) written
  have at_written : e.FolderAt folder place :=
    at_place.of_folders (by rw [shape]) (by rw [shape])
  obtain ⟨other, found, at_other, there, shape_moved⟩ :=
    rename_join_ok (proper_beside name member) proper_name moved
  obtain rfl := at_written.unique at_other
  have at_moved : f.FolderAt folder place :=
    at_written.of_folders (by rw [shape_moved]) (by rw [shape_moved])
  rw [shape, SortedMap.get?_insert, if_pos rfl] at there
  cases there
  intro wanted is_document content
  have proper := proper_of_mem_documentNames wanted is_document
  have different : beside name ≠ wanted := fun same =>
    beside_not_document name member (same ▸ is_document)
  rw [IndexContents.ofDisk, at_moved.read_join proper, shape_moved, shape, SortedMap.get?_insert,
    SortedMap.get?_erase, SortedMap.get?_insert]
  by_cases same : name = wanted
  · subst same
    simp [IndexContents.replaced]
  · have not_name : (wanted == name) = false := by simpa using Ne.symm same
    have apart : key (place ++ [beside name]) ≠ key (place ++ [wanted]) := fun eq =>
      different (key_concat_inj.mp eq)
    rw [if_neg fun eq => same (key_concat_inj.mp eq), if_neg apart, if_neg apart,
      ← at_place.read_join proper]
    simp [IndexContents.replaced, List.lookup_cons, not_name, IndexContents.ofDisk]

end Disk

namespace Action

variable {σ : Type} {w w' : World σ} {r : Except IndexError Unit} {folder : String}

theorem run_changeDisk (change : Disk → Except DiskError Disk) (w : World σ) :
    run (changeDisk change) w =
      match change w.disk with
      | .ok disk => (.ok (), { w with disk })
      | .error _ => (.error .io, w) := by
  show run (get >>= fun w => _) w = _
  rw [run_bind, run_get]
  dsimp only
  cases change w.disk <;> rfl

/-- Replacing a document does it, or fails and leaves all of them as they were. -/
theorem replaceDocument_result {name : String} (member : name ∈ documentNames) {bytes : Bytes}
    (h : run (replaceDocument (join folder name) bytes) w = (r, w')) :
    (r = .ok () ∧ IndexContents.Same (.ofDisk w'.disk folder)
        ((IndexContents.ofDisk w.disk folder).replaced [(name, bytes)])) ∨
      (r = .error .io ∧ IndexContents.Same (.ofDisk w'.disk folder) (.ofDisk w.disk folder)) := by
  simp only [replaceDocument, join_beside member] at h
  rw [run_bind, run_changeDisk] at h
  cases written : w.disk.write (join folder (beside name)) bytes with
  | error e =>
    rw [written] at h
    cases h
    exact .inr ⟨rfl, fun _ _ _ => Iff.rfl⟩
  | ok d =>
    rw [written] at h
    dsimp only at h
    rw [run_changeDisk] at h
    dsimp only at h
    cases moved : d.rename (join folder (beside name)) (join folder name) with
    | error e =>
      rw [moved] at h
      cases h
      exact .inr ⟨rfl, Disk.same_of_write member written⟩
    | ok e =>
      rw [moved] at h
      cases h
      exact .inl ⟨rfl, Disk.same_of_rename member written moved⟩

/-- Replacing some documents replaces the first ones, and all of them unless it fails. -/
theorem replaceDocuments_result {documents : List (String × Bytes)}
    (known : ∀ p ∈ documents, p.1 ∈ documentNames) (distinct : (documents.map (·.1)).Nodup)
    (h : run (documents.forM fun (name, bytes) => replaceDocument (join folder name) bytes) w =
      (r, w')) :
    ∃ n ≤ documents.length, IndexContents.Same (.ofDisk w'.disk folder)
        ((IndexContents.ofDisk w.disk folder).replaced (documents.take n)) ∧
      ((r = .ok () ∧ n = documents.length) ∨ (r = .error .io ∧ n < documents.length)) := by
  induction documents generalizing w with
  | nil =>
    cases h
    exact ⟨0, Nat.le_refl 0, fun _ _ _ => Iff.rfl, .inl ⟨rfl, rfl⟩⟩
  | cons first documents ih =>
    obtain ⟨name, bytes⟩ := first
    have ⟨first_new, distinct⟩ := List.nodup_cons.mp distinct
    have first_known := known (name, bytes) List.mem_cons_self
    have rest_known : ∀ p ∈ documents, p.1 ∈ documentNames := fun p member =>
      known p (List.mem_cons_of_mem _ member)
    rw [List.forM, run_bind] at h
    generalize started : run (replaceDocument (join folder name) bytes) w = result at h
    obtain ⟨q, v⟩ := result
    rcases replaceDocument_result first_known started with ⟨rfl, same⟩ | ⟨rfl, same⟩
    · obtain ⟨n, bound, same_rest, outcome⟩ := ih rest_known distinct h
      have not_in_prefix : name ∉ (documents.take n).map (·.1) := fun member =>
        first_new ((List.take_sublist n documents).map _ |>.mem member)
      refine ⟨n + 1, by simpa using bound, ?_, by simpa using outcome⟩
      rw [List.take_succ_cons, ← IndexContents.replaced_cons _ bytes not_in_prefix]
      exact same_rest.trans (same.replaced _)
    · cases h
      exact ⟨0, Nat.zero_le _, same, .inr ⟨rfl, by simp⟩⟩

end Action

namespace Session

variable {σ : Type} {s : Session σ} {t : IndexState} {m : Manifest} {w w' : World σ}

/-- Writing a state fails before anything is written, or it replaces some of the first documents. -/
theorem persist_result {r : Except IndexError Unit} (h : run (s.persist t m) w = (r, w')) :
    (r = .error .io ∧ w'.disk = w.disk) ∨
      ∃ d n, w.disk.createFolders s.folder = .ok d ∧ n ≤ 4 ∧ IndexContents.Same (s.contents w'.disk)
          ((s.contents d).replaced ((t.documents m).take n)) ∧
        ((r = .ok () ∧ n = 4) ∨ (r = .error .io ∧ n < 4)) := by
  rw [persist, run_bind, Action.run_changeDisk] at h
  cases created : w.disk.createFolders s.folder with
  | error e =>
    rw [created] at h
    cases h
    exact .inl ⟨rfl, rfl⟩
  | ok d =>
    rw [created] at h
    obtain ⟨n, bound, same, outcome⟩ :=
      Action.replaceDocuments_result (fun _ => mem_documentNames) nodup_documentNames h
    exact .inr ⟨d, n, rfl, bound, same, outcome⟩

theorem persist_ok (h : run (s.persist t m) w = (.ok (), w')) :
    IndexState.Held (s.contents w'.disk) t m := by
  rcases persist_result h with ⟨failed, _⟩ | ⟨d, n, _, _, same, ⟨_, rfl⟩ | ⟨failed, _⟩⟩
  · cases failed
  · refine ⟨?_, ?_, ?_, ?_⟩
    all_goals exact (same _ (by decide) _).mpr rfl
  · cases failed

/-- Writing fails only because of the disk. -/
theorem persist_error {e : IndexError} (h : run (s.persist t m) w = (.error e, w')) : e = .io := by
  rcases persist_result h with ⟨failed, _⟩ | ⟨_, _, _, _, _, ⟨done, _⟩ | ⟨failed, _⟩⟩
  · exact Except.error.inj failed
  · cases done
  · exact Except.error.inj failed

end Session

end Lookalike
