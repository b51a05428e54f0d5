import Lookalike.Index.State
import Lookalike.Proofs.Index.Documents
import Lookalike.Proofs.Index.State
import Mathlib.Data.List.Perm.Subperm

/-!
# Reading an index folder

An index is read if each of its four documents is and they agree with each other. Agreement of the
catalogue and the table means that both have the same identities: it is checked in one direction,
and the numbers do the rest. What was written by a run is read back as it was, but for the bits of
vectors and for times that a reader takes for others.
-/

namespace Lookalike

open Number (wordBound longBound)

def documentNames : List String := [catalogueName, vectorsName, filesName, manifestName]

namespace IndexContents

variable {folder name : String} {contents others : IndexContents}

theorem document_ok {α : Type} {read : String → Bytes → Except IndexError α} {a : α} :
    document folder contents name read = .ok a ↔
      ∃ bytes, contents name = .ok bytes ∧ read (Path.join folder name) bytes = .ok a := by
  rw [document]
  cases contents name with
  | ok bytes => simp
  | error e => cases e <;> simp

theorem companion_ok {α : Type} {read : String → Bytes → Except IndexError α} {a : α} :
    companion folder contents name read = .ok a ↔
      ∃ bytes, contents name = .ok bytes ∧ read (Path.join folder name) bytes = .ok a := by
  rw [← document_ok, companion]
  split
  next missing => simp [missing]
  next => rfl

/-- Whatever document can be read in the first place has the same bytes in the second. -/
def Within (contents others : IndexContents) : Prop :=
  ∀ name ∈ documentNames, ∀ bytes, contents name = .ok bytes → others name = .ok bytes

theorem Within.refl (contents : IndexContents) : Within contents contents := fun _ _ _ h => h

theorem Within.trans {more : IndexContents} (h : Within contents others) (k : Within others more) :
    Within contents more := fun name member bytes found =>
  k name member bytes (h name member bytes found)

theorem manifest_ok {m : Manifest} : contents.manifest folder = .ok m ↔
    ∃ bytes, contents manifestName = .ok bytes ∧
      readManifest (Path.join folder manifestName) bytes = .ok m := document_ok

theorem Within.manifest (h : Within contents others) {m : Manifest}
    (found : contents.manifest folder = .ok m) : others.manifest folder = .ok m := by
  obtain ⟨bytes, there, read⟩ := manifest_ok.mp found
  exact manifest_ok.mpr ⟨bytes, h _ (by decide) bytes there, read⟩

end IndexContents

namespace IndexState

open IndexContents (companion_ok manifest_ok Within)

/-- What has to hold of a manifest and three stores that are accepted. -/
structure Agreeing (m : Manifest) (c : Catalogue) (t : VectorTable) (files : Snapshot) : Prop where
  covered : ∀ id ∈ c.ids, t.contains id
  sizes : c.size = t.size
  dimension : ∀ expected actual, m.dimension = some expected → t.dimension = some actual →
    expected = actual
  chunks : m.chunkCount = c.size
  files : m.fileCount = files.size

theorem checkCounts_ok {m : Manifest} {folder : String} {chunks files : Nat} :
    m.checkCounts folder chunks files = .ok () ↔ m.chunkCount = chunks ∧ m.fileCount = files := by
  rw [Manifest.checkCounts]
  by_cases chunks_same : m.chunkCount = chunks
  · by_cases files_same : m.fileCount = files <;> simp [chunks_same, files_same]
  · simp [chunks_same]

theorem checkAgreement_ok {folder : String} {m : Manifest} {c : Catalogue} {t : VectorTable}
    {files : Snapshot} :
    checkAgreement folder m c t files = .ok () ↔ Agreeing m c t files := by
  constructor
  · intro h
    simp only [checkAgreement] at h
    split at h
    next => cases h
    next covered =>
      split at h
      next => cases h
      next sizes =>
        have covered : ∀ id ∈ c.ids, t.contains id := by simpa using covered
        have sizes : c.size = t.size := by simpa using sizes
        split at h
        next expected actual at_manifest at_table =>
          split at h
          next => cases h
          next same =>
            have same : expected = actual := by simpa using same
            obtain ⟨chunks, files⟩ := checkCounts_ok.mp h
            refine ⟨covered, sizes, fun e a he ha => ?_, chunks, files⟩
            rw [at_manifest] at he
            rw [at_table] at ha
            cases he
            cases ha
            exact same
        next open_dimension =>
          obtain ⟨chunks, files⟩ := checkCounts_ok.mp h
          exact ⟨covered, sizes, fun e a he ha => absurd ha (open_dimension e a he), chunks, files⟩
  · intro a
    have covered : (c.ids.find? fun id => !t.contains id) = none := by simpa using a.covered
    simp only [checkAgreement, covered, a.sizes, ne_eq, not_true_eq_false, if_false]
    split
    next expected actual at_manifest at_table =>
      rw [if_neg (by simpa using a.dimension expected actual at_manifest at_table)]
      exact checkCounts_ok.mpr ⟨a.chunks.trans a.sizes, a.files⟩
    next => exact checkCounts_ok.mpr ⟨a.chunks.trans a.sizes, a.files⟩

/-- Documents that are accepted together: what each of them is read as. -/
structure Accepted (folder : String) (contents : IndexContents) (m : Manifest) (s : IndexState) :
    Prop where
  catalogue : ∃ bytes, contents catalogueName = .ok bytes ∧
    readCatalogue (Path.join folder catalogueName) bytes = .ok s.catalogue
  table : ∃ bytes, contents vectorsName = .ok bytes ∧
    readVectors (Path.join folder vectorsName) bytes = .ok s.table
  files : ∃ bytes, contents filesName = .ok bytes ∧
    readFiles (Path.join folder filesName) bytes = .ok s.files
  manifest : s.manifest = some m
  agreeing : Agreeing m s.catalogue s.table s.files

theorem readStores_ok {folder : String} {contents : IndexContents} {m : Manifest} {s : IndexState} :
    readStores folder contents m = .ok s ↔ Accepted folder contents m s := by
  constructor
  · intro h
    obtain ⟨catalogue, at_catalogue, h⟩ := bind_eq_ok.mp h
    obtain ⟨table, at_table, h⟩ := bind_eq_ok.mp h
    obtain ⟨files, at_files, h⟩ := bind_eq_ok.mp h
    obtain ⟨_, agreeing, h⟩ := bind_eq_ok.mp h
    cases h
    exact ⟨companion_ok.mp at_catalogue, companion_ok.mp at_table, companion_ok.mp at_files, rfl,
      checkAgreement_ok.mp agreeing⟩
  · intro a
    have at_catalogue := companion_ok.mpr a.catalogue
    have at_table := companion_ok.mpr a.table
    have at_files := companion_ok.mpr a.files
    have agreeing : checkAgreement folder m s.catalogue s.table s.files = .ok () :=
      checkAgreement_ok.mpr a.agreeing
    simp only [readStores, bind_eq_ok]
    refine ⟨_, at_catalogue, _, at_table, _, at_files, (), agreeing, ?_⟩
    rw [← a.manifest]
    rfl

theorem read_ok {folder : String} {contents : IndexContents} {s : IndexState} :
    read folder contents = .ok s ↔
      ∃ m, contents.manifest folder = .ok m ∧ Accepted folder contents m s := by
  rw [read, bind_eq_ok]
  simp only [readStores_ok]

theorem Accepted.within {folder : String} {contents others : IndexContents} {m : Manifest}
    {s : IndexState} (a : Accepted folder contents m s) (h : Within contents others) :
    Accepted folder others m s where
  catalogue := by
    obtain ⟨bytes, there, read⟩ := a.catalogue
    exact ⟨bytes, h _ (by decide) bytes there, read⟩
  table := by
    obtain ⟨bytes, there, read⟩ := a.table
    exact ⟨bytes, h _ (by decide) bytes there, read⟩
  files := by
    obtain ⟨bytes, there, read⟩ := a.files
    exact ⟨bytes, h _ (by decide) bytes there, read⟩
  manifest := a.manifest
  agreeing := a.agreeing

/-- What is read of some documents is read of more as well. -/
theorem read_within {folder : String} {contents others : IndexContents} (h : Within contents others)
    {s : IndexState} (found : read folder contents = .ok s) : read folder others = .ok s := by
  obtain ⟨m, at_manifest, accepted⟩ := read_ok.mp found
  exact read_ok.mpr ⟨m, h.manifest at_manifest, accepted.within h⟩

/-- Without a manifest nothing is read. -/
theorem read_ne_ok {folder : String} {contents : IndexContents}
    (absent : ∀ bytes, contents manifestName ≠ .ok bytes) (s : IndexState) :
    read folder contents ≠ .ok s := by
  intro found
  obtain ⟨m, at_manifest, _⟩ := read_ok.mp found
  obtain ⟨bytes, there, _⟩ := manifest_ok.mp at_manifest
  exact absent bytes there

/-- Stores have the same identities if these are listed alike, in any order. -/
theorem synchronised_iff_perm {s : IndexState} (w : s.catalogue.WellFormed) :
    s.Synchronised ↔ s.catalogue.ids.Perm s.table.vectors.keys := by
  rw [List.perm_ext_iff_of_nodup w.distinct (SortedMap.nodup_keys _)]
  exact forall_congr' fun id =>
    iff_congr (w.listed id).symm (SortedMap.mem_keys_iff _ id).symm

theorem sizes_eq_iff {s : IndexState} :
    s.catalogue.size = s.table.size ↔ s.catalogue.ids.length = s.table.vectors.keys.length := by
  rw [Catalogue.size_eq_length_ids, VectorTable.size, SortedMap.length_keys]

/-- Stores of one size of which the first is covered by the second have the same identities. -/
theorem synchronised_of_agreeing {m : Manifest} {s : IndexState} {files : Snapshot}
    (w : s.catalogue.WellFormed) (a : Agreeing m s.catalogue s.table files) : s.Synchronised := by
  have within : s.catalogue.ids ⊆ s.table.vectors.keys := fun id member =>
    (SortedMap.contains_iff_mem_keys _ id).mp (a.covered id member)
  have lengths := sizes_eq_iff.mp a.sizes
  exact (synchronised_iff_perm w).mpr
    ((List.subperm_of_subset w.distinct within).perm_of_length_le (Nat.le_of_eq lengths.symm))

/-- Stores with the same identities have one size. -/
theorem Synchronised.sizes {t : IndexState} (h : t.Synchronised) (w : t.catalogue.WellFormed) :
    t.catalogue.size = t.table.size :=
  sizes_eq_iff.mpr ((synchronised_iff_perm w).mp h).length_eq

/-- Where every vector has a chunk, the stores have the same identities if they have as many. -/
theorem Regular.synchronised_iff_sizes {t : IndexState} (r : t.Regular) :
    t.Synchronised ↔ t.catalogue.size = t.table.size := by
  refine ⟨fun h => h.sizes r.wellFormed, fun sizes => ?_⟩
  have within : t.table.vectors.keys ⊆ t.catalogue.ids := fun id member =>
    (r.wellFormed.listed id).mpr (r.cataloged id ((SortedMap.mem_keys_iff _ id).mp member))
  have lengths := sizes_eq_iff.mp sizes
  exact (synchronised_iff_perm r.wellFormed).mpr
    ((List.subperm_of_subset (SortedMap.nodup_keys _) within).perm_of_length_le
      (Nat.le_of_eq lengths)).symm

/-- Stores with the same identities agree with a manifest that records their sizes. -/
theorem Synchronised.agreeing {m : Manifest} {t : IndexState} {files : Snapshot}
    (h : t.Synchronised) (w : t.catalogue.WellFormed) (dimension : ∀ expected actual,
      m.dimension = some expected → t.table.dimension = some actual → expected = actual)
    (chunks : m.chunkCount = t.catalogue.size) (tracked : m.fileCount = files.size) :
    Agreeing m t.catalogue t.table files := by
  refine ⟨fun id listed => ?_, h.sizes w, dimension, chunks, tracked⟩
  rw [VectorTable.contains_eq_isSome_get?]
  exact (h id).mp ((w.listed id).mp listed)

section Documents

/-- What reading the documents of a state gives. -/
structure ReadBack (t u : IndexState) : Prop where
  manifest : ∃ m n, t.manifest = some m ∧ u.manifest = some n ∧ m.ReadBack n
  wellFormed : u.catalogue.WellFormed
  catalogue : t.catalogue.Alike u.catalogue
  table : t.table.ReadBack u.table
  files : u.files = t.files

/-- The documents of a state are those of a folder. -/
structure Held (contents : IndexContents) (t : IndexState) (m : Manifest) : Prop where
  catalogue : contents catalogueName = .ok (documentBytes t.catalogue.toJson)
  table : contents vectorsName = .ok (documentBytes t.table.toJson)
  files : contents filesName = .ok (documentBytes t.files.toJson)
  manifest : contents manifestName = .ok (documentBytes m.toJson)

/-- Agreement is about identities, sizes and numbers. -/
theorem Agreeing.congr {m n : Manifest} {c d : Catalogue} {t u : VectorTable} {files : Snapshot}
    (a : Agreeing m c t files) (dimension : n.dimension = m.dimension)
    (chunks : n.chunkCount = m.chunkCount) (fileCount : n.fileCount = m.fileCount)
    (ids : d.ids = c.ids) (contains : ∀ id, u.contains id = t.contains id)
    (size : u.size = t.size) (length : u.dimension = t.dimension) : Agreeing n d u files := by
  have sizes : d.size = c.size := by
    rw [Catalogue.size_eq_length_ids, Catalogue.size_eq_length_ids, ids]
  refine ⟨fun id member => ?_, ?_, fun e x he hx => ?_, ?_, ?_⟩
  · rw [contains]
    exact a.covered id (ids ▸ member)
  · rw [sizes, size]
    exact a.sizes
  · exact a.dimension e x (dimension.symm.trans he) (length.symm.trans hx)
  · rw [chunks, sizes]
    exact a.chunks
  · rw [fileCount]
    exact a.files

theorem agreeing_readBack {m n : Manifest} {c d : Catalogue} {t u : VectorTable} {files : Snapshot}
    (manifest : m.ReadBack n) (catalogue : c.Alike d) (table : t.ReadBack u) :
    Agreeing n d u files ↔ Agreeing m c t files := by
  have same := manifest.same
  have dimension : n.dimension = m.dimension := by rw [same]
  have chunks : n.chunkCount = m.chunkCount := by rw [same]
  have fileCount : n.fileCount = m.fileCount := by rw [same]
  constructor
  · intro a
    exact a.congr dimension.symm chunks.symm fileCount.symm catalogue.ids.symm
      (fun id => (table.contains id).symm) table.size.symm table.dimension.symm
  · intro a
    exact a.congr dimension chunks fileCount catalogue.ids table.contains table.size table.dimension

variable {folder : String} {contents : IndexContents} {t u : IndexState} {m : Manifest}

theorem ReadBack.isSome_table (b : ReadBack t u) (id : String) :
    (u.table.get? id).isSome = (t.table.get? id).isSome := by
  rw [← VectorTable.contains_eq_isSome_get?, ← VectorTable.contains_eq_isSome_get?,
    b.table.contains]

theorem Regular.readBack (r : Regular t) (b : ReadBack t u) : Regular u where
  wellFormed := b.wellFormed
  genuine := by
    intro id c found
    rw [b.catalogue.found] at found
    exact r.genuine id c found
  cataloged := by
    intro id known
    rw [b.isSome_table] at known
    rw [b.catalogue.found]
    exact r.cataloged id known
  uniform := b.table.uniform r.uniform

theorem Synchronised.readBack (h : t.Synchronised) (b : ReadBack t u) : u.Synchronised := by
  intro id
  rw [b.catalogue.found, b.isSome_table]
  exact h id

/-- Whatever is read of the documents of a state is a reading of that state. -/
theorem readBack_of_read (held : Held contents t m) (w : t.catalogue.WellFormed)
    (h : read folder contents = .ok u) : ReadBack { t with manifest := some m } u ∧
      t.table.Readable ∧ Agreeing m t.catalogue t.table t.files := by
  obtain ⟨n, at_manifest, a⟩ := read_ok.mp h
  obtain ⟨manifest_bytes, manifest_there, manifest_read⟩ := manifest_ok.mp at_manifest
  obtain ⟨catalogue_bytes, catalogue_there, catalogue_read⟩ := a.catalogue
  obtain ⟨table_bytes, table_there, table_read⟩ := a.table
  obtain ⟨files_bytes, files_there, files_read⟩ := a.files
  rw [held.manifest] at manifest_there
  rw [held.catalogue] at catalogue_there
  rw [held.table] at table_there
  rw [held.files] at files_there
  cases manifest_there
  cases catalogue_there
  cases table_there
  cases files_there
  have manifest := readManifest_document.mp manifest_read
  obtain ⟨d, read, well, alike⟩ :=
    Catalogue.readCatalogue_document w (Path.join folder catalogueName)
  rw [catalogue_read] at read
  cases read
  rw [readFiles_document] at files_read
  have files : u.files = t.files := (Except.ok.inj files_read).symm
  obtain ⟨readable, table⟩ := VectorTable.readVectors_document table_read
  have agreeing := a.agreeing
  rw [files] at agreeing
  exact ⟨⟨⟨m, n, rfl, a.manifest, manifest⟩, well, alike, table, files⟩, readable,
    (agreeing_readBack manifest alike table).mp agreeing⟩

/-- The documents of a state are accepted if and only if they agree and their numbers and times can
be taken in. -/
theorem isOk_read_iff (held : Held contents t m) (w : t.catalogue.WellFormed)
    (uniform : t.table.Uniform) : (∃ u, read folder contents = .ok u) ↔
      (∃ n, m.ReadBack n) ∧ t.table.Readable ∧ Agreeing m t.catalogue t.table t.files := by
  constructor
  · rintro ⟨u, h⟩
    obtain ⟨back, readable, agreeing⟩ := readBack_of_read held w h
    obtain ⟨m', n, same, _, manifest⟩ := back.manifest
    cases same
    exact ⟨⟨n, manifest⟩, readable, agreeing⟩
  · rintro ⟨⟨n, manifest⟩, readable, agreeing⟩
    obtain ⟨d, catalogue_read, _, alike⟩ :=
      Catalogue.readCatalogue_document w (Path.join folder catalogueName)
    obtain ⟨v, table_read⟩ :=
      VectorTable.readVectors_document_total uniform readable (Path.join folder vectorsName)
    have table := (VectorTable.readVectors_document table_read).2
    have accepted : Accepted folder contents n
        { manifest := some n, catalogue := d, table := v, files := t.files } :=
      ⟨⟨_, held.catalogue, catalogue_read⟩, ⟨_, held.table, table_read⟩,
        ⟨_, held.files, readFiles_document _ t.files⟩, rfl,
          (agreeing_readBack manifest alike table).mpr agreeing⟩
    have at_manifest : contents.manifest folder = .ok n :=
      manifest_ok.mpr ⟨_, held.manifest, readManifest_document.mpr manifest⟩
    exact ⟨_, read_ok.mpr ⟨n, at_manifest, accepted⟩⟩

end Documents

end IndexState

end Lookalike
