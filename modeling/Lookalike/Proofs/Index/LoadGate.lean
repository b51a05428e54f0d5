import Lookalike.Proofs.Index.Corruption
import Lookalike.Proofs.Index.Interruption
import Mathlib.Data.Finset.Card

/-!
# What the documents of an index are refused for

The documents beside a manifest are compared by walking through the catalogue and counting: each
identity of the catalogue has a vector, and there are as many vectors as chunks. Neither store holds
an identity twice, so this says that both hold the same identities, and nothing less is accepted.
Whatever stops the reading is corruption of the index, unless the disk refuses a document. An index
is absent only if its manifest is: a document that is missing beside a manifest is corruption too.
-/

namespace Lookalike

namespace IndexState

open IndexContents (companion_ok companion_ne_noIndex corrupt_companion onlyCorrupt_companion)

/-- What a manifest says of the stores beside it is true of them, and they have the same
identities. -/
structure Together (m : Manifest) (c : Catalogue) (t : VectorTable) (files : Snapshot) : Prop where
  ids : c.ids.toFinset = t.ids.toFinset
  dimension : ∀ expected actual, m.dimension = some expected → t.dimension = some actual →
    expected = actual
  chunks : m.chunkCount = c.ids.toFinset.card
  files : m.fileCount = files.keys.toFinset.card

section Counting

variable {m : Manifest} {c : Catalogue} {t : VectorTable} {files : Snapshot}

theorem card_ids_catalogue (w : c.WellFormed) : c.ids.toFinset.card = c.size := by
  rw [List.toFinset_card_of_nodup w.distinct, Catalogue.size_eq_length_ids]

theorem card_keys {α : Type} (s : SortedMap α) : s.keys.toFinset.card = s.size := by
  rw [List.toFinset_card_of_nodup s.nodup_keys, SortedMap.length_keys]

theorem contains_iff_mem_ids {id : String} : t.contains id ↔ id ∈ t.ids :=
  SortedMap.contains_iff_mem_keys t.vectors id

/-- One inclusion and the numbers make both sets of identities equal. -/
theorem agreeing_iff_together (w : c.WellFormed) :
    Agreeing m c t files ↔ Together m c t files := by
  have catalogue := card_ids_catalogue w
  have table : t.ids.toFinset.card = t.size := card_keys t.vectors
  have tracked : files.keys.toFinset.card = files.size := card_keys files
  constructor
  · intro a
    have within : c.ids.toFinset ⊆ t.ids.toFinset := by
      intro id listed
      rw [List.mem_toFinset] at listed ⊢
      exact contains_iff_mem_ids.mp (a.covered id listed)
    have sizes : t.ids.toFinset.card ≤ c.ids.toFinset.card := by
      rw [catalogue, table]
      exact a.sizes.ge
    exact ⟨Finset.eq_of_subset_of_card_le within sizes, a.dimension,
      a.chunks.trans catalogue.symm, a.files.trans tracked.symm⟩
  · intro a
    refine ⟨fun id listed => ?_, ?_, a.dimension, a.chunks.trans catalogue, a.files.trans tracked⟩
    · rw [contains_iff_mem_ids, ← List.mem_toFinset, ← a.ids, List.mem_toFinset]
      exact listed
    · rw [← catalogue, ← table, a.ids]

end Counting

/-- The documents beside the manifest, in the order in which they are read. -/
def companionNames : List String := [catalogueName, vectorsName, filesName]

section Companions

variable {folder : String} {contents : IndexContents} {m : Manifest}

/-- The names of the documents that are read before one of them. -/
def readBefore (name : String) : List String := companionNames.takeWhile (· ≠ name)

/-- Of the documents beside a manifest the first that cannot be read decides. -/
theorem corrupt_of_missing {name : String} (member : name ∈ companionNames)
    (absent : contents name = .error .notFound)
    (allowed : ∀ other ∈ readBefore name, contents other ≠ .error .refused) :
    Corrupt (readStores folder contents m) := by
  have catalogue (h : catalogueName ∈ readBefore name) :
      OnlyCorrupt (contents.companion folder catalogueName readCatalogue) :=
    onlyCorrupt_companion onlyCorrupt_readCatalogue (allowed _ h)
  have vectors (h : vectorsName ∈ readBefore name) :
      OnlyCorrupt (contents.companion folder vectorsName readVectors) :=
    onlyCorrupt_companion onlyCorrupt_readVectors (allowed _ h)
  simp only [companionNames, List.mem_cons, List.not_mem_nil, or_false] at member
  rcases member with rfl | rfl | rfl
  · exact (corrupt_companion absent).bind _
  · exact (catalogue (by decide)).bind fun c => (corrupt_companion absent).bind _
  · exact (catalogue (by decide)).bind fun c => (vectors (by decide)).bind fun t =>
      (corrupt_companion absent).bind _

theorem readStores_ne_noIndex (path : String) :
    readStores folder contents m ≠ .error (.noIndex path) := by
  intro failed
  rcases bind_eq_error.mp failed with catalogue | ⟨c, _, failed⟩
  · exact companion_ne_noIndex path catalogue
  rcases bind_eq_error.mp failed with table | ⟨t, _, failed⟩
  · exact companion_ne_noIndex path table
  rcases bind_eq_error.mp failed with files | ⟨s, _, failed⟩
  · exact companion_ne_noIndex path files
  rcases bind_eq_error.mp failed with disagreement | ⟨_, _, failed⟩
  · exact (onlyCorrupt_checkAgreement folder m c t s _ disagreement).ne_noIndex path rfl
  · cases failed

end Companions

section Gate

variable {folder : String} {contents : IndexContents} {m : Manifest} {c : Catalogue}
variable {t : VectorTable} {files : Snapshot}

theorem Parts.readStores_eq (p : Parts folder contents m c t files) :
    readStores folder contents m = (checkAgreement folder m c t files).map fun _ =>
      { manifest := some m, catalogue := c, table := t, files } := by
  rw [readStores, companion_ok.mpr p.catalogue, companion_ok.mpr p.table,
    companion_ok.mpr p.files]
  cases checked : checkAgreement folder m c t files with
  | error e => simp only [bind, Except.bind, checked, Except.map]
  | ok _ => simp only [bind, Except.bind, checked, Except.map, pure, Except.pure]

/-- Documents that can be read are accepted exactly if they belong together, and refused as corrupt
otherwise. -/
theorem Parts.gate (p : Parts folder contents m c t files) :
    (Together m c t files → readStores folder contents m =
      .ok { manifest := some m, catalogue := c, table := t, files }) ∧
    (¬Together m c t files → Corrupt (readStores folder contents m)) := by
  obtain ⟨bytes, _, read⟩ := p.catalogue
  have same : Agreeing m c t files ↔ Together m c t files :=
    agreeing_iff_together (Catalogue.wellFormed_readCatalogue read)
  rw [p.readStores_eq]
  constructor
  · intro together
    rw [checkAgreement_ok.mpr (same.mpr together)]
    rfl
  · intro apart
    have refused : ∀ u, checkAgreement folder m c t files ≠ .ok u := fun _ checked =>
      apart (same.mp (checkAgreement_ok.mp checked))
    obtain ⟨path, reason, failed⟩ :=
      (onlyCorrupt_checkAgreement folder m c t files).corrupt refused
    exact ⟨path, reason, by rw [failed]; rfl⟩

/-- There is no index only where there is no manifest. -/
theorem read_eq_noIndex {path : String} : read folder contents = .error (.noIndex path) ↔
    contents manifestName = .error .notFound ∧ path = Path.join folder manifestName := by
  rw [← IndexContents.document_eq_noIndex onlyCorrupt_readManifest, ← IndexContents.manifest]
  constructor
  · intro failed
    rcases bind_eq_error.mp failed with absent | ⟨m, _, failed⟩
    · exact absent
    · exact absurd failed (readStores_ne_noIndex path)
  · intro absent
    rw [read, absent]
    rfl

/-- Beside a manifest that is there, however it reads, a missing document is corruption. -/
theorem corrupt_read_of_missing {bytes : Bytes} (there : contents manifestName = .ok bytes)
    {name : String} (member : name ∈ companionNames) (absent : contents name = .error .notFound)
    (allowed : ∀ other ∈ readBefore name, contents other ≠ .error .refused) :
    Corrupt (read folder contents) := by
  have manifest : OnlyCorrupt (contents.manifest folder) :=
    IndexContents.onlyCorrupt_document onlyCorrupt_readManifest there
  exact manifest.bind fun m => corrupt_of_missing member absent allowed

/-- The gate lets through just those four documents that belong together, and names every other
failure corruption. A document that is missing beside a manifest never looks like the absence of an
index, which is the absence of the manifest. -/
theorem gate_exact (folder : String) (contents : IndexContents) :
    (∀ m c t files, Parts folder contents m c t files →
      ((∃ s, readStores folder contents m = .ok s) ↔ Together m c t files) ∧
      (Together m c t files → readStores folder contents m =
        .ok { manifest := some m, catalogue := c, table := t, files }) ∧
      (¬Together m c t files → Corrupt (readStores folder contents m))) ∧
    (∀ name ∈ companionNames, contents name = .error .notFound →
      (∀ other ∈ readBefore name, contents other ≠ .error .refused) →
      (∀ m, Corrupt (readStores folder contents m)) ∧
      ((∃ bytes, contents manifestName = .ok bytes) → Corrupt (read folder contents))) ∧
    (∀ m path, readStores folder contents m ≠ .error (.noIndex path)) ∧
    ∀ path, read folder contents = .error (.noIndex path) ↔
      contents manifestName = .error .notFound ∧ path = Path.join folder manifestName := by
  refine ⟨fun m c t files p => ?_, fun name member absent allowed => ⟨fun m => ?_, ?_⟩,
    fun m path => readStores_ne_noIndex path, fun path => read_eq_noIndex⟩
  · obtain ⟨accepts, refuses⟩ := p.gate
    refine ⟨⟨?_, fun together => ⟨_, accepts together⟩⟩, accepts, refuses⟩
    rintro ⟨s, accepted⟩
    refine Classical.byContradiction fun apart => ?_
    obtain ⟨path, reason, failed⟩ := refuses apart
    rw [accepted] at failed
    cases failed
  · exact corrupt_of_missing member absent allowed
  · rintro ⟨bytes, there⟩
    exact corrupt_read_of_missing there member absent allowed

end Gate

end IndexState

section Sample

open IndexState (Parts Together Held companionNames readBefore readStores)
open Session (stateSample manifestSample)

/-- The documents of a state under some manifest, but for one that is lost. -/
def documentsSample (m : Manifest) (lost : Option String) : IndexContents := fun name =>
  if lost = some name then .error .notFound
  else match ((stateSample "a").documents m).lookup name with
    | some bytes => .ok bytes
    | none => .error .notFound

/-- The manifest of one chunk too many. -/
def countingManifest : Manifest := { manifestSample with chunkCount := 3 }

theorem parts_documentsSample {m : Manifest} (readable : m.ReadBack m) :
    ∃ c t, Parts "/r/.simili" (documentsSample m none) m c t (stateSample "a").files ∧
      (stateSample "a").catalogue.Alike c ∧ (stateSample "a").table.ReadBack t := by
  have held : Held (documentsSample m none) (stateSample "a") m := ⟨rfl, rfl, rfl, rfl⟩
  obtain ⟨c, catalogue, _, alike⟩ := Catalogue.readCatalogue_document
    (Session.wellFormed_stateSample "a") _
  obtain ⟨t, table⟩ := VectorTable.readVectors_document_total (Session.uniform_stateSample "a")
    (Session.readable_stateSample "a") _
  have parts : Parts "/r/.simili" (documentsSample m none) m c t (stateSample "a").files :=
    ⟨IndexContents.manifest_ok.mpr ⟨_, held.manifest, readManifest_document.mpr readable⟩,
      ⟨_, held.catalogue, catalogue⟩, ⟨_, held.table, table⟩,
      ⟨_, held.files, readFiles_document _ _⟩⟩
  exact ⟨c, t, parts, alike, (VectorTable.readVectors_document table).2⟩

/-- A state of two chunks is let through under its manifest, not under one that counts three, and
not without its vectors. -/
theorem gate_documentsSample :
    (∃ s, readStores "/r/.simili" (documentsSample manifestSample none) manifestSample = .ok s) ∧
    Corrupt (readStores "/r/.simili" (documentsSample countingManifest none) countingManifest) ∧
    Corrupt (IndexState.read "/r/.simili"
      (documentsSample manifestSample (some vectorsName))) := by
  have readable := Session.readable_manifestSample
  have agreeing := Session.agreeing_stateSample "a"
  refine ⟨?_, ?_, ?_⟩
  · obtain ⟨c, t, parts, alike, back⟩ := parts_documentsSample readable
    obtain ⟨bytes, _, read⟩ := parts.catalogue
    have together : Together manifestSample c t (stateSample "a").files :=
      (IndexState.agreeing_iff_together (Catalogue.wellFormed_readCatalogue read)).mp
        ((IndexState.agreeing_readBack readable alike back).mpr agreeing)
    exact ((IndexState.gate_exact _ _).1 _ _ _ _ parts).1.mpr together
  · have fits : countingManifest.ReadBack countingManifest :=
      ⟨⟨readable.fits.version, readable.fits.dimension, by decide, readable.fits.fileCount⟩,
        readable.created, readable.updated, rfl⟩
    obtain ⟨c, t, parts, alike, back⟩ := parts_documentsSample fits
    refine ((IndexState.gate_exact _ _).1 _ _ _ _ parts).2.2 fun together => ?_
    obtain ⟨bytes, _, read⟩ := parts.catalogue
    have well := Catalogue.wellFormed_readCatalogue read
    have counted : 3 = c.size := together.chunks.trans (IndexState.card_ids_catalogue well)
    have two : 2 = c.size := agreeing.chunks.trans alike.size.symm
    omega
  · exact (((IndexState.gate_exact _ _).2.1 vectorsName (by decide) (by simp [documentsSample])
      (by simp [readBefore, companionNames, documentsSample, IndexState.documents, List.lookup_cons,
        catalogueName, vectorsName])).2 ⟨_, rfl⟩)

end Sample

end Lookalike
