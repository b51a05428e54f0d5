import Lookalike.Proofs.Index.Persisting

/-!
# Interrupted writes

A state is written by replacing four documents, and the writing may end after any of them. What is
read afterwards is a mixture of an old index and a new one, and it is accepted if identities, sizes
and vector lengths agree. Contents are not looked at, so a mixture can be accepted in which a vector
belongs to another text or to another model. Here is when exactly that happens.
-/

namespace Lookalike

/-- The vector that a model gives a text, if it takes the text. -/
abbrev Embedder := String → String → Option Embedding

/-- A vector that was written is read as it was. -/
def Embedder.Faithful (f : Embedder) : Prop :=
  ∀ model text v w, f model text = some v → Embedding.ofJson? v.toJson = some w → w = v

/-- An embedder is faithful if each of its vectors is read as it was written. -/
theorem Embedder.faithful_of_exact {f : Embedder}
    (exact_vectors : ∀ model text v, f model text = some v → Embedding.ofJson? v.toJson = some v) :
    f.Faithful := by
  intro model text v w made read
  rw [exact_vectors model text v made] at read
  exact (Option.some.inj read).symm

namespace IndexState

open IndexContents (manifest_ok)

/-- Every vector is the one that the model gives the text that is stored with it. -/
def FreshUnder (f : Embedder) (model : String) (s : IndexState) : Prop :=
  ∀ id c v, s.catalogue.get? id = some c → s.table.get? id = some v → f model c.text = some v

def Fresh (f : Embedder) (s : IndexState) : Prop :=
  ∀ m, s.manifest = some m → s.FreshUnder f m.model

section Mixtures

variable {f : Embedder} {folder : String} {contents : IndexContents}

/-- The documents of a folder, each as what it is read as. -/
structure Parts (folder : String) (contents : IndexContents) (m : Manifest) (c : Catalogue)
    (t : VectorTable) (files : Snapshot) : Prop where
  manifest : contents.manifest folder = .ok m
  catalogue : ∃ bytes, contents catalogueName = .ok bytes ∧
    readCatalogue (Path.join folder catalogueName) bytes = .ok c
  table : ∃ bytes, contents vectorsName = .ok bytes ∧
    readVectors (Path.join folder vectorsName) bytes = .ok t
  files : ∃ bytes, contents filesName = .ok bytes ∧
    readFiles (Path.join folder filesName) bytes = .ok files

variable {m : Manifest} {c : Catalogue} {t : VectorTable} {files : Snapshot}

theorem Parts.read_ok_iff (p : Parts folder contents m c t files) {s : IndexState} :
    read folder contents = .ok s ↔
      s = { manifest := some m, catalogue := c, table := t, files } ∧ Agreeing m c t files := by
  have unique {α : Type} {name : String} {read : String → Bytes → Except IndexError α} {a b : α}
      (h : ∃ bytes, contents name = .ok bytes ∧ read (Path.join folder name) bytes = .ok a)
      (k : ∃ bytes, contents name = .ok bytes ∧ read (Path.join folder name) bytes = .ok b) :
      a = b := by
    obtain ⟨bytes, there, read_a⟩ := h
    obtain ⟨bytes', there', read_b⟩ := k
    rw [there] at there'
    cases there'
    rw [read_a] at read_b
    exact Except.ok.inj read_b
  rw [read_ok]
  constructor
  · rintro ⟨n, at_manifest, a⟩
    have same_manifest := p.manifest
    rw [at_manifest] at same_manifest
    cases same_manifest
    have same_catalogue := unique a.catalogue p.catalogue
    have same_table := unique a.table p.table
    have same_files := unique a.files p.files
    have agreeing := a.agreeing
    have manifest := a.manifest
    obtain ⟨_, _, _, _⟩ := s
    subst same_catalogue
    subst same_table
    subst same_files
    cases manifest
    exact ⟨rfl, agreeing⟩
  · rintro ⟨rfl, agreeing⟩
    exact ⟨m, p.manifest, p.catalogue, p.table, p.files, rfl, agreeing⟩

/-- A folder is accepted with a stale vector if its documents agree and there is one. -/
theorem Parts.stale_iff (p : Parts folder contents m c t files) :
    (∃ s, read folder contents = .ok s ∧ ¬s.Fresh f) ↔ Agreeing m c t files ∧
      ∃ id x v, c.get? id = some x ∧ t.get? id = some v ∧ f m.model x.text ≠ some v := by
  simp only [p.read_ok_iff]
  constructor
  · rintro ⟨s, ⟨rfl, agreeing⟩, stale⟩
    refine ⟨agreeing, Classical.byContradiction fun all => stale ?_⟩
    rintro _ known id x v found there
    cases known
    exact Classical.byContradiction fun different => all ⟨id, x, v, found, there, different⟩
  · rintro ⟨agreeing, id, x, v, found, there, different⟩
    exact ⟨_, ⟨rfl, agreeing⟩, fun fresh => different (fresh m rfl id x v found there)⟩

end Mixtures

/-- What has to hold for an interrupted write to be accepted with a stale vector, given how many of
the four documents it replaced. The numbers of chunks and files have to stay the same, and
identities too if only the catalogue is new. Then a text must have changed to one that the old model
embeds differently; or if the vectors are new as well, the model must have, to one that differs from
the old on a text. -/
def Torn (f : Embedder) (old new : IndexState) (oldManifest newManifest : Manifest) : Nat → Prop
  | 1 => (∀ id, (new.catalogue.get? id).isSome ↔ (old.catalogue.get? id).isSome) ∧
      ∃ id c d, old.catalogue.get? id = some c ∧ new.catalogue.get? id = some d ∧
        f oldManifest.model d.text ≠ f oldManifest.model c.text
  | 2 => New old
  | 3 => New old ∧ new.files.size = old.files.size
  | _ => False
where
  New (old : IndexState) : Prop := new.Synchronised ∧ new.table.Readable ∧
    new.catalogue.size = old.catalogue.size ∧
    (∀ expected actual, oldManifest.dimension = some expected →
      new.table.dimension = some actual → expected = actual) ∧
    ∃ id c, new.catalogue.get? id = some c ∧
      f oldManifest.model c.text ≠ f newManifest.model c.text

section Prefixes

variable {f : Embedder} {folder : String} {contents : IndexContents}
variable {old new : IndexState} {oldManifest newManifest : Manifest}

theorem parts_of_read (stored : read folder contents = .ok old)
    (known : old.manifest = some oldManifest) :
    Parts folder contents oldManifest old.catalogue old.table old.files ∧
      Agreeing oldManifest old.catalogue old.table old.files := by
  obtain ⟨m, at_manifest, a⟩ := read_ok.mp stored
  have same := a.manifest
  rw [known] at same
  cases same
  exact ⟨⟨at_manifest, a.catalogue, a.table, a.files⟩, a.agreeing⟩

theorem wellFormed_of_read (stored : read folder contents = .ok old) :
    old.catalogue.WellFormed := by
  obtain ⟨m, _, a⟩ := read_ok.mp stored
  obtain ⟨bytes, _, read⟩ := a.catalogue
  exact Catalogue.wellFormed_readCatalogue read

/-- With a new catalogue before old vectors. -/
theorem stale_catalogue_iff (stored : read folder contents = .ok old)
    (known : old.manifest = some oldManifest) (fresh : old.FreshUnder f oldManifest.model)
    (well : new.catalogue.WellFormed) :
    (∃ s, read folder (contents.replaced ((new.documents newManifest).take 1)) = .ok s ∧
      ¬s.Fresh f) ↔
      Torn f old new oldManifest newManifest 1 := by
  obtain ⟨d, catalogue, well_d, alike⟩ :=
    Catalogue.readCatalogue_document well (Path.join folder catalogueName)
  obtain ⟨parts, agreeing⟩ := parts_of_read stored known
  have together := synchronised_of_agreeing (wellFormed_of_read stored) agreeing
  have mixed : Parts folder (contents.replaced ((new.documents newManifest).take 1)) oldManifest d
      old.table old.files := ⟨parts.manifest, ⟨_, rfl, catalogue⟩, parts.table, parts.files⟩
  rw [mixed.stale_iff]
  constructor
  · rintro ⟨agree, id, x, v, found, there, different⟩
    have mixed_together : Synchronised { catalogue := d, table := old.table, files := old.files } :=
      synchronised_of_agreeing well_d agree
    refine ⟨fun other => ?_, ?_⟩
    · rw [← alike.found]
      exact (mixed_together other).trans (together other).symm
    · obtain ⟨c, there_too⟩ := Option.isSome_iff_exists.mp ((together id).mpr (by rw [there]; rfl))
      refine ⟨id, c, x, there_too, (alike.found id).symm.trans found, ?_⟩
      rw [fresh id c v there_too there]
      exact different
  · rintro ⟨same, id, c, x, found, found_new, different⟩
    have mixed_together :
        Synchronised { catalogue := d, table := old.table, files := old.files } := by
      intro other
      show (d.get? other).isSome ↔ _
      rw [alike.found]
      exact (same other).trans (together other)
    have chunks : oldManifest.chunkCount = d.size :=
      (agreeing.chunks.trans agreeing.sizes).trans (mixed_together.sizes well_d).symm
    refine ⟨mixed_together.agreeing well_d agreeing.dimension chunks agreeing.files, ?_⟩
    obtain ⟨v, there⟩ := Option.isSome_iff_exists.mp ((together id).mp (by rw [found]; rfl))
    refine ⟨id, x, v, (alike.found id).trans found_new, there, ?_⟩
    rw [← fresh id c v found there]
    exact different

/-- What is read of fresh vectors are those vectors. -/
theorem get?_readBack {model : String} (fresh : new.FreshUnder f model) (faithful : f.Faithful)
    {t : VectorTable} (back : new.table.ReadBack t) {id : String} {c : Chunk}
    (found : new.catalogue.get? id = some c) {v : Embedding} (there : t.get? id = some v) :
    f model c.text = some v := by
  obtain ⟨w, written, read⟩ := back.vectors id v there
  have made := fresh id c w found written
  rw [made, faithful _ _ _ _ made read]

/-- With a new catalogue and new vectors under some manifest. -/
theorem stale_stores_iff {m : Manifest} {files : Snapshot}
    (manifest : contents.manifest folder = .ok m)
    (catalogue : contents catalogueName = .ok (documentBytes new.catalogue.toJson))
    (table : contents vectorsName = .ok (documentBytes new.table.toJson))
    (at_files : ∃ bytes, contents filesName = .ok bytes ∧
      readFiles (Path.join folder filesName) bytes = .ok files)
    (well : new.catalogue.WellFormed) (uniform : new.table.Uniform)
    (fresh : new.FreshUnder f newManifest.model) (faithful : f.Faithful) :
    (∃ s, read folder contents = .ok s ∧ ¬s.Fresh f) ↔
      new.table.Readable ∧ Agreeing m new.catalogue new.table files ∧
        ∃ id c, new.catalogue.get? id = some c ∧ f m.model c.text ≠ f newManifest.model c.text := by
  obtain ⟨d, catalogue_read, well_d, alike⟩ :=
    Catalogue.readCatalogue_document well (Path.join folder catalogueName)
  have with_table {t : VectorTable}
      (read : readVectors (Path.join folder vectorsName) (documentBytes new.table.toJson) = .ok t) :
      Parts folder contents m d t files :=
    ⟨manifest, ⟨_, catalogue, catalogue_read⟩, ⟨_, table, read⟩, at_files⟩
  have agreeing_iff {t : VectorTable} (back : new.table.ReadBack t) :
      Agreeing m d t files ↔ Agreeing m new.catalogue new.table files := by
    constructor
    · intro a
      exact a.congr rfl rfl rfl alike.ids.symm (fun id => (back.contains id).symm) back.size.symm
        back.dimension.symm
    · intro a
      exact a.congr rfl rfl rfl alike.ids back.contains back.size back.dimension
  constructor
  · rintro ⟨s, accepted, stale⟩
    obtain ⟨n, _, a⟩ := read_ok.mp accepted
    obtain ⟨bytes, there, table_read⟩ := a.table
    rw [table] at there
    cases there
    obtain ⟨readable, back⟩ := VectorTable.readVectors_document table_read
    obtain ⟨agree, id, c, v, found, there, different⟩ :=
      (with_table table_read).stale_iff.mp ⟨s, accepted, stale⟩
    have found : new.catalogue.get? id = some c := (alike.found id).symm.trans found
    refine ⟨readable, (agreeing_iff back).mp agree, id, c, found, ?_⟩
    rw [get?_readBack fresh faithful back found there]
    exact different
  · rintro ⟨readable, agree, id, c, found, different⟩
    obtain ⟨t, table_read⟩ :=
      VectorTable.readVectors_document_total uniform readable (Path.join folder vectorsName)
    obtain ⟨_, back⟩ := VectorTable.readVectors_document table_read
    refine (with_table table_read).stale_iff.mpr ⟨(agreeing_iff back).mpr agree, id, c, ?_⟩
    have together := synchronised_of_agreeing well agree
    have known : (t.get? id).isSome := by
      rw [← VectorTable.contains_eq_isSome_get?, back.contains,
        VectorTable.contains_eq_isSome_get?]
      exact (together id).mp (by rw [found]; rfl)
    obtain ⟨v, there⟩ := Option.isSome_iff_exists.mp known
    refine ⟨v, (alike.found id).trans found, there, ?_⟩
    rw [← get?_readBack fresh faithful back found there]
    exact different

/-- What was written to the end is read with fresh vectors only. -/
theorem not_stale_of_held (held : Held contents new newManifest)
    (well : new.catalogue.WellFormed) (uniform : new.table.Uniform)
    (fresh : new.FreshUnder f newManifest.model) (faithful : f.Faithful) :
    ¬∃ s, read folder contents = .ok s ∧ ¬s.Fresh f := by
  rintro ⟨s, accepted, stale⟩
  obtain ⟨m, at_manifest, _⟩ := read_ok.mp accepted
  obtain ⟨bytes, there, read⟩ := manifest_ok.mp at_manifest
  rw [held.manifest] at there
  cases there
  have same_model : m.model = newManifest.model := by
    rw [(readManifest_document.mp read).same]
  obtain ⟨_, _, id, c, _, different⟩ := (stale_stores_iff at_manifest held.catalogue held.table
    ⟨_, held.files, readFiles_document _ new.files⟩ well uniform fresh faithful).mp
      ⟨s, accepted, stale⟩
  exact different (by rw [same_model])

/-- New stores agree with an old manifest if they have the sizes of the old ones. -/
theorem agreeing_old_iff (agreeing : Agreeing oldManifest old.catalogue old.table old.files)
    (well : new.catalogue.WellFormed) (files : Snapshot) :
    Agreeing oldManifest new.catalogue new.table files ↔ new.Synchronised ∧
      new.catalogue.size = old.catalogue.size ∧
      (∀ expected actual, oldManifest.dimension = some expected →
        new.table.dimension = some actual → expected = actual) ∧ files.size = old.files.size := by
  constructor
  · intro a
    exact ⟨synchronised_of_agreeing well a, a.chunks.symm.trans agreeing.chunks,
      a.dimension, a.files.symm.trans agreeing.files⟩
  · rintro ⟨together, chunks, dimension, files_same⟩
    exact together.agreeing well dimension (agreeing.chunks.trans chunks.symm)
      (agreeing.files.trans files_same.symm)

/-- Exactly the torn ones among the interrupted writes are accepted with a stale vector. -/
theorem accepted_stale_iff_torn (stored : read folder contents = .ok old)
    (known : old.manifest = some oldManifest) (fresh_old : old.FreshUnder f oldManifest.model)
    (well : new.catalogue.WellFormed) (uniform : new.table.Uniform)
    (fresh : new.FreshUnder f newManifest.model) (faithful : f.Faithful) {n : Nat} (bound : n ≤ 4) :
    (∃ s, read folder (contents.replaced ((new.documents newManifest).take n)) = .ok s ∧
      ¬s.Fresh f) ↔ Torn f old new oldManifest newManifest n := by
  obtain ⟨parts, agreeing⟩ := parts_of_read stored known
  match n, bound with
  | 0, _ =>
    have none_new : contents.replaced ((new.documents newManifest).take 0) = contents := rfl
    rw [none_new, parts.stale_iff]
    constructor
    · rintro ⟨_, id, c, v, found, there, different⟩
      exact different (fresh_old id c v found there)
    · rintro ⟨⟩
  | 1, _ => exact stale_catalogue_iff stored known fresh_old well
  | 2, _ =>
    refine Iff.trans (stale_stores_iff parts.manifest rfl rfl parts.files well uniform fresh
      faithful) ?_
    rw [agreeing_old_iff agreeing well]
    constructor
    · rintro ⟨readable, ⟨together, chunks, dimension, _⟩, different⟩
      exact ⟨together, readable, chunks, dimension, different⟩
    · rintro ⟨together, readable, chunks, dimension, different⟩
      exact ⟨readable, ⟨together, chunks, dimension, rfl⟩, different⟩
  | 3, _ =>
    refine Iff.trans (stale_stores_iff parts.manifest rfl rfl
      ⟨_, rfl, readFiles_document _ new.files⟩ well uniform fresh faithful) ?_
    rw [agreeing_old_iff agreeing well]
    constructor
    · rintro ⟨readable, ⟨together, chunks, dimension, files⟩, different⟩
      exact ⟨⟨together, readable, chunks, dimension, different⟩, files⟩
    · rintro ⟨⟨together, readable, chunks, dimension, different⟩, files⟩
      exact ⟨readable, ⟨together, chunks, dimension, files⟩, different⟩
  | 4, _ =>
    have held : Held (contents.replaced ((new.documents newManifest).take 4)) new newManifest :=
      ⟨rfl, rfl, rfl, rfl⟩
    exact iff_of_false (not_stale_of_held held well uniform fresh faithful) id

/-- Reading fresh vectors back leaves them fresh. -/
theorem FreshUnder.readBack {model : String} (fresh : new.FreshUnder f model)
    (faithful : f.Faithful) (back : ReadBack new old) : old.FreshUnder f model :=
  fun id _ _ found there =>
    get?_readBack fresh faithful back.table ((back.catalogue.found id).symm.trans found) there

end Prefixes

end IndexState

/-- Documents in a folder can be replaced one after the other. -/
theorem Disk.exists_replaced {d : Disk} {folder : String} {place : Location}
    (h : d.FolderAt folder place) {documents : List (String × Bytes)}
    (known : ∀ p ∈ documents, p.1 ∈ documentNames) (distinct : (documents.map (·.1)).Nodup) :
    ∃ e : Disk, IndexContents.Same (.ofDisk e folder)
      ((IndexContents.ofDisk d folder).replaced documents) := by
  induction documents generalizing d with
  | nil => exact ⟨d, fun _ _ _ => Iff.rfl⟩
  | cons first documents ih =>
    obtain ⟨name, bytes⟩ := first
    have ⟨first_new, distinct⟩ := List.nodup_cons.mp distinct
    have at_next : FolderAt { d with files := d.files.insert (key (place ++ [name])) bytes } folder
        place := h.of_folders rfl rfl
    have next_same : IndexContents.Same
        (.ofDisk { d with files := d.files.insert (key (place ++ [name])) bytes } folder)
        ((IndexContents.ofDisk d folder).replaced [(name, bytes)]) := by
      intro wanted member content
      have proper := proper_of_mem_documentNames wanted member
      rw [IndexContents.ofDisk, at_next.read_join proper, SortedMap.get?_insert]
      by_cases same : name = wanted
      · subst same
        simp [IndexContents.replaced]
      · have not_name : (wanted == name) = false := by simpa using Ne.symm same
        rw [if_neg fun eq => same (key_concat_inj.mp eq), ← h.read_join proper]
        simp [IndexContents.replaced, List.lookup_cons, not_name, IndexContents.ofDisk]
    obtain ⟨e, same⟩ :=
      ih at_next (fun p member => known p (List.mem_cons_of_mem _ member)) distinct
    refine ⟨e, same.trans ?_⟩
    rw [← IndexContents.replaced_cons _ bytes first_new]
    exact next_same.replaced documents

namespace Session

open Action (run)
open IndexState (Torn)

variable {σ : Type} {s : Session σ} {w w' : World σ} {f : Embedder} {old new : IndexState}
variable {oldManifest newManifest : Manifest}

/-- Where an index is read, there is its folder. -/
theorem folderAt_of_stored {d : Disk} (stored : IndexState.read s.folder (s.contents d) = .ok old) :
    ∃ place, d.FolderAt s.folder place := by
  obtain ⟨m, at_manifest, _⟩ := IndexState.read_ok.mp stored
  obtain ⟨bytes, there, _⟩ := IndexContents.manifest_ok.mp at_manifest
  obtain ⟨place, at_place, _⟩ :=
    (Disk.read_join (proper_of_mem_documentNames manifestName (by decide))).mp there
  exact ⟨place, at_place⟩

/-- However the writing of a new state over an old index ends, some of the first documents are new.
Whatever the number of them, what is left is accepted with a stale vector if and only if it is torn.
-/
theorem stale_iff_torn_of_interrupted
    (stored : IndexState.read s.folder (s.contents w.disk) = .ok old)
    (known : old.manifest = some oldManifest) (fresh_old : old.FreshUnder f oldManifest.model)
    (well : new.catalogue.WellFormed) (uniform : new.table.Uniform)
    (fresh : new.FreshUnder f newManifest.model) (faithful : f.Faithful) :
    (∀ r w', run (s.persist new newManifest) w = (r, w') → ∃ n ≤ 4, (r = .ok () ↔ n = 4) ∧
      IndexContents.Same (s.contents w'.disk)
        ((s.contents w.disk).replaced ((new.documents newManifest).take n))) ∧
    ∀ n ≤ 4, (∃ d : Disk, IndexContents.Same (s.contents d)
        ((s.contents w.disk).replaced ((new.documents newManifest).take n))) ∧
      ∀ d : Disk, IndexContents.Same (s.contents d)
        ((s.contents w.disk).replaced ((new.documents newManifest).take n)) →
      ((∃ t, IndexState.read s.folder (s.contents d) = .ok t ∧ ¬t.Fresh f) ↔
        Torn f old new oldManifest newManifest n) := by
  obtain ⟨place, at_place⟩ := folderAt_of_stored stored
  constructor
  · intro r w' ended
    rcases persist_result ended with ⟨rfl, same⟩ | ⟨d, n, created, bound, same, outcome⟩
    · exact ⟨0, by omega, by simp, by rw [same]; exact fun _ _ _ => Iff.rfl⟩
    · rw [at_place.createFolders created] at same
      refine ⟨n, bound, ?_, same⟩
      rcases outcome with ⟨rfl, rfl⟩ | ⟨rfl, less⟩
      · simp
      · simp only [reduceCtorEq, false_iff]
        omega
  · intro n bound
    have distinct : (((new.documents newManifest).take n).map (·.1)).Nodup :=
      ((List.take_sublist n _).map _).nodup nodup_documentNames
    refine ⟨Disk.exists_replaced at_place (fun p member => ?_) distinct, fun d same => ?_⟩
    · exact mem_documentNames (List.mem_of_mem_take member)
    rw [← IndexState.accepted_stale_iff_torn stored known fresh_old well uniform fresh
      faithful bound]
    constructor
    · rintro ⟨t, accepted, stale⟩
      exact ⟨t, IndexState.read_within same.within accepted, stale⟩
    · rintro ⟨t, accepted, stale⟩
      exact ⟨t, IndexState.read_within same.symm.within accepted, stale⟩

section Sample

/-- The text `a` has a vector of its own, and all other texts have one in common. -/
def vectorSample (text : String) : Embedding := if text = "a" then #[1, 0] else #[0, 1]

def sampleEmbedder : Embedder := fun _ text => some (vectorSample text)

def writingSample : Session Unit :=
  .new "/r"
    { name := "sample", model := "sample", dimension := none
      answer := fun _ texts p => (.ok (texts.map vectorSample), p) } {}

/-- The chunk of a file, with its text in place of a hash. -/
def chunkSample (path text : String) : Chunk :=
  { id := path ++ "#0", kind := .function, name := none, filePath := path, language := .javascript
    scope := "", span := ⟨1, 1, 1, 1⟩, contentHash := text, text, facts := {} }

/-- A state with two chunks, of which the first has a given text. -/
def stateSample (text : String) : IndexState :=
  { catalogue := (Catalogue.empty.set (chunkSample "x.js" text)).set (chunkSample "y.js" "c")
    table :=
      { dimension := some 2
        vectors := ((∅ : SortedMap Embedding).insert "x.js#0" (vectorSample text)).insert "y.js#0"
          (vectorSample "c") }
    files := ((∅ : SortedMap String).insert "x.js" text).insert "y.js" "c" }

def manifestSample : Manifest :=
  { Manifest.new "sample" (some 2) ⟨0, 0⟩ with chunkCount := 2, fileCount := 2 }

def writtenSample : Except IndexError Unit × World Unit :=
  run (writingSample.persist (stateSample "a") manifestSample) { disk := {}, provider := () }

theorem get?_stateSample (text id : String) : (stateSample text).catalogue.get? id =
    if "y.js#0" = id then some (chunkSample "y.js" "c")
    else if "x.js#0" = id then some (chunkSample "x.js" text) else none := by
  rw [stateSample, Catalogue.get?_set, Catalogue.get?_set, Catalogue.get?_empty]
  rfl

theorem get?_table_stateSample (text id : String) : (stateSample text).table.get? id =
    if "y.js#0" = id then some (vectorSample "c")
    else if "x.js#0" = id then some (vectorSample text) else none := by
  simp [stateSample, VectorTable.get?, SortedMap.get?_insert]

/-- The vectors of the sample are those of some texts. -/
theorem vector_stateSample {text id : String} {v : Embedding}
    (there : (stateSample text).table.get? id = some v) : ∃ other, v = vectorSample other := by
  rw [get?_table_stateSample] at there
  split at there
  next => exact ⟨"c", (Option.some.inj there).symm⟩
  next =>
    split at there
    next => exact ⟨text, (Option.some.inj there).symm⟩
    next => cases there

theorem wellFormed_stateSample (text : String) : (stateSample text).catalogue.WellFormed :=
  Catalogue.wellFormed_set (Catalogue.wellFormed_set Catalogue.wellFormed_empty _) _

theorem uniform_stateSample (text : String) : (stateSample text).table.Uniform := by
  intro id v there
  obtain ⟨other, rfl⟩ := vector_stateSample there
  rw [vectorSample]
  split <;> rfl

theorem synchronised_stateSample (text : String) : (stateSample text).Synchronised := by
  intro id
  rw [get?_stateSample, get?_table_stateSample]
  split
  next => rfl
  next => split <;> rfl

theorem fresh_stateSample (text model : String) :
    (stateSample text).FreshUnder sampleEmbedder model := by
  intro id c v found there
  rw [get?_stateSample] at found
  rw [get?_table_stateSample] at there
  split at found
  next own =>
    rw [if_pos own] at there
    cases found
    exact there
  next other =>
    rw [if_neg other] at there
    split at found
    next own =>
      rw [if_pos own] at there
      cases found
      exact there
    next => cases found

/-- The vectors of the sample are read as they were written. -/
theorem exact_vectorSample (text : String) :
    Embedding.ofJson? (vectorSample text).toJson = some (vectorSample text) := by
  have each : ∀ v ∈ [#[1, 0], #[0, 1]], Embedding.ofJson? (Embedding.toJson v) = some v := by
    decide +kernel
  refine each _ ?_
  rw [vectorSample]
  split <;> simp

theorem faithful_sampleEmbedder : sampleEmbedder.Faithful := by
  refine Embedder.faithful_of_exact fun model text v made => ?_
  cases made
  exact exact_vectorSample text

theorem readable_manifestSample : manifestSample.ReadBack manifestSample where
  fits := ⟨by decide, fun d h => by cases h; decide, by decide, by decide⟩
  created := by decide +kernel
  updated := by decide +kernel
  same := rfl

theorem readable_stateSample (text : String) : (stateSample text).table.Readable where
  dimension := by
    intro d h
    cases h
    decide
  vectors := by
    intro id v there
    obtain ⟨other, rfl⟩ := vector_stateSample there
    rw [exact_vectorSample]
    rfl

theorem agreeing_stateSample (text : String) : IndexState.Agreeing manifestSample
    (stateSample text).catalogue (stateSample text).table (stateSample text).files := by
  have well := wellFormed_stateSample text
  have together := synchronised_stateSample text
  have size : (stateSample text).table.size = 2 := rfl
  refine together.agreeing well ?_ ?_ rfl
  · rintro _ _ ⟨⟩ ⟨⟩
    rfl
  · rw [together.sizes well, size]
    rfl

/-- When the catalogue is new and everything else is old, the sample is accepted with a vector of
the old text. -/
theorem stale_writingSample : ∃ d : Disk,
    IndexContents.Same (writingSample.contents d)
      ((writingSample.contents writtenSample.2.disk).replaced
      (((stateSample "b").documents manifestSample).take 1)) ∧
    ∃ t, IndexState.read writingSample.folder (writingSample.contents d) = .ok t ∧
      ¬t.Fresh sampleEmbedder := by
  have well := wellFormed_stateSample
  have uniform := uniform_stateSample
  have wrote : writtenSample.1.isOk := by decide +kernel
  obtain ⟨⟨⟩, wrote⟩ := exists_of_isOk wrote
  have held : IndexState.Held (writingSample.contents writtenSample.2.disk) (stateSample "a")
      manifestSample := persist_ok (Prod.ext wrote rfl)
  obtain ⟨old, stored⟩ : ∃ old, IndexState.read writingSample.folder
      (writingSample.contents writtenSample.2.disk) = .ok old :=
    (IndexState.isOk_read_iff held (well "a") (uniform "a")).mpr
      ⟨⟨_, readable_manifestSample⟩, readable_stateSample "a", agreeing_stateSample "a"⟩
  have back := (IndexState.readBack_of_read held (well "a") stored).1
  obtain ⟨_, m, ⟨⟩, known, _⟩ := back.manifest
  have fresh_written : IndexState.FreshUnder sampleEmbedder m.model
      { stateSample "a" with manifest := some manifestSample } := fresh_stateSample "a" _
  have prefixes := (stale_iff_torn_of_interrupted stored known
    (fresh_written.readBack faithful_sampleEmbedder back) (well "b") (uniform "b")
    (fresh_stateSample "b" manifestSample.model) faithful_sampleEmbedder).2
  obtain ⟨⟨d, same⟩, stale_iff⟩ := prefixes 1 (by decide)
  refine ⟨d, same, (stale_iff d same).mpr ⟨fun id => ?_, "x.js#0", chunkSample "x.js" "a",
    chunkSample "x.js" "b", (back.catalogue.found _).trans (get?_stateSample "a" _),
    get?_stateSample "b" _, ?_⟩⟩
  · rw [back.catalogue.found, synchronised_stateSample "b" id, get?_table_stateSample]
    rw [synchronised_stateSample "a" id, get?_table_stateSample]
    split
    next => rfl
    next => split <;> rfl
  · have different : vectorSample "b" ≠ vectorSample "a" := by decide +kernel
    simpa [sampleEmbedder, chunkSample] using different

end Sample

end Session

end Lookalike
