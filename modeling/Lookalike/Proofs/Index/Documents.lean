import Lookalike.Index.Documents
import Lookalike.Proofs.Index.Catalogue
import Lookalike.Proofs.Index.VectorTable
import Lookalike.Proofs.Json.Values

/-!
# Reading back the documents of an index

The catalogue and the snapshot of the files are read back as they were written, whatever they hold.
A manifest is read back up to what its timestamps read back as, if its numbers fit into their types.
The table of vectors is read back with the same identities, and under each stands what reading its
vector gives; it is refused if one of the vectors cannot be read.
-/

namespace Lookalike

open Json
open Number (wordBound longBound)

namespace Manifest

/-- The numbers of a manifest fit into the types that they are read as. -/
structure Fits (m : Manifest) : Prop where
  version : m.version < wordBound
  dimension : ∀ d, m.dimension = some d → d < longBound
  chunkCount : m.chunkCount < longBound
  fileCount : m.fileCount < longBound

theorem printable_toJson (m : Manifest) : Printable m.toJson := by
  refine printable_ofFields fun f hf => ?_
  simp only [List.mem_cons, List.not_mem_nil, or_false] at hf
  rcases hf with rfl | rfl | rfl | rfl | rfl | rfl | rfl
  · exact printable_ofNat m.version
  · exact printable_ofText m.model
  · exact printable_ofOption printable_ofNat
  · exact printable_ofText m.createdAt.text
  · exact printable_ofText m.updatedAt.text
  · exact printable_ofNat m.chunkCount
  · exact printable_ofNat m.fileCount

/-- The fields of a manifest, as a reader finds them. -/
def record (m : Manifest) : Record :=
  ⟨false, [
    ("version", ofNat m.version),
    ("model", ofText m.model),
    ("dimension", ofOption ofNat m.dimension),
    ("created_at", ofText m.createdAt.text),
    ("updated_at", ofText m.updatedAt.text),
    ("chunk_count", ofNat m.chunkCount),
    ("file_count", ofNat m.fileCount)]⟩

theorem of?_toJson (m : Manifest) : Record.of? fieldNames m.toJson = some m.record := by
  rw [toJson, ofFields, Record.of?, ofMembers?_ofFields]
  · simp [fieldNames, record]
  · simp [fieldNames]

theorem nullable?_dimension {m : Manifest} {found : Option Nat} :
    m.record.nullable? "dimension" (toNatBelow? longBound) = some found ↔
      (∀ d, m.dimension = some d → d < longBound) ∧ m.dimension = found := by
  have field : m.record.get? "dimension" = some (ofOption ofNat m.dimension) := by
    simp [record, Record.get?]
  exact nullable?_natural field

/-- What a reader makes of a manifest: the same, up to what it reads the timestamps as. -/
structure ReadBack (m n : Manifest) : Prop where
  fits : m.Fits
  created : Timestamp.parse? m.createdAt.text = some n.createdAt
  updated : Timestamp.parse? m.updatedAt.text = some n.updatedAt
  same : n = { m with createdAt := n.createdAt, updatedAt := n.updatedAt }

theorem ofJson?_toJson {m n : Manifest} : ofJson? m.toJson = some n ↔ ReadBack m n := by
  simp only [ofJson?, of?_toJson, Option.bind_eq_bind, Option.bind_some, Option.bind_eq_some_iff,
    nullable?_dimension, Option.pure_def, Option.some.injEq]
  simp only [Record.required?, Record.get?, record, List.find?_cons, String.reduceEq, decide_true,
    decide_false, Option.map_some, Option.bind_some, toNatBelow?_ofNat, toText?, ofText,
    Option.some.injEq, toTimestamp?]
  constructor
  · rintro ⟨_, ⟨version, rfl⟩, _, rfl, _, ⟨dimension, rfl⟩, created, created_read, updated,
      updated_read, _, ⟨chunks, rfl⟩, _, ⟨files, rfl⟩, rfl⟩
    exact ⟨⟨version, dimension, chunks, files⟩, created_read, updated_read, rfl⟩
  · rintro ⟨fits, created, updated, same⟩
    exact ⟨_, ⟨fits.version, rfl⟩, _, rfl, _, ⟨fits.dimension, rfl⟩, _, created, _, updated, _,
      ⟨fits.chunkCount, rfl⟩, _, ⟨fits.fileCount, rfl⟩, same.symm⟩

end Manifest

section Chunks

theorem optionalList_eq (name : String) (items : List String) :
    optionalList name items = [] ∧ items = [] ∨
      optionalList name items = [(name, ofList ofText items)] ∧ items ≠ [] := by
  cases items with
  | nil => exact .inl ⟨rfl, rfl⟩
  | cons first rest => exact .inr ⟨rfl, by simp⟩

theorem printable_optionalList {name : String} {items : List String} {f : String × Json}
    (h : f ∈ optionalList name items) : Printable f.2 := by
  rcases optionalList_eq name items with ⟨empty, _⟩ | ⟨full, _⟩
  · simp [empty] at h
  · rw [full, List.mem_singleton] at h
    subst h
    exact printable_ofList fun text _ => printable_ofText text

namespace Facts

theorem printable_toJson (f : Facts) : Printable f.toJson := by
  refine printable_ofFields fun g hg => ?_
  simp only [List.mem_append, List.mem_cons, List.not_mem_nil, or_false] at hg
  rcases hg with ((hg | hg) | hg) | rfl | rfl
  · exact printable_optionalList hg
  · exact printable_optionalList hg
  · exact printable_optionalList hg
  · simp only [Printable]
  · simp only [Printable]

/-- Lists that are left out come back as empty ones. -/
theorem ofJson?_toJson (f : Facts) : ofJson? f.toJson = some f := by
  obtain ⟨params, props, hooks, isAsync, exported⟩ := f
  rcases optionalList_eq "params" params with ⟨no_params, rfl⟩ | ⟨some_params, _⟩ <;>
    rcases optionalList_eq "props" props with ⟨no_props, rfl⟩ | ⟨some_props, _⟩ <;>
    rcases optionalList_eq "hooks" hooks with ⟨no_hooks, rfl⟩ | ⟨some_hooks, _⟩ <;>
    simp [ofJson?, toJson, Record.of?, ofFields, Record.ofMembers?, Record.defaulted?, Record.get?,
      guard, toBool?, toTexts?_ofTexts, *]

end Facts

namespace Chunk

theorem printable_toJson (c : Chunk) : Printable c.toJson := by
  refine printable_ofFields fun f hf => ?_
  simp only [Span.fields, List.mem_append, List.mem_cons, List.not_mem_nil, or_false] at hf
  rcases hf with (((rfl | rfl | rfl | rfl | rfl) | scope) | rfl | rfl | rfl | rfl) | rfl | rfl | rfl
  · exact printable_ofText c.id
  · exact printable_ofText c.kind.name
  · exact printable_ofOption printable_ofText
  · exact printable_ofText c.filePath
  · exact printable_ofText c.language.id
  · split at scope
    next => simp at scope
    next =>
      rw [List.mem_singleton] at scope
      subst scope
      exact printable_ofText c.scope
  · exact printable_ofNat _
  · exact printable_ofNat _
  · exact printable_ofNat _
  · exact printable_ofNat _
  · exact printable_ofText c.contentHash
  · exact printable_ofText c.text
  · exact c.facts.printable_toJson

theorem toLong?_ofNat (n : UInt64) : Span.toLong? (ofNat n.toNat) = some n := by
  have below : toNatBelow? longBound (ofNat n.toNat) = some n.toNat :=
    toNatBelow?_ofNat.mpr ⟨n.toNat_lt, rfl⟩
  rw [Span.toLong?, below, Option.map_some, UInt64.ofNat_toNat]

/-- The members of a chunk that are its own are those beside the span. -/
def ownRecord (c : Chunk) : Record :=
  ⟨false, [
    ("id", ofText c.id),
    ("kind", ofText c.kind.name),
    ("name", ofOption ofText c.name),
    ("file_path", ofText c.filePath),
    ("language", ofText c.language.id)] ++
    (if c.scope.isEmpty then [] else [("scope", ofText c.scope)]) ++ [
    ("content_hash", ofText c.contentHash),
    ("text", ofText c.text),
    ("facts", c.facts.toJson)]⟩

/-- A chunk as the list of its members. -/
def members (c : Chunk) : List (Option String × Json) :=
  ([
    ("id", ofText c.id),
    ("kind", ofText c.kind.name),
    ("name", ofOption ofText c.name),
    ("file_path", ofText c.filePath),
    ("language", ofText c.language.id)] ++
    (if c.scope.isEmpty then [] else [("scope", ofText c.scope)]) ++
    c.span.fields ++ [
    ("content_hash", ofText c.contentHash),
    ("text", ofText c.text),
    ("facts", c.facts.toJson)]).map fun (name, value) => (some name, value)

theorem toJson_eq_members (c : Chunk) : c.toJson = .object c.members := rfl

theorem own_members (c : Chunk) : Record.ofMembers? ownFields c.members = some c.ownRecord := by
  rw [members, ofMembers?_ofFields]
  · cases empty : c.scope.isEmpty <;> simp [ownFields, ownRecord, Span.fields, empty]
  · cases c.scope.isEmpty <;> simp [ownFields, Span.fields]

theorem aside_members (c : Chunk) :
    c.members.filter (fun (key, _) => !key.any (· ∈ ownFields)) =
      c.span.fields.map fun (name, value) => (some name, value) := by
  cases empty : c.scope.isEmpty <;> simp [members, ownFields, Span.fields, empty]

theorem allMembersPlain_span (s : Span) :
    allMembersPlain asideDepth (s.fields.map fun (name, value) => (some name, value)) := by
  have plain (n : UInt64) : isPlain asideDepth (ofNat n.toNat) := isInRange_ofNat n.toNat_lt
  simp [Span.fields, allMembersPlain, plain]

theorem span_read (s : Span) :
    (Record.ofMembers? lineFields (s.fields.map fun (name, value) => (some name, value))).bind
      Span.ofRecord? = some s := by
  rw [ofMembers?_ofFields (by simp [Span.fields, lineFields])]
  simp [Span.fields, lineFields, Span.ofRecord?, Record.required?, Record.get?, toLong?_ofNat]

theorem name_read (c : Chunk) : c.ownRecord.nullable? "name" toText? = some c.name := by
  have field : c.ownRecord.get? "name" = some (ofOption ofText c.name) := by
    simp [ownRecord, Record.get?]
  rw [nullable?_ofOption field (fun text => by simp [ofText])]
  cases c.name <;> rfl

theorem scope_read (c : Chunk) : c.ownRecord.defaulted? "scope" "" toText? = some c.scope := by
  cases empty : c.scope.isEmpty with
  | true =>
    have no_scope : c.scope = "" := by simpa using empty
    simp [ownRecord, Record.defaulted?, Record.get?, no_scope]
  | false => simp [ownRecord, Record.defaulted?, Record.get?, empty, toText?, ofText]

/-- A chunk is read back as it was written. -/
theorem ofJson?_toJson (c : Chunk) : ofJson? c.toJson = some c := by
  have span := span_read c.span
  have facts := c.facts.ofJson?_toJson
  have kind : toWord? Kind.ofName? (ofText c.kind.name) = some c.kind := by
    cases c.kind <;> rfl
  have language : toWord? Language.ofId? (ofText c.language.id) = some c.language :=
    Language.ofId?_id c.language
  rw [toJson_eq_members]
  simp only [ofJson?, own_members, aside_members, allMembersPlain_span, guard, if_true,
    Option.bind_eq_bind, Option.bind_some, Option.pure_def, name_read, scope_read]
  rw [← Option.bind_assoc, span]
  cases empty : c.scope.isEmpty <;>
    simp [Record.required?, Record.defaulted?, Record.get?, ownRecord, empty, toText?_ofText, kind,
      language, facts]

end Chunk

end Chunks

theorem readManifest_document {path : String} {m n : Manifest} :
    readManifest path (documentBytes m.toJson) = .ok n ↔ m.ReadBack n := by
  rw [readManifest, documentBytes, read?_document m.printable_toJson, Option.bind_some,
    ← Manifest.ofJson?_toJson]
  cases Manifest.ofJson? m.toJson <;> simp

theorem readFiles_document (path : String) (files : Snapshot) :
    readFiles path (documentBytes files.toJson) = .ok files := by
  have printable : Printable files.toJson := printable_ofMap printable_ofText
  have read : Snapshot.ofJson? files.toJson = some files :=
    toMap?_ofMap.mpr (by simp [toText?_ofText])
  simp only [readFiles, documentBytes, read?_document printable, Option.bind_some, read]

section Catalogue

namespace Catalogue

/-- The same chunks in the same order. -/
structure Alike (c d : Catalogue) : Prop where
  ids : d.ids = c.ids
  found : ∀ id, d.get? id = c.get? id

theorem Alike.size {c d : Catalogue} (alike : Alike c d) : d.size = c.size := by
  rw [size_eq_length_ids, size_eq_length_ids, alike.ids]

theorem Alike.chunks {c d : Catalogue} (alike : Alike c d) : d.chunks = c.chunks := by
  show d.ids.filterMap (d.get? ·) = c.ids.filterMap (c.get? ·)
  rw [alike.ids, funext alike.found]

/-- What putting in some new chunks makes of a catalogue. -/
structure Grown (c : Catalogue) (xs : List Chunk) (d : Catalogue) : Prop where
  wellFormed : WellFormed d
  ids : d.ids = c.ids ++ xs.map (·.id)
  new : ∀ x ∈ xs, d.get? x.id = some x
  old : ∀ id ∈ c.ids, d.get? id = c.get? id

/-- The chunk of a member of a document, if the key of the member is its identity. -/
def memberChunk? (member : Option String × Json) : Option Chunk :=
  (Chunk.ofJson? member.2).filter fun x => member.1 = some x.id

theorem memberChunk?_eq_some {member : Option String × Json} {x : Chunk} :
    memberChunk? member = some x ↔ member.1 = some x.id ∧ Chunk.ofJson? member.2 = some x := by
  simp [memberChunk?, Option.filter_eq_some_iff, and_comm]

theorem memberChunk?_toJson (x : Chunk) : memberChunk? (some x.id, x.toJson) = some x :=
  memberChunk?_eq_some.mpr ⟨rfl, x.ofJson?_toJson⟩

/-- Members that are chunks with different new identities are taken in one after the other. -/
theorem readEntries_grown {members : List (Option String × Json)} {xs : List Chunk} {c : Catalogue}
    (w : WellFormed c) (reads : members.map memberChunk? = xs.map some)
    (distinct : (xs.map (·.id)).Nodup) (fresh : ∀ x ∈ xs, x.id ∉ c.ids) :
    ∃ d, readEntries c members = .ok d ∧ Grown c xs d := by
  induction xs generalizing c members with
  | nil =>
    obtain rfl : members = [] := by simpa using reads
    exact ⟨c, rfl, w, by simp, by simp, fun _ _ => rfl⟩
  | cons x xs ih =>
    obtain ⟨member, members, rfl, first, others⟩ := List.map_eq_cons_iff.mp reads
    obtain ⟨key, value⟩ := member
    obtain ⟨rfl, at_value⟩ : key = some x.id ∧ Chunk.ofJson? value = some x :=
      memberChunk?_eq_some.mp first
    have ⟨x_new, distinct⟩ := List.nodup_cons.mp distinct
    have x_absent := fresh x List.mem_cons_self
    have unknown : c.contains x.id = false := by
      rw [contains_eq_isSome_get?, Bool.eq_false_iff, Ne, ← w.listed]
      exact x_absent
    have grown_ids : (c.put x.id x).ids = c.ids ++ [x.id] := by
      rw [ids_put, if_neg (by simp [unknown])]
    have later : ∀ y ∈ xs, y.id ∉ (c.put x.id x).ids := by
      intro y hy
      rw [grown_ids, List.mem_append, List.mem_singleton]
      rintro (known | same)
      · exact fresh y (List.mem_cons_of_mem x hy) known
      · exact x_new (List.mem_map.mpr ⟨y, hy, same⟩)
    obtain ⟨d, read, grown⟩ := ih (wellFormed_put w rfl) others distinct later
    refine ⟨d, ?_, grown.wellFormed, ?_, ?_, ?_⟩
    · simp only [readEntries, at_value, unknown, Bool.false_eq_true, if_false, read]
    · rw [grown.ids, grown_ids]
      simp
    · intro y hy
      rcases List.mem_cons.mp hy with rfl | hy
      · rw [grown.old y.id (by simp [grown_ids]), get?_put, if_pos rfl]
      · exact grown.new y hy
    · intro id hid
      have different : x.id ≠ id := fun same => x_absent (same ▸ hid)
      rw [grown.old id (by simp [grown_ids, hid]), get?_put, if_neg different]

/-- A document is taken in if its members are chunks with different identities. -/
theorem readCatalogue_grown {bytes : Bytes} {xs : List Chunk}
    (complete : (Json.readMembers bytes).complete)
    (reads : (Json.readMembers bytes).found.map memberChunk? = xs.map some)
    (distinct : (xs.map (·.id)).Nodup) (path : String) :
    ∃ d, readCatalogue path bytes = .ok d ∧ Grown empty xs d := by
  obtain ⟨d, read, grown⟩ := readEntries_grown wellFormed_empty reads distinct
    (by simp [empty, ids])
  have keyed : (d.ids.find? fun id => (d.get? id).any (·.id ≠ id)) = none := by
    rw [List.find?_eq_none]
    intro id _
    cases found : d.get? id with
    | none => simp
    | some x => simp [grown.wellFormed.keyed id x found]
  refine ⟨d, ?_, grown⟩
  simp only [readCatalogue, read, complete, keyed]
  simp

theorem listed_readEntries {members : List (Option String × Json)} {c d : Catalogue} (w : Listed c)
    (h : readEntries c members = .ok d) : Listed d := by
  induction members generalizing c with
  | nil =>
    cases h
    exact w
  | cons member members ih =>
    obtain ⟨key, value⟩ := member
    simp only [readEntries] at h
    split at h
    next =>
      split at h
      next => cases h
      next => exact ih (listed_put w _ _) h
    next => cases h

/-- Whatever is read as a catalogue is well-formed. -/
theorem wellFormed_readCatalogue {path : String} {bytes : Bytes} {c : Catalogue}
    (h : readCatalogue path bytes = .ok c) : WellFormed c := by
  simp only [readCatalogue] at h
  split at h
  next => cases h
  next d read =>
    split at h
    next => cases h
    next =>
      split at h
      next => cases h
      next keyed =>
        cases h
        have listed := listed_readEntries wellFormed_empty.toListed read
        refine ⟨listed, fun id x found => ?_⟩
        have same := List.find?_eq_none.mp keyed id ((listed.listed id).mpr (by rw [found]; rfl))
        simpa [found] using same

/-- The catalogue is read back with the same chunks in the same order. -/
theorem readCatalogue_document {c : Catalogue} (w : WellFormed c) (path : String) :
    ∃ d, readCatalogue path (documentBytes c.toJson) = .ok d ∧ WellFormed d ∧ Alike c d := by
  have shape : c.toJson = .object (c.chunks.map fun x => (some x.id, x.toJson)) := by
    simp [toJson, ofFields]
  have printable : AllMembersPrintable (c.chunks.map fun x => (some x.id, x.toJson)) := by
    rw [allMembersPrintable_iff, List.forall_mem_map]
    exact fun x _ => ⟨rfl, x.printable_toJson⟩
  have members : Json.readMembers (documentBytes c.toJson) =
      ⟨c.chunks.map fun x => (some x.id, x.toJson), true⟩ := by
    rw [documentBytes, shape, readMembers_document printable]
  have distinct : (c.chunks.map (·.id)).Nodup := by
    rw [map_id_chunks w]
    exact w.distinct
  have reads : (Json.readMembers (documentBytes c.toJson)).found.map memberChunk? =
      c.chunks.map some := by
    simp [members, memberChunk?_toJson]
  obtain ⟨d, read, grown⟩ := readCatalogue_grown (by rw [members]) reads distinct path
  have ids : d.ids = c.ids := by
    rw [grown.ids, map_id_chunks w]
    simp [empty, Catalogue.ids]
  refine ⟨d, read, grown.wellFormed, ids, fun id => ?_⟩
  cases found : c.get? id with
  | none =>
    have absent : ¬(d.get? id).isSome := by
      rw [← grown.wellFormed.listed, ids, w.listed, found]
      simp
    simpa using absent
  | some x =>
    have own := w.keyed id x found
    have member : x ∈ c.chunks := (mem_chunks w).mpr (own.symm ▸ found)
    exact own ▸ grown.new x member

end Catalogue

end Catalogue

section Vectors

theorem size_of_ofJson? {v w : Embedding} (h : Embedding.ofJson? v.toJson = some w) :
    w.size = v.size := by
  obtain ⟨numbers, read, rfl⟩ := Option.map_eq_some_iff.mp h
  have same := congrArg List.length (toList?_ofList.mp read)
  simpa using same.symm

namespace VectorTable

def record (t : VectorTable) : Record :=
  ⟨false, [("dimension", ofOption ofNat t.dimension),
    ("vectors", ofMap Embedding.toJson t.vectors)]⟩

theorem printable_toJson (t : VectorTable) : Printable t.toJson := by
  refine printable_ofFields fun f hf => ?_
  simp only [List.mem_cons, List.not_mem_nil, or_false] at hf
  rcases hf with rfl | rfl
  · exact printable_ofOption printable_ofNat
  · exact printable_ofMap fun v => printable_ofList fun x _ => printable_ofSingle x

theorem of?_toJson (t : VectorTable) :
    Record.of? ["dimension", "vectors"] t.toJson = some t.record := by
  rw [toJson, ofFields, Record.of?, ofMembers?_ofFields]
  · simp [record]
  · simp

theorem ofJson?_toJson {t u : VectorTable} :
    ofJson? t.toJson = some u ↔ (∀ d, t.dimension = some d → d < longBound) ∧
      u.dimension = t.dimension ∧
      toMap? Embedding.ofJson? (ofMap Embedding.toJson t.vectors) = some u.vectors := by
  have field : t.record.get? "dimension" = some (ofOption ofNat t.dimension) := by
    simp [record, Record.get?]
  have vectors : t.record.get? "vectors" = some (ofMap Embedding.toJson t.vectors) := by
    simp [record, Record.get?]
  simp only [ofJson?, of?_toJson, Option.bind_eq_bind, Option.bind_some, Option.bind_eq_some_iff,
    nullable?_natural field, Record.required?, vectors, Option.pure_def, Option.some.injEq]
  constructor
  · rintro ⟨_, ⟨below, rfl⟩, found, read, rfl⟩
    exact ⟨below, rfl, read⟩
  · rintro ⟨below, same, read⟩
    exact ⟨t.dimension, ⟨below, rfl⟩, u.vectors, read, by rw [← same]⟩

/-- What a reader makes of a table: the same identities, and under each what reading its vector
gives. -/
structure ReadBack (t u : VectorTable) : Prop where
  dimension : u.dimension = t.dimension
  ids : u.ids = t.ids
  vectors : ∀ id v, u.get? id = some v → ∃ w, t.get? id = some w ∧
    Embedding.ofJson? w.toJson = some v

theorem ReadBack.size {t u : VectorTable} (back : ReadBack t u) : u.size = t.size := by
  rw [VectorTable.size, VectorTable.size, ← SortedMap.length_keys, ← SortedMap.length_keys]
  exact congrArg List.length back.ids

theorem ReadBack.contains {t u : VectorTable} (back : ReadBack t u) (id : String) :
    u.contains id = t.contains id := by
  rw [Bool.eq_iff_iff, VectorTable.contains, VectorTable.contains,
    SortedMap.contains_iff_mem_keys, SortedMap.contains_iff_mem_keys]
  exact iff_of_eq (congrArg (id ∈ ·) back.ids)

theorem ReadBack.uniform {t u : VectorTable} (back : ReadBack t u) (uniform : t.Uniform) :
    u.Uniform := by
  intro id v found
  obtain ⟨w, there, read⟩ := back.vectors id v found
  rw [back.dimension, size_of_ofJson? read]
  exact uniform id w there

/-- The numbers of a table are such that a reader can take them in. -/
structure Readable (t : VectorTable) : Prop where
  dimension : ∀ d, t.dimension = some d → d < longBound
  vectors : ∀ id v, t.get? id = some v → (Embedding.ofJson? v.toJson).isSome

/-- Whatever is read of a table that was written is a reading of that table. -/
theorem readVectors_document {path : String} {t u : VectorTable}
    (h : readVectors path (documentBytes t.toJson) = .ok u) : Readable t ∧ ReadBack t u := by
  rw [readVectors, documentBytes, read?_document t.printable_toJson, Option.bind_some] at h
  have parsed : ofJson? t.toJson = some u := by
    split at h
    next => cases h
    next read =>
      split at h
      next =>
        cases h
        exact read
      next =>
        split at h
        next => cases h
        next =>
          cases h
          exact read
  obtain ⟨fits, dimension, read⟩ := ofJson?_toJson.mp parsed
  have readable := isSome_toMap?_ofMap.mp (Option.isSome_of_eq_some read)
  obtain ⟨keys, found⟩ := get?_of_toMap?_ofMap read
  exact ⟨⟨fits, readable⟩, dimension, keys, found⟩

/-- The search for a vector of another length finds none if there is none. -/
theorem find?_other_length {t : VectorTable} {d : Nat} :
    (t.vectors.entries.find? fun (_, v) => v.size ≠ d) = none ↔
      ∀ id v, t.get? id = some v → v.size = d := by
  simp [List.find?_eq_none, get?, ← SortedMap.mem_entries_iff]

/-- A table whose numbers can be taken in is read. -/
theorem readVectors_document_total {t : VectorTable} (uniform : t.Uniform) (readable : Readable t)
    (path : String) : ∃ u, readVectors path (documentBytes t.toJson) = .ok u := by
  obtain ⟨vectors, read⟩ := Option.isSome_iff_exists.mp (isSome_toMap?_ofMap.mpr readable.vectors)
  have parsed : ofJson? t.toJson = some { dimension := t.dimension, vectors } :=
    ofJson?_toJson.mpr ⟨readable.dimension, rfl, read⟩
  have found := get?_of_toMap?_ofMap read
  have back : ReadBack t { dimension := t.dimension, vectors } := ⟨rfl, found.1, found.2⟩
  refine ⟨{ dimension := t.dimension, vectors }, ?_⟩
  rw [readVectors, documentBytes, read?_document t.printable_toJson, Option.bind_some, parsed]
  have uniform_back := back.uniform uniform
  cases known : t.dimension with
  | none => simp only
  | some d =>
    have same_length := find?_other_length.mpr fun id v there => by
      have length := uniform_back id v there
      rw [known] at length
      exact (Option.some.inj length).symm
    simp only [same_length]

end VectorTable

end Vectors

end Lookalike
