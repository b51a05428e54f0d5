import Lookalike.Proofs.Index.Saving

/-!
# The document of a catalogue

A catalogue that was saved is loaded as it was, with the same chunks in the same order, whatever
was done to it before and wherever it came from. A document need not be written by a catalogue to be
taken in: members may be unknown, left out or in another order. But once it is taken in and saved,
the bytes are settled. The keys of a document that is taken in are distinct, and each is the
identity of the chunk under it.
-/

namespace Lookalike

open Action (run)

namespace Catalogue

/-- The catalogues that come from the empty one by putting in and removing. -/
inductive Reached : Catalogue → Prop where
  | empty : Reached .empty
  | set {c : Catalogue} (x : Chunk) : Reached c → Reached (c.set x)
  | remove {c : Catalogue} (id : String) : Reached c → Reached (c.remove id)
  | removeFile {c : Catalogue} (filePath : String) : Reached c → Reached (c.removeFile filePath).2

theorem Reached.wellFormed {c : Catalogue} (h : Reached c) : WellFormed c := by
  induction h with
  | empty => exact wellFormed_empty
  | set x _ ih => exact wellFormed_set ih x
  | remove id _ ih => exact wellFormed_remove ih id
  | removeFile filePath _ ih => exact wellFormed_removeFile ih filePath

section Alike

variable {c d : Catalogue}

/-- Catalogues that hold the same have one document. -/
theorem Alike.toJson (alike : Alike c d) : d.toJson = c.toJson := by
  rw [Catalogue.toJson, Catalogue.toJson, alike.chunks]

/-- The test for equality finds out just this. -/
theorem same_iff_alike (w : WellFormed c) (v : WellFormed d) : same c d ↔ Alike c d := by
  have order : c.order = d.order ↔ d.ids = c.ids := by
    rw [ids, ids, ← Array.toList_inj]
    exact eq_comm
  rw [same, Bool.and_eq_true, beq_iff_eq, beq_iff_eq, order]
  constructor
  · rintro ⟨ids, chunks⟩
    refine ⟨ids, fun id => Option.ext fun x => ?_⟩
    constructor
    · intro found
      have own := v.keyed id x found
      have member : x ∈ c.chunks := chunks ▸ (mem_chunks v).mpr (own.symm ▸ found)
      exact own ▸ (mem_chunks w).mp member
    · intro found
      have own := w.keyed id x found
      have member : x ∈ d.chunks := chunks ▸ (mem_chunks w).mpr (own.symm ▸ found)
      exact own ▸ (mem_chunks v).mp member
  · exact fun alike => ⟨alike.ids, alike.chunks.symm⟩

end Alike

section Entries

/-- What taking in some entries makes of a catalogue: their keys are new and distinct, and each
entry is found under its key. -/
structure TakenIn (c : Catalogue) (entries : List (String × Chunk)) (d : Catalogue) : Prop where
  distinct : (entries.map (·.1)).Nodup
  fresh : ∀ e ∈ entries, e.1 ∉ c.ids
  ids : d.ids = c.ids ++ entries.map (·.1)
  found : ∀ e ∈ entries, d.get? e.1 = some e.2
  old : ∀ id ∈ c.ids, d.get? id = c.get? id

/-- Some members are the given entries. -/
def Reads (members : List (Option String × Json)) (entries : List (String × Chunk)) : Prop :=
  members.map (fun (key, value) => (key, Chunk.ofJson? value)) =
    entries.map fun (key, x) => (some key, some x)

theorem takenIn_cons {c d : Catalogue} {key : String} {x : Chunk} {entries : List (String × Chunk)}
    (unknown : c.contains key = false) (w : Listed c) (rest : TakenIn (c.put key x) entries d) :
    TakenIn c ((key, x) :: entries) d := by
  have absent : key ∉ c.ids := by
    rw [w.listed, ← contains_eq_isSome_get?, unknown]
    exact Bool.false_ne_true
  have grown : (c.put key x).ids = c.ids ++ [key] := by
    rw [ids_put, if_neg (by simp [unknown])]
  have later : ∀ e ∈ entries, e.1 ∉ c.ids ∧ e.1 ≠ key := by
    intro e member
    have new := rest.fresh e member
    simpa [grown] using new
  refine ⟨?_, ?_, ?_, ?_, fun id listed => ?_⟩
  · refine List.nodup_cons.mpr ⟨fun again => ?_, rest.distinct⟩
    obtain ⟨e, member, same⟩ := List.mem_map.mp again
    exact (later e member).2 same
  · intro e member
    rcases List.mem_cons.mp member with rfl | member
    · exact absent
    · exact (later e member).1
  · rw [rest.ids, grown]
    simp
  · intro e member
    rcases List.mem_cons.mp member with rfl | member
    · rw [rest.old key (by simp [grown]), get?_put, if_pos rfl]
    · exact rest.found e member
  · have different : key ≠ id := fun same => absent (same ▸ listed)
    rw [rest.old id (by simp [grown, listed]), get?_put, if_neg different]

theorem readEntries_cons {c d : Catalogue} {key : Option String} {value : Json}
    {members : List (Option String × Json)} :
    readEntries c ((key, value) :: members) = .ok d ↔ ∃ k, key = some k ∧
      ∃ x, Chunk.ofJson? value = some x ∧ c.contains k = false ∧
        readEntries (c.put k x) members = .ok d := by
  cases key with
  | none => simp [readEntries]
  | some k =>
    cases at_value : Chunk.ofJson? value with
    | none => simp [readEntries, at_value]
    | some x => cases known : c.contains k <;> simp [readEntries, at_value, known]

/-- Members are taken in only as entries whose keys are new. -/
theorem readEntries_takenIn {members : List (Option String × Json)} {c d : Catalogue}
    (w : Listed c) (read : readEntries c members = .ok d) :
    ∃ entries, Reads members entries ∧ TakenIn c entries d := by
  induction members generalizing c with
  | nil =>
    cases read
    exact ⟨[], rfl, by simp, by simp, by simp, by simp, fun _ _ => rfl⟩
  | cons member members ih =>
    obtain ⟨key, value⟩ := member
    obtain ⟨key, rfl, x, at_value, unknown, rest⟩ := readEntries_cons.mp read
    obtain ⟨entries, reads, taken⟩ := ih (listed_put w key x) rest
    refine ⟨(key, x) :: entries, ?_, takenIn_cons unknown w taken⟩
    simp only [Reads, List.map_cons] at reads ⊢
    rw [reads, at_value]

/-- What a document that is taken in looks like. -/
structure Orderly (bytes : Bytes) (c : Catalogue) (entries : List (String × Chunk)) : Prop where
  complete : (Json.readMembers bytes).complete
  reads : Reads (Json.readMembers bytes).found entries
  distinct : (entries.map (·.1)).Nodup
  keyed : ∀ e ∈ entries, e.2.id = e.1
  ids : c.ids = entries.map (·.1)
  found : ∀ e ∈ entries, c.get? e.1 = some e.2

/-- No key of a document that is taken in is repeated, and each is the identity under it. -/
theorem orderly_of_readCatalogue {path : String} {bytes : Bytes} {c : Catalogue}
    (read : readCatalogue path bytes = .ok c) : ∃ entries, Orderly bytes c entries := by
  have well := wellFormed_readCatalogue read
  simp only [readCatalogue] at read
  split at read
  next => cases read
  next d taken_in =>
    split at read
    next => cases read
    next complete =>
      split at read
      next => cases read
      next =>
        cases read
        obtain ⟨entries, reads, taken⟩ := readEntries_takenIn wellFormed_empty.toListed taken_in
        exact ⟨entries, by simpa using complete, reads, taken.distinct,
          fun e member => well.keyed e.1 e.2 (taken.found e member),
          taken.ids.trans (by simp [empty, Catalogue.ids]), taken.found⟩

end Entries

section Keeping

variable {σ : Type} {w w' : World σ} {folder : String} {c : Catalogue}

theorem load_of_save (well : WellFormed c) (saved : run (c.save folder) w = (.ok (), w')) :
    ∃ d, load w'.disk folder = .ok d ∧ WellFormed d ∧ Alike c d := by
  obtain ⟨d, read, well_read, alike⟩ :=
    readCatalogue_document well (Path.join folder catalogueName)
  exact ⟨d, (loadDocument_of_saveDocument (by decide) saved).trans read, well_read, alike⟩

/-- A folder that took a document takes the next one. -/
theorem save_again (d : Catalogue) (saved : run (c.save folder) w = (.ok (), w')) :
    ∃ v, run (d.save folder) w' = (.ok (), v) := by
  have folders : Disk.SameFolders w.disk (run (c.save folder) w).2.disk :=
    Action.sameFolders_replaceDocument _ _
  have takes : w.disk.Takes folder catalogueName :=
    (saveDocument_ok_iff (by decide)).mp (by rw [← save, saved])
  rw [saved] at folders
  have again : (run (d.save folder) w').1 = .ok () :=
    (saveDocument_ok_iff (by decide)).mpr (folders.takes_iff.mpr takes)
  exact ⟨_, Prod.ext again rfl⟩

/-- A catalogue is saved where there is room for its document; then it is loaded as it was, and to
save what was loaded leaves the bytes as they are. -/
structure Kept (σ : Type) (c : Catalogue) : Prop where
  saves : ∀ (folder : String) (w : World σ),
    (run (c.save folder) w).1 = .ok () ↔ w.disk.Takes folder catalogueName
  loads : ∀ (folder : String) (w w' : World σ), run (c.save folder) w = (.ok (), w') →
    ∃ d, load w'.disk folder = .ok d ∧ same c d ∧ d.ids = c.ids ∧ (∀ id, d.get? id = c.get? id) ∧
      ∃ v, run (d.save folder) w' = (.ok (), v) ∧
        IndexContents.ofDisk v.disk folder catalogueName =
          IndexContents.ofDisk w'.disk folder catalogueName

theorem kept_of_wellFormed (σ : Type) (well : WellFormed c) : Kept σ c where
  saves _ _ := saveDocument_ok_iff (by decide)
  loads folder w w' saved := by
    obtain ⟨d, loaded, well_read, alike⟩ := load_of_save well saved
    obtain ⟨v, again⟩ := save_again d saved
    refine ⟨d, loaded, (same_iff_alike well well_read).mpr alike, alike.ids, alike.found, v, again,
      ?_⟩
    rw [contents_of_saveDocument (by decide) again, contents_of_saveDocument (by decide) saved,
      alike.toJson]

/-- Whatever was put into a catalogue and removed from it, and whatever document it was loaded from,
it is kept by saving and loading. What is loaded has no key twice and each chunk under its own. -/
theorem kept_whatever (σ : Type) :
    (∀ c, Reached c → Kept σ c) ∧
    ∀ path bytes c, readCatalogue path bytes = .ok c →
      Kept σ c ∧ ∃ entries, Orderly bytes c entries :=
  ⟨fun _ reached => kept_of_wellFormed σ reached.wellFormed, fun _ _ _ read =>
    ⟨kept_of_wellFormed σ (wellFormed_readCatalogue read), orderly_of_readCatalogue read⟩⟩

section Sample

def chunkSample (id : String) : Chunk :=
  { id, kind := .function, name := none, filePath := "x.js", language := .javascript, scope := ""
    span := ⟨1, 1, 1, 1⟩, contentHash := "", text := "", facts := {} }

/-- A chunk that was removed and put in again comes last. -/
def reorderedSample : Catalogue :=
  (((empty.set (chunkSample "x.js#a")).set (chunkSample "x.js#b")).remove "x.js#a").set
    (chunkSample "x.js#a")

/-- The document of one chunk as no catalogue writes it: its members are in another order, one of
them is unknown, and those that may be left out are. -/
def foreignSample : Bytes :=
  ("\x7b\"x.js#a\":\x7b\"text\":\"\",\"note\":[1],\"end_column\":1,\"end_line\":1," ++
    "\"start_line\":1,\"start_column\":1,\"id\":\"x.js#a\",\"kind\":\"function\"," ++
    "\"file_path\":\"x.js\",\"language\":\"javascript\"," ++
    "\"content_hash\":\"\"\x7d\x7d").toUTF8.toList

def folderSample : World Unit := { disk := ({} : Disk).withFile "r/note" [], provider := () }

/-- Both samples are kept by saving and loading in a folder that has room for them. -/
theorem kept_samples :
    (∃ w', run (reorderedSample.save "/r") folderSample = (.ok (), w') ∧
      ∃ d, load w'.disk "/r" = .ok d ∧ same reorderedSample d ∧ d.ids = ["x.js#b", "x.js#a"]) ∧
    ∃ c, readCatalogue "" foreignSample = .ok c ∧ Kept Unit c ∧
      ∃ entries, Orderly foreignSample c entries := by
  have reached : Reached reorderedSample := .set _ (.remove _ (.set _ (.set _ .empty)))
  have kept := (kept_whatever Unit).1 _ reached
  have saved : (run (reorderedSample.save "/r") folderSample).1 = .ok () :=
    (kept.saves "/r" folderSample).mpr (by decide +kernel)
  obtain ⟨d, loaded, equal, ids, _⟩ := kept.loads "/r" folderSample _ (Prod.ext saved rfl)
  have accepted : (readCatalogue "" foreignSample).isOk := by decide +kernel
  obtain ⟨c, read⟩ := exists_of_isOk accepted
  exact ⟨⟨_, Prod.ext saved rfl, d, loaded, equal, ids.trans (by decide +kernel)⟩, c, read,
    (kept_whatever Unit).2 "" foreignSample c read⟩

end Sample

end Keeping

end Catalogue

end Lookalike
