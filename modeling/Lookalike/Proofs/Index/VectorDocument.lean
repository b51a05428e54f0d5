import Lookalike.Proofs.Index.LoadGate
import Lookalike.Proofs.Index.Saving
import Lookalike.Proofs.Number.Single

/-!
# The document of a table of vectors

A table is loaded as it was saved exactly if all its numbers are finite. A number that is not is
written as null, which no reader takes for a number, so the document of the whole table is refused.
Nothing keeps such a number out: a decimal beyond the range of single precision is read as an
infinity, from a document as well as from the answer of a service.
-/

namespace Lookalike

open Action (run)
open Number (longBound twoTo)

section Finiteness

/-- What is not finite is written as null. -/
theorem Json.ofSingle_eq_null {x : Float32} (infinite : ¬x.isFinite) : ofSingle x = null := by
  have top : x.toBits.toNat / twoTo 23 % twoTo 8 = 255 :=
    not_not.mp (mt (Number.isFinite_iff_exponent x).mpr infinite)
  have byte : twoTo 8 - 1 = 255 := rfl
  have special : ∃ negative, Number.decode .single x.toBits.toNat = (negative, .infinite) ∨
      Number.decode .single x.toBits.toNat = (negative, .notANumber) := by
    by_cases whole : x.toBits.toNat % twoTo 23 = 0
    · exact ⟨_, .inl (Prod.ext rfl (by simp [Number.decode, Number.BinaryFormat.single, top,
        Number.BinaryFormat.topExponent, byte, whole]))⟩
    · exact ⟨_, .inr (Prod.ext rfl (by simp [Number.decode, Number.BinaryFormat.single, top,
        Number.BinaryFormat.topExponent, byte, whole]))⟩
  obtain ⟨negative, special | special⟩ := special <;> rw [ofSingle, special]

end Finiteness

namespace Embedding

/-- A vector is read as itself if each of its numbers is. -/
theorem ofJson?_toJson_self {v : Embedding} : ofJson? v.toJson = some v ↔
    ∀ x ∈ v, Json.toSingle? (Json.ofSingle x) = some x := by
  rw [ofJson?, toJson, Option.map_eq_some_iff]
  constructor
  · rintro ⟨numbers, read, same⟩ x member
    obtain rfl : numbers = v.toList := by rw [← same]
    exact List.map_inj_left.mp (Json.toList?_ofList.mp read) x (Array.mem_toList_iff.mpr member)
  · intro each
    exact ⟨v.toList, Json.toList?_ofList.mpr (List.map_inj_left.mpr fun x member =>
      each x (Array.mem_toList_iff.mp member)), Array.toArray_toList⟩

end Embedding

namespace VectorTable

/-- The tables that come from one without vectors by accepted changes. Lengths have 64 bits. -/
inductive Reached : VectorTable → Prop where
  | ofDimension {dimension : Option Nat} (fits : ∀ d, dimension = some d → d < longBound) :
    Reached (.ofDimension dimension)
  | upsert {t u : VectorTable} {id : String} {v : Embedding} (fits : v.size < longBound)
    (accepted : t.upsert id v = .ok u) : Reached t → Reached u
  | remove {t : VectorTable} (id : String) : Reached t → Reached (t.remove id)
  | removeFile {t : VectorTable} (filePath : String) : Reached t → Reached (t.removeFile filePath).2

/-- What a reader checks of a table: once there is a length, it is that of all vectors. -/
structure Measured (t : VectorTable) : Prop where
  fits : ∀ d, t.dimension = some d → d < longBound
  lengths : ∀ d, t.dimension = some d → ∀ id v, t.get? id = some v → v.size = d

section Measuring

variable {t u : VectorTable}

theorem Uniform.measured (uniform : t.Uniform)
    (fits : ∀ d, t.dimension = some d → d < longBound) : t.Measured where
  fits := fits
  lengths _ known id v there := Option.some.inj ((uniform id v there).symm.trans known)

theorem dimension_upsert {id : String} {v : Embedding} (h : t.upsert id v = .ok u) :
    u.dimension = some v.size := by
  simp only [upsert] at h
  split at h
  next expected known =>
    split at h
    next same =>
      cases h
      exact known.trans (congrArg some same)
    next => cases h
  next =>
    cases h
    rfl

/-- Accepted changes keep one length. -/
theorem Reached.measured (h : t.Reached) : t.Measured := by
  have kept : t.Uniform ∧ ∀ d, t.dimension = some d → d < longBound := by
    induction h with
    | ofDimension fits => exact ⟨uniform_ofDimension _, fits⟩
    | upsert fits accepted _ ih =>
      refine ⟨uniform_upsert ih.1 accepted, fun d known => ?_⟩
      rw [dimension_upsert accepted] at known
      cases known
      exact fits
    | remove id _ ih => exact ⟨uniform_remove ih.1 id, ih.2⟩
    | @removeFile t filePath _ ih =>
      refine ⟨uniform_removeFile ih.1 filePath, ?_⟩
      rw [VectorTable.removeFile, dimension_foldl_remove]
      exact ih.2
  exact kept.1.measured kept.2

theorem fits_of_ofJson? {value : Json} (read : ofJson? value = some t) :
    ∀ d, t.dimension = some d → d < longBound := by
  simp only [ofJson?, Option.bind_eq_bind, Option.bind_eq_some_iff, Option.pure_def,
    Option.some.injEq] at read
  obtain ⟨r, _, dimension, at_dimension, vectors, _, rfl⟩ := read
  rintro d rfl
  rw [Json.Record.nullable?] at at_dimension
  split at at_dimension
  next => split at at_dimension <;> cases at_dimension
  next => cases at_dimension
  next =>
    obtain ⟨n, natural, same⟩ := Option.map_eq_some_iff.mp at_dimension
    cases same
    rw [Json.toNatBelow?.eq_def] at natural
    split at natural
    next => simpa using (Option.filter_eq_some_iff.mp natural).2
    next => cases natural

/-- Of a document that can be parsed the lengths decide. -/
theorem readVectors_ok {path : String} {bytes : Bytes} : readVectors path bytes = .ok t ↔
    (Json.read? bytes).bind ofJson? = some t ∧
      ∀ d, t.dimension = some d → ∀ id v, t.get? id = some v → v.size = d := by
  rw [readVectors]
  cases (Json.read? bytes).bind ofJson? with
  | none => simp
  | some u =>
    dsimp only
    rw [Option.some.injEq]
    split
    next unknown =>
      constructor
      · intro same
        cases same
        exact ⟨rfl, fun d known => by cases unknown.symm.trans known⟩
      · rintro ⟨rfl, _⟩
        rfl
    next d known =>
      split
      next id v found =>
        refine iff_of_false (fun failed => by cases failed) ?_
        rintro ⟨rfl, lengths⟩
        rw [find?_other_length.mpr (lengths d known)] at found
        cases found
      next found =>
        constructor
        · intro same
          cases same
          refine ⟨rfl, fun e also => ?_⟩
          cases known.symm.trans also
          exact find?_other_length.mp found
        · rintro ⟨rfl, _⟩
          rfl

theorem measured_of_readVectors {path : String} {bytes : Bytes}
    (read : readVectors path bytes = .ok t) : t.Measured := by
  obtain ⟨parsed, lengths⟩ := readVectors_ok.mp read
  obtain ⟨value, _, at_value⟩ := Option.bind_eq_some_iff.mp parsed
  exact ⟨fits_of_ofJson? at_value, lengths⟩

end Measuring

section Keeping

variable {t : VectorTable} {path : String}

/-- All numbers of the table are finite. -/
def AllFinite (t : VectorTable) : Prop := ∀ id v, t.get? id = some v → ∀ x ∈ v, x.isFinite

/-- Each finite number of the table is read as itself after it was written. -/
def Faithful (t : VectorTable) : Prop := ∀ id v, t.get? id = some v → ∀ x ∈ v, x.isFinite →
  Json.toSingle? (Json.ofSingle x) = some x

theorem ofJson?_toJson_self : ofJson? t.toJson = some t ↔
    (∀ d, t.dimension = some d → d < longBound) ∧
      ∀ id v, t.get? id = some v → Embedding.ofJson? v.toJson = some v := by
  have entries : Json.toMap? Embedding.ofJson? (Json.ofMap Embedding.toJson t.vectors) =
      some t.vectors ↔ ∀ id v, t.get? id = some v → Embedding.ofJson? v.toJson = some v := by
    rw [Json.toMap?_ofMap, List.map_inj_left]
    constructor
    · intro each id v there
      have own := each (id, v) ((t.vectors.mem_entries_iff id v).mpr there)
      obtain ⟨w, read, same⟩ := Option.map_eq_some_iff.mp own
      rw [read, (Prod.mk.inj same).2]
    · rintro each ⟨id, v⟩ member
      rw [each id v ((t.vectors.mem_entries_iff id v).mp member)]
      rfl
  rw [ofJson?_toJson, entries]
  simp

/-- A finite table is read as itself. -/
theorem readVectors_document_self (measured : t.Measured) (faithful : t.Faithful)
    (finite : t.AllFinite) : readVectors path (documentBytes t.toJson) = .ok t := by
  have each : ∀ id v, t.get? id = some v → Embedding.ofJson? v.toJson = some v := by
    intro id v there
    exact Embedding.ofJson?_toJson_self.mpr fun x member =>
      faithful id v there x member (finite id v there x member)
  refine readVectors_ok.mpr ⟨?_, measured.lengths⟩
  rw [documentBytes, Json.read?_document t.printable_toJson, Option.bind_some]
  exact ofJson?_toJson_self.mpr ⟨measured.fits, each⟩

/-- Whatever is read of a table was written from finite numbers. -/
theorem allFinite_of_readVectors {u : VectorTable}
    (read : readVectors path (documentBytes t.toJson) = .ok u) : t.AllFinite := by
  intro id v there x member
  obtain ⟨w, at_v⟩ :=
    Option.isSome_iff_exists.mp ((readVectors_document read).1.vectors id v there)
  obtain ⟨numbers, each, _⟩ := Option.map_eq_some_iff.mp at_v
  have at_x := List.mem_map_of_mem (f := fun x => Json.toSingle? (Json.ofSingle x))
    (Array.mem_toList_iff.mpr member)
  rw [Json.toList?_ofList.mp each, List.mem_map] at at_x
  obtain ⟨y, _, number⟩ := at_x
  refine Classical.byContradiction fun infinite => ?_
  rw [Json.ofSingle_eq_null infinite] at number
  cases number

/-- Every table that the index takes in is saved where there is room for its document. It is loaded
afterwards as it was if its numbers are finite, and makes the document corrupt if one is not. -/
theorem loaded_iff_allFinite {σ : Type}
    (accepted : t.Reached ∨ ∃ path bytes, readVectors path bytes = .ok t) (faithful : t.Faithful)
    (folder : String) (w : World σ) :
    ((run (t.save folder) w).1 = .ok () ↔ w.disk.Takes folder vectorsName) ∧
    ∀ w', run (t.save folder) w = (.ok (), w') →
      (load w'.disk folder = .ok t ↔ t.AllFinite) ∧
      (¬t.AllFinite → Corrupt (load w'.disk folder)) := by
  have measured : t.Measured := by
    rcases accepted with reached | ⟨path, bytes, read⟩
    · exact reached.measured
    · exact measured_of_readVectors read
  refine ⟨saveDocument_ok_iff (by decide), fun w' saved => ?_⟩
  have loads : load w'.disk folder =
      readVectors (Path.join folder vectorsName) (documentBytes t.toJson) :=
    loadDocument_of_saveDocument (by decide) saved
  rw [loads]
  refine ⟨⟨allFinite_of_readVectors, readVectors_document_self measured faithful⟩,
    fun infinite => ?_⟩
  exact (onlyCorrupt_readVectors _ _).corrupt fun u read => infinite (allFinite_of_readVectors read)

section Sample

def tableSample (numbers : Embedding) : VectorTable :=
  { dimension := some numbers.size
    vectors := (∅ : SortedMap Embedding).insert "x.js#a" numbers }

/-- A document with a number beyond the range of single precision. -/
def overflowingSample : Bytes :=
  "\x7b\"dimension\":1,\"vectors\":\x7b\"x.js#a\":[1e39]\x7d\x7d".toUTF8.toList

def roomySample : World Unit := { disk := ({} : Disk).withFile "r/note" [], provider := () }

theorem get?_tableSample {numbers v : Embedding} {id : String}
    (there : (tableSample numbers).get? id = some v) : v = numbers := by
  simp only [tableSample, get?, SortedMap.get?_insert] at there
  split at there
  next => exact (Option.some.inj there).symm
  next => simp at there

theorem reached_tableSample {numbers : Embedding} (fits : numbers.size < longBound) :
    Reached (tableSample numbers) :=
  have new : Reached (.ofDimension none) := .ofDimension (by simp)
  .upsert fits (show upsert (.ofDimension none) "x.js#a" numbers = _ from rfl) new

/-- Half and seven tenths are kept. The overflowing document is accepted, and what it is read as is
saved, but not loaded again. -/
theorem loaded_samples :
    (∃ w', run ((tableSample #[0.5, 0.7]).save "/r") roomySample = (.ok (), w') ∧
      load w'.disk "/r" = .ok (tableSample #[0.5, 0.7])) ∧
    ∃ t, readVectors "" overflowingSample = .ok t ∧
      ∃ w', run (t.save "/r") roomySample = (.ok (), w') ∧ Corrupt (load w'.disk "/r") := by
  have room : roomySample.disk.Takes "/r" vectorsName := by decide +kernel
  have halves_read : ∀ x ∈ [(0.5 : Float32), 0.7], x.isFinite ∧
      Json.toSingle? (Json.ofSingle x) = some x := by decide +kernel
  have halves : (tableSample #[0.5, 0.7]).Faithful := by
    intro id v there x member _
    rw [get?_tableSample there, List.mem_toArray] at member
    exact (halves_read x member).2
  have halves_finite : (tableSample #[0.5, 0.7]).AllFinite := by
    intro id v there x member
    rw [get?_tableSample there, List.mem_toArray] at member
    exact (halves_read x member).1
  have infinity : readVectors "" overflowingSample =
      .ok (tableSample #[Float32.ofBits 0x7f800000]) := by decide +kernel
  have infinite : ¬(Float32.ofBits 0x7f800000).isFinite := by decide +kernel
  have overflowed : (tableSample #[Float32.ofBits 0x7f800000]).Faithful := by
    intro id v there x member finite
    rw [get?_tableSample there, List.mem_toArray, List.mem_singleton] at member
    exact absurd (member ▸ finite) infinite
  have kept := loaded_iff_allFinite (.inl (reached_tableSample (by decide))) halves "/r" roomySample
  have lost := loaded_iff_allFinite (.inr ⟨_, _, infinity⟩) overflowed "/r" roomySample
  refine ⟨⟨_, Prod.ext (kept.1.mpr room) rfl,
      (kept.2 _ (Prod.ext (kept.1.mpr room) rfl)).1.mpr halves_finite⟩,
    _, infinity, _, Prod.ext (lost.1.mpr room) rfl,
    (lost.2 _ (Prod.ext (lost.1.mpr room) rfl)).2 fun finite => ?_⟩
  exact infinite (finite "x.js#a" #[Float32.ofBits 0x7f800000] (by decide +kernel) _ (by simp))

end Sample

end Keeping

end VectorTable

end Lookalike
