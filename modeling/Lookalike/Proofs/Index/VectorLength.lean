import Lookalike.Proofs.Index.VectorDocument

/-!
# One length in a table

A table takes the length of its first vector for that of all, and turns down every other. What it
was loaded with is another matter: a document that gives a length is compared with it, but one that
gives none is accepted with vectors of any lengths. A later vector fixes the length then, and those
of the document that are still there keep theirs. So the vectors of a table have one length if and
only if those that are left of its beginning have it.
-/

namespace Lookalike.VectorTable

/-- What can be done to a table. -/
inductive Change where
  | upsert (id : String) (vector : Embedding)
  | remove (id : String)
  | removeFile (filePath : String)

/-- Carries out a change. One that is turned down leaves the table as it is. -/
def changed (t : VectorTable) : Change → VectorTable
  | .upsert id vector =>
    match t.upsert id vector with
    | .ok u => u
    | .error _ => t
  | .remove id => t.remove id
  | .removeFile filePath => (t.removeFile filePath).2

def changedBy (t : VectorTable) (changes : List Change) : VectorTable := changes.foldl changed t

/-- The change puts a vector under the identity, or takes what is there away. -/
def Touches (t : VectorTable) (id : String) : Change → Prop
  | .upsert key vector => key = id ∧ ∃ u, t.upsert key vector = .ok u
  | .remove gone => gone = id
  | .removeFile filePath => startsWith (Chunk.idStart filePath) id

/-- None of the changes touches the identity. -/
def LeftAlone (t : VectorTable) (id : String) : List Change → Prop
  | [] => True
  | c :: changes => ¬t.Touches id c ∧ (t.changed c).LeftAlone id changes

/-- Either the length is known and all vectors have it, or it is not known and there is none. -/
def OneLength (t : VectorTable) : Prop :=
  (∃ d, t.dimension = some d ∧ ∀ id v, t.get? id = some v → v.size = d) ∨
    t.dimension = none ∧ t.size = 0

variable {t u : VectorTable} {id : String} {v : Embedding}

theorem size_eq_zero_iff : t.size = 0 ↔ ∀ id, t.get? id = none := by
  rw [size, ← SortedMap.length_keys, List.length_eq_zero_iff, List.eq_nil_iff_forall_not_mem]
  simp only [SortedMap.mem_keys_iff, Option.not_isSome_iff_eq_none]
  exact Iff.rfl

theorem oneLength_iff_uniform : t.OneLength ↔ t.Uniform := by
  constructor
  · rintro (⟨d, known, lengths⟩ | ⟨_, none_there⟩) id v there
    · rw [known, lengths id v there]
    · rw [size_eq_zero_iff.mp none_there id] at there
      cases there
  · intro uniform
    cases known : t.dimension with
    | some d =>
      refine .inl ⟨d, known, fun id v there => ?_⟩
      exact (Option.some.inj (known.symm.trans (uniform id v there))).symm
    | none =>
      refine .inr ⟨known, size_eq_zero_iff.mpr fun id => ?_⟩
      refine Option.eq_none_iff_forall_ne_some.mpr fun v there => ?_
      cases known.symm.trans (uniform id v there)

section Rejection

/-- A vector is turned down for its length only. -/
theorem upsert_error_iff {e : IndexError} : t.upsert id v = .error e ↔
    ∃ d, t.dimension = some d ∧ d ≠ v.size ∧ e = .dimensionMismatch d v.size := by
  simp only [upsert]
  cases t.dimension with
  | none => simp
  | some d => by_cases same : d = v.size <;> simp [same, eq_comm]

theorem changed_of_rejected {e : IndexError} (rejected : t.upsert id v = .error e) :
    t.changed (.upsert id v) = t := by
  rw [changed, rejected]

theorem changed_of_accepted (accepted : t.upsert id v = .ok u) :
    t.changed (.upsert id v) = u := by
  rw [changed, accepted]

end Rejection

section OneChange

/-- A length that is known stays. -/
theorem dimension_changed {d : Nat} (known : t.dimension = some d) (c : Change) :
    (t.changed c).dimension = some d := by
  cases c with
  | upsert key w =>
    cases answer : t.upsert key w with
    | error e => rwa [changed_of_rejected answer]
    | ok u =>
      have fits : d = w.size := by
        refine Classical.byContradiction fun other => ?_
        rw [upsert_error_iff.mpr ⟨d, known, other, rfl⟩] at answer
        cases answer
      rw [changed_of_accepted answer, dimension_upsert answer, fits]
  | remove gone => exact known
  | removeFile filePath => rwa [changed, removeFile, dimension_foldl_remove]

theorem get?_changed_of_left {c : Change} (left : ¬t.Touches id c) :
    (t.changed c).get? id = t.get? id := by
  cases c with
  | upsert key w =>
    cases answer : t.upsert key w with
    | error e => rw [changed_of_rejected answer]
    | ok u =>
      have other : key ≠ id := fun same => left ⟨same, u, answer⟩
      rw [changed_of_accepted answer, get?_upsert answer, if_neg other]
  | remove gone =>
    have other : gone ≠ id := left
    rw [changed, get?_remove, if_neg other]
  | removeFile filePath =>
    have elsewhere : ¬startsWith (Chunk.idStart filePath) id := left
    rw [changed, get?_removeFile, if_neg elsewhere]

/-- What is there after a change that touches it was put there, and has the length of the table. -/
theorem dimension_of_touched {c : Change} (touched : t.Touches id c)
    (there : (t.changed c).get? id = some v) : (t.changed c).dimension = some v.size := by
  cases c with
  | upsert key w =>
    obtain ⟨own, u, answer⟩ := touched
    rw [changed_of_accepted answer, get?_upsert answer, if_pos own] at there
    cases there
    rw [changed_of_accepted answer, dimension_upsert answer]
  | remove gone =>
    have own : gone = id := touched
    rw [changed, get?_remove, if_pos own] at there
    cases there
  | removeFile filePath =>
    have within : startsWith (Chunk.idStart filePath) id := touched
    rw [changed, get?_removeFile, if_pos within] at there
    cases there

end OneChange

section ManyChanges

theorem dimension_changedBy {d : Nat} (known : t.dimension = some d) (changes : List Change) :
    (t.changedBy changes).dimension = some d := by
  induction changes generalizing t with
  | nil => exact known
  | cons c changes ih => exact ih (dimension_changed known c)

theorem get?_changedBy_of_left {changes : List Change} (left : t.LeftAlone id changes) :
    (t.changedBy changes).get? id = t.get? id := by
  induction changes generalizing t with
  | nil => rfl
  | cons c changes ih =>
    obtain ⟨now, later⟩ := left
    exact (ih later).trans (get?_changed_of_left now)

/-- What is there after some changes was there before and left alone, or it was put there and has
the length of the table. -/
theorem found_changedBy {changes : List Change} (there : (t.changedBy changes).get? id = some v) :
    t.get? id = some v ∧ t.LeftAlone id changes ∨
      (t.changedBy changes).dimension = some v.size := by
  induction changes generalizing t with
  | nil => exact .inl ⟨there, trivial⟩
  | cons c changes ih =>
    rcases ih there with ⟨before, later⟩ | put
    · by_cases touched : t.Touches id c
      · exact .inr (dimension_changedBy (dimension_of_touched touched before) changes)
      · rw [get?_changed_of_left touched] at before
        exact .inl ⟨before, touched, later⟩
    · exact .inr put

/-- The vectors of a table have one length if and only if those that are left of its beginning have
the length of the table. -/
theorem uniform_changedBy_iff (changes : List Change) : (t.changedBy changes).Uniform ↔
    ∀ id v, t.get? id = some v → t.LeftAlone id changes →
      (t.changedBy changes).dimension = some v.size := by
  constructor
  · intro uniform id v before left
    exact uniform id v ((get?_changedBy_of_left left).trans before)
  · intro survivors id v there
    rcases found_changedBy there with ⟨before, left⟩ | put
    · exact survivors id v before left
    · exact put

theorem uniform_changedBy (uniform : t.Uniform) (changes : List Change) :
    (t.changedBy changes).Uniform := by
  refine (uniform_changedBy_iff changes).mpr fun id v before _ => ?_
  exact dimension_changedBy (uniform id v before) changes

end ManyChanges

/-- What a table begins as: without vectors, or as a document that is accepted. -/
def Begins (t : VectorTable) : Prop :=
  (∃ dimension, t = .ofDimension dimension) ∨ ∃ path bytes, readVectors path bytes = .ok t

/-- A beginning has one length unless its document gives none for the vectors that it has. -/
theorem Begins.uniform_iff (begins : t.Begins) :
    t.Uniform ↔ (t.dimension = none → t.size = 0) := by
  rcases begins with ⟨dimension, rfl⟩ | ⟨path, bytes, read⟩
  · exact iff_of_true (uniform_ofDimension dimension) fun _ => rfl
  · have lengths := (readVectors_ok.mp read).2
    rw [← oneLength_iff_uniform]
    constructor
    · rintro (⟨d, known, _⟩ | ⟨_, none_there⟩) unknown
      · cases known.symm.trans unknown
      · exact none_there
    · intro empty
      cases known : t.dimension with
      | some d => exact .inl ⟨d, known, lengths d known⟩
      | none => exact .inr ⟨known, empty known⟩

/-- A table has one length after whatever changes if and only if it was not loaded with vectors from
a document that gives no length. After given changes it has one if and only if the vectors of the
document that they have left alone have the length of the table. A vector is turned down if and only
if its length is not the known one, and nothing changes then. -/
theorem one_length_iff_survivors_measured (begins : t.Begins) :
    ((∀ changes, (t.changedBy changes).OneLength) ↔ (t.dimension = none → t.size = 0)) ∧
    ∀ changes,
      ((t.changedBy changes).OneLength ↔ ∀ id v, t.get? id = some v → t.LeftAlone id changes →
        (t.changedBy changes).dimension = some v.size) ∧
      ∀ id v e, (t.changedBy changes).upsert id v = .error e →
        t.changedBy (changes ++ [.upsert id v]) = t.changedBy changes ∧
        ∃ d, (t.changedBy changes).dimension = some d ∧ d ≠ v.size ∧
          e = .dimensionMismatch d v.size := by
  simp only [oneLength_iff_uniform]
  refine ⟨?_, fun changes => ⟨uniform_changedBy_iff changes, fun id v e rejected => ?_⟩⟩
  · rw [← begins.uniform_iff]
    exact ⟨fun always => always [], uniform_changedBy⟩
  · refine ⟨?_, upsert_error_iff.mp rejected⟩
    rw [changedBy, List.foldl_append]
    exact changed_of_rejected rejected

section Sample

/-- A document with vectors of two lengths that gives none. -/
def unmeasuredSample : Bytes :=
  "\x7b\"dimension\":null,\"vectors\":\x7b\"x.js#a\":[1,0],\"x.js#b\":[1]\x7d\x7d".toUTF8.toList

def raggedTable : VectorTable :=
  { vectors := ((∅ : SortedMap Embedding).insert "x.js#a" #[1, 0]).insert "x.js#b" #[1] }

theorem get?_raggedTable (id : String) : raggedTable.get? id =
    if "x.js#b" = id then some #[1] else if "x.js#a" = id then some #[1, 0] else none := by
  simp [raggedTable, get?]

/-- The document is accepted. A vector of length one fixes the length, and the longer vector is
still there; the vectors have one length if the longer one was removed before. -/
theorem one_length_unmeasuredSample : readVectors "" unmeasuredSample = .ok raggedTable ∧
    ¬(raggedTable.changedBy [.upsert "y.js#c" #[1]]).OneLength ∧
    (raggedTable.changedBy [.remove "x.js#a", .upsert "y.js#c" #[1]]).OneLength := by
  have read : readVectors "" unmeasuredSample = .ok raggedTable := by decide +kernel
  have exactly := (one_length_iff_survivors_measured (.inr ⟨"", _, read⟩)).2
  refine ⟨read, fun one => ?_, (exactly _).1.mpr fun id v before left => ?_⟩
  · have survives := (exactly _).1.mp one "x.js#a" #[1, 0] (by rw [get?_raggedTable]; rfl)
      ⟨fun touched => absurd touched.1 (by decide), trivial⟩
    cases survives
  · have kept : "x.js#a" ≠ id := left.1
    rw [get?_raggedTable, if_neg kept] at before
    split at before
    next =>
      cases before
      rfl
    next => cases before

end Sample

end Lookalike.VectorTable
