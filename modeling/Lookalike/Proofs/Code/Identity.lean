import Lookalike.Index.VectorTable
import Lookalike.Proofs.Code.Cutting
import Lookalike.Proofs.Index.VectorTable

/-!
# Identities and paths

The identity of a chunk ends with a number sign and digits, so it tells the path of its file. What
the identities of a file start with does not: identities of another file start so too if the path of
that file does.
-/

namespace Lookalike

open VectorTable (startsWith startsWith_iff)

section Digits

theorem digitChar_ne_sign {n : Nat} (h : n < 16) : Nat.digitChar n ≠ '#' := by
  revert n
  decide

theorem sign_not_mem_hexOf (bytes : List UInt8) : '#' ∉ Blake3.hexOf bytes := by
  simp only [Blake3.hexOf, List.mem_flatMap, List.mem_cons, List.not_mem_nil, or_false]
  rintro ⟨b, _, high | low⟩
  · have small : b.toNat / 16 < 16 := by
      have := b.toNat_lt
      omega
    exact digitChar_ne_sign small high.symm
  · exact digitChar_ne_sign (Nat.mod_lt _ (by decide)) low.symm

theorem length_digest (message : List UInt8) : (Blake3.digest message).length = 32 := by
  simp [Blake3.digest, List.length_flatMap, Blake3.wordBytes, List.map_const']

theorem hex_ne_empty (message : List UInt8) : Blake3.hex message ≠ "" := by
  intro same
  have no_digits : Blake3.hexOf (Blake3.digest message) = [] := by
    simpa [Blake3.hex] using congrArg String.toList same
  have length := congrArg List.length no_digits
  simp [Blake3.hexOf, List.length_flatMap, List.map_const', length_digest] at length

end Digits

namespace Chunk

/-- An identity that some unit of a file can have. -/
def IsIdOf (filePath id : String) : Prop :=
  ∃ scope label ordinal, id = idOf filePath scope label ordinal

theorem isIdOf_iff_digits {filePath id : String} (h : IsIdOf filePath id) :
    ∃ digits, '#' ∉ digits ∧ id.toList = filePath.toList ++ '#' :: digits := by
  obtain ⟨scope, label, ordinal, rfl⟩ := h
  refine ⟨(Blake3.hexOf (Blake3.digest (identityKey scope label ordinal))).take 16, ?_, ?_⟩
  · exact fun member => sign_not_mem_hexOf _ (List.mem_of_mem_take member)
  · simp [idOf, idStart]

/-- The last number sign of a text splits it in one way. -/
theorem split_at_last_sign {p q d e : List Char} (hd : '#' ∉ d) (he : '#' ∉ e)
    (same : p ++ '#' :: d = q ++ '#' :: e) : p = q := by
  induction p generalizing q with
  | nil =>
    cases q with
    | nil => rfl
    | cons c q =>
      simp only [List.nil_append, List.cons_append, List.cons.injEq] at same
      exact absurd (same.2 ▸ List.mem_append_right q List.mem_cons_self) hd
  | cons c p ih =>
    cases q with
    | nil =>
      simp only [List.nil_append, List.cons_append, List.cons.injEq] at same
      exact absurd (same.2 ▸ List.mem_append_right p List.mem_cons_self) he
    | cons c' q =>
      simp only [List.cons_append, List.cons.injEq] at same
      rw [same.1, ih same.2]

/-- An identity belongs to one file. -/
theorem path_unique {p q id : String} (hp : IsIdOf p id) (hq : IsIdOf q id) : p = q := by
  obtain ⟨d, no_sign_d, at_p⟩ := isIdOf_iff_digits hp
  obtain ⟨e, no_sign_e, at_q⟩ := isIdOf_iff_digits hq
  exact String.toList_injective (split_at_last_sign no_sign_d no_sign_e (at_p ▸ at_q))

theorem startsWith_own {p id : String} (h : IsIdOf p id) : startsWith (idStart p) id := by
  obtain ⟨digits, _, shape⟩ := isIdOf_iff_digits h
  exact (startsWith_iff _ _).mpr ⟨digits, by simp [shape, idStart]⟩

/-- An identity starts as those of a file do if it belongs to the file, or to one whose path starts
so. -/
theorem startsWith_idStart_iff {p q id : String} (h : IsIdOf q id) :
    startsWith (idStart p) id ↔ p = q ∨ startsWith (idStart p) q := by
  constructor
  · intro begun
    obtain ⟨rest, same⟩ := (startsWith_iff _ _).mp begun
    obtain ⟨digits, no_sign, shape⟩ := isIdOf_iff_digits h
    rw [shape] at same
    have parts : (idStart p).toList = p.toList ++ ['#'] := by simp [idStart]
    rw [parts] at same
    rcases List.append_eq_append_iff.mp same with ⟨more, longer, tail⟩ | ⟨more, shorter, tail⟩
    · cases more with
      | nil => exact .inr ((startsWith_iff _ _).mpr ⟨[], by rw [parts, longer]; simp⟩)
      | cons c more =>
        simp only [List.cons_append, List.cons.injEq] at tail
        obtain ⟨rfl, rfl⟩ := tail
        have no_sign_more : '#' ∉ more := fun member => no_sign (List.mem_append_left rest member)
        exact .inl (String.toList_injective
          (split_at_last_sign (List.not_mem_nil (a := '#')) no_sign_more longer))
    · exact .inr ((startsWith_iff _ _).mpr ⟨more, by rw [parts, shorter]⟩)
  · rintro (rfl | begun)
    · exact startsWith_own h
    · obtain ⟨rest, same⟩ := (startsWith_iff _ _).mp begun
      obtain ⟨digits, _, shape⟩ := isIdOf_iff_digits h
      exact (startsWith_iff _ _).mpr ⟨rest ++ '#' :: digits, by rw [shape, same]; simp⟩

/-- What holds of every chunk that is cut from a file. -/
structure CutFrom (filePath : String) (c : Chunk) : Prop where
  path : c.filePath = filePath
  identity : IsIdOf filePath c.id
  content : c.contentHash = Blake3.hexOfText c.text

theorem cutFrom_of_mem_chunksOf {lang : Language} {limits : ChunkLimits} {path source : String}
    {root : SyntaxTree} {c : Chunk} (h : c ∈ chunksOf lang limits path source root) :
    CutFrom path c := by
  obtain ⟨⟨p, ordinal⟩, _, made⟩ := List.mem_filterMap.mp h
  have cut := CodeUnit.isCut_of_chunk? made
  exact ⟨cut.path, ⟨_, _, _, cut.id⟩, cut.content⟩

end Chunk

end Lookalike
