import Lookalike.Proofs.Code.Outermost

/-!
# Ranks of units

The units of a file are ranked among those of their scope and label. The identity of a chunk is
written from these two and the rank of its unit, so nothing else in the file has a say in it, and a
unit that is too small for a chunk keeps its rank.
-/

namespace Lookalike

/-- What the chunk is counted by. -/
def Chunk.key (c : Chunk) : String × String := (c.scope, c.displayName)

namespace CodeUnit

/-- The units of a file, each with the chunk it is cut into if it is large enough. -/
def cuts (lang : Language) (limits : ChunkLimits) (path source : String) (root : SyntaxTree) :
    List (Placed × Option Chunk) :=
  (withOrdinals [] (units lang source root)).map fun (p, ordinal) =>
    (p, chunk? lang limits path source p ordinal)

/-- What the unit of a key that has a rank is cut into: nothing if there is no such unit, or if it
is too small. -/
def cutAt (lang : Language) (limits : ChunkLimits) (path source : String) (root : SyntaxTree)
    (key : String × String) (rank : Nat) : Option Chunk :=
  ((cuts lang limits path source root).filter (·.1.key = key))[rank]?.bind (·.2)

/-- Which units of a key are large enough for a chunk, in source order. -/
def sizesOf (lang : Language) (limits : ChunkLimits) (source : String) (root : SyntaxTree)
    (key : String × String) : List Bool :=
  ((units lang source root).filter (·.key = key)).map fun p => decide (IsLarge limits source p)

section Ranks

variable {lang : Language} {limits : ChunkLimits} {path source : String} {root : SyntaxTree}
variable {key : String × String} {n : Nat}

theorem map_fst_cuts : (cuts lang limits path source root).map (·.1) = units lang source root := by
  rw [cuts, List.map_map]
  exact map_fst_withOrdinals [] _

theorem filterMap_snd_cuts : (cuts lang limits path source root).filterMap (·.2) =
    chunksOf lang limits path source root := by
  rw [cuts, List.filterMap_map]
  rfl

/-- Among the units of one key the ordinals go up by one, from the number of earlier units on.
Units of other keys do not enter. -/
theorem filter_withOrdinals (earlier : List (String × String)) (ps : List Placed) :
    (withOrdinals earlier ps).filter (·.1.key = key) =
      (ps.filter (·.key = key)).zipIdx (earlier.count key) := by
  induction ps generalizing earlier with
  | nil => rfl
  | cons p ps ih =>
    rw [withOrdinals]
    by_cases same : p.key = key
    · rw [List.filter_cons_of_pos (by simpa using same),
        List.filter_cons_of_pos (by simpa using same), List.zipIdx_cons, ih, same,
        List.count_cons_self]
    · rw [List.filter_cons_of_neg (by simpa using same),
        List.filter_cons_of_neg (by simpa using same), ih, List.count_cons_of_ne same]

theorem filter_cuts : (cuts lang limits path source root).filter (·.1.key = key) =
    ((units lang source root).filter (·.key = key)).zipIdx.map fun (p, rank) =>
      (p, chunk? lang limits path source p rank) := by
  rw [cuts, List.filter_map]
  exact congrArg _ (filter_withOrdinals [] _)

theorem IsCut.same_key {p : Placed} {c : Chunk} (cut : IsCut lang limits path source p n c) :
    c.key = p.key := by
  rw [Chunk.key, Chunk.displayName, cut.scope, cut.name]
  rfl

/-- The identity of a chunk is that of its key and its rank. -/
theorem id_of_cutAt {c : Chunk} (cut : cutAt lang limits path source root key n = some c) :
    c.id = Chunk.idOf path key.1 key.2 (UInt64.ofNat n) := by
  simp only [cutAt, filter_cuts, List.getElem?_map, List.getElem?_zipIdx, Option.bind_eq_some_iff,
    Option.map_eq_some_iff] at cut
  obtain ⟨_, ⟨_, ⟨p, found, rfl⟩, rfl⟩, cut⟩ := cut
  have same : p.key = key := by
    have member := List.mem_of_getElem? found
    exact of_decide_eq_true (List.mem_filter.mp member).2
  rw [Nat.zero_add] at cut
  rw [(isCut_of_chunk? cut).id, ← same]
  rfl

/-- The chunks of a key are what its units are cut into. -/
theorem filter_chunksOf : (chunksOf lang limits path source root).filter (·.key = key) =
    ((cuts lang limits path source root).filter (·.1.key = key)).filterMap (·.2) := by
  rw [← filterMap_snd_cuts, cuts]
  induction withOrdinals [] (units lang source root) with
  | nil => rfl
  | cons counted rest ih =>
    obtain ⟨p, ordinal⟩ := counted
    cases cut : chunk? lang limits path source p ordinal with
    | none =>
      by_cases same : p.key = key <;> simpa [cut, same] using ih
    | some c =>
      have of_unit := (isCut_of_chunk? cut).same_key
      by_cases same : p.key = key <;> simpa [cut, of_unit, same] using ih

theorem map_id_chunk? (p : Placed) : (chunk? lang limits path source p n).map (·.id) =
    if IsLarge limits source p then some (Chunk.idOf path p.scope p.unit.label (UInt64.ofNat n))
    else none := by
  by_cases large : IsLarge limits source p
  · obtain ⟨c, cut⟩ : ∃ c, chunk? lang limits path source p n = some c :=
      Option.ne_none_iff_exists'.mp fun none_here => chunk?_eq_none_iff.mp none_here large
    rw [if_pos large, cut, Option.map_some, (isCut_of_chunk? cut).id]
  · rw [if_neg large, chunk?_eq_none_iff.mpr large, Option.map_none]

/-- The identities of a key's chunks are told by the sizes of its units. -/
theorem ids_of_key : ((chunksOf lang limits path source root).filter (·.key = key)).map (·.id) =
    (sizesOf lang limits source root key).zipIdx.filterMap fun (large, rank) =>
      if large then some (Chunk.idOf path key.1 key.2 (UInt64.ofNat rank)) else none := by
  -- A unit that is ranked under the key has it, so its identity is written from the key.
  have keyed : ∀ p ∈ (units lang source root).filter (·.key = key), p.key = key :=
    fun p member => of_decide_eq_true (List.mem_filter.mp member).2
  rw [filter_chunksOf, filter_cuts, sizesOf, List.filterMap_map, List.map_filterMap,
    List.zipIdx_map, List.filterMap_map]
  refine List.filterMap_congr fun ⟨p, rank⟩ member => ?_
  have same := keyed p (List.fst_mem_of_mem_zipIdx member)
  simpa [← same, Placed.key] using map_id_chunk? p

end Ranks

/-- The units of a scope and a label are ranked from zero in source order, those that are too small
included. Whatever else two files of one path hold, a unit of the same rank has the same identity in
both. The chunks of the scope and the label have the same identities in both if units of the same
ranks are large enough. -/
theorem ids_from_ranks (lang : Language) (path : String) (limits limits' : ChunkLimits)
    (source source' : String) (root root' : SyntaxTree) (key : String × String) :
    (cuts lang limits path source root).map (·.1) = units lang source root ∧
    (cuts lang limits path source root).filterMap (·.2) = chunksOf lang limits path source root ∧
    (∀ n c c', cutAt lang limits path source root key n = some c →
      cutAt lang limits' path source' root' key n = some c' →
      c.id = Chunk.idOf path key.1 key.2 (UInt64.ofNat n) ∧
        c'.id = Chunk.idOf path key.1 key.2 (UInt64.ofNat n)) ∧
    (sizesOf lang limits source root key = sizesOf lang limits' source' root' key →
      ((chunksOf lang limits path source root).filter (·.key = key)).map (·.id) =
        ((chunksOf lang limits' path source' root').filter (·.key = key)).map (·.id)) := by
  refine ⟨map_fst_cuts, filterMap_snd_cuts, ?_, ?_⟩
  · intro n c c' cut cut'
    exact ⟨id_of_cutAt cut, id_of_cutAt cut'⟩
  · intro same_sizes
    rw [ids_of_key, ids_of_key, same_sizes]

section Sample

/-- A small function and a larger namesake of it. -/
def rankSource : String := "const f = () => 1\nconst f = () => 12345\n"

def rankTree : SyntaxTree :=
  .node "program" true none 0 40 [
    .node "lexical_declaration" true none 0 17 [
      .node "variable_declarator" true none 6 17 [
        .node "identifier" true (some .name) 6 7 [],
        .node "arrow_function" true (some .value) 10 17 []]],
    .node "lexical_declaration" true none 18 39 [
      .node "variable_declarator" true none 24 39 [
        .node "identifier" true (some .name) 24 25 [],
        .node "arrow_function" true (some .value) 28 39 []]]]

/-- The same below another function, on other lines and in one declaration. -/
def editedSource : String := "const g = () => 54321\n\nconst f = () => 2, f = () => 67890123\n"

def editedTree : SyntaxTree :=
  .node "program" true none 0 61 [
    .node "lexical_declaration" true none 0 21 [
      .node "variable_declarator" true none 6 21 [
        .node "identifier" true (some .name) 6 7 [],
        .node "arrow_function" true (some .value) 10 21 []]],
    .node "lexical_declaration" true none 23 60 [
      .node "variable_declarator" true none 29 40 [
        .node "identifier" true (some .name) 29 30 [],
        .node "arrow_function" true (some .value) 33 40 []],
      .node "variable_declarator" true none 42 60 [
        .node "identifier" true (some .name) 42 43 [],
        .node "arrow_function" true (some .value) 46 60 []]]]

theorem ids_from_ranks_editedSample :
    (∃ c c', cutAt .javascript { minSize := 13 } "x.js" rankSource rankTree ("", "f") 1 = some c ∧
      cutAt .javascript { minSize := 13 } "x.js" editedSource editedTree ("", "f") 1 = some c' ∧
      c.id = Chunk.idOf "x.js" "" "f" 1 ∧ c'.id = Chunk.idOf "x.js" "" "f" 1) ∧
    sizesOf .javascript { minSize := 13 } rankSource rankTree ("", "f") = [false, true] ∧
    ((chunksOf .javascript { minSize := 13 } "x.js" rankSource rankTree).filter
        (·.key = ("", "f"))).map (·.id) =
      ((chunksOf .javascript { minSize := 13 } "x.js" editedSource editedTree).filter
        (·.key = ("", "f"))).map (·.id) := by
  obtain ⟨-, -, ranked, same_sizes⟩ := ids_from_ranks .javascript "x.js" { minSize := 13 }
    { minSize := 13 } rankSource editedSource rankTree editedTree ("", "f")
  have before : (cutAt .javascript { minSize := 13 } "x.js" rankSource rankTree
      ("", "f") 1).isSome := by decide +kernel
  have after : (cutAt .javascript { minSize := 13 } "x.js" editedSource editedTree
      ("", "f") 1).isSome := by decide +kernel
  obtain ⟨c, cut⟩ := Option.isSome_iff_exists.mp before
  obtain ⟨c', cut'⟩ := Option.isSome_iff_exists.mp after
  exact ⟨⟨c, c', cut, cut', ranked 1 c c' cut cut'⟩, by decide +kernel,
    same_sizes (by decide +kernel)⟩

end Sample

end CodeUnit

end Lookalike
