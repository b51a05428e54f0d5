import Lookalike.Proofs.Group.Refinement
import Lookalike.Proofs.Index.Listing
import Mathlib.Data.List.FinRange
import Mathlib.Data.Nat.Choose.Basic

/-!
# What a mean similarity is divided by

The similarities of a group are added over all pairs of its members, each pair once, and a 32-bit
word counts the pairs. The pairs of `n` members are `n` over two, and the word keeps this number
modulo two to the power of 32: it is the number of pairs for groups of at most 92682 members only.
Nothing bounds a group. `crowd` is a store with as many chunks as wanted that are listed as one
group, in which only the first two chunks are similar.
-/

namespace Lookalike.Group

section Pairs

variable {α β : Type}

/-- The pairs of a list, each once: an item with the items after it. -/
def pairs : List α → List (α × α)
  | [] => []
  | a :: rest => rest.map (a, ·) ++ pairs rest

theorem pairs_map (f : α → β) (l : List α) : pairs (l.map f) = (pairs l).map (Prod.map f f) := by
  induction l with
  | nil => rfl
  | cons a rest ih => simp [pairs, ih]

theorem length_pairs (l : List α) : (pairs l).length = l.length.choose 2 := by
  induction l with
  | nil => rfl
  | cons a rest ih =>
    rw [pairs, List.length_append, List.length_map, ih, List.length_cons, Nat.choose_succ_succ,
      Nat.choose_one_right]

theorem mem_of_mem_pairs {l : List α} {p : α × α} (h : p ∈ pairs l) : p.1 ∈ l ∧ p.2 ∈ l := by
  induction l with
  | nil => cases h
  | cons a rest ih =>
    rcases List.mem_append.mp h with first | later
    · obtain ⟨b, member, rfl⟩ := List.mem_map.mp first
      exact ⟨List.mem_cons_self, List.mem_cons_of_mem _ member⟩
    · exact (ih later).imp (List.mem_cons_of_mem _) (List.mem_cons_of_mem _)

/-- Of an ascending list, the pairs are those of a smaller and a larger item. -/
theorem mem_pairs_iff [Preorder α] {l : List α} (ascending : l.Pairwise (· < ·)) {a b : α} :
    (a, b) ∈ pairs l ↔ a ∈ l ∧ b ∈ l ∧ a < b := by
  induction ascending with
  | nil => simp [pairs]
  | @cons first rest below _ ih =>
    simp only [pairs, List.mem_append, List.mem_map, Prod.mk.injEq, List.mem_cons, ih]
    constructor
    · rintro (⟨b, member, rfl, rfl⟩ | ⟨in_a, in_b, less⟩)
      · exact ⟨.inl rfl, .inr member, below b member⟩
      · exact ⟨.inr in_a, .inr in_b, less⟩
    · rintro ⟨rfl | in_a, rfl | in_b, less⟩
      · exact absurd less (lt_irrefl _)
      · exact .inl ⟨b, in_b, rfl, rfl⟩
      · exact absurd (less.trans (below a in_a)) (lt_irrefl _)
      · exact .inr ⟨in_a, in_b, less⟩

theorem nodup_pairs {l : List α} (distinct : l.Nodup) : (pairs l).Nodup := by
  induction l with
  | nil => exact List.nodup_nil
  | cons a rest ih =>
    obtain ⟨absent, distinct⟩ := List.nodup_cons.mp distinct
    refine List.nodup_append'.mpr ⟨distinct.map (Prod.mk_right_injective a), ih distinct, ?_⟩
    intro p first later
    obtain ⟨b, _, rfl⟩ := List.mem_map.mp first
    exact absent (mem_of_mem_pairs later).1

end Pairs

section Counting

/-- Adds the similarity of a pair. -/
def addSimilarity (total : Float) (p : Embedding × Embedding) : Float :=
  total + Number.widen (cosineSimilarity p.1 p.2)

/-- Adds the similarity of a pair and counts it. -/
def addPair (s : Float × UInt32) (p : Embedding × Embedding) : Float × UInt32 :=
  (addSimilarity s.1 p, s.2 + 1)

theorem foldl_addPair (ps : List (Embedding × Embedding)) (total : Float) (count : UInt32) :
    ps.foldl addPair (total, count) =
      (ps.foldl addSimilarity total, count + UInt32.ofNat ps.length) := by
  induction ps generalizing total count with
  | nil => simp
  | cons p ps ih =>
    have one_more : UInt32.ofNat (p :: ps).length = 1 + UInt32.ofNat ps.length := by
      rw [List.length_cons, Nat.add_comm, UInt32.ofNat_add]
      rfl
    rw [List.foldl_cons, List.foldl_cons, addPair, ih, one_more, ← UInt32.add_assoc]

theorem pairTotals_go (vectors : List Embedding) (total : Float) (count : UInt32) :
    pairTotals.go total count vectors = (pairs vectors).foldl addPair (total, count) := by
  induction vectors generalizing total count with
  | nil => rfl
  | cons a rest ih =>
    calc pairTotals.go total count (a :: rest)
      _ = let s := (rest.map (a, ·)).foldl addPair (total, count)
          pairTotals.go s.1 s.2 rest := by rw [List.foldl_map]; rfl
      _ = (pairs (a :: rest)).foldl addPair (total, count) := by
          rw [ih, pairs, List.foldl_append]

/-- The sum is over the pairs, and the word counts them from zero. -/
theorem pairTotals_eq (vectors : List Embedding) : pairTotals vectors =
    ((pairs vectors).foldl addSimilarity 0, UInt32.ofNat (vectors.length.choose 2)) := by
  rw [pairTotals, pairTotals_go, foldl_addPair, length_pairs, UInt32.zero_add]

theorem choose_two_lt_iff (n : Nat) : n.choose 2 < 2 ^ 32 ↔ n ≤ 92682 := by
  constructor
  · intro small
    by_contra large
    have least : Nat.choose 92683 2 ≤ n.choose 2 := Nat.choose_le_choose 2 (by omega)
    have value : Nat.choose 92683 2 = 4295022903 := by rw [Nat.choose_two_right]
    omega
  · intro small
    have most : n.choose 2 ≤ Nat.choose 92682 2 := Nat.choose_le_choose 2 small
    have value : Nat.choose 92682 2 = 4294930221 := by rw [Nat.choose_two_right]
    omega

end Counting

section Crowds

/-- The first two vectors are alike, and the others have no direction. -/
def crowdVector (i : Nat) : Embedding := if i < 2 then #[1] else #[0]

def crowdChunk (i : Nat) : Chunk := chunkSample i.repr .function

/-- As many chunks as wanted. -/
def crowd : Nat → Catalogue
  | 0 => .empty
  | n + 1 => (crowd n).set (crowdChunk n)

def crowdVectors : Nat → SortedMap Embedding
  | 0 => ∅
  | n + 1 => (crowdVectors n).insert (crowdChunk n).id (crowdVector n)

def crowdTable (n : Nat) : VectorTable := { dimension := some 1, vectors := crowdVectors n }

variable {n i j : Nat}

theorem crowdChunk_id_inj : (crowdChunk i).id = (crowdChunk j).id ↔ i = j := Nat.repr_inj

theorem chunks_crowd (n : Nat) :
    (crowd n).WellFormed ∧ (crowd n).chunks = (List.range n).map crowdChunk := by
  induction n with
  | zero => exact ⟨Catalogue.wellFormed_empty, rfl⟩
  | succ n ih =>
    obtain ⟨wellFormed, chunks⟩ := ih
    refine ⟨Catalogue.wellFormed_set wellFormed _, ?_⟩
    have new : (crowdChunk n).id ∉ ((crowd n).chunks.map (·.id)) := by
      rw [chunks, List.map_map]
      intro member
      obtain ⟨i, inside, same⟩ := List.mem_map.mp member
      exact (List.mem_range.mp inside).ne (crowdChunk_id_inj.mp same)
    rw [crowd, Catalogue.chunks_set wellFormed, if_neg new, chunks, List.range_succ,
      List.map_append]
    rfl

theorem get?_crowdTable (inside : i < n) :
    (crowdTable n).get? (crowdChunk i).id = some (crowdVector i) := by
  induction n with
  | zero => omega
  | succ n ih =>
    have step : (crowdTable (n + 1)).get? (crowdChunk i).id =
        if (crowdChunk n).id = (crowdChunk i).id then some (crowdVector n)
        else (crowdTable n).get? (crowdChunk i).id := SortedMap.get?_insert _ _ _ _
    rw [step]
    by_cases last : n = i
    · rw [if_pos (crowdChunk_id_inj.mpr last), last]
    · rw [if_neg (mt crowdChunk_id_inj.mp last)]
      exact ih (by omega)

/-- The nodes of a crowd. -/
def crowdNodes (n : Nat) : List Node := (List.range n).map fun i => (crowdChunk i, crowdVector i)

@[simp]
theorem length_crowdNodes (n : Nat) : (crowdNodes n).length = n := by simp [crowdNodes]

theorem nodes_crowd (n : Nat) : nodes (crowd n) (crowdTable n) none = crowdNodes n := by
  simp only [nodes, (chunks_crowd n).2, Option.all_none, List.filter_true, List.filterMap_map]
  rw [crowdNodes, ← List.filterMap_eq_map]
  refine List.filterMap_congr fun i member => ?_
  have found := get?_crowdTable (List.mem_range.mp member)
  simp only [Function.comp_apply, found]
  rfl

theorem similarity_crowdVector (i j : Nat) :
    0 ≤ cosineSimilarity (crowdVector i) (crowdVector j) := by
  unfold crowdVector
  split <;> split <;> decide +kernel

/-- A crowd is one component where every similarity from zero up is a link. -/
theorem isComponent_crowd (inhabited : 0 < n) :
    IsComponent (crowdNodes n) 0 (List.range n) where
  inhabited := by
    rw [ne_eq, List.range_eq_nil]
    omega
  inside := by simp
  ascending := List.pairwise_lt_range
  closed := by
    intro i member j
    have inside := List.mem_range.mp member
    rw [List.mem_range]
    constructor
    · intro j_inside
      by_cases same : i = j
      · exact same ▸ .refl i
      · have at_place {k : Nat} (inside : k < n) :
            (crowdNodes n)[k]? = some (crowdChunk k, crowdVector k) := by
          simp [crowdNodes, inside]
        exact .rel _ _
          ⟨same, _, _, at_place inside, at_place j_inside, similarity_crowdVector i j⟩
    · intro connected
      simpa using connected.lt (by simpa using inside)

theorem vectors_crowdNodes (n : Nat) :
    (crowdNodes (n + 2)).map (·.2) = #[1] :: #[1] :: List.replicate n #[0] := by
  rw [crowdNodes, List.map_map, List.range_succ_eq_map, List.range_succ_eq_map]
  simp [crowdVector, List.map_const', Function.comp_def]

/-- Pairs with a vector without direction add nothing. -/
theorem foldl_addSimilarity_unlike {ps : List (Embedding × Embedding)}
    (unlike : ∀ p ∈ ps, (p.1 = #[1] ∨ p.1 = #[0]) ∧ p.2 = #[0]) :
    ps.foldl addSimilarity 1 = 1 := by
  induction ps with
  | nil => rfl
  | cons p ps ih =>
    obtain ⟨⟨first, second⟩, rest⟩ := List.forall_mem_cons.mp unlike
    have kept : addSimilarity 1 p = 1 := by
      obtain ⟨a, b⟩ := p
      subst second
      rcases first with rfl | rfl <;> decide +kernel
    rw [List.foldl_cons, kept, ih rest]

/-- The similarities of a crowd add up to one, which is that of the first pair. -/
theorem sum_crowd (n : Nat) :
    (pairs ((crowdNodes (n + 2)).map (·.2))).foldl addSimilarity 0 = 1 := by
  have start : addSimilarity 0 (#[1], #[1]) = 1 := by decide +kernel
  rw [vectors_crowdNodes, pairs, List.map_cons, List.cons_append, List.foldl_cons, start]
  refine foldl_addSimilarity_unlike fun p member => ?_
  rw [List.mem_append, pairs, List.mem_append] at member
  rcases member with first | second | later
  · obtain ⟨b, member, rfl⟩ := List.mem_map.mp first
    exact ⟨.inl rfl, List.eq_of_mem_replicate member⟩
  · obtain ⟨b, member, rfl⟩ := List.mem_map.mp second
    exact ⟨.inl rfl, List.eq_of_mem_replicate member⟩
  · obtain ⟨in_first, in_second⟩ := mem_of_mem_pairs later
    exact ⟨.inr (List.eq_of_mem_replicate in_first), List.eq_of_mem_replicate in_second⟩

/-- There are groups of every size with the sum of the similarities one. -/
theorem exists_group (n : Nat) :
    ∃ (catalogue : Catalogue) (table : VectorTable) (options : GroupOptions) (id : Nat)
      (members : List Node),
      (∀ nanBits, ofNodes id members ∈ find nanBits catalogue table options) ∧
        members.length = n + 2 ∧
        pairTotals (members.map (·.2)) = (1, UInt32.ofNat ((n + 2).choose 2)) := by
  have listed :
      List.range (n + 2) ∈ listed (crowd (n + 2)) (crowdTable (n + 2)) { threshold := 0 } := by
    rw [mem_listed_iff, nodes_crowd]
    exact ⟨isComponent_crowd (by omega), by simp⟩
  obtain ⟨k, at_k⟩ := List.mem_iff_getElem?.mp listed
  have whole := nodesAt_range (crowdNodes (n + 2))
  rw [length_crowdNodes] at whole
  refine ⟨crowd (n + 2), crowdTable (n + 2), { threshold := 0 }, k + 1, crowdNodes (n + 2),
    fun nanBits => (mem_find_iff nanBits _ _ _).mpr ⟨k, _, at_k, ?_⟩, length_crowdNodes _, ?_⟩
  · rw [nodes_crowd, whole]
  · rw [pairTotals_eq, sum_crowd, List.length_map, length_crowdNodes]

end Crowds

end Lookalike.Group
