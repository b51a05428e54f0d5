import Lookalike.Group.Duplicates
import Lookalike.Proofs.Group.DisjointSets
import Lookalike.Proofs.Number.Single
import Lookalike.SortedMap.Lemmas
import Mathlib.Data.List.Sort

/-!
# Connected components

Nodes are adjacent if they differ and their vectors are similar enough. The search for duplicates
joins a node with the hits of a query, which are identities: of several nodes with one identity only
the last is joined, but such nodes have one vector, so they are all reached. The sets that result
are the components of the graph, and the lists made of them hold the places of one component each,
in order.
-/

namespace Lookalike

open Relation (EqvGen)

namespace VectorTable

/-- The hits are the identities whose vectors are similar enough, each with its similarity. -/
theorem mem_within {t : VectorTable} {v : Embedding} {least : Float32} {hit : ScoredId} :
    hit ∈ t.within v least ↔
      ∃ u, t.get? hit.id = some u ∧ hit.score = cosineSimilarity v u ∧ least ≤ hit.score := by
  rw [within, (perm_sorted _ _).mem_iff, List.mem_filter, List.mem_map]
  constructor
  · rintro ⟨⟨⟨id, u⟩, present, rfl⟩, enough⟩
    exact ⟨u, (SortedMap.mem_entries_iff _ _ _).mp present, rfl, of_decide_eq_true enough⟩
  · rintro ⟨u, found, score, enough⟩
    refine ⟨⟨(hit.id, u), (SortedMap.mem_entries_iff _ _ _).mpr found, ?_⟩, decide_eq_true enough⟩
    cases hit
    cases score
    rfl

end VectorTable

namespace Group

section Graph

/-- Two nodes that are linked by their similarity. -/
def Adjacent (nodes : List Node) (threshold : Float32) (i j : Nat) : Prop :=
  i ≠ j ∧ ∃ a b : Node, nodes[i]? = some a ∧ nodes[j]? = some b ∧
    threshold ≤ cosineSimilarity a.2 b.2

/-- Two nodes with a chain of links between them. -/
def Connected (nodes : List Node) (threshold : Float32) : Nat → Nat → Prop :=
  EqvGen (Adjacent nodes threshold)

/-- The places of one connected component, in order. -/
structure IsComponent (nodes : List Node) (threshold : Float32) (places : List Nat) : Prop where
  inhabited : places ≠ []
  inside : ∀ i ∈ places, i < nodes.length
  ascending : places.Pairwise (· < ·)
  closed : ∀ i ∈ places, ∀ j, j ∈ places ↔ Connected nodes threshold i j

variable {nodes : List Node} {threshold : Float32} {i j : Nat}

theorem Adjacent.symm (h : Adjacent nodes threshold i j) : Adjacent nodes threshold j i := by
  obtain ⟨different, a, b, at_i, at_j, similar⟩ := h
  refine ⟨Ne.symm different, b, a, at_j, at_i, ?_⟩
  rwa [cosineSimilarity_comm]

theorem Adjacent.lt (h : Adjacent nodes threshold i j) : i < nodes.length := by
  obtain ⟨_, a, _, at_i, _⟩ := h
  exact (List.getElem?_eq_some_iff.mp at_i).1

/-- A node that is connected with another one has a neighbour. -/
theorem Connected.neighbour (h : Connected nodes threshold i j) :
    i = j ∨ (∃ k, Adjacent nodes threshold i k) ∧ ∃ k, Adjacent nodes threshold j k := by
  induction h with
  | rel i j link => exact .inr ⟨⟨j, link⟩, ⟨i, link.symm⟩⟩
  | refl => exact .inl rfl
  | symm i j _ ih =>
    rcases ih with same | ⟨left, right⟩
    · exact .inl same.symm
    · exact .inr ⟨right, left⟩
  | trans i j k _ _ ih ih' =>
    rcases ih with rfl | ⟨left, right⟩
    · exact ih'
    · rcases ih' with rfl | ⟨_, last⟩
      · exact .inr ⟨left, right⟩
      · exact .inr ⟨left, last⟩

theorem Connected.lt (h : Connected nodes threshold i j) (inside : i < nodes.length) :
    j < nodes.length := by
  rcases h.neighbour with rfl | ⟨_, _, link⟩
  · exact inside
  · exact link.lt

/-- Every node is in a component. -/
theorem exists_component (threshold : Float32) (inside : i < nodes.length) :
    ∃ places, IsComponent nodes threshold places ∧ i ∈ places := by
  classical
  have mem (j : Nat) : j ∈ (List.range nodes.length).filter (Connected nodes threshold i ·) ↔
      Connected nodes threshold i j := by
    rw [List.mem_filter, List.mem_range, decide_eq_true_iff]
    exact ⟨And.right, fun connected => ⟨connected.lt inside, connected⟩⟩
  have own := (mem i).mpr (.refl i)
  refine ⟨_, ⟨List.ne_nil_of_mem own, fun j member => ?_, List.pairwise_lt_range.filter _,
    fun j member k => ?_⟩, own⟩
  · exact List.mem_range.mp (List.mem_filter.mp member).1
  · rw [mem] at member ⊢
    exact ⟨member.symm.trans _ _ _, member.trans _ _ _⟩

end Graph

section Positions

theorem positions_fold (l : List (Node × Nat)) (m : Std.TreeMap String Nat) (id : String) :
    (∀ j, (l.foldl (fun m ((c, _), i) => m.insert c.id i) m)[id]? = some j →
      m[id]? = some j ∨ ∃ n, (n, j) ∈ l ∧ n.1.id = id) ∧
    ((∃ n ∈ l, n.1.1.id = id) ∨ (m[id]?).isSome →
      ((l.foldl (fun m ((c, _), i) => m.insert c.id i) m)[id]?).isSome) := by
  induction l generalizing m with
  | nil => simp
  | cons first rest ih =>
    obtain ⟨⟨c, v⟩, i⟩ := first
    obtain ⟨from_rest, in_rest⟩ := ih (m.insert c.id i)
    have look : (m.insert c.id i)[id]? = if c.id = id then some i else m[id]? := by
      simp [Std.TreeMap.getElem?_insert, Std.LawfulEqCmp.compare_eq_iff_eq]
    rw [look] at from_rest in_rest
    constructor
    · intro j found
      rcases from_rest j found with before | ⟨n, member, own⟩
      · split at before
        next same =>
          cases before
          exact .inr ⟨(c, v), List.mem_cons_self, same⟩
        next => exact .inl before
      · exact .inr ⟨n, List.mem_cons_of_mem _ member, own⟩
    · intro present
      apply in_rest
      rcases present with ⟨n, member, own⟩ | before
      · rcases List.mem_cons.mp member with rfl | member
        · exact .inr (by rw [if_pos own]; rfl)
        · exact .inl ⟨n, member, own⟩
      · right
        split
        · rfl
        · exact before

variable {nodes : List Node} {id : String} {j : Nat}

/-- A number that is found by an identity is that of a node with this identity. -/
theorem node_at_position (h : (positions nodes)[id]? = some j) :
    ∃ b : Node, nodes[j]? = some b ∧ b.1.id = id := by
  rcases (positions_fold nodes.zipIdx ∅ id).1 j h with impossible | ⟨b, member, own⟩
  · simp at impossible
  · exact ⟨b, List.mem_zipIdx_iff_getElem?.mp member, own⟩

theorem exists_position {b : Node} (h : nodes[j]? = some b) :
    ∃ k, (positions nodes)[b.1.id]? = some k := by
  have member : (b, j) ∈ nodes.zipIdx := List.mem_zipIdx_iff_getElem?.mpr h
  exact Option.isSome_iff_exists.mp
    ((positions_fold nodes.zipIdx ∅ b.1.id).2 (.inl ⟨_, member, rfl⟩))

end Positions

section Linking

/-- The pairs that are joined: a node, and the last node with the identity of one of its hits. -/
def Links (table : VectorTable) (threshold : Float32) (nodes : List Node) (i j : Nat) : Prop :=
  ∃ a : Node, nodes[i]? = some a ∧
    ∃ hit ∈ table.within a.2 threshold, (positions nodes)[hit.id]? = some j ∧ j ≠ i

open DisjointSets (Represents)

variable {table : VectorTable} {threshold : Float32} {nodes : List Node} {sets : DisjointSets}
  {edge : Nat → Nat → Prop} {i j n : Nat}

theorem represents_link {positions : Std.TreeMap String Nat} (h : Represents sets n edge)
    (inside : i < n) (within : ∀ (id : String) j, positions[id]? = some j → j < n)
    (hits : List ScoredId) :
    Represents (link positions sets i hits) n fun x y =>
      edge x y ∨ x = i ∧ ∃ hit ∈ hits, positions[hit.id]? = some y ∧ y ≠ i := by
  induction hits generalizing sets edge with
  | nil => simpa [link] using h
  | cons hit hits ih =>
    simp only [link, List.foldl_cons]
    cases found : positions[hit.id]? with
    | none =>
      apply (ih h).of_edges
      simp [found]
    | some j =>
      by_cases different : j ≠ i
      · simp only [if_pos different]
        apply (ih (h.union inside (within hit.id j found))).of_edges
        intro x y
        simp only [List.mem_cons, exists_eq_or_imp, found, Option.some.injEq]
        grind
      · simp only [if_neg different]
        apply (ih h).of_edges
        intro x y
        simp only [List.mem_cons, exists_eq_or_imp, found, Option.some.injEq]
        grind

/-- The sets that result are those of the joined pairs. -/
theorem represents_linked (table : VectorTable) (threshold : Float32) (nodes : List Node) :
    Represents (linked table threshold nodes) nodes.length (Links table threshold nodes) := by
  have within (id : String) (j : Nat) (found : (positions nodes)[id]? = some j) :
      j < nodes.length := by
    obtain ⟨_, at_j, _⟩ := node_at_position found
    exact (List.getElem?_eq_some_iff.mp at_j).1
  -- After some of the nodes, the edges from these are in.
  have run (l : List (Node × Nat)) (part : ∀ a i, (a, i) ∈ l → nodes[i]? = some a)
      (sets : DisjointSets) (edge : Nat → Nat → Prop) (h : Represents sets nodes.length edge) :
      Represents (l.foldl (fun sets ((_, v), i) =>
          link (positions nodes) sets i (table.within v threshold)) sets) nodes.length fun x y =>
        edge x y ∨ ∃ a, (a, x) ∈ l ∧
          ∃ hit ∈ table.within a.2 threshold, (positions nodes)[hit.id]? = some y ∧ y ≠ x := by
    induction l generalizing sets edge with
    | nil => simpa using h
    | cons first rest ih =>
      obtain ⟨⟨c, v⟩, i⟩ := first
      have at_i := part (c, v) i List.mem_cons_self
      have linked := represents_link h (List.getElem?_eq_some_iff.mp at_i).1 within
        (table.within v threshold)
      apply (ih (fun a i member => part a i (List.mem_cons_of_mem _ member)) _ _ linked).of_edges
      intro x y
      simp only [List.mem_cons, Prod.mk.injEq]
      constructor
      · rintro ((old | ⟨rfl, hits⟩) | ⟨a, member, hits⟩)
        · exact .inl old
        · exact .inr ⟨(c, v), .inl ⟨rfl, rfl⟩, hits⟩
        · exact .inr ⟨a, .inr member, hits⟩
      · rintro (old | ⟨a, ⟨rfl, rfl⟩ | member, hits⟩)
        · exact .inl (.inl old)
        · exact .inl (.inr ⟨rfl, hits⟩)
        · exact .inr ⟨a, member, hits⟩
  apply (run nodes.zipIdx (fun a i member => List.mem_zipIdx_iff_getElem?.mp member) _ _
    (DisjointSets.represents_singletons nodes.length)).of_edges
  intro x y
  simp only [false_or, List.mem_zipIdx_iff_getElem?, Links]

/-- Nodes whose vectors are those of their identities in a table. -/
def Vectored (table : VectorTable) (nodes : List Node) : Prop :=
  ∀ a ∈ nodes, table.get? a.1.id = some a.2

theorem vectored_nodes (catalogue : Catalogue) (table : VectorTable) (kind : Option Kind) :
    Vectored table (Group.nodes catalogue table kind) := by
  intro a member
  obtain ⟨c, _, found⟩ := List.mem_filterMap.mp member
  obtain ⟨v, vector, rfl⟩ := Option.map_eq_some_iff.mp found
  exact vector

theorem Links.adjacent (vectored : Vectored table nodes) (h : Links table threshold nodes i j) :
    Adjacent nodes threshold i j := by
  obtain ⟨a, at_i, hit, similar, position, different⟩ := h
  obtain ⟨b, at_j, own⟩ := node_at_position position
  obtain ⟨u, found, score, enough⟩ := VectorTable.mem_within.mp similar
  have vector := vectored b (List.mem_of_getElem? at_j)
  rw [own, found] at vector
  cases vector
  exact ⟨Ne.symm different, a, b, at_i, at_j, score ▸ enough⟩

/-- A node is joined with the last of the nodes that have the identity of one similar to it. -/
theorem linked_with_last (vectored : Vectored table nodes) {a b : Node} {last : Nat}
    (at_i : nodes[i]? = some a) (b_node : b ∈ nodes)
    (similar : threshold ≤ cosineSimilarity a.2 b.2)
    (position : (positions nodes)[b.1.id]? = some last) :
    EqvGen (Links table threshold nodes) i last := by
  by_cases same : last = i
  · subst same
    exact .refl _
  · refine .rel _ _ ⟨a, at_i, ⟨b.1.id, cosineSimilarity a.2 b.2⟩, ?_, position, same⟩
    exact VectorTable.mem_within.mpr ⟨b.2, vectored b b_node, rfl, similar⟩

/-- The joined pairs connect what the similar pairs connect. -/
theorem eqvGen_links_iff (vectored : Vectored table nodes) (i j : Nat) :
    EqvGen (Links table threshold nodes) i j ↔ Connected nodes threshold i j := by
  constructor
  · exact fun h => h.mono fun _ _ => Links.adjacent vectored
  · intro h
    induction h with
    | refl i => exact .refl i
    | symm i j _ ih => exact ih.symm
    | trans i j k _ _ ih ih' => exact ih.trans _ _ _ ih'
    | rel i j link =>
      -- From `i` to the last node like `j`, from there to the last one like `i`, and so to `j`.
      obtain ⟨_, a, b, at_i, at_j, similar⟩ := link
      have back : threshold ≤ cosineSimilarity b.2 a.2 := by rwa [cosineSimilarity_comm]
      obtain ⟨k, position_b⟩ := exists_position at_j
      obtain ⟨l, position_a⟩ := exists_position at_i
      obtain ⟨b', at_k, own⟩ := node_at_position position_b
      have vector : b'.2 = b.2 := by
        have found := vectored b' (List.mem_of_getElem? at_k)
        rw [own, vectored b (List.mem_of_getElem? at_j)] at found
        exact (Option.some.inj found).symm
      have a_node := List.mem_of_getElem? at_i
      have there := linked_with_last vectored at_i (List.mem_of_getElem? at_j) similar position_b
      have between := linked_with_last vectored at_k a_node (vector ▸ back) position_a
      have here := linked_with_last vectored at_j a_node back position_a
      exact there.trans _ _ _ (between.trans _ _ _ here.symm)

end Linking

end Group

end Lookalike
