import Lookalike.Code.Tree
import Mathlib.Data.List.Basic

/-!
# Trees, their nodes and their ranges

A tree is gone through node by node, or row by row where each tree of a row is settled from the row
of its children. A node is told by its address, the places at which the way to it turns off. In a
well-formed tree the ranges are nested, and those of one row follow one another.
-/

namespace Lookalike

namespace SyntaxTree

/-- A row of trees is settled tree by tree, each from the row of its children. -/
theorem row_induction {motive : List SyntaxTree → Prop} (nil : motive [])
    (cons : ∀ t rest, motive t.children → motive rest → motive (t :: rest)) : ∀ ts, motive ts
  | [] => nil
  | .node _ _ _ _ _ children :: rest =>
    cons _ _ (row_induction nil cons children) (row_induction nil cons rest)

/-- The nodes on the way to an address in a row of trees, the one at the address last. -/
def way? (ts : List SyntaxTree) : List Nat → Option (List SyntaxTree)
  | [] => some []
  | i :: address =>
    match ts[i]? with
    | some t => (way? t.children address).map (t :: ·)
    | none => none

mutual

/-- The node and all nodes below it. -/
def nodes : SyntaxTree → List SyntaxTree
  | t@(node _ _ _ _ _ children) => t :: nodesOf children

def nodesOf : List SyntaxTree → List SyntaxTree
  | [] => []
  | t :: rest => nodes t ++ nodesOf rest

end

/-- The range of the node and those of its children: they start and end between two characters, the
children lie inside the node, and each begins where those before it have ended. -/
structure IsOrdered (source : String) (t : SyntaxTree) : Prop where
  forward : t.start ≤ t.stop
  starts : String.Pos.Raw.IsValid source ⟨t.start⟩
  stops : String.Pos.Raw.IsValid source ⟨t.stop⟩
  inside : ∀ c ∈ t.children, t.start ≤ c.start ∧ c.stop ≤ t.stop
  apart : t.children.Pairwise fun c d => c.stop ≤ d.start

/-- All ranges of a tree are nested, in order, and whole in characters. -/
def WellFormed (source : String) (root : SyntaxTree) : Prop :=
  ∀ t ∈ root.nodes, t.IsOrdered source

section Ranges

variable {source : String} {t n : SyntaxTree} {ts : List SyntaxTree}

instance (source : String) (t : SyntaxTree) : Decidable (t.IsOrdered source) :=
  decidable_of_iff (t.start ≤ t.stop ∧ String.Pos.Raw.IsValid source ⟨t.start⟩ ∧
      String.Pos.Raw.IsValid source ⟨t.stop⟩ ∧
      (∀ c ∈ t.children, t.start ≤ c.start ∧ c.stop ≤ t.stop) ∧
      t.children.Pairwise fun c d => c.stop ≤ d.start)
    ⟨fun ⟨forward, starts, stops, inside, apart⟩ => ⟨forward, starts, stops, inside, apart⟩,
      fun h => ⟨h.forward, h.starts, h.stops, h.inside, h.apart⟩⟩

instance (source : String) (root : SyntaxTree) : Decidable (root.WellFormed source) :=
  inferInstanceAs (Decidable (∀ t ∈ root.nodes, t.IsOrdered source))

theorem nodes_eq (t : SyntaxTree) : t.nodes = t :: nodesOf t.children := by
  cases t
  rfl

theorem mem_nodesOf_iff : n ∈ nodesOf ts ↔ ∃ t ∈ ts, n ∈ t.nodes := by
  induction ts with
  | nil => simp [nodesOf]
  | cons t ts ih => simp [nodesOf, ih]

theorem mem_nodes_iff : n ∈ t.nodes ↔ n = t ∨ ∃ c ∈ t.children, n ∈ c.nodes := by
  rw [nodes_eq, List.mem_cons, mem_nodesOf_iff]

theorem mem_nodesOf_of_mem (member : t ∈ ts) : t ∈ nodesOf ts :=
  mem_nodesOf_iff.mpr ⟨t, member, mem_nodes_iff.mpr (.inl rfl)⟩

/-- Every node is settled from the nodes below it. -/
theorem below_induction {motive : SyntaxTree → Prop}
    (step : ∀ t, (∀ n ∈ nodesOf t.children, motive n) → motive t) (t : SyntaxTree) : motive t := by
  -- Stated for the nodes of a row, so that a tree hands on what holds below it.
  have row : ∀ ts : List SyntaxTree, ∀ n ∈ nodesOf ts, motive n := by
    intro ts
    induction ts using row_induction with
    | nil => exact fun n member => absurd member List.not_mem_nil
    | cons t rest below others =>
      intro n member
      rw [nodesOf, nodes_eq, List.cons_append, List.mem_cons, List.mem_append] at member
      rcases member with rfl | deeper | later
      · exact step n below
      · exact below n deeper
      · exact others n later
  exact row [t] t (mem_nodesOf_of_mem List.mem_cons_self)

theorem WellFormed.self (h : t.WellFormed source) : t.IsOrdered source :=
  h t (mem_nodes_iff.mpr (.inl rfl))

theorem WellFormed.child {c : SyntaxTree} (h : t.WellFormed source) (member : c ∈ t.children) :
    c.WellFormed source :=
  fun n below => h n (mem_nodes_iff.mpr (.inr ⟨c, member, below⟩))

/-- What is below a node lies inside it. -/
theorem WellFormed.inside (h : t.WellFormed source) (below : n ∈ t.nodes) :
    t.start ≤ n.start ∧ n.stop ≤ t.stop := by
  induction t using below_induction with | step t settled =>
  rcases mem_nodes_iff.mp below with rfl | ⟨c, child, deeper⟩
  · exact ⟨Nat.le_refl _, Nat.le_refl _⟩
  · have outer := h.self.inside c child
    have inner := settled c (mem_nodesOf_of_mem child) (h.child child) deeper
    omega

end Ranges

end SyntaxTree

end Lookalike
