/-!
# Disjoint sets

A partition of the numbers below `n` as a forest: every number points to its parent, and the roots
to themselves. Searching a root halves the path to it, and the larger of two sets takes in the
smaller.
-/

namespace Lookalike

structure DisjointSets where
  parent : Array Nat
  size : Array Nat

namespace DisjointSets

/-- Every number below `n` in a set of its own. -/
def singletons (n : Nat) : DisjointSets :=
  { parent := Array.range n, size := Array.replicate n 1 }

def parentOf (parent : Array Nat) (x : Nat) : Nat := (parent[x]?).getD x

/-- Follows parents from `x`, pointing every other number on the way to its grandparent. The first
argument bounds the steps. -/
def findWithin : Nat → Array Nat → Nat → Nat × Array Nat
  | 0, parent, x => (x, parent)
  | fuel + 1, parent, x =>
    let p := parentOf parent x
    if p = x then (x, parent)
    else
      let grandparent := parentOf parent p
      findWithin fuel (parent.setIfInBounds x grandparent) grandparent

/-- The root of the set of `x`. A path to it is never longer than the forest has numbers. -/
def find (s : DisjointSets) (x : Nat) : Nat × DisjointSets :=
  let (root, parent) := findWithin s.parent.size s.parent x
  (root, { s with parent })

def weight (s : DisjointSets) (root : Nat) : Nat := (s.size[root]?).getD 0

/-- Joins the sets of two numbers. -/
def union (s : DisjointSets) (a b : Nat) : DisjointSets :=
  let (a, s) := s.find a
  let (b, s) := s.find b
  if a = b then s
  else
    let (a, b) := if s.weight a < s.weight b then (b, a) else (a, b)
    { parent := s.parent.setIfInBounds b a
      size := s.size.setIfInBounds a (s.weight a + s.weight b) }

end DisjointSets

end Lookalike
