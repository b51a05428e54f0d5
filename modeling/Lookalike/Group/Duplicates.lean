import Lookalike.Group.DisjointSets
import Lookalike.Index.Catalogue
import Lookalike.Index.VectorTable
import Lookalike.Number.Decimal
import Lookalike.Sorting

/-!
# Groups of near duplicates

Chunks are the nodes of a graph whose edges are the pairs that are similar enough, and the groups
are its connected components. A group is ranked by the mean similarity of its pairs, less where its
members differ in size.
-/

namespace Lookalike

structure GroupOptions where
  /-- The least similarity of a linked pair. -/
  threshold : Float32 := 0.85
  /-- Smaller groups are dropped; a group has two members at least. -/
  minSize : Nat := 2
  /-- The only role that is looked at. -/
  kind : Option Kind := none

structure Group where
  /-- Groups are numbered from one in the order of their first members. -/
  id : Nat
  kind : Kind
  members : List Chunk
  averageSimilarity : Float32
  sizeRatio : Float32
  score : Float32
  deriving DecidableEq

namespace Group

abbrev Node := Chunk × Embedding

/-- The chunks of the wanted role that have a vector. -/
def nodes (catalogue : Catalogue) (table : VectorTable) (kind : Option Kind) : List Node :=
  (catalogue.chunks.filter fun c => kind.all (c.kind = ·)).filterMap fun c =>
    (table.get? c.id).map fun v => (c, v)

/-- Joins a node with those of its hits that are nodes. -/
def link (positions : Std.TreeMap String Nat) (sets : DisjointSets) (i : Nat)
    (hits : List ScoredId) : DisjointSets :=
  hits.foldl (fun sets hit =>
    match positions[hit.id]? with
    | some j => if j ≠ i then sets.union i j else sets
    | none => sets) sets

/-- The number of a node by its identity; of nodes with one identity, that of the last. -/
def positions (nodes : List Node) : Std.TreeMap String Nat :=
  nodes.zipIdx.foldl (fun m ((c, _), i) => m.insert c.id i) ∅

/-- The sets of linked nodes. The number of hits is not limited. -/
def linked (table : VectorTable) (threshold : Float32) (nodes : List Node) : DisjointSets :=
  nodes.zipIdx.foldl
    (fun sets ((_, v), i) => link (positions nodes) sets i (table.within v threshold))
    (.singletons nodes.length)

/-- Adds a number to the class of its root; a new root opens a class at the end. -/
def addToClass (root i : Nat) : List (Nat × List Nat) → List (Nat × List Nat)
  | [] => [(root, [i])]
  | (r, members) :: rest =>
    if r = root then (r, members ++ [i]) :: rest else (r, members) :: addToClass root i rest

/-- The classes of the numbers below `n`, in the order of their first members. -/
def components (sets : DisjointSets) (n : Nat) : List (List Nat) :=
  let (classes, _) := (List.range n).foldl (fun (classes, (s : DisjointSets)) i =>
    let (root, s) := s.find i
    (addToClass root i classes, s)) ([], sets)
  classes.map (·.2)

/-- The similarities of all pairs, each taken once, as their sum and a 32-bit count. From 92683
vectors on the count wraps; a build that checks its arithmetic stops there. -/
def pairTotals (vectors : List Embedding) : Float × UInt32 :=
  let rec go (total : Float) (pairs : UInt32) : List Embedding → Float × UInt32
    | [] => (total, pairs)
    | a :: rest =>
      let (total, pairs) := rest.foldl (fun (total, (pairs : UInt32)) b =>
        (total + Number.widen (cosineSimilarity a b), pairs + 1)) (total, pairs)
      go total pairs rest
  go 0 0 vectors

def meanSimilarity (vectors : List Embedding) : Float32 :=
  let (total, pairs) := pairTotals vectors
  if pairs = 0 then 0 else Number.narrow (total / pairs.toFloat)

/-- A count as a number in single precision. -/
def ofCount (n : Nat) : Float32 := Number.Decimal.toSingle ⟨false, n, 0⟩

/-- The shortest text over the longest. -/
def ratioOfSizes (lengths : List Nat) : Float32 :=
  let longest := lengths.max?.getD 0
  if longest = 0 then 1 else ofCount (lengths.min?.getD 0) / ofCount longest

/-- The most frequent role, of equally frequent ones the first. -/
def dominantKind (kinds : List Kind) : Kind :=
  (Kind.all.foldl (fun (best : Kind × Nat) k =>
    let n := kinds.count k
    if best.2 < n then (k, n) else best) (.other, 0)).1

/-- How much the ratio of sizes weighs in the score. -/
def sizeWeight : Float32 := 0.25

def ofNodes (id : Nat) (nodes : List Node) : Group :=
  let average := meanSimilarity (nodes.map (·.2))
  let ratio := ratioOfSizes (nodes.map fun (c, _) => c.textLength)
  { id
    kind := dominantKind (nodes.map fun (c, _) => c.kind)
    members := nodes.map (·.1)
    averageSimilarity := average
    sizeRatio := ratio
    score := average * (1 - sizeWeight + sizeWeight * ratio) }

section Ranking

variable (nanBits : Nat → UInt32)

/-- The place of the score of a group in the total order. The arithmetic leaves open which bits a
score has that is no number, so these are given, by the number of the group. -/
def rank (g : Group) : Int := totalRank (if g.score.isNaN then nanBits g.id else g.score.toBits)

/-- Higher scores come first, and equal scores in the order of the numbers. -/
def precedes (a b : Group) : Bool :=
  b.rank nanBits < a.rank nanBits || (a.rank nanBits = b.rank nanBits && a.id ≤ b.id)

/-- The groups of near duplicates, best first. -/
def find (catalogue : Catalogue) (table : VectorTable) (options : GroupOptions) : List Group :=
  let nodes := nodes catalogue table options.kind
  let sets := linked table options.threshold nodes
  let large := (components sets nodes.length).filter fun c => max options.minSize 2 ≤ c.length
  let groups := large.zipIdx.map fun (members, n) =>
    ofNodes (n + 1) (members.filterMap (nodes[·]?))
  sorted (precedes nanBits) groups

end Ranking

end Group

end Lookalike
