import Lookalike.Index.Catalogue
import Lookalike.Index.VectorTable
import Lookalike.Number.Digits

/-!
# The nearest chunks

Queries over a loaded index: the chunks nearest to a vector, and those nearest to the chunk at a
place in a file.
-/

namespace Lookalike

/-- A chunk that was found, with its score. -/
structure Hit where
  chunk : Chunk
  score : Float32
  deriving DecidableEq

/-- How many lines of a chunk a hit shows. -/
def previewLines : Nat := 5

namespace Query

/-- How many hits to ask for so that `top` remain when one may be taken out; a machine word bounds
it. -/
def depth (top : Nat) (exclude : Option String) : Nat :=
  if exclude.isSome then min (top + 1) (Number.longBound - 1) else top

/-- The chunks nearest to a vector, best first, without an excluded one. -/
def nearest (catalogue : Catalogue) (table : VectorTable) (vector : Embedding) (top : Nat)
    (threshold : Float32) (exclude : Option String) : List Hit :=
  let hits := (table.query vector (depth top exclude) threshold).filter fun hit =>
    exclude ≠ some hit.id
  (hits.filterMap fun hit => (catalogue.get? hit.id).map (⟨·, hit.score⟩)).take top

/-- The chunks nearest to the one that covers a line, without that one. -/
def nearestToLine (catalogue : Catalogue) (table : VectorTable) (filePath : String)
    (line : UInt64) (top : Nat) (threshold : Float32) : Except IndexError (List Hit) :=
  let missing := IndexError.noChunkAtLocation filePath line.toNat
  match catalogue.atLine? filePath line with
  | .error e => .error e
  | .ok none => .error missing
  | .ok (some chunk) =>
    match table.get? chunk.id with
    | none => .error missing
    | some vector => .ok (nearest catalogue table vector top threshold (some chunk.id))

/-- The chunks nearest to the vector of a text, which has to have the length of the others. -/
def nearestToText (catalogue : Catalogue) (table : VectorTable)
    (embedded : Except EmbedError Embedding) (top : Nat) (threshold : Float32) :
    Except IndexError (List Hit) :=
  match embedded with
  | .error e => .error (.ofEmbedError e)
  | .ok vector =>
    match table.dimension with
    | some expected =>
      if expected ≠ vector.size then .error (.dimensionMismatch expected vector.size)
      else .ok (nearest catalogue table vector top threshold none)
    | none => .ok (nearest catalogue table vector top threshold none)

end Query

end Lookalike
