import Lookalike.Code.Chunk
import Lookalike.Index.Error
import Lookalike.Number.Digits
import Lookalike.SortedMap
import Lookalike.Sorting

/-!
# The table of vectors

The vectors of the chunks, all of one length, sorted by identity, and exact queries by cosine
similarity. Scores are ordered by their bits, in the total order of single precision values.
-/

namespace Lookalike

open Number (twoTo)

abbrev Embedding := Array Float32

/-- The sum in order, from negative zero. -/
def sumSingle (xs : List Float32) : Float32 := xs.foldl (· + ·) (-0.0)

def norm (a : Embedding) : Float32 := (sumSingle (a.toList.map fun x => x * x)).sqrt

/-- Cosine similarity; zero for vectors of different lengths and for a vector without length. -/
def cosineSimilarity (a b : Embedding) : Float32 :=
  if a.size ≠ b.size then 0
  else
    let dot := sumSingle (List.zipWith (· * ·) a.toList b.toList)
    let normA := norm a
    let normB := norm b
    if normA == 0 || normB == 0 then 0 else dot / (normA * normB)

/-- The place of some bits in the total order of single precision values. Bits with a sign come
before all others, in the opposite order. -/
def totalRank (bits : UInt32) : Int :=
  if twoTo 31 ≤ bits.toNat then -(bits.toNat - twoTo 31 : Nat) - 1 else bits.toNat

def scoreRank (x : Float32) : Int := totalRank x.toBits

structure ScoredId where
  id : String
  score : Float32
  deriving DecidableEq

/-- Higher scores come first, and equal scores in the order of the identities. -/
def ScoredId.precedes (a b : ScoredId) : Bool :=
  scoreRank b.score < scoreRank a.score ||
    (scoreRank a.score = scoreRank b.score && a.id ≤ b.id)

structure VectorTable where
  /-- The length of all vectors, once known. -/
  dimension : Option Nat := none
  vectors : SortedMap Embedding := ∅
  deriving DecidableEq

namespace VectorTable

def ofDimension (dimension : Option Nat) : VectorTable := { dimension }

def get? (t : VectorTable) (id : String) : Option Embedding := t.vectors.get? id

def contains (t : VectorTable) (id : String) : Bool := t.vectors.contains id

def size (t : VectorTable) : Nat := t.vectors.size

def ids (t : VectorTable) : List String := t.vectors.keys

/-- Puts a vector under an identity. The first vector fixes the length. -/
def upsert (t : VectorTable) (id : String) (vector : Embedding) : Except IndexError VectorTable :=
  match t.dimension with
  | some expected =>
    if expected = vector.size then .ok { t with vectors := t.vectors.insert id vector }
    else .error (.dimensionMismatch expected vector.size)
  | none => .ok { dimension := some vector.size, vectors := t.vectors.insert id vector }

def remove (t : VectorTable) (id : String) : VectorTable :=
  { t with vectors := t.vectors.erase id }

def startsWith (start text : String) : Bool := start.toList.isPrefixOf text.toList

/-- The identities with a given beginning: a scan from the place of that beginning up to the first
identity without it. -/
def idsFrom (t : VectorTable) (start : String) : List String :=
  (t.ids.dropWhile (· < start)).takeWhile (startsWith start)

/-- Removes the vectors of a file; returns their identities. -/
def removeFile (t : VectorTable) (filePath : String) : List String × VectorTable :=
  let ids := t.idsFrom (Chunk.idStart filePath)
  (ids, ids.foldl remove t)

/-- The identities whose vectors are at least so similar, best first. -/
def within (t : VectorTable) (vector : Embedding) (least : Float32) : List ScoredId :=
  let scored := t.vectors.entries.map fun (id, v) => ⟨id, cosineSimilarity vector v⟩
  sorted ScoredId.precedes (scored.filter fun hit => least ≤ hit.score)

/-- The first `count` of the identities whose vectors are at least so similar. -/
def query (t : VectorTable) (vector : Embedding) (count : Nat) (least : Float32) :
    List ScoredId := (t.within vector least).take count

end VectorTable

end Lookalike
