import Lookalike.Embedding.Provider
import Lookalike.Embedding.Tokens
import Lookalike.Text.Basic

/-!
# Embedding by hashing

A provider that needs no service: each word of a text adds one to or takes one from the coordinate
that its hash selects, so texts with the same words lie close together. It can be told to refuse
texts and to be out of reach, and it counts what it is asked.
-/

namespace Lookalike

structure HashingEmbedder where
  model : String := "mock-embed"
  dimension : Nat := 256
  /-- Whether the length of the vectors is announced beforehand. -/
  declared : Bool := true
  /-- Texts that contain this are refused. -/
  failMarker : Option String := some "__embed_fail__"
  offline : Bool := false

/-- How often a provider was asked, and for how many texts it gave vectors. -/
structure Calls where
  batches : Nat := 0
  texts : Nat := 0
  deriving DecidableEq, Repr

namespace HashingEmbedder

/-- The 64-bit FNV-1a hash. -/
def fnv1a (bytes : List UInt8) : UInt64 :=
  bytes.foldl (fun hash b => (hash ^^^ b.toUInt64) * 0x100000001b3) 0xcbf29ce484222325

/-- Counts a word in the coordinate of its hash; the top bit of the hash gives the sign. -/
def addWord (v : Embedding) (word : String) : Embedding :=
  let hash := fnv1a word.toUTF8.toList
  let slot := hash.toNat % v.size
  v.modify slot fun x => if hash >>> 63 = 1 then x - 1 else x + 1

def vector (dimension : Nat) (text : String) : Embedding :=
  (Tokens.tokenize text).foldl addWord (Array.replicate dimension 0)

def refusal (marker : String) : EmbedError :=
  .malformed s!"mock refused text containing {marker}"

def answer (e : HashingEmbedder) (texts : List String) (calls : Calls) :
    Except EmbedError (List Embedding) × Calls :=
  let asked := { calls with batches := calls.batches + 1 }
  if e.offline then (.error (.unavailable "mock://offline" 0), asked)
  else
    match e.failMarker.filter fun marker => texts.any (Text.containsText · marker) with
    | some marker => (.error (refusal marker), asked)
    | none =>
      (.ok (texts.map (vector e.dimension)), { asked with texts := asked.texts + texts.length })

def provider (e : HashingEmbedder) : Provider Calls :=
  { name := "mock"
    model := e.model
    dimension := if e.declared then some e.dimension else none
    answer := fun _ => e.answer }

end HashingEmbedder

end Lookalike
