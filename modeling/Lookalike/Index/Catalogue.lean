import Lookalike.Code.Chunk
import Lookalike.Index.Error
import Std.Data.TreeMap

/-!
# The catalogue of chunks

Chunks by identity, in the order in which their identities were first added. A search tree finds
them and a vector of identities keeps the order; `chunks` reads both as one list.
-/

namespace Lookalike

structure Catalogue where
  byId : Std.TreeMap String Chunk := ∅
  order : Array String := #[]

namespace Catalogue

def empty : Catalogue := {}

/-- The chunks in order. -/
def chunks (c : Catalogue) : List Chunk := c.order.toList.filterMap (c.byId[·]?)

def ids (c : Catalogue) : List String := c.order.toList

def size (c : Catalogue) : Nat := c.order.size

def isEmpty (c : Catalogue) : Bool := c.order.isEmpty

def get? (c : Catalogue) (id : String) : Option Chunk := c.byId[id]?

def contains (c : Catalogue) (id : String) : Bool := c.byId.contains id

/-- Puts a chunk under a key; a new key comes last, a known one keeps its place. -/
def put (c : Catalogue) (key : String) (chunk : Chunk) : Catalogue :=
  { byId := c.byId.insert key chunk
    order := if c.byId.contains key then c.order else c.order.push key }

def set (c : Catalogue) (chunk : Chunk) : Catalogue := c.put chunk.id chunk

def remove (c : Catalogue) (id : String) : Catalogue :=
  if c.byId.contains id then
    { byId := c.byId.erase id, order := c.order.filter (· ≠ id) }
  else c

/-- The chunks of one file, in order. -/
def ofFile (c : Catalogue) (filePath : String) : List Chunk :=
  c.chunks.filter (·.filePath = filePath)

/-- The first chunk with a given content. -/
def findContent? (c : Catalogue) (contentHash : String) : Option Chunk :=
  c.chunks.find? (·.contentHash = contentHash)

/-- The first item whose key is least. -/
def firstLeast? {α : Type u} (key : α → UInt64) : List α → Option α
  | [] => none
  | first :: rest => some (rest.foldl (fun best x => if key x < key best then x else best) first)

/-- The chunks of a file that contain a line, in order. -/
def covering (c : Catalogue) (filePath : String) (line : UInt64) : List Chunk :=
  c.chunks.filter fun x => x.filePath = filePath && x.span.containsLine line

/-- The chunk with the fewest lines among those of a file that contain a line. The lines of each of
them are counted, and the program stops if that cannot be done. -/
def atLine? (c : Catalogue) (filePath : String) (line : UInt64) :
    Except IndexError (Option Chunk) :=
  if (c.covering filePath line).all (·.span.lineCount?.isSome) then
    .ok (firstLeast? (·.span.lineCount?.getD 0) (c.covering filePath line))
  else .error .panicked

/-- Removes every chunk of a file; returns their identities. -/
def removeFile (c : Catalogue) (filePath : String) : List String × Catalogue :=
  let ids := (c.ofFile filePath).map (·.id)
  let byId := ids.foldl (fun m id => m.erase id) c.byId
  (ids, { byId, order := c.order.filter fun id => byId.contains id })

/-- Whether two catalogues hold the same chunks in the same order. -/
def same (c d : Catalogue) : Bool := c.order == d.order && c.chunks == d.chunks

end Catalogue

end Lookalike
