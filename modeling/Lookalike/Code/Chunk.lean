import Lookalike.Code.Language
import Lookalike.Digest.Blake3
import Lookalike.Text.Basic

/-!
# Chunks

A chunk is one unit of source code: a function, a method, a component. Its identity is the path of
its file and a digest of what tells units of one file apart: the enclosing containers, the unit's
label, and how many units with that scope and label stand before it. Line numbers play no part, so
an edit elsewhere in the file keeps the identity.
-/

namespace Lookalike

/-- The role of a chunk. -/
inductive Kind where
  | component | hook | function | other
  deriving DecidableEq, Repr

namespace Kind

/-- All roles, in the order in which ties between them are resolved. -/
def all : List Kind := [component, hook, function, other]

def name : Kind → String
  | component => "component"
  | hook => "hook"
  | function => "function"
  | other => "other"

def ofName? (name : String) : Option Kind := all.find? (·.name = name)

/-- Reads a role in any mixture of small and capital ASCII letters. -/
def parse? (text : String) : Option Kind := ofName? (Text.lowerAscii text)

theorem parse?_name (k : Kind) : parse? k.name = some k := by
  cases k <;> decide

end Kind

/-- Lines and columns count from one, and the end belongs to the span. -/
structure Span where
  startLine : UInt64
  startColumn : UInt64
  endLine : UInt64
  endColumn : UInt64
  deriving DecidableEq, Repr

namespace Span

def containsLine (s : Span) (line : UInt64) : Bool := s.startLine ≤ line && line ≤ s.endLine

/-- The number of lines in 64-bit arithmetic, which stops where a result leaves the 64 bits: none if
the end stands before the start, and none for a span of all `2 ^ 64` lines. -/
def lineCount? (s : Span) : Option UInt64 :=
  if s.endLine < s.startLine then none
  else
    let further := s.endLine - s.startLine
    if further + 1 < further then none else some (further + 1)

end Span

/-- What was noticed about a unit while it was cut out, for ranking and display. -/
structure Facts where
  params : List String := []
  props : List String := []
  hooks : List String := []
  isAsync : Bool := false
  exported : Bool := false
  deriving DecidableEq, Repr

structure Chunk where
  id : String
  kind : Kind
  name : Option String
  filePath : String
  language : Language
  /-- The enclosing containers, outermost first. -/
  scope : String
  span : Span
  contentHash : String
  /-- The text in normal form; this is what is hashed and embedded. -/
  text : String
  facts : Facts
  deriving DecidableEq, Repr

/-- The label of a unit without a name. -/
def anonymous : String := "<anonymous>"

namespace Chunk

def displayName (c : Chunk) : String := c.name.getD anonymous

/-- Text length in characters. -/
def textLength (c : Chunk) : Nat := c.text.length

/-- The first lines of the text. -/
def preview (c : Chunk) (lines : Nat) : String := Text.firstLines c.text lines

/-- What tells the units of one file apart, as the bytes that are hashed. Neither the scope nor the
label is bounded, so a zero byte closes each; the ordinal has eight bytes, lowest first. -/
def identityKey (scope label : String) (ordinal : UInt64) : List UInt8 :=
  scope.toUTF8.toList ++ 0 :: label.toUTF8.toList ++ 0 ::
    [ordinal.toUInt8, (ordinal >>> 8).toUInt8, (ordinal >>> 16).toUInt8, (ordinal >>> 24).toUInt8,
      (ordinal >>> 32).toUInt8, (ordinal >>> 40).toUInt8, (ordinal >>> 48).toUInt8,
      (ordinal >>> 56).toUInt8]

/-- What every chunk id of a file starts with. -/
def idStart (filePath : String) : String := filePath ++ "#"

/-- The identity of a unit: its file and sixteen hexadecimal digits of the digest of its key. -/
def idOf (filePath scope label : String) (ordinal : UInt64) : String :=
  idStart filePath ++
    String.ofList ((Blake3.hexOf (Blake3.digest (identityKey scope label ordinal))).take 16)

end Chunk

end Lookalike
