import Lookalike.Code.Facts
import Lookalike.Code.Normal

/-!
# Cutting a source file into chunks

Every outermost unit of the tree becomes a chunk unless its text in normal form is too small. Small
units count for the ordinals of the others, so that a unit does not change its identity when a
namesake grows or shrinks.
-/

namespace Lookalike

structure ChunkLimits where
  /-- The least number of characters that are not blank. -/
  minSize : Nat := 50
  /-- The text in normal form is cut to this many characters. -/
  maxChars : Nat := 6000
  deriving DecidableEq, Repr

/-- A position in a source, as what stands before it. -/
structure Position where
  before : List Char

namespace Position

def ofOffset (source : String) (offset : Nat) : Position :=
  ⟨(String.Pos.Raw.extract source ⟨0⟩ ⟨offset⟩).toList⟩

/-- How many line feeds stand before the position. -/
def row (p : Position) : Nat := p.before.count '\n'

/-- What stands before the position on its line. -/
def lineHead (p : Position) : List Char := (p.before.reverse.takeWhile (· ≠ '\n')).reverse

def byteLength (text : List Char) : Nat := text.foldl (fun bytes c => bytes + c.utf8Size) 0

/-- How many bytes stand before the position on its line. -/
def column (p : Position) : Nat := byteLength p.lineHead

end Position

namespace CodeUnit

/-- Where the text of a unit begins: at the beginning of its line if nothing but blanks stands
before it, so that its first line keeps its indentation relative to the others. -/
def textStart (source : String) (t : SyntaxTree) : Nat :=
  let head := (Position.ofOffset source t.start).lineHead
  if head.all Text.isBlank then t.start - Position.byteLength head else t.start

/-- The text of a unit in normal form. -/
def normalText (source : String) (maxChars : Nat) (u : CodeUnit) : String :=
  Text.normalize
    (String.Pos.Raw.extract source ⟨textStart source u.anchor⟩ ⟨u.anchor.stop⟩) maxChars

/-- A span ends at the last byte of the unit, so its last column is the one before the end. -/
def span (source : String) (u : CodeUnit) : Span :=
  let first := Position.ofOffset source u.anchor.start
  let last := Position.ofOffset source u.anchor.stop
  { startLine := UInt64.ofNat (first.row + 1)
    startColumn := UInt64.ofNat (first.column + 1)
    endLine := UInt64.ofNat (last.row + 1)
    endColumn := UInt64.ofNat (max last.column 1) }

def label (u : CodeUnit) : String := u.name.getD anonymous

def Placed.scope (p : Placed) : String := String.intercalate " > " p.scopes

/-- What units are counted by. -/
def Placed.key (p : Placed) : String × String := (p.scope, p.unit.label)

/-- Pairs each unit with the number of earlier ones that have its key. -/
def withOrdinals (earlier : List (String × String)) : List Placed → List (Placed × Nat)
  | [] => []
  | p :: rest => (p, earlier.count p.key) :: withOrdinals (p.key :: earlier) rest

/-- The chunk of a unit, if the unit is large enough. -/
def chunk? (lang : Language) (limits : ChunkLimits) (path source : String) (p : Placed)
    (ordinal : Nat) : Option Chunk :=
  let text := normalText source limits.maxChars p.unit
  if Text.inkLength text.toList < limits.minSize then none
  else
    some {
      id := Chunk.idOf path p.scope p.unit.label (UInt64.ofNat ordinal)
      kind := role lang p.unit
      name := p.unit.name
      filePath := path
      language := lang
      scope := p.scope
      span := span source p.unit
      contentHash := Blake3.hexOfText text
      text
      facts := facts lang source p }

end CodeUnit

/-- The chunks of a source file, in source order. -/
def chunksOf (lang : Language) (limits : ChunkLimits) (path source : String)
    (root : SyntaxTree) : List Chunk :=
  (CodeUnit.withOrdinals [] (CodeUnit.units lang source root)).filterMap fun (p, ordinal) =>
    CodeUnit.chunk? lang limits path source p ordinal

end Lookalike
