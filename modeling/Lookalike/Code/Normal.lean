import Lookalike.Text.Basic

/-!
# Normal form of a unit's text

Two spellings of a unit that differ only in indentation, blank lines, trailing blanks and line ends
have one normal form.
-/

namespace Lookalike.Text

def isIndent (c : Char) : Bool := c = ' ' || c = '\t'

/-- How many spaces and tabs a line starts with. -/
def indentation (line : List Char) : Nat := (line.takeWhile isIndent).length

/-- The lines that hold more than blanks, without the blanks at their ends. -/
def inkLines (text : List Char) : List (List Char) :=
  ((lines text).map trimEnd).filter (!·.isEmpty)

/-- Removes the indentation that all lines share. -/
def dedent (lines : List (List Char)) : List (List Char) :=
  let shared := ((lines.map indentation).min?).getD 0
  lines.map (·.drop shared)

/-- Drops blank lines and trailing blanks, removes the shared indentation, and keeps at most the
given number of characters. -/
def normalForm (text : List Char) (maxChars : Nat) : List Char :=
  (joinLines (dedent (inkLines text))).take maxChars

def normalize (text : String) (maxChars : Nat) : String :=
  String.ofList (normalForm text.toList maxChars)

end Lookalike.Text
