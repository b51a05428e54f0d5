/-!
# Lines, blanks and letters

What is asked of texts as lists of characters: their lines, which of their characters are blank,
whether one text stands in another, and their letters without regard to case.

A text is cut at each line feed. A carriage return that stands right before a line feed belongs
to the line end; one that does not is part of the line. A line feed at the very end opens no
further line, so the empty text has no lines.
-/

namespace Lookalike.Text

section Lines

/-- Puts a character in front of the first line. -/
def pushFront (c : Char) : List (List Char) → List (List Char)
  | [] => [[c]]
  | line :: rest => (c :: line) :: rest

def lines : List Char → List (List Char)
  | [] => []
  | c :: rest =>
    if c = '\n' then [] :: lines rest
    else if c = '\r' ∧ rest.head? = some '\n' then lines rest
    else pushFront c (lines rest)

/-- Lines written with a line feed between two of them. -/
def joinLines : List (List Char) → List Char
  | [] => []
  | [line] => line
  | line :: next :: rest => line ++ '\n' :: joinLines (next :: rest)

/-- The first `count` lines of a text, joined again. -/
def firstLines (text : String) (count : Nat) : String :=
  String.ofList (joinLines ((lines text.toList).take count))

end Lines

section Blanks

/-- The property `White_Space`: the ASCII separators and twelve ranges beyond ASCII. -/
def isBlank (c : Char) : Bool :=
  let n := c.toNat
  (9 ≤ n && n ≤ 13) || n == 0x20 || n == 0x85 || n == 0xA0 || n == 0x1680 ||
    (0x2000 ≤ n && n ≤ 0x200A) || n == 0x2028 || n == 0x2029 || n == 0x202F ||
    n == 0x205F || n == 0x3000

def trimStart (text : List Char) : List Char := text.dropWhile isBlank

def trimEnd (text : List Char) : List Char := (text.reverse.dropWhile isBlank).reverse

/-- How many characters of a text are not blank. -/
def inkLength (text : List Char) : Nat := text.countP fun c => !isBlank c

end Blanks

/-- Whether a text stands somewhere in another. -/
def occursIn (part : List Char) : List Char → Bool
  | [] => part.isEmpty
  | c :: rest => part.isPrefixOf (c :: rest) || occursIn part rest

def containsText (text part : String) : Bool := occursIn part.toList text.toList

/-- The capital letters of ASCII become small ones. -/
def lowerAscii (text : String) : String := String.ofList (text.toList.map Char.toLower)

end Lookalike.Text
