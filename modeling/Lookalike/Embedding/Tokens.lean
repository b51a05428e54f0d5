/-!
# Words of a source text

A source text is cut into identifiers and these into the words they are made of: at underscores, at
changes from small letters or digits to capitals, and before the last of several capitals that a
small letter follows. Words of one character are dropped, and a digit starts no identifier.
-/

namespace Lookalike.Tokens

def isWordChar (c : Char) : Bool := c.isAlphanum || c = '_'

/-- The identifiers of a text. The first argument is the one that is being read, backwards. -/
def identifiersFrom (pending : List Char) : List Char → List (List Char)
  | [] => if pending.isEmpty then [] else [pending.reverse]
  | c :: rest =>
    if isWordChar c then
      if pending.isEmpty && c.isDigit then identifiersFrom [] rest
      else identifiersFrom (c :: pending) rest
    else if pending.isEmpty then identifiersFrom [] rest
    else pending.reverse :: identifiersFrom [] rest

def identifiers (text : List Char) : List (List Char) := identifiersFrom [] text

def isTail (c : Char) : Bool := c.isLower || c.isDigit

/-- How many characters the word at the front of an identifier has. -/
def wordLength (text : List Char) : Nat :=
  let capitals := (text.takeWhile Char.isUpper).length
  if capitals = 0 then (text.takeWhile isTail).length
  else
    let after := text.drop capitals
    if (after.head?).any Char.isLower then
      if 2 ≤ capitals then capitals - 1 else capitals + (after.takeWhile isTail).length
    else capitals

/-- The words of an identifier. The first argument bounds the steps; none if it does not suffice,
as with a character at which no word starts. -/
def wordsWithin? : Nat → List Char → Option (List (List Char))
  | _, [] => some []
  | 0, _ => none
  | n + 1, c :: rest =>
    if c = '_' then wordsWithin? n rest
    else
      let length := wordLength (c :: rest)
      (wordsWithin? n ((c :: rest).drop length)).map ((c :: rest).take length :: ·)

/-- An identifier needs no more steps than it has characters. -/
def words? (identifier : List Char) : Option (List (List Char)) :=
  wordsWithin? identifier.length identifier

/-- The words of two or more characters, in small letters. -/
def tokensOf (identifier : List Char) : List (List Char) :=
  (((words? identifier).getD []).filter (2 ≤ ·.length)).map (·.map Char.toLower)

def tokenize (text : String) : List String :=
  ((identifiers text.toList).flatMap tokensOf).map String.ofList

end Lookalike.Tokens
