import Lookalike.Json.Basic

/-!
# Writing JSON

Documents are written with two spaces for each level, one member or item on a line; an empty
container is closed where it is opened. Only quotes, backslashes and control characters are escaped.
`compact` writes without any space and is used for requests.
-/

namespace Lookalike.Json

def escape (c : Char) : List Char :=
  if c = '"' then ['\\', '"']
  else if c = '\\' then ['\\', '\\']
  else if c = '\x08' then ['\\', 'b']
  else if c = '\x0c' then ['\\', 'f']
  else if c = '\n' then ['\\', 'n']
  else if c = '\r' then ['\\', 'r']
  else if c = '\t' then ['\\', 't']
  else if c.toNat < 0x20 then
    ['\\', 'u', '0', '0', Nat.digitChar (c.toNat / 16), Nat.digitChar (c.toNat % 16)]
  else [c]

def quoted (text : List Char) : List Char := '"' :: text.flatMap escape ++ ['"']

def numeralText (n : Numeral) : List Char :=
  (if n.negative then ['-'] else []) ++ n.whole ++
    (match n.fraction with
      | none => []
      | some digits => '.' :: digits) ++
    (match n.exponent with
      | none => []
      | some (sign, digits) => 'e' :: sign.toList ++ digits)

/-- A line end and the indentation of a level. -/
def lineBreak (level : Nat) : List Char := '\n' :: List.replicate (2 * level) ' '

mutual

def pretty (level : Nat) : Json → List Char
  | null => "null".toList
  | bool true => "true".toList
  | bool false => "false".toList
  | number n => numeralText n
  | string text => quoted (text.getD "").toList
  | array [] => ['[', ']']
  | array (item :: items) =>
    '[' :: lineBreak (level + 1) ++ pretty (level + 1) item ++ prettyItems (level + 1) items ++
      lineBreak level ++ [']']
  | object [] => ['\x7b', '\x7d']
  | object ((key, value) :: members) =>
    '\x7b' :: lineBreak (level + 1) ++ quoted (key.getD "").toList ++ ':' :: ' ' ::
      pretty (level + 1) value ++ prettyMembers (level + 1) members ++ lineBreak level ++ ['\x7d']

def prettyItems (level : Nat) : List Json → List Char
  | [] => []
  | item :: items => ',' :: lineBreak level ++ pretty level item ++ prettyItems level items

def prettyMembers (level : Nat) : List (Option String × Json) → List Char
  | [] => []
  | (key, value) :: members =>
    ',' :: lineBreak level ++ quoted (key.getD "").toList ++ ':' :: ' ' :: pretty level value ++
      prettyMembers level members

end

mutual

def compact : Json → List Char
  | null => "null".toList
  | bool true => "true".toList
  | bool false => "false".toList
  | number n => numeralText n
  | string text => quoted (text.getD "").toList
  | array [] => ['[', ']']
  | array (item :: items) => '[' :: compact item ++ compactItems items ++ [']']
  | object [] => ['\x7b', '\x7d']
  | object ((key, value) :: members) =>
    '\x7b' :: quoted (key.getD "").toList ++ ':' :: compact value ++ compactMembers members ++
      ['\x7d']

def compactItems : List Json → List Char
  | [] => []
  | item :: items => ',' :: compact item ++ compactItems items

def compactMembers : List (Option String × Json) → List Char
  | [] => []
  | (key, value) :: members =>
    ',' :: quoted (key.getD "").toList ++ ':' :: compact value ++ compactMembers members

end

/-- The text of a document, which ends with a line feed. -/
def document (value : Json) : String := String.ofList (pretty 0 value ++ ['\n'])

def compactText (value : Json) : String := String.ofList (compact value)

end Lookalike.Json
