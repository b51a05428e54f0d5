import Lookalike.Json.Basic
import Lookalike.Text.Utf8

/-!
# Reading JSON

The grammar of JSON over a sequence of characters in which `none` stands for bytes that are no
character. Such bytes may stand in strings only. `Json.read?` reads one value and nothing after it;
`readMembers` reads an object as far as it is well formed, for readers that have to say what is
wrong with the first bad member.
-/

namespace Lookalike.Json

open Number (hexValue?)

abbrev Symbols := List (Option Char)

def isSpace (s : Option Char) : Bool :=
  s = some ' ' || s = some '\n' || s = some '\t' || s = some '\r'

def skipSpace (input : Symbols) : Symbols := input.dropWhile isSpace

/-- One unit of a string between its quotes. -/
inductive Piece where
  | char (c : Char)
  /-- A UTF-16 code unit that was written by its number. -/
  | unit (n : Nat)
  | noChar
  deriving DecidableEq

/-- The escapes of one letter. -/
def escaped? : Char → Option Char
  | '"' => some '"'
  | '\\' => some '\\'
  | '/' => some '/'
  | 'b' => some '\x08'
  | 'f' => some '\x0c'
  | 'n' => some '\n'
  | 'r' => some '\r'
  | 't' => some '\t'
  | _ => none

/-- The rest of a string after its first quote, and what follows its last one. -/
def pieces? : Symbols → Option (List Piece × Symbols)
  | [] => none
  | some '"' :: rest => some ([], rest)
  | some '\\' :: some 'u' :: some a :: some b :: some c :: some d :: rest => do
    let n := (← hexValue? a) * 4096 + (← hexValue? b) * 256 + (← hexValue? c) * 16 + (← hexValue? d)
    let (pieces, rest) ← pieces? rest
    return (.unit n :: pieces, rest)
  | some '\\' :: some e :: rest => do
    let c ← escaped? e
    let (pieces, rest) ← pieces? rest
    return (.char c :: pieces, rest)
  | some '\\' :: _ => none
  | some c :: rest => do
    guard (0x20 ≤ c.toNat)
    let (pieces, rest) ← pieces? rest
    return (.char c :: pieces, rest)
  | none :: rest => do
    let (pieces, rest) ← pieces? rest
    return (.noChar :: pieces, rest)

/-- The text of a string: two units that form a surrogate pair are one character, and a surrogate
on its own is none. -/
def textOf? : List Piece → Option (List Char)
  | [] => some []
  | .char c :: rest => (textOf? rest).map (c :: ·)
  | .noChar :: _ => none
  | .unit n :: rest =>
    if 0xDC00 ≤ n ∧ n ≤ 0xDFFF then none
    else if 0xD800 ≤ n ∧ n ≤ 0xDBFF then
      match rest with
      | .unit m :: rest =>
        if 0xDC00 ≤ m ∧ m ≤ 0xDFFF then
          (textOf? rest).map (Char.ofNat (0x10000 + (n - 0xD800) * 1024 + (m - 0xDC00)) :: ·)
        else none
      | _ => none
    else (textOf? rest).map (Char.ofNat n :: ·)

def readString? (input : Symbols) : Option (Option String × Symbols) := do
  let (pieces, rest) ← pieces? input
  return ((textOf? pieces).map String.ofList, rest)

/-- The digits that the input starts with. -/
def digitsOf : Symbols → List Char × Symbols
  | some c :: rest =>
    if c.isDigit then
      let (digits, rest) := digitsOf rest
      (c :: digits, rest)
    else ([], some c :: rest)
  | input => ([], input)

/-- One digit or more. -/
def readDigits? (input : Symbols) : Option (List Char × Symbols) :=
  match digitsOf input with
  | ([], _) => none
  | found => some found

def readFraction? : Symbols → Option (Option (List Char) × Symbols)
  | some '.' :: rest => (readDigits? rest).map fun (digits, rest) => (some digits, rest)
  | input => some (none, input)

def readSign : Symbols → Option Char × Symbols
  | some '+' :: rest => (some '+', rest)
  | some '-' :: rest => (some '-', rest)
  | input => (none, input)

def readExponent? : Symbols → Option (Option (Option Char × List Char) × Symbols)
  | some 'e' :: rest | some 'E' :: rest =>
    let (sign, rest) := readSign rest
    (readDigits? rest).map fun (digits, rest) => (some (sign, digits), rest)
  | input => some (none, input)

/-- A numeral without its sign. A leading zero stands alone. -/
def readNumeral? (negative : Bool) (input : Symbols) : Option (Numeral × Symbols) := do
  let (whole, rest) ← readDigits? input
  guard (whole.length = 1 || whole.head? ≠ some '0')
  let (fraction, rest) ← readFraction? rest
  let (exponent, rest) ← readExponent? rest
  return (⟨negative, whole, fraction, exponent⟩, rest)

def readWord? (word : String) (value : Json) (input : Symbols) : Option (Json × Symbols) :=
  let letters := word.toList.map some
  if letters.isPrefixOf input then some (value, input.drop letters.length) else none

/-- A string with a colon after it. -/
def readKey? (input : Symbols) : Option (Option String × Symbols) :=
  match skipSpace input with
  | some '"' :: rest => do
    let (key, rest) ← readString? rest
    match skipSpace rest with
    | some ':' :: rest => some (key, rest)
    | _ => none
  | _ => none

mutual

/-- One value. The first argument bounds the depth of nested calls. -/
def readValue? : Nat → Symbols → Option (Json × Symbols)
  | 0, _ => none
  | n + 1, input =>
    match skipSpace input with
    | some '"' :: rest => (readString? rest).map fun (text, rest) => (.string text, rest)
    | some '[' :: rest =>
      match skipSpace rest with
      | some ']' :: rest => some (.array [], rest)
      | _ => (readItems? n rest).map fun (items, rest) => (.array items, rest)
    | some '\x7b' :: rest =>
      match skipSpace rest with
      | some '\x7d' :: rest => some (.object [], rest)
      | _ => (readMembers? n rest).map fun (members, rest) => (.object members, rest)
    | some '-' :: rest => (readNumeral? true rest).map fun (m, rest) => (.number m, rest)
    | some 't' :: rest => readWord? "true" (.bool true) (some 't' :: rest)
    | some 'f' :: rest => readWord? "false" (.bool false) (some 'f' :: rest)
    | some 'n' :: rest => readWord? "null" .null (some 'n' :: rest)
    | input => (readNumeral? false input).map fun (m, rest) => (.number m, rest)

/-- The items of an array that is not empty, up to its closing bracket. -/
def readItems? : Nat → Symbols → Option (List Json × Symbols)
  | 0, _ => none
  | n + 1, input => do
    let (item, rest) ← readValue? n input
    match skipSpace rest with
    | some ',' :: rest =>
      let (items, rest) ← readItems? n rest
      return (item :: items, rest)
    | some ']' :: rest => return ([item], rest)
    | _ => none

/-- The members of an object that is not empty, up to its closing brace. -/
def readMembers? : Nat → Symbols → Option (List (Option String × Json) × Symbols)
  | 0, _ => none
  | n + 1, input => do
    let (key, rest) ← readKey? input
    let (value, rest) ← readValue? n rest
    match skipSpace rest with
    | some ',' :: rest =>
      let (members, rest) ← readMembers? n rest
      return ((key, value) :: members, rest)
    | some '\x7d' :: rest => return ([(key, value)], rest)
    | _ => none

end

/-- Enough calls for every value that the input can hold. -/
def depthFor (input : Symbols) : Nat := 2 * input.length + 2

/-- Reads one value that fills the input. -/
def readSymbols? (input : Symbols) : Option Json := do
  let (value, rest) ← readValue? (depthFor input) input
  guard (skipSpace rest).isEmpty
  return value

def read? (bytes : List UInt8) : Option Json := readSymbols? (Utf8.symbols bytes)

def readText? (text : String) : Option Json := readSymbols? (text.toList.map some)

/-- The members of an object up to its end or to the first place where it is malformed. -/
structure Members where
  found : List (Option String × Json)
  complete : Bool

def membersFrom (depth : Nat) : Nat → Symbols → Members
  | 0, _ => ⟨[], false⟩
  | n + 1, input =>
    match readKey? input with
    | none => ⟨[], false⟩
    | some (key, rest) =>
      match readValue? depth rest with
      | none => ⟨[], false⟩
      | some (value, rest) =>
        match skipSpace rest with
        | some ',' :: rest =>
          let more := membersFrom depth n rest
          ⟨(key, value) :: more.found, more.complete⟩
        | some '\x7d' :: rest => ⟨[(key, value)], (skipSpace rest).isEmpty⟩
        | _ => ⟨[(key, value)], false⟩

/-- Reads an object that fills the input, as far as it goes. -/
def readMembers (bytes : List UInt8) : Members :=
  let input := Utf8.symbols bytes
  match skipSpace input with
  | some '\x7b' :: rest =>
    match skipSpace rest with
    | some '\x7d' :: rest => ⟨[], (skipSpace rest).isEmpty⟩
    | _ => membersFrom (depthFor input) (depthFor input) rest
  | _ => ⟨[], false⟩

end Lookalike.Json
