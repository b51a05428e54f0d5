import Lookalike.Toml.Scalar

/-!
# Reading TOML

A document is a sequence of lines: headers, pairs of a key and a value, and blank or commented ones.
Strings, arrays and inline tables may run over several lines. Control characters other than the tab
may stand nowhere.
-/

namespace Lookalike.Toml

abbrev Input := List Char

def isGap (c : Char) : Bool := c = ' ' || c = '\t'

def skipGap (input : Input) : Input := input.dropWhile isGap

def isControl (c : Char) : Bool := (c.toNat < 0x20 && c ≠ '\t') || c = '\x7f'

/-- The rest of a comment up to its line end. -/
def skipComment? : Input → Option Input
  | [] => some []
  | '\n' :: rest => some ('\n' :: rest)
  | '\r' :: '\n' :: rest => some ('\n' :: rest)
  | c :: rest => if isControl c then none else skipComment? rest

/-- What follows a line end. -/
def afterBreak? : Input → Option Input
  | '\n' :: rest => some rest
  | '\r' :: '\n' :: rest => some rest
  | _ => none

/-- What follows a line that may end here. -/
def endLine? (input : Input) : Option Input := do
  let rest ←
    match skipGap input with
    | '#' :: rest => skipComment? rest
    | rest => some rest
  if rest.isEmpty then some [] else afterBreak? rest

/-- Skips blanks, line ends and comments. The first argument bounds the steps. -/
def skipFiller? : Nat → Input → Option Input
  | 0, input => some input
  | n + 1, input =>
    match skipGap input with
    | '#' :: rest => (skipComment? rest).bind (skipFiller? n)
    | rest =>
      match afterBreak? rest with
      | some rest => skipFiller? n rest
      | none => some rest

/-- Skips blanks and line ends. -/
def skipBreaks : Input → Input
  | ' ' :: rest | '\t' :: rest | '\n' :: rest => skipBreaks rest
  | '\r' :: '\n' :: rest => skipBreaks rest
  | rest => rest

section Strings

def charOf? (digits : List Char) : Option Char :=
  let n := inBase 16 digits
  if digits.all isHex && n.isValidChar then some (Char.ofNat n) else none

/-- The character of an escape, after its backslash. -/
def escape? : Input → Option (Char × Input)
  | 'b' :: rest => some ('\x08', rest)
  | 't' :: rest => some ('\t', rest)
  | 'n' :: rest => some ('\n', rest)
  | 'f' :: rest => some ('\x0c', rest)
  | 'r' :: rest => some ('\r', rest)
  | 'e' :: rest => some ('\x1b', rest)
  | '"' :: rest => some ('"', rest)
  | '\\' :: rest => some ('\\', rest)
  | 'x' :: a :: b :: rest => (charOf? [a, b]).map (·, rest)
  | 'u' :: a :: b :: c :: d :: rest => (charOf? [a, b, c, d]).map (·, rest)
  | 'U' :: a :: b :: c :: d :: e :: f :: g :: h :: rest =>
    (charOf? [a, b, c, d, e, f, g, h]).map (·, rest)
  | _ => none

/-- The rest of a string between double quotes; `done` holds its characters backwards. -/
def basic? : Nat → List Char → Input → Option (String × Input)
  | 0, _, _ => none
  | n + 1, done, input =>
    match input with
    | [] => none
    | '"' :: rest => some (String.ofList done.reverse, rest)
    | '\\' :: rest => do
      let (c, rest) ← escape? rest
      basic? n (c :: done) rest
    | c :: rest => if isControl c then none else basic? n (c :: done) rest

/-- The rest of a string between single quotes. -/
def literal? : List Char → Input → Option (String × Input)
  | _, [] => none
  | done, '\'' :: rest => some (String.ofList done.reverse, rest)
  | done, c :: rest => if isControl c then none else literal? (c :: done) rest

/-- Where three quotes close a string: up to two more of them belong to its end. -/
def close (quote : Char) (done : List Char) (input : Input) : String × Input :=
  let extra := ((input.take 2).takeWhile (· = quote)).length
  (String.ofList (List.replicate extra quote ++ done).reverse, input.drop extra)

/-- The rest of a string between triple double quotes. A backslash at a line end takes away all
blanks and line ends up to the next character. -/
def longBasic? : Nat → List Char → Input → Option (String × Input)
  | 0, _, _ => none
  | n + 1, done, input =>
    match input with
    | [] => none
    | '"' :: '"' :: '"' :: rest => some (close '"' done rest)
    | '\\' :: rest =>
      match afterBreak? (skipGap rest) with
      | some rest => longBasic? n done (skipBreaks rest)
      | none => do
        let (c, rest) ← escape? rest
        longBasic? n (c :: done) rest
    | c :: rest =>
      match afterBreak? (c :: rest) with
      | some rest => longBasic? n ('\n' :: done) rest
      | none => if isControl c then none else longBasic? n (c :: done) rest

/-- The rest of a string between triple single quotes. -/
def longLiteral? : Nat → List Char → Input → Option (String × Input)
  | 0, _, _ => none
  | n + 1, done, input =>
    match input with
    | [] => none
    | '\'' :: '\'' :: '\'' :: rest => some (close '\'' done rest)
    | c :: rest =>
      match afterBreak? (c :: rest) with
      | some rest => longLiteral? n ('\n' :: done) rest
      | none => if isControl c then none else longLiteral? n (c :: done) rest

/-- A line end right after the opening quotes does not count. -/
def skipFirstBreak (input : Input) : Input := (afterBreak? input).getD input

end Strings

section Keys

def isBare (c : Char) : Bool := c.isAlphanum || c = '_' || c = '-'

def key? (n : Nat) : Input → Option (String × Input)
  | '"' :: rest => basic? n [] rest
  | '\'' :: rest => literal? [] rest
  | input =>
    let name := input.takeWhile isBare
    if name.isEmpty then none else some (String.ofList name, input.dropWhile isBare)

/-- Keys with points between them, and what follows the blanks after them. -/
def path? : Nat → Input → Option (List String × Input)
  | 0, _ => none
  | n + 1, input => do
    let (key, rest) ← key? (n + 1) (skipGap input)
    match skipGap rest with
    | '.' :: rest =>
      let (keys, rest) ← path? n rest
      return (key :: keys, rest)
    | rest => return ([key], rest)

end Keys

def isScalarChar (c : Char) : Bool :=
  c.isAlphanum || c = '+' || c = '-' || c = '_' || c = '.' || c = ':'

/-- The letters of a scalar. A blank between a date and a time belongs to it. -/
def scalarSpan (input : Input) : List Char × Input :=
  let word := input.takeWhile isScalarChar
  let rest := input.dropWhile isScalarChar
  match rest with
  | ' ' :: c :: more =>
    if c.isDigit && afterDate? word = some [] then
      (word ++ ' ' :: (c :: more).takeWhile isScalarChar, (c :: more).dropWhile isScalarChar)
    else (word, rest)
  | rest => (word, rest)

/-- How deep arrays and inline tables may be nested. -/
def maxDepth : Nat := 80

mutual

/-- One value, nested at most so deep. The first argument bounds the nested calls. -/
def value? : Nat → Nat → Input → Option (Toml × Input)
  | 0, _, _ => none
  | n + 1, depth, input =>
    let asText (result : Option (String × Input)) : Option (Toml × Input) :=
      result.map fun (s, rest) => (.text s, rest)
    match input with
    | '"' :: '"' :: '"' :: rest => asText (longBasic? (n + 1) [] (skipFirstBreak rest))
    | '"' :: rest => asText (basic? (n + 1) [] rest)
    | '\'' :: '\'' :: '\'' :: rest => asText (longLiteral? (n + 1) [] (skipFirstBreak rest))
    | '\'' :: rest => asText (literal? [] rest)
    | '[' :: rest =>
      match depth with
      | 0 => none
      | depth + 1 => (items? n depth rest).map fun (items, rest) => (.array items, rest)
    | '\x7b' :: rest =>
      match depth with
      | 0 => none
      | depth + 1 => do
        let (pairs, rest) ← pairs? n depth rest
        return (← ofPairs? pairs, rest)
    | input => do
      let (word, rest) := scalarSpan input
      return (← scalar? word, rest)

/-- The items of an array up to its closing bracket. -/
def items? : Nat → Nat → Input → Option (List Toml × Input)
  | 0, _, _ => none
  | n + 1, depth, input => do
    match ← skipFiller? n input with
    | ']' :: rest => return ([], rest)
    | input =>
      let (item, rest) ← value? n depth input
      match ← skipFiller? n rest with
      | ',' :: rest =>
        let (items, rest) ← items? n depth rest
        return (item :: items, rest)
      | ']' :: rest => return ([item], rest)
      | _ => none

/-- The pairs of an inline table up to its closing brace. -/
def pairs? : Nat → Nat → Input → Option (List (List String × Toml) × Input)
  | 0, _, _ => none
  | n + 1, depth, input => do
    match ← skipFiller? n input with
    | '\x7d' :: rest => return ([], rest)
    | input =>
      let (pair, rest) ← pair? n depth input
      match ← skipFiller? n rest with
      | ',' :: rest =>
        let (pairs, rest) ← pairs? n depth rest
        return (pair :: pairs, rest)
      | '\x7d' :: rest => return ([pair], rest)
      | _ => none

/-- A key, an equals sign and a value. -/
def pair? : Nat → Nat → Input → Option ((List String × Toml) × Input)
  | 0, _, _ => none
  | n + 1, depth, input => do
    match ← path? (n + 1) input with
    | (path, '=' :: rest) =>
      let (value, rest) ← value? n depth (skipGap rest)
      return ((path, value), rest)
    | _ => none

end

/-- One line that is not blank, and what follows it. -/
def statement? (n : Nat) : Input → Option (Statement × Input)
  | '[' :: '[' :: rest => do
    match ← path? n rest with
    | (path, ']' :: ']' :: rest) => return (.item path, ← endLine? rest)
    | _ => none
  | '[' :: rest => do
    match ← path? n rest with
    | (path, ']' :: rest) => return (.header path, ← endLine? rest)
    | _ => none
  | input => do
    let ((path, value), rest) ← pair? n maxDepth input
    return (.pair path value, ← endLine? rest)

/-- The lines of a document; the first argument bounds them, the second the nested calls. -/
def statements? : Nat → Nat → Input → Option (List Statement)
  | 0, _, _ => none
  | lines + 1, n, input =>
    match skipGap input with
    | [] => some []
    | c :: rest =>
      if c = '#' || (afterBreak? (c :: rest)).isSome then do
        statements? lines n (← endLine? (c :: rest))
      else do
        let (line, rest) ← statement? n (c :: rest)
        return line :: (← statements? lines n rest)

/-- Reads a document; a byte order mark may stand before it. -/
def read? (text : String) : Option Toml := do
  let input :=
    match text.toList with
    | '\uFEFF' :: rest => rest
    | input => input
  let bound := 4 * input.length + 4
  ofStatements? (← statements? (input.length + 1) bound input)

end Lookalike.Toml
