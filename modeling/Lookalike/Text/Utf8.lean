/-!
# UTF-8

Bytes are read one character at a time. Where no character starts, the bytes up to the first one
that cannot continue what came before it form one faulty sequence; a faulty sequence that the end of
the input cuts short is told apart from one that a byte breaks.
-/

namespace Lookalike.Utf8

inductive Step where
  | done
  | char (c : Char) (rest : List UInt8)
  /-- No character starts with these bytes, of which there are one to three. -/
  | broken (length : Nat) (rest : List UInt8)
  /-- The input ends within a character. -/
  | cut (length : Nat)

/-- The second byte that may follow a first one: the ranges leave out the overlong forms, the
surrogates, and what lies beyond the last code point. -/
def secondRange (first : UInt8) : UInt8 × UInt8 :=
  if first = 0xE0 then (0xA0, 0xBF)
  else if first = 0xED then (0x80, 0x9F)
  else if first = 0xF0 then (0x90, 0xBF)
  else if first = 0xF4 then (0x80, 0x8F)
  else (0x80, 0xBF)

def isContinuation (b : UInt8) : Bool := 0x80 ≤ b && b ≤ 0xBF

/-- How many bytes a character with this first byte has; zero if none starts with it. -/
def lengthOf (first : UInt8) : Nat :=
  if first < 0x80 then 1
  else if 0xC2 ≤ first && first ≤ 0xDF then 2
  else if 0xE0 ≤ first && first ≤ 0xEF then 3
  else if 0xF0 ≤ first && first ≤ 0xF4 then 4
  else 0

def assemble (lead : Nat) (continuations : List UInt8) : Char :=
  Char.ofNat (continuations.foldl (fun n b => n * 64 + (b.toNat - 0x80)) lead)

/-- How many of the bytes can continue a character with the given first byte, at most `want`. -/
def validLength (first : UInt8) (want : Nat) (bytes : List UInt8) : Nat :=
  match bytes with
  | [] => 0
  | second :: rest =>
    let (low, high) := secondRange first
    if low ≤ second && second ≤ high then
      1 + ((rest.take (want - 1)).takeWhile isContinuation).length
    else 0

def step : List UInt8 → Step
  | [] => .done
  | first :: rest =>
    match lengthOf first with
    | 0 => .broken 1 rest
    | 1 => .char (Char.ofNat first.toNat) rest
    | want + 1 =>
      let found := validLength first want rest
      if found = want then
        let lead := first.toNat - (if want = 1 then 0xC0 else if want = 2 then 0xE0 else 0xF0)
        .char (assemble lead (rest.take want)) (rest.drop want)
      else if found = rest.length then .cut (found + 1)
      else .broken (found + 1) (rest.drop found)

/-- The characters of the input, with `none` for each faulty sequence. The first argument bounds
the number of steps. -/
def symbolsWithin : Nat → List UInt8 → List (Option Char)
  | 0, _ => []
  | n + 1, bytes =>
    match step bytes with
    | .done => []
    | .char c rest => some c :: symbolsWithin n rest
    | .broken _ rest => none :: symbolsWithin n rest
    | .cut _ => [none]

def symbols (bytes : List UInt8) : List (Option Char) := symbolsWithin bytes.length bytes

/-- The characters of the input, with U+FFFD for each faulty sequence. -/
def lossy (bytes : List UInt8) : String :=
  String.ofList ((symbols bytes).map (·.getD '\uFFFD'))

/-- Why an input is not text: where the first faulty sequence starts, and how many bytes it has
unless the end of the input cuts it short. -/
structure Fault where
  offset : Nat
  length : Option Nat
  deriving DecidableEq, Repr

def Fault.message (f : Fault) : String :=
  match f.length with
  | some n => s!"invalid utf-8 sequence of {n} bytes from index {f.offset}"
  | none => s!"incomplete utf-8 byte sequence from index {f.offset}"

def decodeWithin : Nat → Nat → List Char → List UInt8 → Except Fault String
  | 0, _, done, _ => .ok (String.ofList done.reverse)
  | n + 1, offset, done, bytes =>
    match step bytes with
    | .done => .ok (String.ofList done.reverse)
    | .char c rest => decodeWithin n (offset + c.utf8Size) (c :: done) rest
    | .broken length _ => .error ⟨offset, some length⟩
    | .cut _ => .error ⟨offset, none⟩

/-- The text that the bytes are, or the first fault. -/
def decode (bytes : List UInt8) : Except Fault String :=
  decodeWithin bytes.length 0 [] bytes

end Lookalike.Utf8
