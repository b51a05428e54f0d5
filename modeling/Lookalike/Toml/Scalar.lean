import Lookalike.Number.Written
import Lookalike.Timestamp
import Lookalike.Toml.Basic

/-!
# Scalars of TOML

Values that are written without quotes: words, integers in four bases, numbers with a point or an
exponent, and dates and times. Underscores may stand between two digits.
-/

namespace Lookalike.Toml

open Number (natOf hexValue? twoTo Decimal)

/-- Digits of a group without the underscores between them; none if an underscore is elsewhere or
there is no digit. -/
def ungroup? (isDigit : Char → Bool) : List Char → Option (List Char)
  | [] => none
  | [c] => if isDigit c then some [c] else none
  | c :: '_' :: rest => if isDigit c then (ungroup? isDigit rest).map (c :: ·) else none
  | c :: rest => if isDigit c then (ungroup? isDigit rest).map (c :: ·) else none

def isHex (c : Char) : Bool := (hexValue? c).isSome

/-- The natural that some digits of a base up to sixteen stand for. -/
def inBase (base : Nat) (digits : List Char) : Nat :=
  digits.foldl (fun n c => n * base + (hexValue? c).getD 0) 0

/-- Decimal digits, of which the first is no zero unless it is the only one. -/
def wholeDigits? (text : List Char) : Option (List Char) := do
  let digits ← ungroup? Char.isDigit text
  guard (digits.length = 1 || digits.head? ≠ some '0')
  return digits

/-- The sign in front of a text, if any, and the rest. -/
def splitSign : List Char → Option Bool × List Char
  | '-' :: rest => (some true, rest)
  | '+' :: rest => (some false, rest)
  | unsigned => (none, unsigned)

/-- The integer of a sign and a magnitude. -/
def signed (sign : Option Bool) (n : Nat) : Int := if sign = some true then -n else n

/-- The integers that can be held. -/
def isHeld (n : Int) : Bool := -(twoTo 127 : Int) ≤ n && n < twoTo 128

def integer? (text : List Char) : Option Toml := do
  let n : Int ←
    match text with
    | '0' :: 'x' :: digits => (ungroup? isHex digits).map fun ds => (inBase 16 ds : Int)
    | '0' :: 'o' :: digits =>
      (ungroup? (fun c => '0' ≤ c && c ≤ '7') digits).map fun ds => (inBase 8 ds : Int)
    | '0' :: 'b' :: digits =>
      (ungroup? (fun c => c = '0' || c = '1') digits).map fun ds => (inBase 2 ds : Int)
    | decimal =>
      let (sign, digits) := splitSign decimal
      (wholeDigits? digits).map fun ds => signed sign (natOf ds)
  guard (isHeld n)
  return .integer n

/-- Splits a number without sign into the digits before the point, those after it, and those of the
exponent with its sign. -/
def splitFloat (text : List Char) : List Char × Option (List Char) × Option (List Char) :=
  let isMark (c : Char) : Bool := c = 'e' || c = 'E'
  let mantissa := text.takeWhile (!isMark ·)
  let exponent := (text.dropWhile (!isMark ·)).tail?
  let whole := mantissa.takeWhile (· ≠ '.')
  (whole, (mantissa.dropWhile (· ≠ '.')).tail?, exponent)

/-- The digits of an exponent, with a sign if there is one. -/
def exponent? (text : List Char) : Option Int := do
  let (sign, digits) := splitSign text
  return signed sign (natOf (← ungroup? Char.isDigit digits))

/-- Reads a number with a point or an exponent. What is too large for double precision is
refused. -/
def float? (text : List Char) : Option Toml := do
  let (sign, body) := splitSign text
  let negative := sign = some true
  if body = ['i', 'n', 'f'] then
    return .float (Float.ofBits (if negative then 0xfff0000000000000 else 0x7ff0000000000000))
  if body = ['n', 'a', 'n'] then return .float (Float.ofBits 0x7ff8000000000000)
  let (whole, fraction, exponent) := splitFloat body
  guard (fraction.isSome || exponent.isSome)
  let whole ← wholeDigits? whole
  let fraction ←
    match fraction with
    | some digits => ungroup? Char.isDigit digits
    | none => some []
  let exponent ←
    match exponent with
    | some text => exponent? text
    | none => some 0
  let x := (⟨negative, natOf (whole ++ fraction), exponent - fraction.length⟩ : Decimal).toDouble
  guard (!x.isInf)
  return .float x

section Moments

/-- Takes a number of exactly so many digits, at most `most`. -/
def number? (count most : Nat) (text : List Char) : Option (Nat × List Char) := do
  let digits := text.take count
  guard (digits.length = count && digits.all Char.isDigit && natOf digits ≤ most)
  return (natOf digits, text.drop count)

def skip? (c : Char) : List Char → Option (List Char)
  | d :: rest => if c = d then some rest else none
  | [] => none

def afterDate? (text : List Char) : Option (List Char) := do
  let (year, rest) ← number? 4 9999 text
  let (month, rest) ← number? 2 12 (← skip? '-' rest)
  let (day, rest) ← number? 2 31 (← skip? '-' rest)
  guard (1 ≤ month && 1 ≤ day && day ≤ Timestamp.daysInMonth year month)
  return rest

/-- Seconds may be left out, and a fraction of them may follow. -/
def afterTime? (text : List Char) : Option (List Char) := do
  let (_, rest) ← number? 2 23 text
  let (_, rest) ← number? 2 59 (← skip? ':' rest)
  match rest with
  | ':' :: rest =>
    let (_, rest) ← number? 2 60 rest
    match rest with
    | '.' :: digit :: rest =>
      if digit.isDigit then some (rest.dropWhile Char.isDigit) else none
    | '.' :: [] => none
    | rest => some rest
  | rest => some rest

def afterOffset? : List Char → Option (List Char)
  | 'Z' :: rest | 'z' :: rest => some rest
  | '+' :: rest | '-' :: rest => do
    let (_, rest) ← number? 2 23 rest
    let (_, rest) ← number? 2 59 (← skip? ':' rest)
    return rest
  | rest => some rest

def isMoment (text : List Char) : Bool :=
  match afterDate? text with
  | some [] => true
  | some (c :: rest) =>
    (c = 'T' || c = 't' || c = ' ') && ((afterTime? rest).bind afterOffset?) = some []
  | none => afterTime? text = some []

end Moments

/-- Reads a value that is written without quotes. -/
def scalar? (text : List Char) : Option Toml :=
  if text = ['t', 'r', 'u', 'e'] then some (.boolean true)
  else if text = ['f', 'a', 'l', 's', 'e'] then some (.boolean false)
  else if isMoment text then some .moment
  else (integer? text).or (float? text)

end Lookalike.Toml
