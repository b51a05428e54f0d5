import Lookalike.Number.Decimal
import Lookalike.Number.Digits
import Lookalike.Text.Basic

/-!
# Numbers as people write them

Numbers in arguments, variables and settings: naturals of a bounded size with an optional plus sign,
and numbers in single precision with an optional sign, point and exponent. Nothing may stand around
them. Written back, a number in single precision has no exponent and the fewest digits that read
back.
-/

namespace Lookalike.Number

/-- Why a text is no natural of a bounded size. -/
inductive NaturalFault where
  | empty | invalidDigit | tooLarge
  deriving DecidableEq, Repr

def NaturalFault.message : NaturalFault → String
  | empty => "cannot parse integer from empty string"
  | invalidDigit => "invalid digit found in string"
  | tooLarge => "number too large to fit in target type"

/-- Appends digits to a number. The first fault from the left is the one that is told. -/
def extendNatural (bound n : Nat) : List Char → Except NaturalFault Nat
  | [] => .ok n
  | c :: rest =>
    if !c.isDigit then .error .invalidDigit
    else
      let next := n * 10 + digitValue c
      if bound ≤ next then .error .tooLarge else extendNatural bound next rest

/-- Reads a natural below a bound. A sign alone counts as a digit that is none. -/
def readNatural (bound : Nat) (text : String) : Except NaturalFault Nat :=
  match text.toList with
  | [] => .error .empty
  | ['+'] => .error .invalidDigit
  | '+' :: digits => extendNatural bound 0 digits
  | digits => extendNatural bound 0 digits

def readNatural? (bound : Nat) (text : String) : Option Nat := (readNatural bound text).toOption

/-- The exponent that a text ends with; zero for the empty text. -/
def readExponent? : List Char → Option Int
  | [] => some 0
  | e :: rest =>
    if e ≠ 'e' ∧ e ≠ 'E' then none
    else
      let (negative, digits) :=
        match rest with
        | '-' :: digits => (true, digits)
        | '+' :: digits => (false, digits)
        | digits => (false, digits)
      if digits.isEmpty || !digits.all Char.isDigit then none
      else some (if negative then -(natOf digits : Int) else natOf digits)

/-- Reads a decimal without sign; there has to be a digit before or after the point. -/
def readDecimal? (negative : Bool) (text : List Char) : Option Decimal := do
  let whole := text.takeWhile Char.isDigit
  let rest := text.dropWhile Char.isDigit
  let (fraction, rest) :=
    match rest with
    | '.' :: rest => (rest.takeWhile Char.isDigit, rest.dropWhile Char.isDigit)
    | rest => ([], rest)
  guard (!(whole ++ fraction).isEmpty)
  let exponent ← readExponent? rest
  return ⟨negative, natOf (whole ++ fraction), exponent - fraction.length⟩

def infinity (negative : Bool) : Float32 :=
  Float32.ofBits (if negative then 0xff800000 else 0x7f800000)

def notANumber : Float32 := Float32.ofBits 0x7fc00000

/-- Reads a number in single precision. The names of infinities and of what is no number may be
written in any mixture of small and capital letters. -/
def readSingle? (text : String) : Option Float32 :=
  let (negative, body) :=
    match text.toList with
    | '-' :: body => (true, body)
    | '+' :: body => (false, body)
    | body => (false, body)
  let word := Text.lowerAscii (String.ofList body)
  if word = "inf" ∨ word = "infinity" then some (infinity negative)
  else if word = "nan" then some notANumber
  else (readDecimal? negative body).map Decimal.toSingle

/-- A decimal of some digits in positional notation. -/
def positional (digits : Nat) (k : Int) : List Char :=
  let ds := Nat.toDigits 10 digits
  let point : Int := ds.length + k
  if 0 ≤ k then ds ++ List.replicate k.toNat '0'
  else if 0 < point then ds.take point.toNat ++ '.' :: ds.drop point.toNat
  else '0' :: '.' :: List.replicate (-point).toNat '0' ++ ds

/-- A number in single precision by the fewest digits that read back, without an exponent. -/
def plain (x : Float32) : String :=
  let signed (negative : Bool) (text : String) : String := if negative then "-" ++ text else text
  match decode .single x.toBits.toNat with
  | (_, .notANumber) => "NaN"
  | (negative, .infinite) => signed negative "inf"
  | (negative, .finite 0 _) => signed negative "0"
  | (negative, .finite mantissa exponent) =>
    let (digits, k) := shortest mantissa exponent
    signed negative (String.ofList (positional digits k))

end Lookalike.Number
