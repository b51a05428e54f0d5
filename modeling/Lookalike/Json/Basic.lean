import Lookalike.Number.Decimal
import Lookalike.Number.Digits

/-!
# JSON values

A value keeps what was written: numbers as their numerals, objects as their members in order and
with repetitions. A string whose escapes or bytes stand for no text is `none`, because that is a
fault only where somebody reads the string.
-/

namespace Lookalike

/-- A number as it is written. -/
structure Numeral where
  negative : Bool
  whole : List Char
  /-- The digits after the point, if there is one. -/
  fraction : Option (List Char)
  /-- The sign, if written, and the digits of the exponent. -/
  exponent : Option (Option Char × List Char)
  deriving DecidableEq, Repr

inductive Json where
  | null
  | bool (value : Bool)
  | number (numeral : Numeral)
  | string (text : Option String)
  | array (items : List Json)
  | object (members : List (Option String × Json))
  deriving Repr

namespace Numeral

open Number (digitValue natOf longBound twoTo)

def ofNat (n : Nat) : Numeral := ⟨false, Nat.toDigits 10 n, none, none⟩

/-- The natural that a numeral without sign, point and exponent stands for. -/
def toNat? (n : Numeral) : Option Nat :=
  match n with
  | ⟨false, whole, none, none⟩ => some (natOf whole)
  | _ => none

/-- Takes digits into a 64-bit significand as long as they fit; returns how many are left. -/
def takeDigits (significand : Nat) : List Char → Nat × Nat
  | [] => (significand, 0)
  | c :: rest =>
    let next := significand * 10 + digitValue c
    if next < longBound then takeDigits next rest else (significand, rest.length + 1)

/-- The power of ten in double precision. -/
def tenTo (n : Nat) : Float := Number.Decimal.toDouble ⟨false, 1, n⟩

/-- A 64-bit significand times a power of ten, in double precision arithmetic: one multiplication
or division by a power up to 308, after dividing by 10^308 while the exponent is below that. What
overflows is no number. The first argument bounds the divisions. -/
def scale : Nat → Float → Int → Option Float
  | 0, x, _ => some x
  | n + 1, x, exponent =>
    if exponent.natAbs ≤ 308 then
      if 0 ≤ exponent then
        let y := x * tenTo exponent.natAbs
        if y.isInf then none else some y
      else some (x / tenTo exponent.natAbs)
    else if x == 0.0 then some x
    else if 0 ≤ exponent then none
    else scale n (x / tenTo 308) (exponent + 308)

/-- The value in double precision; none if it is out of range. Digits that do not fit into the
64-bit significand count only by their place. -/
def toDouble? (n : Numeral) : Option Float := do
  let (significand, dropped) := takeDigits 0 n.whole
  let (significand, exponent) ←
    match n.fraction with
    | none => some (significand, (dropped : Int))
    | some digits =>
      let (longer, left) := takeDigits significand digits
      some (longer, (dropped : Int) - (digits.length - left : Nat))
  let written : Int :=
    match n.exponent with
    | none => 0
    | some (sign, digits) => if sign = some '-' then -(natOf digits : Int) else natOf digits
  let x ← scale 8 (UInt64.ofNat significand).toFloat (exponent + written)
  return if n.negative then -x else x

/-- Whether the number can be taken in: as a natural of 64 bits, else in double precision. -/
def isInRange (n : Numeral) : Bool := n.toNat?.any (· < longBound) || n.toDouble?.isSome

/-- The value in single precision. An integer of 64 bits is rounded once; everything else is first
a double precision number. -/
def toSingle? (n : Numeral) : Option Float32 :=
  let value := natOf n.whole
  let bound := if n.negative then twoTo 63 else longBound - 1
  if n.fraction.isNone && n.exponent.isNone && value ≤ bound && !(n.negative && value = 0) then
    some (Number.Decimal.toSingle ⟨n.negative, value, 0⟩)
  else n.toDouble?.map Number.narrow

end Numeral

end Lookalike
