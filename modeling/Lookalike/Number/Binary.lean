import Lookalike.Number.Digits

/-!
# Binary formats and rounding

A binary format stores a sign, an exponent and a fraction. `round` takes a ratio of naturals to the
nearest value of a format, of two equally near ones to the one with an even mantissa. Everything is
exact arithmetic on naturals; only the bits are exchanged with the hardware types.
-/

namespace Lookalike.Number

structure BinaryFormat where
  fractionBits : Nat
  exponentBits : Nat

namespace BinaryFormat

def single : BinaryFormat := ⟨23, 8⟩
def double : BinaryFormat := ⟨52, 11⟩

variable (f : BinaryFormat)

def bias : Nat := twoTo (f.exponentBits - 1) - 1

/-- The exponent field of infinities and of what is not a number. -/
def topExponent : Nat := twoTo f.exponentBits - 1

/-- The exponent of two in the spacing of the smallest values. -/
def leastExponent : Int := 1 - f.bias - f.fractionBits

end BinaryFormat

/-- A value without its sign. -/
inductive Magnitude where
  /-- The mantissa times a power of two. -/
  | finite (mantissa : Nat) (exponent : Int)
  | infinite
  | notANumber
  deriving DecidableEq, Repr

variable (f : BinaryFormat)

/-- The sign (true for negative) and the magnitude that some bits stand for. -/
def decode (bits : Nat) : Bool × Magnitude :=
  let fraction := bits % twoTo f.fractionBits
  let exponent := bits / twoTo f.fractionBits % twoTo f.exponentBits
  let negative := bits / twoTo (f.fractionBits + f.exponentBits) % 2 = 1
  (negative,
    if exponent = f.topExponent then
      if fraction = 0 then .infinite else .notANumber
    else if exponent = 0 then .finite fraction f.leastExponent
    else .finite (fraction + twoTo f.fractionBits) (f.leastExponent + (exponent - 1 : Nat)))

/-- The bits of a magnitude that the format holds. -/
def encode (negative : Bool) (m : Magnitude) : Nat :=
  let sign := if negative then twoTo (f.fractionBits + f.exponentBits) else 0
  sign +
    match m with
    | .infinite => f.topExponent * twoTo f.fractionBits
    | .notANumber => f.topExponent * twoTo f.fractionBits + twoTo (f.fractionBits - 1)
    | .finite mantissa exponent =>
      if mantissa < twoTo f.fractionBits then mantissa
      else
        let field := (exponent - f.leastExponent).toNat + 1
        if f.topExponent ≤ field then f.topExponent * twoTo f.fractionBits
        else field * twoTo f.fractionBits + (mantissa - twoTo f.fractionBits)

/-- The natural nearest to a ratio, of two the even one. -/
def roundDiv (num den : Nat) : Nat :=
  let q := num / den
  let r := num % den
  if 2 * r < den then q
  else if den < 2 * r then q + 1
  else if q % 2 = 0 then q else q + 1

/-- Powers of a base in numerator and denominator, for an exponent of either sign. -/
def powNum (base : Nat) (e : Int) : Nat := Nat.pow base e.toNat
def powDen (base : Nat) (e : Int) : Nat := Nat.pow base (-e).toNat

/-- The exponent of the largest power of two that is at most a positive ratio. -/
def floorLog2 (num den : Nat) : Int :=
  let e : Int := (Nat.log2 num : Int) - (Nat.log2 den : Int)
  if den * powNum 2 e ≤ num * powDen 2 e then e else e - 1

/-- The value of the format that is nearest to a ratio. -/
def round (num den : Nat) : Magnitude :=
  if num = 0 then .finite 0 f.leastExponent
  else
    let e := max f.leastExponent (floorLog2 num den - f.fractionBits)
    let m := roundDiv (num * powDen 2 e) (den * powNum 2 e)
    let (m, e) := if m = twoTo (f.fractionBits + 1) then (twoTo f.fractionBits, e + 1) else (m, e)
    if (f.topExponent : Int) - 2 < e - f.leastExponent then .infinite else .finite m e

/-- A magnitude of another format, rounded to this one. -/
def Magnitude.reround : Magnitude → Magnitude
  | .finite mantissa exponent => round f (mantissa * powNum 2 exponent) (powDen 2 exponent)
  | m => m

/-- The same number in double precision. -/
def widen (x : Float32) : Float :=
  let (negative, m) := decode .single x.toBits.toNat
  Float.ofBits (UInt64.ofNat (encode .double negative (m.reround .double)))

/-- The nearest number in single precision. -/
def narrow (x : Float) : Float32 :=
  let (negative, m) := decode .double x.toBits.toNat
  Float32.ofBits (UInt32.ofNat (encode .single negative (m.reround .single)))

end Lookalike.Number
