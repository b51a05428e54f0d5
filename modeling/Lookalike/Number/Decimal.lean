import Lookalike.Number.Binary

/-!
# Decimal numerals

A decimal is a signed integer times a power of ten. Here are its value in a binary format, and the
way back: `shortest` gives the fewest digits that read back as a given value, the nearest of those,
and `fixed` a given number of places.
-/

namespace Lookalike.Number

structure Decimal where
  negative : Bool
  digits : Nat
  exponent : Int
  deriving DecidableEq, Repr

/-- How many decimal digits a natural has. -/
def digitCount (n : Nat) : Nat := (Nat.toDigits 10 n).length

/-- The nearest value of a format. A decimal that lies far outside the range of every format is
not expanded. -/
def Decimal.magnitude (f : BinaryFormat) (d : Decimal) : Magnitude :=
  if d.digits = 0 then .finite 0 f.leastExponent
  else
    let top : Int := d.exponent + digitCount d.digits
    if 400 < top then .infinite
    else if top < -400 then .finite 0 f.leastExponent
    else round f (d.digits * powNum 10 d.exponent) (powDen 10 d.exponent)

def Decimal.toSingle (d : Decimal) : Float32 :=
  Float32.ofBits (UInt32.ofNat (encode .single d.negative (d.magnitude .single)))

def Decimal.toDouble (d : Decimal) : Float :=
  Float.ofBits (UInt64.ofNat (encode .double d.negative (d.magnitude .double)))

/-- The reals that round to a value: four times the mantissa, with a quarter of the spacing as the
unit, lies between two bounds, which belong to the interval if the mantissa is even. Below a power
of two the spacing is half as wide. -/
structure Cell where
  center : Nat
  lower : Nat
  upper : Nat
  closed : Bool
  exponent : Int

def Cell.of (f : BinaryFormat) (mantissa : Nat) (exponent : Int) : Cell :=
  let atPower := mantissa = twoTo f.fractionBits && exponent ≠ f.leastExponent
  { center := 4 * mantissa
    lower := 4 * mantissa - (if atPower then 1 else 2)
    upper := 4 * mantissa + 2
    closed := mantissa % 2 = 0
    exponent := exponent - 2 }

/-- Whether `n` times a power of ten rounds to the value. -/
def Cell.contains (c : Cell) (n : Nat) (k : Int) : Bool :=
  let point := n * powNum 10 k * powDen 2 c.exponent
  let scale := powNum 2 c.exponent * powDen 10 k
  if c.closed then c.lower * scale ≤ point && point ≤ c.upper * scale
  else c.lower * scale < point && point < c.upper * scale

/-- The multiple of a power of ten that is in the cell and nearest to its value. -/
def Cell.onGrid? (c : Cell) (k : Int) : Option Nat :=
  let value := c.center * powNum 2 c.exponent * powDen 10 k
  let unit := powNum 10 k * powDen 2 c.exponent
  let below := value / unit
  let twice := 2 * (value % unit)
  let near := if twice < unit || (twice = unit && below % 2 = 0) then below else below + 1
  let far := if near = below then below + 1 else below
  [near, far].find? fun n => n ≠ 0 && c.contains n k

/-- The first grid, from `k` downwards, that has a point in the cell. -/
def Cell.search (c : Cell) : Nat → Int → Option (Nat × Int)
  | 0, _ => none
  | n + 1, k =>
    match c.onGrid? k with
    | some digits => some (digits, k)
    | none => c.search n (k - 1)

/-- The fewest digits that read back in single precision, nearest first, for a positive value. -/
def shortest (mantissa : Nat) (exponent : Int) : Nat × Int :=
  ((Cell.of .single mantissa exponent).search 100 39).getD (0, 0)

/-- Digits of a natural, padded with zeros on the left. -/
def padded (width n : Nat) : String :=
  let digits := toString n
  String.ofList (List.replicate (width - digits.length) '0') ++ digits

/-- A value with a given number of places, a half going to the even neighbour. -/
def fixed (places : Nat) (x : Float32) : String :=
  match decode .single x.toBits.toNat with
  | (_, .notANumber) => "NaN"
  | (negative, .infinite) => if negative then "-inf" else "inf"
  | (negative, .finite mantissa exponent) =>
    let unit := Nat.pow 10 places
    let scaled := roundDiv (mantissa * powNum 2 exponent * unit) (powDen 2 exponent)
    let whole := scaled / unit
    let sign := if negative then "-" else ""
    if places = 0 then sign ++ toString whole
    else sign ++ toString whole ++ "." ++ padded places (scaled % unit)

end Lookalike.Number
