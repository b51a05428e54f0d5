import Lookalike.Json.Basic
import Lookalike.SortedMap

/-!
# Records in JSON

How records are read from JSON values. A record is an object, in which unknown keys are ignored and
a repeated one is an error, or an array of its fields in order. A field that may be empty may be
absent from an object but not from an array; a field with a default may be absent from both.
-/

namespace Lookalike.Json

/-- The fields found in a value. -/
structure Record where
  byPosition : Bool
  fields : List (String × Json)

namespace Record

def get? (r : Record) (name : String) : Option Json :=
  (r.fields.find? (·.1 = name)).map (·.2)

/-- The members of an object whose keys are among the given names, unless one is repeated or a key
is no text. -/
def ofMembers? (names : List String) (members : List (Option String × Json)) : Option Record := do
  let keyed ← members.mapM fun (key, value) => key.map fun key => (key, value)
  let known := keyed.filter fun (key, _) => key ∈ names
  guard (decide ((known.map (·.1)).Nodup))
  return ⟨false, known⟩

def of? (names : List String) : Json → Option Record
  | object members => ofMembers? names members
  | array items => do
    guard (items.length ≤ names.length)
    return ⟨true, names.zip items⟩
  | _ => none

variable {α : Type}

def required? (r : Record) (name : String) (read : Json → Option α) : Option α :=
  (r.get? name).bind read

/-- A field that may be null. -/
def nullable? (r : Record) (name : String) (read : Json → Option α) : Option (Option α) :=
  match r.get? name with
  | none => if r.byPosition then none else some none
  | some null => some none
  | some value => (read value).map some

def defaulted? (r : Record) (name : String) (default : α) (read : Json → Option α) : Option α :=
  match r.get? name with
  | none => some default
  | some value => read value

end Record

def toText? : Json → Option String
  | string text => text
  | _ => none

def toBool? : Json → Option Bool
  | bool value => some value
  | _ => none

/-- A natural below a bound. -/
def toNatBelow? (bound : Nat) : Json → Option Nat
  | number n => n.toNat?.filter (· < bound)
  | _ => none

def toSingle? : Json → Option Float32
  | number n => n.toSingle?
  | _ => none

def toList? {α : Type} (read : Json → Option α) : Json → Option (List α)
  | array items => items.mapM read
  | _ => none

/-- A map from texts; the last of repeated keys wins. -/
def toMap? {α : Type} (read : Json → Option α) : Json → Option (SortedMap α)
  | object members => do
    let entries ← members.mapM fun (key, value) => do return (← key, ← read value)
    return SortedMap.ofList entries
  | _ => none

/-- One of a set of words: the word itself, or an object that maps only the word to null. -/
def toWord? {α : Type} (ofWord? : String → Option α) : Json → Option α
  | string text => text.bind ofWord?
  | object [(key, null)] => key.bind ofWord?
  | _ => none

section Building

def ofText (text : String) : Json := string (some text)

def ofNat (n : Nat) : Json := number (.ofNat n)

def ofList {α : Type} (write : α → Json) (items : List α) : Json := array (items.map write)

def ofOption {α : Type} (write : α → Json) : Option α → Json
  | none => null
  | some value => write value

def ofFields (fields : List (String × Json)) : Json :=
  object (fields.map fun (name, value) => (some name, value))

def ofMap {α : Type} (write : α → Json) (m : SortedMap α) : Json :=
  ofFields (m.entries.map fun (key, value) => (key, write value))

/-- How a number in single precision is spelled. -/
structure FloatLayout where
  /-- The largest count of digits before the point that is written out. -/
  maxWhole : Int
  /-- The largest count of zeros after the point that is written out. -/
  maxZeros : Int

/-- Documents write values from 0.00001 to below 10^13 without an exponent. -/
def documentLayout : FloatLayout := ⟨13, 5⟩

/-- A zero is inserted where no digit stands before or after the point. -/
def floatNumeral (layout : FloatLayout) (negative : Bool) (digits : Nat) (k : Int) : Numeral :=
  let ds := Nat.toDigits 10 digits
  let point : Int := ds.length + k
  if 0 ≤ k ∧ point ≤ layout.maxWhole then
    ⟨negative, ds ++ List.replicate k.toNat '0', some ['0'], none⟩
  else if 0 < point ∧ point ≤ layout.maxWhole then
    ⟨negative, ds.take point.toNat, some (ds.drop point.toNat), none⟩
  else if -layout.maxZeros ≤ point ∧ point ≤ 0 then
    ⟨negative, ['0'], some (List.replicate (-point).toNat '0' ++ ds), none⟩
  else
    let e := point - 1
    let exponent := (if e < 0 then some '-' else none, Nat.toDigits 10 e.natAbs)
    match ds with
    | [d] => ⟨negative, [d], none, some exponent⟩
    | ds => ⟨negative, ds.take 1, some (ds.drop 1), some exponent⟩

/-- A number by the fewest digits that read back; null if it is not finite. -/
def ofSingle (x : Float32) : Json :=
  match Number.decode .single x.toBits.toNat with
  | (negative, .finite 0 _) => number ⟨negative, ['0'], some ['0'], none⟩
  | (negative, .finite mantissa exponent) =>
    let (digits, k) := Number.shortest mantissa exponent
    number (floatNumeral documentLayout negative digits k)
  | _ => null

end Building

end Lookalike.Json
