import Lookalike.Number.Decimal
import Lookalike.Number.Digits
import Lookalike.Text.Basic

/-!
# Timestamps

An instant as seconds since 1970 in UTC and nanoseconds. A leap second is the second before it with
a nanosecond count of a thousand million or more. Timestamps are read in the relaxed form of
RFC 3339, in which blanks may surround the numbers, and written in UTC with as few of 0, 3, 6 or 9
places as hold the fraction.
-/

namespace Lookalike

structure Timestamp where
  seconds : Int
  nanos : Nat
  deriving DecidableEq, Repr

namespace Timestamp

/-- Days from 1970-01-01 to a date of the proleptic Gregorian calendar; the year is taken to begin
in March. -/
def daysFromCivil (year : Int) (month day : Nat) : Int :=
  let y := if month ≤ 2 then year - 1 else year
  let era := Int.fdiv y 400
  let yearOfEra := (y - era * 400).toNat
  let shifted := if 2 < month then month - 3 else month + 9
  let dayOfYear := (153 * shifted + 2) / 5 + day - 1
  let dayOfEra := yearOfEra * 365 + yearOfEra / 4 - yearOfEra / 100 + dayOfYear
  era * 146097 + dayOfEra - 719468

structure Date where
  year : Int
  month : Nat
  day : Nat
  deriving DecidableEq, Repr

def civilFromDays (days : Int) : Date :=
  let z := days + 719468
  let era := Int.fdiv z 146097
  let dayOfEra := (z - era * 146097).toNat
  let yearOfEra := (dayOfEra - dayOfEra / 1460 + dayOfEra / 36524 - dayOfEra / 146096) / 365
  let dayOfYear := dayOfEra - (365 * yearOfEra + yearOfEra / 4 - yearOfEra / 100)
  let shifted := (5 * dayOfYear + 2) / 153
  let month := if shifted < 10 then shifted + 3 else shifted - 9
  let year : Int := era * 400 + yearOfEra
  { year := if month ≤ 2 then year + 1 else year
    month
    day := dayOfYear - (153 * shifted + 2) / 5 + 1 }

def isLeapYear (year : Int) : Bool := year % 4 = 0 && (year % 100 ≠ 0 || year % 400 = 0)

def daysInMonth (year : Int) (month : Nat) : Nat :=
  if month = 2 then (if isLeapYear year then 29 else 28)
  else if month ∈ [4, 6, 9, 11] then 30
  else 31

section Writing

open Number (padded)

def yearText (year : Int) : String :=
  if 0 ≤ year ∧ year ≤ 9999 then padded 4 year.toNat
  else (if year < 0 then "-" else "+") ++ padded 4 year.natAbs

def fractionText (nanos : Nat) : String :=
  if nanos = 0 then ""
  else if nanos % 1000000 = 0 then "." ++ padded 3 (nanos / 1000000)
  else if nanos % 1000 = 0 then "." ++ padded 6 (nanos / 1000)
  else "." ++ padded 9 nanos

/-- Date and time in UTC, without the offset. -/
def bareText (t : Timestamp) : String :=
  let date := civilFromDays (Int.fdiv t.seconds 86400)
  let time := (Int.fmod t.seconds 86400).toNat
  let leap := if 1000000000 ≤ t.nanos then 1 else 0
  yearText date.year ++ "-" ++ padded 2 date.month ++ "-" ++ padded 2 date.day ++ "T" ++
    padded 2 (time / 3600) ++ ":" ++ padded 2 (time / 60 % 60) ++ ":" ++
    padded 2 (time % 60 + leap) ++ fractionText (t.nanos % 1000000000)

/-- The form in documents. -/
def text (t : Timestamp) : String := t.bareText ++ "Z"

/-- The form that spells out the offset. -/
def textWithOffset (t : Timestamp) : String := t.bareText ++ "+00:00"

end Writing

section Reading

open Number (natOf)
open Text (isBlank trimStart)

abbrev Input := List Char

/-- Between one and `width` digits, after blanks. -/
def number? (width : Nat) (input : Input) : Option (Nat × Input) :=
  let digits := (input.take width).takeWhile Char.isDigit
  if digits.isEmpty then none else some (natOf digits, input.drop digits.length)

def unsigned? (width low high : Nat) (input : Input) : Option (Nat × Input) := do
  let (n, rest) ← number? width (trimStart input)
  guard (low ≤ n && n ≤ high)
  return (n, rest)

/-- A year has up to four digits, or any number of them after a sign. -/
def year? (input : Input) : Option (Int × Input) :=
  match trimStart input with
  | '-' :: rest => (number? rest.length rest).map fun (n, rest) => (-(n : Int), rest)
  | '+' :: rest => (number? rest.length rest).map fun (n, rest) => ((n : Int), rest)
  | input => (number? 4 input).map fun (n, rest) => ((n : Int), rest)

/-- A mark that may follow blanks. -/
def mark? (c : Char) (input : Input) : Option Input :=
  match trimStart input with
  | d :: rest => if d = c then some rest else none
  | [] => none

def separator? : Input → Option Input
  | 't' :: rest | 'T' :: rest | ' ' :: rest => some rest
  | _ => none

/-- Up to nine digits count; further ones are skipped. -/
def fraction? : Input → Option (Nat × Input)
  | '.' :: rest => do
    let digits := (rest.take 9).takeWhile Char.isDigit
    guard !digits.isEmpty
    return (natOf digits * Nat.pow 10 (9 - digits.length),
      (rest.drop digits.length).dropWhile Char.isDigit)
  | input => some (0, input)

/-- Two digits of an offset, the first at most `top`. -/
def pair? (top : Char) : Input → Option (Nat × Input)
  | a :: b :: rest =>
    if a.isDigit && a ≤ top && b.isDigit then some (natOf [a, b], rest) else none
  | _ => none

/-- Seconds east of UTC: `Z`, or a sign with hours and minutes, between which colons and blanks may
stand. -/
def offset? (input : Input) : Option (Int × Input) :=
  let signed (sign : Int) (rest : Input) : Option (Int × Input) := do
    let (hours, rest) ← pair? '9' rest
    let (minutes, rest) ← pair? '5' (rest.dropWhile fun c => c = ':' || isBlank c)
    return (sign * (hours * 3600 + minutes * 60 : Nat), rest)
  match input with
  | 'Z' :: rest | 'z' :: rest => some (0, rest)
  | '+' :: rest => signed 1 rest
  | '-' :: rest | '\u2212' :: rest => signed (-1) rest
  | u :: t :: c :: rest =>
    if [u, t, c].map Char.toUpper = ['U', 'T', 'C'] then some (0, rest) else none
  | _ => none

def parse? (text : String) : Option Timestamp := do
  let (year, rest) ← year? text.toList
  let (month, rest) ← unsigned? 2 1 12 (← mark? '-' rest)
  let (day, rest) ← unsigned? 2 1 31 (← mark? '-' rest)
  let (hour, rest) ← unsigned? 2 0 23 (← separator? rest)
  let (minute, rest) ← unsigned? 2 0 59 (← mark? ':' rest)
  let (second, rest) ← unsigned? 2 0 60 (← mark? ':' rest)
  let (nanos, rest) ← fraction? rest
  let (offset, rest) ← offset? (trimStart rest)
  guard (trimStart rest).isEmpty
  guard (day ≤ daysInMonth year month && -262143 ≤ year && year ≤ 262142)
  guard (offset.natAbs < 86400)
  let leap := second = 60
  let time : Nat := hour * 3600 + minute * 60 + (if leap then 59 else second)
  return { seconds := daysFromCivil year month day * 86400 + time - offset
           nanos := if leap then nanos + 1000000000 else nanos }

end Reading

end Timestamp

end Lookalike
