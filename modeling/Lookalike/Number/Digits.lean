/-!
# Digits

Naturals by their decimal digits, single hexadecimal digits, and the bounds of the naturals that fit
into a machine word. Both directions agree: `natOf_toDigits` and `hexValue?_digitChar`.
-/

namespace Lookalike.Number

/-- A power of two. -/
def twoTo (n : Nat) : Nat := Nat.pow 2 n

/-- Naturals of 32 bits lie below this. -/
def wordBound : Nat := twoTo 32

/-- Naturals of 64 bits lie below this. -/
def longBound : Nat := twoTo 64

/-- The value of a decimal digit. -/
def digitValue (c : Char) : Nat := c.toNat - '0'.toNat

/-- The natural that some decimal digits stand for. -/
def natOf (digits : List Char) : Nat := Nat.ofDigitChars 10 digits 0

theorem natOf_toDigits (n : Nat) : natOf (Nat.toDigits 10 n) = n :=
  Nat.ofDigitChars_ten_toDigits

/-- The value of a hexadecimal digit, small or capital. -/
def hexValue? (c : Char) : Option Nat :=
  if c.isDigit then some (digitValue c)
  else if 'a' ≤ c && c ≤ 'f' then some (10 + (c.toNat - 'a'.toNat))
  else if 'A' ≤ c && c ≤ 'F' then some (10 + (c.toNat - 'A'.toNat))
  else none

theorem hexValue?_digitChar {n : Nat} (h : n < 16) : hexValue? (Nat.digitChar n) = some n := by
  revert n
  decide

end Lookalike.Number
