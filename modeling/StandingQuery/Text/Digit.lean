/-! Digits in base ten and sixteen, read and written one character at a time. -/

namespace StandingQuery.Text

/-- The value of an ASCII digit. -/
def digitValue (c : Char) : Nat := c.toNat - '0'.toNat

/-- The number a run of decimal digits spells, leading zeros allowed. -/
def decimalValue (ds : List Char) : Nat := Nat.ofDigitChars 10 ds 0

/-- The value of a hexadecimal digit of either case. -/
def hexValue? (c : Char) : Option Nat :=
  if c.isDigit then some (digitValue c)
  else if 'a' ≤ c ∧ c ≤ 'f' then some (c.toNat - 'a'.toNat + 10)
  else if 'A' ≤ c ∧ c ≤ 'F' then some (c.toNat - 'A'.toNat + 10)
  else none

/-- Decimal digits of `n`, without leading zeros; `0` for zero. -/
def decimal (n : Nat) : List Char := Nat.toDigits 10 n

theorem decimalValue_decimal (n : Nat) : decimalValue (decimal n) = n :=
  Nat.ofDigitChars_toDigits (by decide) (by decide)

/-- Lower-case hexadecimal digits of `n`, without leading zeros. -/
def hex (n : Nat) : List Char := Nat.toDigits 16 n

/-- At least `width` characters, filled up with zeros on the left. -/
def padZero (width : Nat) (ds : List Char) : List Char :=
  List.replicate (width - ds.length) '0' ++ ds

/-- Decimal digits of `n` in a field of at least `width`. -/
def decimalIn (width n : Nat) : List Char := padZero width (decimal n)

end StandingQuery.Text
