import StandingQuery.Json.Reader

/-! Number literals: their parts, and the number they stand for. An integer of at most 64 bits is
kept exactly. Any other literal becomes a binary64 number in two roundings: the leading digits that
fit 64 bits give a significand, the power of ten is rounded on its own, and the two are multiplied
or divided. The result can be off in the last place; a product beyond the largest number is
refused. -/

namespace StandingQuery.Json

/-- The parts of a number literal. A fraction has digits; an exponent has a sign and digits. -/
structure Numeral where
  negative : Bool
  whole : List Char
  fraction : List Char
  exponent : Option (Bool × List Char)
deriving DecidableEq, Repr

namespace Numeral

/-- Digits without a leading zero, unless zero is the only one. `atEnd` is the failure when the text
ends before a digit. -/
def scanWhole (atEnd : Failure) (s : List Char) : Except Failure (List Char × List Char) :=
  match s with
  | [] => .error atEnd
  | '0' :: r =>
    if (r.head?.map Char.isDigit).getD false then .error (.malformed .badNumber)
    else .ok (['0'], r)
  | c :: r => if c.isDigit then .ok ((c :: r).span Char.isDigit) else .error (.malformed .badNumber)

/-- One digit or more. -/
def scanDigits (atEnd : Failure) (s : List Char) : Except Failure (List Char × List Char) :=
  match s with
  | [] => .error atEnd
  | c :: r => if c.isDigit then .ok ((c :: r).span Char.isDigit) else .error (.malformed .badNumber)

def scanFraction (atEnd : Failure) (s : List Char) : Except Failure (List Char × List Char) :=
  match s with
  | '.' :: r => scanDigits atEnd r
  | s => .ok ([], s)

def scanExponent (atEnd : Failure) (s : List Char) :
    Except Failure (Option (Bool × List Char) × List Char) :=
  match s with
  | c :: r =>
    if c = 'e' ∨ c = 'E' then do
      let (negative, r) := match r with
        | '-' :: r => (true, r)
        | '+' :: r => (false, r)
        | r => (false, r)
      let (ds, r) ← scanDigits atEnd r
      return (some (negative, ds), r)
    else .ok (none, s)
  | [] => .ok (none, [])

/-- The longest number literal at the front of a text. -/
def scan (atEnd : Failure) : Reader Numeral := fun s => do
  let (negative, s) := match s with
    | '-' :: r => (true, r)
    | s => (false, s)
  let (whole, s) ← scanWhole atEnd s
  let (fraction, s) ← scanFraction atEnd s
  let (exponent, s) ← scanExponent atEnd s
  return (⟨negative, whole, fraction, exponent⟩, s)

/-- The leading digits that fit 64 bits, as a number, and how many digits are left after them. -/
def leading (significand : Nat) : List Char → Nat × List Char
  | [] => (significand, [])
  | d :: ds =>
    let next := 10 * significand + Text.digitValue d
    if next < UInt64.size then leading next ds else (significand, d :: ds)

/-- The power of ten that the exponent writes. -/
def writtenExponent (n : Numeral) : Int :=
  match n.exponent with
  | none => 0
  | some (false, ds) => Text.decimalValue ds
  | some (true, ds) => -Text.decimalValue ds

def powerOfTen (k : Nat) : Binary64 := (Binary64.ofQuotient (Nat.pow 10 k) 1).getD .zero

/-- `significand * 10 ^ exponent`; dividing twice by the largest power of ten leaves nothing. -/
def scaled? (significand : Nat) (exponent : Int) : Option Binary64 := do
  let x ← Binary64.ofQuotient significand 1
  if exponent.natAbs ≤ 308 then
    if 0 ≤ exponent then x.mul? (powerOfTen exponent.natAbs)
    else x.div? (powerOfTen exponent.natAbs)
  else if x.isZero then some x
  else if 0 ≤ exponent then none
  else if (exponent + 308).natAbs ≤ 308 then
    (← x.div? (powerOfTen 308)).div? (powerOfTen (exponent + 308).natAbs)
  else some .zero

/-- Neither point nor exponent. -/
def isWhole (n : Numeral) : Bool := n.fraction.isEmpty && n.exponent.isNone

/-- The integer that a whole literal spells, if it is kept as one. -/
def integer? (n : Numeral) : Option Int :=
  let v := Text.decimalValue n.whole
  if !n.isWhole then none
  else if n.negative then if 0 < v ∧ v ≤ UInt64.size / 2 then some (-v) else none
  else if v < UInt64.size then some v else none

/-- The binary64 number read from the literal, `none` when out of range. -/
def float? (n : Numeral) : Option Binary64 := do
  let (front, dropped) := leading 0 n.whole
  let (significand, left) := leading front n.fraction
  let used := n.fraction.length - left.length
  let x ← scaled? significand (dropped.length - used + n.writtenExponent)
  return { x with negative := n.negative }

def number (n : Numeral) : Except Failure Number :=
  match n.integer?, n.float? with
  | some i, _ => .ok (.integer i)
  | none, some x => .ok (.float x)
  | none, none => .error (.malformed .numberTooLarge)

end Numeral

/-- A number literal and the number it stands for. -/
def numberToken : Reader Number := fun s => do
  let (n, r) ← Numeral.scan (.ended .value) s
  return (← n.number, r)

end StandingQuery.Json
