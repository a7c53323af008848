/-! Finite binary64 numbers as integers times a power of two. A rational is rounded to the nearest
of them, a tie going to the even significand; one half unit or more above the largest is out of
range. Products and quotients are the exact ones, rounded once. -/

namespace StandingQuery

/-- The number `significand * 2 ^ exponent`, negated when `negative`. The significand is below
`2 ^ 53`; it is at least `2 ^ 52` unless the exponent is the least one. Zero has a sign. -/
structure Binary64 where
  negative : Bool
  significand : Nat
  exponent : Int
deriving DecidableEq, Repr

namespace Binary64

def leastExponent : Int := -1074

def greatestExponent : Int := 971

def zero : Binary64 := ⟨false, 0, leastExponent⟩

def isZero (x : Binary64) : Bool := x.significand == 0

/-- The integer nearest to `num / den`, the even one of two equally near. -/
def roundQuotient (num den : Nat) : Nat :=
  let q := num / den
  let r := num % den
  if 2 * r < den then q else if 2 * r = den then q + q % 2 else q + 1

/-- The exponent under which the quotient has 53 binary digits before the point, or the least. -/
def exponentFor (num den : Nat) : Int :=
  let e : Int := Int.ofNat num.log2 - Int.ofNat den.log2 - 53
  let whole := num * Nat.pow 2 (-e).toNat / (den * Nat.pow 2 e.toNat)
  max (if whole < Nat.pow 2 53 then e else e + 1) leastExponent

/-- The number nearest to `num / den`, or `none` when that is out of range. -/
def ofQuotient (num den : Nat) : Option Binary64 :=
  if num = 0 then some zero
  else
    let e := exponentFor num den
    let m := roundQuotient (num * Nat.pow 2 (-e).toNat) (den * Nat.pow 2 e.toNat)
    let x : Binary64 := if m < Nat.pow 2 53 then ⟨false, m, e⟩ else ⟨false, Nat.pow 2 52, e + 1⟩
    if x.exponent ≤ greatestExponent then some x else none

/-- The absolute value as a quotient. -/
def quotient (x : Binary64) : Nat × Nat :=
  (x.significand * Nat.pow 2 x.exponent.toNat, Nat.pow 2 (-x.exponent).toNat)

/-- The product of the absolute values. -/
def mul? (x y : Binary64) : Option Binary64 :=
  let (a, b) := x.quotient
  let (c, d) := y.quotient
  ofQuotient (a * c) (b * d)

/-- The quotient of the absolute values; the divisor is not zero. -/
def div? (x y : Binary64) : Option Binary64 :=
  let (a, b) := x.quotient
  let (c, d) := y.quotient
  ofQuotient (a * d) (b * c)

end Binary64
end StandingQuery
