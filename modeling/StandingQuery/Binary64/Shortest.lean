import StandingQuery.Binary64.Basic
import StandingQuery.Text.Digit

/-! The fewest decimal digits that read back as a given number, and their layout. The reals that
round to `m * 2 ^ e` form an interval around it, with its ends iff `m` is even. For one, two, …
seventeen digits the two neighbours of the number on that decimal grid are tried; the first grid
with a hit wins, of two hits the nearer one. -/

namespace StandingQuery.Binary64

/-- A positive decimal `digits * 10 ^ exponent`. -/
structure Decimal where
  digits : Nat
  exponent : Int
deriving DecidableEq, Repr

/-- The power of ten at or below the positive quotient `num / den`. -/
def decimalExponent (num den : Nat) : Int :=
  if den ≤ num then Int.ofNat (Text.decimal (num / den)).length - 1
  else -Int.ofNat (Text.decimal ((den - 1) / num)).length

/-- The reals that round to a number, between two quotients over one denominator. -/
structure Interval where
  low : Nat
  value : Nat
  high : Nat
  den : Nat
  closed : Bool
deriving Repr

/-- Half a unit to either side; below a power of two the numbers lie twice as dense. -/
def interval (x : Binary64) : Interval :=
  let m := x.significand
  let unit := Nat.pow 2 x.exponent.toNat
  let below := if m = Nat.pow 2 52 ∧ leastExponent < x.exponent then 1 else 2
  { low := (4 * m - below) * unit
    value := 4 * m * unit
    high := (4 * m + 2) * unit
    den := 4 * Nat.pow 2 (-x.exponent).toNat
    closed := m % 2 = 0 }

/-- Holds the decimal `d * scale / unscale`. -/
def Interval.holds (i : Interval) (d scale unscale : Nat) : Bool :=
  let v := d * scale * i.den
  if i.closed then i.low * unscale ≤ v && v ≤ i.high * unscale
  else i.low * unscale < v && v < i.high * unscale

/-- The hit on the grid of multiples of `10 ^ k`, if there is one. -/
def Interval.hit (i : Interval) (k : Int) : Option Nat :=
  let scale := Nat.pow 10 k.toNat
  let unscale := Nat.pow 10 (-k).toNat
  let step := i.den * scale
  let down := i.value * unscale / step
  let rest := i.value * unscale % step
  match i.holds down scale unscale, i.holds (down + 1) scale unscale with
  | true, true =>
    if 2 * rest < step then some down
    else if 2 * rest = step then some (down + down % 2) else some (down + 1)
  | true, false => some down
  | false, true => some (down + 1)
  | false, false => none

/-- The first grid with a hit, from a grid of as many places as `fuel` down to one of seventeen. -/
def Interval.search (i : Interval) (top : Int) : Nat → Decimal
  | 0 => ⟨0, 0⟩
  | fuel + 1 =>
    let k := top - Int.ofNat (16 - fuel)
    match i.hit k with
    | some d => ⟨d, k⟩
    | none => i.search top fuel

/-- The shortest decimal that reads back as the absolute value, which is not zero. -/
def shortest (x : Binary64) : Decimal :=
  let i := x.interval
  i.search (decimalExponent i.value i.den) 17

/-- Without zeros at the end of a run of digits. -/
def dropTrailingZeros (ds : List Char) : List Char := (ds.reverse.dropWhile (· == '0')).reverse

/-- Digits `d₁d₂…` that stand for `d₁.d₂… * 10 ^ point`. The point is set among or beside the
digits from `10 ^ -5` to below `10 ^ 16`, with at least one digit on either side; outside, the
power of ten is written out with its sign. -/
def layout (ds : List Char) (point : Int) : List Char :=
  if -5 ≤ point ∧ point < 0 then
    '0' :: '.' :: List.replicate ((-point).toNat - 1) '0' ++ ds
  else if 0 ≤ point ∧ point < 16 then
    let whole := point.toNat + 1
    let front := ds.take whole ++ List.replicate (whole - ds.length) '0'
    let back := ds.drop whole
    front ++ '.' :: (if back.isEmpty then ['0'] else back)
  else
    let front := ds.take 1
    let back := ds.drop 1
    front ++ (if back.isEmpty then [] else '.' :: back) ++
      'e' :: (if point < 0 then '-' else '+') :: Text.decimal point.natAbs

def toText (x : Binary64) : String :=
  let sign := if x.negative then ['-'] else []
  if x.isZero then String.ofList (sign ++ ['0', '.', '0'])
  else
    let d := x.shortest
    let all := Text.decimal d.digits
    String.ofList (sign ++ layout (dropTrailingZeros all) (d.exponent + Int.ofNat all.length - 1))

end StandingQuery.Binary64
