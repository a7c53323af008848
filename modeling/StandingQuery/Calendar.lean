/-! The proleptic Gregorian calendar with astronomical years: the number of the day on which a
date falls, counted from 1970-01-01, and the date of a numbered day. Years repeat every 400; within
such a cycle the last century and the last year of a four-year group are a day longer, which is why
the quotients are capped. -/

namespace StandingQuery

structure Date where
  year : Int
  month : Nat
  day : Nat
deriving DecidableEq, Repr

namespace Calendar

def isLeap (y : Int) : Bool := (y % 4 == 0 && y % 100 != 0) || y % 400 == 0

def monthLength (leap : Bool) : Nat → Nat
  | 2 => if leap then 29 else 28
  | 4 | 6 | 9 | 11 => 30
  | _ => 31

/-- Days of the year before its `m`th month. -/
def daysBeforeMonth (leap : Bool) : Nat → Nat
  | 0 | 1 => 0
  | m + 1 => daysBeforeMonth leap m + monthLength leap m

/-- Days from 0001-01-01 to the first of January of the year `y`. -/
def daysBeforeYear (y : Int) : Int :=
  365 * (y - 1) + (y - 1) / 4 - (y - 1) / 100 + (y - 1) / 400

/-- Days from 0001-01-01 to 1970-01-01. -/
def epochOffset : Int := 719162

end Calendar

namespace Date

open Calendar

def Exists (d : Date) : Prop :=
  1 ≤ d.month ∧ d.month ≤ 12 ∧ 1 ≤ d.day ∧ d.day ≤ monthLength (isLeap d.year) d.month

instance (d : Date) : Decidable d.Exists := by unfold Exists; infer_instance

/-- Days from 1970-01-01 to the date, negative before it. -/
def dayNumber (d : Date) : Int :=
  daysBeforeYear d.year + daysBeforeMonth (isLeap d.year) d.month + d.day - 1 - epochOffset

/-- The month and day that lie `n` days after the first of month `m`, in at most `fuel` months more.
Eleven are enough from January on. -/
def monthDay (leap : Bool) (m n : Nat) : Nat → Nat × Nat
  | 0 => (m, n + 1)
  | fuel + 1 =>
    if n < monthLength leap m then (m, n + 1)
    else monthDay leap (m + 1) (n - monthLength leap m) fuel

/-- The date of the `n`th day after 1970-01-01. -/
def ofDayNumber (n : Int) : Date :=
  let days := n + epochOffset
  let cycle := days / 146097
  let inCycle := (days % 146097).toNat
  let century := min (inCycle / 36524) 3
  let inCentury := inCycle - 36524 * century
  let group := inCentury / 1461
  let inGroup := inCentury % 1461
  let single := min (inGroup / 365) 3
  let inYear := inGroup - 365 * single
  let year := 400 * cycle + Int.ofNat (100 * century + 4 * group + single) + 1
  let (month, day) := monthDay (isLeap year) 1 inYear 11
  ⟨year, month, day⟩

end Date
end StandingQuery
