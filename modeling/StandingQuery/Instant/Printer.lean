import StandingQuery.Instant.Basic
import StandingQuery.Text.Digit

/-! The written form of an instant: date and time in UTC, closed by `Z`. The fraction has as few of
3, 6 or 9 digits as are exact and is left out when zero. Years outside 0 to 9999 carry a sign. -/

namespace StandingQuery.Instant

open Text (decimalIn)

def printYear (y : Int) : List Char :=
  if 0 ≤ y ∧ y ≤ 9999 then decimalIn 4 y.toNat
  else (if y < 0 then '-' else '+') :: decimalIn 4 y.natAbs

def printDate (d : Date) : List Char :=
  printYear d.year ++ '-' :: decimalIn 2 d.month ++ '-' :: decimalIn 2 d.day

def printClock (hour minute second : Nat) : List Char :=
  decimalIn 2 hour ++ ':' :: decimalIn 2 minute ++ ':' :: decimalIn 2 second

def printFraction (nanos : Nat) : List Char :=
  if nanos = 0 then []
  else if nanos % 1000000 = 0 then '.' :: decimalIn 3 (nanos / 1000000)
  else if nanos % 1000 = 0 then '.' :: decimalIn 6 (nanos / 1000)
  else '.' :: decimalIn 9 nanos

/-- A leap second prints as the second 60. -/
def print (t : Instant) : List Char :=
  let clock := (t.seconds % 86400).toNat
  let leap := t.nanos / nanosPerSecond
  printDate (Date.ofDayNumber (t.seconds / 86400)) ++
    'T' :: printClock (clock / 3600) (clock / 60 % 60) (clock % 60 + leap) ++
    printFraction (t.nanos % nanosPerSecond) ++ ['Z']

def toText (t : Instant) : String := String.ofList t.print

end StandingQuery.Instant
