import StandingQuery.Instant.Basic
import StandingQuery.Instant.Fault
import StandingQuery.Text.Blank
import StandingQuery.Text.Digit

/-! Reads the spelled form of an instant, in a relaxed RFC 3339: blanks may stand before each part,
`T` may be a small letter or a space, the zone may be `UTC`, and a signed year has any number of
digits. The text is read from left to right and the first fault decides. Only then is it asked
whether the date exists and where the instant lies. -/

namespace StandingQuery.Instant

open Text (isBlank skipBlanks decimalValue)

/-- Takes a part off the front of a text. -/
abbrev Scan (α : Type) := List Char → Except SpellingFault (α × List Char)

/-- A run of digits, of which there must be one. -/
def digits : Scan (List Char) := fun s =>
  match s.span Char.isDigit with
  | ([], []) => .error .short
  | ([], _ :: _) => .error .invalid
  | (ds, r) => .ok (ds, r)

/-- A number of at most `width` digits after blanks. -/
def field (width : Nat) : Scan Nat := fun s => do
  let s := skipBlanks s
  let (ds, _) ← digits s
  let ds := ds.take width
  return (decimalValue ds, s.drop ds.length)

/-- A number of two digits at most that lies between `low` and `high`. -/
def fieldIn (low high : Nat) : Scan Nat := fun s => do
  let (n, r) ← field 2 s
  if low ≤ n ∧ n ≤ high then return (n, r) else .error .range

/-- The character `c`, with no blanks before it. -/
def expect (c : Char) : List Char → Except SpellingFault (List Char)
  | [] => .error .short
  | d :: r => if d = c then .ok r else .error .invalid

/-- Digits after a sign; a year has 32 bits. -/
def signedYear (sign : Int) : Scan Int := fun s => do
  let (ds, r) ← digits s
  let y := sign * decimalValue ds
  if Int32.minValue.toInt ≤ y ∧ y ≤ Int32.maxValue.toInt then return (y, r) else .error .range

/-- A year of at most four digits, or of any number of digits after a sign. -/
def year : Scan Int := fun s =>
  match skipBlanks s with
  | '-' :: r => signedYear (-1) r
  | '+' :: r => signedYear 1 r
  | s => do
    let (n, r) ← field 4 s
    return (Int.ofNat n, r)

/-- Up to nine digits after a point, as nanoseconds; further digits are dropped. -/
def fraction : Scan Nat
  | '.' :: s => do
    let (ds, r) ← digits s
    let ds := ds.take 9
    return (decimalValue ds * Nat.pow 10 (9 - ds.length), r)
  | s => .ok (0, s)

/-- Two digits that follow directly. A text of less than two bytes is too short for them. -/
def twoDigits : Scan Nat
  | a :: b :: r =>
    if a.isDigit ∧ b.isDigit then .ok (decimalValue [a, b], r) else .error .invalid
  | [a] => if a.utf8Size < 2 then .error .short else .error .invalid
  | [] => .error .short

/-- A sign, hours and minutes, as minutes east of UTC. -/
def offset (sign : Int) : Scan Int := fun s => do
  let (hours, s) ← twoDigits s
  let (minutes, s) ← twoDigits (s.dropWhile fun c => c == ':' || isBlank c)
  if minutes < 60 then return (sign * (60 * hours + minutes), s) else .error .range

/-- The zone, as minutes east of UTC. -/
def zone : Scan Int
  | [] => .error .short
  | c :: r =>
    match (c :: r).take 3 |>.map Char.toUpper with
    | ['U', 'T', 'C'] => .ok (0, r.drop 2)
    | _ =>
      match c with
      | 'Z' | 'z' => .ok (0, r)
      | '+' => offset 1 r
      | '-' | '\u2212' => offset (-1) r
      | _ => .error .invalid

/-- A local date and time with its distance from UTC, as spelled. -/
structure Spelling where
  date : Date
  hour : Nat
  minute : Nat
  second : Nat
  nanos : Nat
  eastMinutes : Int
deriving Repr

def readDate : Scan Date := fun s => do
  let (y, s) ← year s
  let s ← expect '-' (skipBlanks s)
  let (m, s) ← fieldIn 1 12 s
  let s ← expect '-' (skipBlanks s)
  let (d, s) ← fieldIn 1 31 s
  return (⟨y, m, d⟩, s)

/-- The letter or space between date and time. -/
def separator : List Char → Except SpellingFault (List Char)
  | [] => .error .short
  | c :: r => if c = 'T' ∨ c = 't' ∨ c = ' ' then .ok r else .error .invalid

def readSpelling (s : List Char) : Except SpellingFault Spelling := do
  let (date, s) ← readDate s
  let s ← separator s
  let (hour, s) ← fieldIn 0 23 s
  let s ← expect ':' (skipBlanks s)
  let (minute, s) ← fieldIn 0 59 s
  let s ← expect ':' (skipBlanks s)
  let (second, s) ← fieldIn 0 60 s
  let (nanos, s) ← fraction s
  let (east, s) ← zone (skipBlanks s)
  if Text.isAllBlank s then return ⟨date, hour, minute, second, nanos, east⟩
  else .error .long

/-- The instant a spelling names. -/
def Spelling.resolve (p : Spelling) : Except SpellingFault Instant := do
  unless p.date.Exists ∧ firstYear ≤ p.date.year ∧ p.date.year ≤ lastYear do .error .range
  unless p.eastMinutes.natAbs < 24 * 60 do .error .range
  let clock := 3600 * p.hour + 60 * p.minute + min p.second 59
  let seconds := 86400 * p.date.dayNumber + clock - 60 * p.eastMinutes
  let nanos := if p.second = 60 then p.nanos + nanosPerSecond else p.nanos
  match ofSeconds? seconds nanos with
  | some t => return t
  | none => .error .impossible

def read (s : List Char) : Except SpellingFault Instant := do
  (← readSpelling s).resolve

end StandingQuery.Instant
