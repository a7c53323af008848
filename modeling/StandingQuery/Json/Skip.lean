import StandingQuery.Json.Numeral
import StandingQuery.Json.Text

/-! Values whose parts are not kept. The arrays and objects that are open are a stack, so nesting
costs no recursion. Two readers share the walk: the strict one holds every part to the rules for
values that are read, the lenient one looks only at the grammar and knows no limit of depth. -/

namespace StandingQuery.Json

/-- An open array or object. -/
inductive Frame where
  | sequence
  | map
deriving DecidableEq, Repr

/-- What is held to the rules beyond the grammar. -/
inductive Care where
  | lenient
  /-- Holds pairs of surrogates, the range of numbers and the depth, of which `room` is left. -/
  | strict (room : Nat)
deriving DecidableEq, Repr

/-- What stands next in the text. -/
inductive Stage where
  | value
  /-- The first part of the innermost frame, or its end. -/
  | first
  /-- A comma, or the end of the innermost frame; the end of the walk if no frame is open. -/
  | next
deriving DecidableEq, Repr

namespace Care

def text (care : Care) (s : List Char) : Except Failure (List Char) :=
  match care with
  | .lenient => skipText s
  | .strict _ => do return (← textTail s).2

def numeral (care : Care) (s : List Char) : Except Failure (List Char) :=
  match care with
  | .lenient => do return (← Numeral.scan (.malformed .badNumber) s).2
  | .strict _ => do return (← numberToken s).2

def mayOpen (care : Care) (depth : Nat) : Except Failure Unit :=
  match care with
  | .lenient => .ok ()
  | .strict room => do let _ ← enter (room - depth)

/-- Behind a comma in an array. -/
def afterComma (care : Care) (s : List Char) : Except Failure (List Char) :=
  match care with
  | .lenient => .ok s
  | .strict _ => do return (← nextElement false (',' :: s)).getD s

/-- Behind a comma in an object: the text after the quote mark that opens a key. -/
def keyAfterComma (care : Care) (s : List Char) : Except Failure (List Char) :=
  match care with
  | .lenient =>
    match skipBlanks s with
    | [] => .error (.ended .map)
    | '"' :: r => .ok r
    | _ => .error (.malformed .keyNotText)
  | .strict _ => do
    match ← nextMember false (',' :: s) with
    | .key r => return r
    | .close r => return r

/-- A key after its opening quote mark, and the colon. -/
def key (care : Care) (s : List Char) : Except Failure (List Char) := do
  colon (← care.text s)

end Care

/-- The stage reached, the frames open there, and the text left. -/
structure Walk where
  stage : Stage
  frames : List Frame
  rest : List Char

namespace Walk

/-- One scalar, or one bracket opened. -/
def value (care : Care) (frames : List Frame) (s : List Char) : Except Failure Walk :=
  match skipBlanks s with
  | [] => .error (.ended .value)
  | 'n' :: r => do return ⟨.next, frames, (← word () ['u', 'l', 'l'] r).2⟩
  | 't' :: r => do return ⟨.next, frames, (← word () ['r', 'u', 'e'] r).2⟩
  | 'f' :: r => do return ⟨.next, frames, (← word () ['a', 'l', 's', 'e'] r).2⟩
  | '"' :: r => do return ⟨.next, frames, ← care.text r⟩
  | '[' :: r => do
    care.mayOpen frames.length
    return ⟨.first, .sequence :: frames, r⟩
  | '\x7b' :: r => do
    care.mayOpen frames.length
    return ⟨.first, .map :: frames, r⟩
  | c :: r =>
    if c = '-' ∨ c.isDigit then do return ⟨.next, frames, ← care.numeral (c :: r)⟩
    else .error (.malformed .valueExpected)

/-- The first part of the innermost frame, or its end. -/
def first (care : Care) (frame : Frame) (frames : List Frame) (s : List Char) :
    Except Failure Walk :=
  match frame with
  | .sequence => do
    match ← nextElement true s with
    | none => return ⟨.next, frames, ← closeSequence s⟩
    | some r => return ⟨.value, .sequence :: frames, r⟩
  | .map => do
    match ← nextMember true s with
    | .close r => return ⟨.next, frames, r⟩
    | .key r => return ⟨.value, .map :: frames, ← care.key r⟩

/-- A further part of the innermost frame, or its end. -/
def next (care : Care) (frame : Frame) (frames : List Frame) (s : List Char) :
    Except Failure Walk :=
  match frame, skipBlanks s with
  | .sequence, [] => .error (.ended .sequence)
  | .sequence, ']' :: r => .ok ⟨.next, frames, r⟩
  | .sequence, ',' :: r => do return ⟨.value, .sequence :: frames, ← care.afterComma r⟩
  | .sequence, _ => .error (.malformed .commaOrBracketExpected)
  | .map, [] => .error (.ended .map)
  | .map, '\x7d' :: r => .ok ⟨.next, frames, r⟩
  | .map, ',' :: r => do return ⟨.value, .map :: frames, ← care.key (← care.keyAfterComma r)⟩
  | .map, _ => .error (.malformed .commaOrBraceExpected)

/-- Walks to the end of the value, in at most `fuel` stages. -/
def run (care : Care) : Nat → Walk → Except Failure (List Char)
  | 0, _ => .error (.ended .value)
  | fuel + 1, ⟨.value, frames, s⟩ => do run care fuel (← value care frames s)
  | fuel + 1, ⟨.first, frame :: frames, s⟩ => do run care fuel (← first care frame frames s)
  | fuel + 1, ⟨.next, frame :: frames, s⟩ => do run care fuel (← next care frame frames s)
  | _ + 1, ⟨_, [], s⟩ => .ok s

end Walk

/-- Passes over one value. A character is taken at least every second stage. -/
def skipValue (care : Care) (s : List Char) : Except Failure (List Char) :=
  Walk.run care (2 * s.length + 2) ⟨.value, [], s⟩

end StandingQuery.Json
