import StandingQuery.Json.Failure

/-! The shape of all readers, and the parts of the grammar that hold no value: blanks, words, and
what stands between the elements of an array and the members of an object. -/

namespace StandingQuery.Json

/-- Takes a value off the front of a text. -/
abbrev Reader (α : Type) := List Char → Except Failure (α × List Char)

/-- How many arrays and objects may be open at once, the innermost one excepted. -/
def roomAtTop : Nat := 128

/-- The room inside one more array or object. -/
def enter (room : Nat) : Except Failure Nat :=
  if room ≤ 1 then .error (.malformed .tooDeep) else .ok (room - 1)

/-- The four characters that JSON lets stand between tokens. -/
def isBlank (c : Char) : Bool := c == ' ' || c == '\t' || c == '\n' || c == '\r'

def skipBlanks (s : List Char) : List Char := s.dropWhile isBlank

/-- The rest of a literal word, then the value it stands for. -/
def word {α : Type} (value : α) : List Char → Reader α
  | [], s => .ok (value, s)
  | _ :: _, [] => .error (.ended .value)
  | c :: cs, d :: s =>
    if c = d then word value cs s else .error (.malformed .wordExpected)

/-- Looks for a further element of an array, after a comma unless it is the first. The closing
bracket is left in the text. -/
def nextElement (first : Bool) (s : List Char) : Except Failure (Option (List Char)) :=
  match skipBlanks s with
  | [] => .error (.ended .sequence)
  | ']' :: _ => .ok none
  | c :: r =>
    if first then .ok (some (c :: r))
    else if c = ',' then
      match skipBlanks r with
      | [] => .error (.ended .value)
      | ']' :: _ => .error (.malformed .trailingComma)
      | r => .ok (some r)
    else .error (.malformed .commaOrBracketExpected)

/-- Closes an array of which all elements wanted have been read. -/
def closeSequence (s : List Char) : Except Failure (List Char) :=
  match skipBlanks s with
  | [] => .error (.ended .sequence)
  | ']' :: r => .ok r
  | ',' :: r =>
    match skipBlanks r with
    | ']' :: _ => .error (.malformed .trailingComma)
    | _ => .error (.malformed .trailingText)
  | _ => .error (.malformed .trailingText)

/-- What an object goes on with. -/
inductive Member where
  /-- The closing brace, and the text after it. -/
  | close (rest : List Char)
  /-- A key, and the text after its opening quote mark. -/
  | key (rest : List Char)

/-- Looks for a further member of an object, after a comma unless it is the first. -/
def nextMember (first : Bool) (s : List Char) : Except Failure Member :=
  match skipBlanks s with
  | [] => .error (.ended .map)
  | '\x7d' :: r => .ok (.close r)
  | c :: r =>
    if first then
      if c = '"' then .ok (.key r) else .error (.malformed .keyNotText)
    else if c = ',' then
      match skipBlanks r with
      | [] => .error (.ended .value)
      | '"' :: r => .ok (.key r)
      | '\x7d' :: _ => .error (.malformed .trailingComma)
      | _ => .error (.malformed .keyNotText)
    else .error (.malformed .commaOrBraceExpected)

/-- The colon between a key and its value. -/
def colon (s : List Char) : Except Failure (List Char) :=
  match skipBlanks s with
  | [] => .error (.ended .map)
  | ':' :: r => .ok r
  | _ => .error (.malformed .colonExpected)

end StandingQuery.Json
