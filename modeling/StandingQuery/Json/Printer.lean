import StandingQuery.Text.Digit

/-! The compact written form: no blanks, members in the order given, and in strings only what must
be escaped. The quote mark, the backslash and the controls are; five of the controls have a letter,
the others take four hexadecimal digits. -/

namespace StandingQuery.Json

def printChar (c : Char) : List Char :=
  match c with
  | '"' => ['\\', '"']
  | '\\' => ['\\', '\\']
  | '\x08' => ['\\', 'b']
  | '\x0c' => ['\\', 'f']
  | '\n' => ['\\', 'n']
  | '\r' => ['\\', 'r']
  | '\t' => ['\\', 't']
  | c => if c.toNat < 0x20 then '\\' :: 'u' :: Text.padZero 4 (Text.hex c.toNat) else [c]

def printText (s : String) : List Char :=
  '"' :: s.toList.flatMap printChar ++ ['"']

def printBoolean (b : Bool) : List Char :=
  if b then ['t', 'r', 'u', 'e'] else ['f', 'a', 'l', 's', 'e']

def printNull : List Char := ['n', 'u', 'l', 'l']

/-- The parts with commas between them. -/
def commaSeparated : List (List Char) → List Char
  | [] => []
  | [p] => p
  | p :: ps => p ++ ',' :: commaSeparated ps

def printArray (elements : List (List Char)) : List Char :=
  '[' :: commaSeparated elements ++ [']']

/-- An object whose values are written already. -/
def printObject (members : List (String × List Char)) : List Char :=
  '\x7b' :: commaSeparated (members.map fun (k, v) => printText k ++ ':' :: v) ++ ['\x7d']

/-- One member, or none where there is no value. -/
def memberIf {α : Type} (key : String) (value : Option α) (print : α → List Char) :
    List (String × List Char) :=
  match value with
  | some a => [(key, print a)]
  | none => []

end StandingQuery.Json
