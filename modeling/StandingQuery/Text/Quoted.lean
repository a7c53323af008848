import StandingQuery.Text.Digit
import StandingQuery.Text.Unprintable

/-! Quoting for messages. The quote mark and the backslash take a backslash, the four common
controls have short names, any other unprintable character is spelled by its number in braces,
and all else stands for itself. -/

namespace StandingQuery.Text

/-- How one character is spelled between quote marks. -/
def quotedChar (c : Char) : List Char :=
  match c with
  | '"' => ['\\', '"']
  | '\\' => ['\\', '\\']
  | '\n' => ['\\', 'n']
  | '\r' => ['\\', 'r']
  | '\t' => ['\\', 't']
  | '\x00' => ['\\', '0']
  | c => if isUnprintable c then '\\' :: 'u' :: '\x7b' :: hex c.toNat ++ ['\x7d'] else [c]

def quoted (s : String) : String :=
  String.ofList ('"' :: s.toList.flatMap quotedChar ++ ['"'])

end StandingQuery.Text
