import StandingQuery.Text.Digit

/-! Natural numbers of 64 bits in decimal, with at most one plus sign in front. They are read digit
by digit, so a number that has grown too large is reported before a bad character further on. -/

namespace StandingQuery.Text

inductive NaturalFault where
  | empty
  | badDigit
  | tooLarge
deriving DecidableEq, Repr

def NaturalFault.message : NaturalFault → String
  | .empty => "cannot parse integer from empty string"
  | .badDigit => "invalid digit found in string"
  | .tooLarge => "number too large to fit in target type"

/-- Digits that follow those of `n`. -/
def naturalFrom (n : UInt64) : List Char → Except NaturalFault UInt64
  | [] => .ok n
  | c :: cs =>
    let next := 10 * n.toNat + digitValue c
    if !c.isDigit then .error .badDigit
    else if UInt64.size ≤ next then .error .tooLarge
    else naturalFrom (UInt64.ofNat next) cs

def natural64 (s : List Char) : Except NaturalFault UInt64 :=
  match s with
  | [] => .error .empty
  | ['+'] => .error .badDigit
  | '+' :: cs => naturalFrom 0 cs
  | cs => naturalFrom 0 cs

end StandingQuery.Text
