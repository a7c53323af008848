/-! Places in a text, which a message about the text may end with, as in `x at line 3 column 4`. The
place says where a fault was met and not what it is, so two messages are compared without it. -/

namespace StandingQuery.Text

/-- What stands before `word` and the digits that a text ends with, all read from the end. There is
at least one digit. -/
def beforeNumber? (word : String) (reversed : List Char) : Option (List Char) :=
  match reversed.span Char.isDigit with
  | ([], _) => none
  | (_ :: _, rest) => word.toList.reverse.isPrefixOf? rest

/-- The message, without the place that it ends with if there is one. -/
def withoutPlace (message : String) : String :=
  match (beforeNumber? " column " message.toList.reverse).bind (beforeNumber? " at line ") with
  | some rest => String.ofList rest.reverse
  | none => message

end StandingQuery.Text
