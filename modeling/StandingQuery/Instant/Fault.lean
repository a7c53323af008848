/-! Why a value is no timestamp. -/

namespace StandingQuery.Instant

/-- What is wrong with the spelling of a date and time. -/
inductive SpellingFault where
  /-- The text ends too early. -/
  | short
  /-- A character does not belong where it stands. -/
  | invalid
  /-- A field is out of its range, or the date does not exist. -/
  | range
  /-- The instant lies outside the supported years. -/
  | impossible
  /-- Text follows the zone. -/
  | long
deriving DecidableEq, Repr

def SpellingFault.message : SpellingFault → String
  | .short => "premature end of input"
  | .invalid => "input contains invalid characters"
  | .range => "input is out of range"
  | .impossible => "no possible date and time matching input"
  | .long => "trailing input"

inductive Fault where
  /-- A number that is not an integer of 64 bits. -/
  | notInteger
  /-- Milliseconds outside the supported years. -/
  | outOfRange
  /-- Neither a number, a string nor null. -/
  | wrongKind
  | spelling (fault : SpellingFault)
deriving DecidableEq, Repr

def Fault.message : Fault → String
  | .notInteger => "invalid timestamp"
  | .outOfRange => "timestamp out of range"
  | .wrongKind => "timestamp must be a number, string or null"
  | .spelling fault => "invalid RFC3339 timestamp: " ++ fault.message

end StandingQuery.Instant
