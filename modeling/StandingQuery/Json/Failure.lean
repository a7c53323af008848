import StandingQuery.Binary64.Shortest
import StandingQuery.Instant.Fault
import StandingQuery.Text.Quoted

/-! Why a JSON text was not read: it is malformed, it ends too early, or it is well formed so far
and holds a value that does not fit. Texts are read as a stream, so the first cause met is the one
reported, and what follows it is not looked at. -/

namespace StandingQuery.Json

/-- A number literal: an integer from `-2 ^ 63` to below `2 ^ 64` without point, exponent or
negative zero, or else a binary64 number. -/
inductive Number where
  | integer (n : Int)
  | float (x : Binary64)
deriving DecidableEq, Repr

/-- What a value shows without its parts. -/
inductive Surface where
  | null
  | boolean (b : Bool)
  | number (n : Number)
  | text (s : String)
  | sequence
  | map
deriving DecidableEq, Repr

def Surface.describe : Surface → String
  | .null => "null"
  | .boolean true => "boolean `true`"
  | .boolean false => "boolean `false`"
  | .number (.integer n) => "integer `" ++ toString n ++ "`"
  | .number (.float x) => "floating point `" ++ x.toText ++ "`"
  | .text s => "string " ++ Text.quoted s
  | .sequence => "sequence"
  | .map => "map"

/-- What a field asks for. -/
inductive Wanted where
  | boolean
  | text
  | natural64
  | positive32
  | sequence
  | map
  | record (name : String)
deriving DecidableEq, Repr

def Wanted.describe : Wanted → String
  | .boolean => "a boolean"
  | .text => "a string"
  | .natural64 => "u64"
  | .positive32 => "a nonzero u32"
  | .sequence => "a sequence"
  | .map => "a map"
  | .record name => "struct " ++ name

inductive Flaw where
  | valueExpected
  | wordExpected
  | colonExpected
  | commaOrBracketExpected
  | commaOrBraceExpected
  | badEscape
  | badNumber
  | numberTooLarge
  | controlCharacter
  | keyNotText
  | loneSurrogate
  | halfPair
  | trailingComma
  | trailingText
  | tooDeep
deriving DecidableEq, Repr

def Flaw.message : Flaw → String
  | .valueExpected => "expected value"
  | .wordExpected => "expected ident"
  | .colonExpected => "expected `:`"
  | .commaOrBracketExpected => "expected `,` or `]`"
  | .commaOrBraceExpected => "expected `,` or `\x7d`"
  | .badEscape => "invalid escape"
  | .badNumber => "invalid number"
  | .numberTooLarge => "number out of range"
  | .controlCharacter => "control character (\\u0000-\\u001F) found while parsing a string"
  | .keyNotText => "key must be a string"
  | .loneSurrogate => "lone leading surrogate in hex escape"
  | .halfPair => "unexpected end of hex escape"
  | .trailingComma => "trailing comma"
  | .trailingText => "trailing characters"
  | .tooDeep => "recursion limit exceeded"

/-- Inside what the text ended. -/
inductive Open where
  | value
  | text
  | sequence
  | map
deriving DecidableEq, Repr

def Open.message : Open → String
  | .value => "EOF while parsing a value"
  | .text => "EOF while parsing a string"
  | .sequence => "EOF while parsing a list"
  | .map => "EOF while parsing an object"

inductive Misfit where
  | wrongKind (found : Surface) (wanted : Wanted)
  | wrongValue (found : Surface) (wanted : Wanted)
  | repeated (field : String)
  | missing (field : String)
  /-- An array of `found` elements where the record `name` has `size` fields. -/
  | tooFew (found : Nat) (name : String) (size : Nat)
  | timestamp (fault : Instant.Fault)
deriving DecidableEq, Repr

def Misfit.message : Misfit → String
  | .wrongKind found wanted =>
    "invalid type: " ++ found.describe ++ ", expected " ++ wanted.describe
  | .wrongValue found wanted =>
    "invalid value: " ++ found.describe ++ ", expected " ++ wanted.describe
  | .repeated field => "duplicate field `" ++ field ++ "`"
  | .missing field => "missing field `" ++ field ++ "`"
  | .tooFew found name size =>
    "invalid length " ++ toString found ++ ", expected struct " ++ name ++ " with " ++
      toString size ++ " elements"
  | .timestamp fault => fault.message

inductive Failure where
  | malformed (flaw : Flaw)
  | ended (inside : Open)
  | misfit (cause : Misfit)
deriving DecidableEq, Repr

def Failure.message : Failure → String
  | .malformed flaw => flaw.message
  | .ended inside => inside.message
  | .misfit cause => cause.message

end StandingQuery.Json
