import StandingQuery.Json.Reader

/-! String literals, from the character after the opening quote mark to the closing one. A character
outside the basic plane may be escaped as a pair of surrogates; neither of a pair may stand alone.
A literal that is only passed over has to be well formed, but its surrogates need not pair. -/

namespace StandingQuery.Json

/-- The four hexadecimal digits after `\u`. -/
def codeUnit (s : List Char) : Except Failure (Nat × List Char) :=
  match s with
  | a :: b :: c :: d :: r =>
    match Text.hexValue? a, Text.hexValue? b, Text.hexValue? c, Text.hexValue? d with
    | some a, some b, some c, some d => .ok (4096 * a + 256 * b + 16 * c + d, r)
    | _, _, _, _ => .error (.malformed .badEscape)
  | s =>
    if (String.ofList s).utf8ByteSize < 4 then .error (.ended .text)
    else .error (.malformed .badEscape)

def isHighSurrogate (n : Nat) : Bool := 0xD800 ≤ n && n ≤ 0xDBFF

def isLowSurrogate (n : Nat) : Bool := 0xDC00 ≤ n && n ≤ 0xDFFF

/-- The character a pair of surrogates stands for. -/
def pairedChar (high low : Nat) : Char :=
  Char.ofNat (0x10000 + 1024 * (high - 0xD800) + (low - 0xDC00))

/-- What follows the unit of a high surrogate: a further escape, of a low one. -/
def lowSurrogate : Reader Nat
  | [] => .error (.ended .text)
  | '\\' :: [] => .error (.ended .text)
  | '\\' :: 'u' :: s => do
    let (n, r) ← codeUnit s
    if isLowSurrogate n then .ok (n, r) else .error (.malformed .loneSurrogate)
  | _ => .error (.malformed .halfPair)

/-- The character spelled by `\u` and what follows. -/
def numberedChar : Reader Char := fun s => do
  let (n, r) ← codeUnit s
  if isLowSurrogate n then .error (.malformed .loneSurrogate)
  else if isHighSurrogate n then
    let (low, r) ← lowSurrogate r
    return (pairedChar n low, r)
  else return (Char.ofNat n, r)

/-- The character that a one-letter escape stands for. -/
def shortEscape? : Char → Option Char
  | '"' => some '"'
  | '\\' => some '\\'
  | '/' => some '/'
  | 'b' => some '\x08'
  | 'f' => some '\x0c'
  | 'n' => some '\n'
  | 'r' => some '\r'
  | 't' => some '\t'
  | _ => none

/-- The character spelled by a backslash and what follows. -/
def escapedChar : Reader Char
  | [] => .error (.ended .text)
  | 'u' :: r => numberedChar r
  | c :: r =>
    match shortEscape? c with
    | some d => .ok (d, r)
    | none => .error (.malformed .badEscape)

/-- Passes over what follows a backslash. -/
def skipEscape : List Char → Except Failure (List Char)
  | [] => .error (.ended .text)
  | 'u' :: r => do return (← codeUnit r).2
  | c :: r => if (shortEscape? c).isSome then .ok r else .error (.malformed .badEscape)

/-- The characters up to the closing quote mark, read in at most `fuel` steps. -/
def readChars : Nat → Reader (List Char)
  | 0, _ => .error (.ended .text)
  | _ + 1, [] => .error (.ended .text)
  | _ + 1, '"' :: r => .ok ([], r)
  | fuel + 1, '\\' :: r => do
    let (c, r) ← escapedChar r
    let (cs, r) ← readChars fuel r
    return (c :: cs, r)
  | fuel + 1, c :: r => do
    if c.toNat < 0x20 then .error (.malformed .controlCharacter)
    else
      let (cs, r) ← readChars fuel r
      return (c :: cs, r)

/-- A string literal after its opening quote mark. Every step takes a character. -/
def textTail : Reader String := fun s => do
  let (cs, r) ← readChars (s.length + 1) s
  return (String.ofList cs, r)

def skipChars : Nat → List Char → Except Failure (List Char)
  | 0, _ => .error (.ended .text)
  | _ + 1, [] => .error (.ended .text)
  | _ + 1, '"' :: r => .ok r
  | fuel + 1, '\\' :: r => do skipChars fuel (← skipEscape r)
  | fuel + 1, c :: r =>
    if c.toNat < 0x20 then .error (.malformed .controlCharacter) else skipChars fuel r

/-- Passes over a string literal after its opening quote mark. -/
def skipText (s : List Char) : Except Failure (List Char) := skipChars (s.length + 1) s

end StandingQuery.Json
