import StandingQuery.Json.Printer
import StandingQuery.Proofs.Text.Digit

/-! The texts of JSON, as a relation between what is said and how it is written. Blanks may stand
around every token, and a character of a string may be spelled in several ways. A number is kept as
its literal. Members are kept in the order of the text, with all repetitions. -/

namespace StandingQuery.Json

open Text (Digits)

def Blanks (s : List Char) : Prop := ∀ c ∈ s, c = ' ' ∨ c = '\t' ∨ c = '\n' ∨ c = '\r'

/-! ## Strings -/

/-- The digits of either case, in the order of their values. -/
def lowerHex : List Char :=
  ['0', '1', '2', '3', '4', '5', '6', '7', '8', '9', 'a', 'b', 'c', 'd', 'e', 'f']

def upperHex : List Char :=
  ['0', '1', '2', '3', '4', '5', '6', '7', '8', '9', 'A', 'B', 'C', 'D', 'E', 'F']

def IsHex (value : Nat) (c : Char) : Prop :=
  lowerHex[value]? = some c ∨ upperHex[value]? = some c

/-- Four hexadecimal digits that make a number. -/
inductive Quad : Nat → List Char → Prop
  | mk {i j k l : Nat} {a b c d : Char} (ha : IsHex i a) (hb : IsHex j b) (hc : IsHex k c)
      (hd : IsHex l d) : Quad (4096 * i + 256 * j + 16 * k + l) [a, b, c, d]

/-- The letters that may stand behind a backslash, and the characters they stand for. -/
def shortEscapes : List (Char × Char) :=
  [('"', '"'), ('\\', '\\'), ('/', '/'), ('b', '\x08'), ('f', '\x0c'), ('n', '\n'), ('r', '\r'),
    ('t', '\t')]

/-- Stands for itself between quote marks. -/
def IsPlain (c : Char) : Prop := c ≠ '"' ∧ c ≠ '\\' ∧ 0x20 ≤ c.toNat

/-- The characters of a string and how they are written between quote marks. One from beyond the
basic plane may be written as the two surrogates that make it. -/
inductive Spells : List Char → List Char → Prop
  | nil : Spells [] []
  | plain {c : Char} {cs t : List Char} (hc : IsPlain c) (h : Spells cs t) :
      Spells (c :: cs) (c :: t)
  | short {letter c : Char} {cs t : List Char} (hc : (letter, c) ∈ shortEscapes)
      (h : Spells cs t) : Spells (c :: cs) ('\\' :: letter :: t)
  | unit {c : Char} {quad cs t : List Char} (hc : Quad c.toNat quad) (h : Spells cs t) :
      Spells (c :: cs) ('\\' :: 'u' :: (quad ++ t))
  | pair {c : Char} {high low cs t : List Char} (beyond : 0x10000 ≤ c.toNat)
      (hhigh : Quad (0xD800 + (c.toNat - 0x10000) / 1024) high)
      (hlow : Quad (0xDC00 + (c.toNat - 0x10000) % 1024) low) (h : Spells cs t) :
      Spells (c :: cs) ('\\' :: 'u' :: (high ++ '\\' :: 'u' :: (low ++ t)))

/-- Well formed between quote marks, whether or not the surrogates in it pair. -/
inductive Escaped : List Char → Prop
  | nil : Escaped []
  | plain {c : Char} {t : List Char} (hc : IsPlain c) (h : Escaped t) : Escaped (c :: t)
  | short {letter c : Char} {t : List Char} (hc : (letter, c) ∈ shortEscapes) (h : Escaped t) :
      Escaped ('\\' :: letter :: t)
  | unit {n : Nat} {quad t : List Char} (hq : Quad n quad) (h : Escaped t) :
      Escaped ('\\' :: 'u' :: (quad ++ t))

/-- The inside of a string literal. It stands for no string if a surrogate in it has no partner. -/
def Literal (content : Option String) (t : List Char) : Prop :=
  match content with
  | some s => Spells s.toList t
  | none => Escaped t

/-! ## Numbers -/

structure Exponent where
  capital : Bool
  /-- Whether it is negative, if it has a sign. -/
  sign : Option Bool
  digits : Digits

namespace Exponent

def signText (e : Exponent) : List Char :=
  match e.sign with
  | none => []
  | some negative => [if negative then '-' else '+']

def print (e : Exponent) : List Char :=
  (if e.capital then 'E' else 'e') :: (e.signText ++ e.digits.chars)

end Exponent

structure NumberLiteral where
  negative : Bool
  whole : Digits
  unpadded : whole.chars.head? = some '0' → whole.chars = ['0']
  fraction : Option Digits
  exponent : Option Exponent

namespace NumberLiteral

def fractionText (l : NumberLiteral) : List Char :=
  match l.fraction with
  | none => []
  | some digits => '.' :: digits.chars

def exponentText (l : NumberLiteral) : List Char :=
  match l.exponent with
  | none => []
  | some e => e.print

def print (l : NumberLiteral) : List Char :=
  (if l.negative then ['-'] else []) ++ (l.whole.chars ++ (l.fractionText ++ l.exponentText))

/-- Has neither point nor exponent, and is `n`. There is no negative zero among the integers. -/
def IsInteger (l : NumberLiteral) (n : Int) : Prop :=
  l.fraction = none ∧ l.exponent = none ∧
    n = (if l.negative then -1 else 1) * (Text.decimalValue l.whole.chars : Int) ∧
    (l.negative = true → n ≠ 0)

end NumberLiteral

/-! ## Values -/

inductive Value where
  | null
  | boolean (b : Bool)
  | number (l : NumberLiteral)
  | text (s : Option String)
  | array (elements : List Value)
  | object (members : List (Option String × Value))

/-- A value as it stands in a text, with blanks around it. -/
structure Element where
  before : List Char
  value : Value
  text : List Char
  after : List Char

def Element.print (e : Element) : List Char := e.before ++ (e.text ++ e.after)

/-- A member as it stands in a text: the inside of its key, and its value. -/
structure WrittenMember where
  before : List Char
  name : Option String
  key : List Char
  beforeColon : List Char
  element : Element

def WrittenMember.print (m : WrittenMember) : List Char :=
  m.before ++ '"' :: (m.key ++ '"' :: (m.beforeColon ++ ':' :: m.element.print))

def Element.Padded (e : Element) : Prop := Blanks e.before ∧ Blanks e.after

/-- The parts around the value are in order. -/
def WrittenMember.Padded (m : WrittenMember) : Prop :=
  Blanks m.before ∧ Literal m.name m.key ∧ Blanks m.beforeColon ∧ m.element.Padded

/-- A value and a text for it. -/
inductive Written : Value → List Char → Prop
  | null : Written .null ['n', 'u', 'l', 'l']
  | boolean (b : Bool) : Written (.boolean b) (printBoolean b)
  | number (l : NumberLiteral) : Written (.number l) l.print
  | text {s : Option String} {t : List Char} (h : Literal s t) :
      Written (.text s) ('"' :: t ++ ['"'])
  | array {w : List Char} {es : List Element} (hw : Blanks w) (padded : ∀ e ∈ es, e.Padded)
      (values : ∀ e ∈ es, Written e.value e.text) :
      Written (.array (es.map Element.value))
        ('[' :: (w ++ commaSeparated (es.map Element.print)) ++ [']'])
  | object {w : List Char} {ms : List WrittenMember} (hw : Blanks w)
      (padded : ∀ m ∈ ms, m.Padded) (values : ∀ m ∈ ms, Written m.element.value m.element.text) :
      Written (.object (ms.map fun m => (m.name, m.element.value)))
        ('\x7b' :: (w ++ commaSeparated (ms.map WrittenMember.print)) ++ ['\x7d'])

end StandingQuery.Json
