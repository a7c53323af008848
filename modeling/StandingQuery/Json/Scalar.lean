import StandingQuery.Json.Skip

/-! Readers for single values: booleans, strings, natural numbers of 64 bits, positive ones of 32,
and each of them or null. A value of another kind is named in the failure, which takes reading it
as far as its surface. -/

namespace StandingQuery.Json

/-- The value at the front of a text without leading blanks, if it is neither array nor object. -/
def scalar? (s : List Char) : Option (Except Failure (Surface × List Char)) :=
  match s with
  | 'n' :: r => some (word .null ['u', 'l', 'l'] r)
  | 't' :: r => some (word (.boolean true) ['r', 'u', 'e'] r)
  | 'f' :: r => some (word (.boolean false) ['a', 'l', 's', 'e'] r)
  | '"' :: r => some do
    let (t, r) ← textTail r
    return (.text t, r)
  | c :: r =>
    if c = '-' ∨ c.isDigit then some do
      let (n, r) ← numberToken (c :: r)
      return (.number n, r)
    else none
  | [] => none

/-- The surface of the next value. An array or object is left in the text. -/
def peekSurface : Reader Surface := fun s =>
  match skipBlanks s with
  | [] => .error (.ended .value)
  | '[' :: r => .ok (.sequence, '[' :: r)
  | '\x7b' :: r => .ok (.map, '\x7b' :: r)
  | s => (scalar? s).getD (.error (.malformed .valueExpected))

/-- The surface of the next value, all of which is read. -/
def wholeSurface (room : Nat) : Reader Surface := fun s => do
  let (v, r) ← peekSurface s
  match v with
  | .sequence | .map => return (v, ← skipValue (.strict room) r)
  | v => return (v, r)

/-- A value of which `accept` makes something, or else names the misfit. Nothing is made of an array
or object. -/
def readScalar {α : Type} (accept : Surface → Except Misfit α) : Reader α := fun s => do
  let (v, r) ← peekSurface s
  match accept v with
  | .ok a => return (a, r)
  | .error m => .error (.misfit m)

def readBoolean : Reader Bool := readScalar fun
  | .boolean b => .ok b
  | v => .error (.wrongKind v .boolean)

def readText : Reader String := readScalar fun
  | .text t => .ok t
  | v => .error (.wrongKind v .text)

def readNatural64 : Reader UInt64 := readScalar fun
  | .number (.integer n) =>
    if 0 ≤ n ∧ n < UInt64.size then .ok (UInt64.ofNat n.toNat)
    else .error (.wrongValue (.number (.integer n)) .natural64)
  | v => .error (.wrongKind v .natural64)

/-- A number from 1 to below `2 ^ 32`. -/
def readPositive32 : Reader { n : UInt32 // n ≠ 0 } := readScalar fun
  | .number (.integer n) =>
    if h : 0 < n ∧ n < UInt32.size then
      .ok ⟨UInt32.ofNat n.toNat, fun h0 => by
        have := congrArg UInt32.toNat h0
        have hsize : UInt32.size = 4294967296 := rfl
        simp at this
        omega⟩
    else .error (.wrongValue (.number (.integer n)) .positive32)
  | v => .error (.wrongKind v .positive32)

/-- Null, or what `read` reads. -/
def readOptional {α : Type} (read : Reader α) : Reader (Option α) := fun s =>
  match skipBlanks s with
  | 'n' :: r => word none ['u', 'l', 'l'] r
  | s => do
    let (a, r) ← read s
    return (some a, r)

end StandingQuery.Json
