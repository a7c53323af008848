import StandingQuery.Json.Scalar

/-! Arrays, maps and records. A record is described once, by its fields in order, and is read from
either of two forms: an object with the fields in any order among unknown ones, or an array with the
values of the fields in order. Either way a field changes the blank record, and a field that is not
required may be absent, which leaves it blank. -/

namespace StandingQuery.Json

/-- One field of the record `σ`. The reader is told the room left for arrays and objects, and gives
the change that the value makes to a record. -/
structure Field (σ : Type) where
  name : String
  required : Bool
  read : Nat → Reader (σ → σ)

/-- A field whose value `set` puts into the record. -/
def Field.of {σ β : Type} (name : String) (required : Bool) (read : Nat → Reader β)
    (set : β → σ → σ) : Field σ where
  name := name
  required := required
  read room := fun s => do
    let (b, r) ← read room s
    return (set b, r)

structure Schema (σ : Type) where
  name : String
  blank : σ
  fields : List (Field σ)

/-! ## Elements and members -/

/-- The elements of an array after its opening bracket, up to and with the closing one. -/
def readElements {α : Type} (item : Reader α) : Nat → Bool → Reader (List α)
  | 0, _, _ => .error (.ended .sequence)
  | fuel + 1, first, s => do
    match ← nextElement first s with
    | none => return ([], ← closeSequence s)
    | some r =>
      let (a, r) ← item r
      let (as, r) ← readElements item fuel false r
      return (a :: as, r)

/-- An array of any length. -/
def readSequence {α : Type} (room : Nat) (item : Nat → Reader α) : Reader (List α) := fun s => do
  match ← peekSurface s with
  | (.sequence, _ :: r) => readElements (item (← enter room)) (r.length + 1) true r
  | (v, _) => .error (.misfit (.wrongKind v .sequence))

/-- The members of an object after its opening brace, up to and with the closing one. -/
def readMembers {α : Type} (item : Reader α) : Nat → Bool → Reader (List (String × α))
  | 0, _, _ => .error (.ended .map)
  | fuel + 1, first, s => do
    match ← nextMember first s with
    | .close r => return ([], r)
    | .key r =>
      let (k, r) ← textTail r
      let (a, r) ← item (← colon r)
      let (as, r) ← readMembers item fuel false r
      return ((k, a) :: as, r)

/-- An object with any keys, as its members in order. -/
def readMap {α : Type} (room : Nat) (item : Nat → Reader α) : Reader (List (String × α)) :=
  fun s => do
    match ← peekSurface s with
    | (.map, _ :: r) => readMembers (item (← enter room)) (r.length + 1) true r
    | (v, _) => .error (.misfit (.wrongKind v .map))

/-! ## Records -/

variable {σ : Type}

/-- The values of the fields, in order, after the opening bracket of an array. `index` of them have
been read. Where the array ends early, the fields left over must not be required. -/
def readPositional (schema : Schema σ) (room : Nat) : List (Field σ) → Nat → σ → Reader σ
  | [], _, a, s => do return (a, ← closeSequence s)
  | f :: fs, index, a, s => do
    match ← nextElement (index == 0) s with
    | some r =>
      let (change, r) ← f.read room r
      readPositional schema room fs (index + 1) (change a) r
    | none =>
      match (f :: fs).findIdx? Field.required with
      | some i => .error (.misfit (.tooFew (index + i) schema.name schema.fields.length))
      | none => return (a, ← closeSequence s)

/-- The first required field that is not among `seen`. -/
def Schema.firstMissing (schema : Schema σ) (seen : List String) : Option (Field σ) :=
  schema.fields.find? fun f => f.required && !seen.contains f.name

/-- The members after the opening brace of an object. `seen` are the fields that have occurred. -/
def readNamed (schema : Schema σ) (room : Nat) : Nat → Bool → List String → σ → Reader σ
  | 0, _, _, _, _ => .error (.ended .map)
  | fuel + 1, first, seen, a, s => do
    match ← nextMember first s with
    | .close r =>
      match schema.firstMissing seen with
      | some f => .error (.misfit (.missing f.name))
      | none => return (a, r)
    | .key r =>
      let (k, r) ← textTail r
      match schema.fields.find? (·.name == k) with
      | some f =>
        if seen.contains k then .error (.misfit (.repeated k))
        else
          let (change, r) ← f.read room (← colon r)
          readNamed schema room fuel false (k :: seen) (change a) r
      | none =>
        readNamed schema room fuel false seen a (← skipValue .lenient (← colon r))

/-- A record in either form. -/
def Schema.read (schema : Schema σ) (room : Nat) : Reader σ := fun s => do
  match ← peekSurface s with
  | (.map, _ :: r) => readNamed schema (← enter room) (r.length + 1) true [] schema.blank r
  | (.sequence, _ :: r) =>
    readPositional schema (← enter room) schema.fields 0 schema.blank r
  | (v, _) => .error (.misfit (.wrongKind v (.record schema.name)))

/-- A text that holds one value and nothing else. -/
def readAll {α : Type} (read : Nat → Reader α) (text : String) : Except Failure α := do
  let (a, r) ← read roomAtTop text.toList
  if (skipBlanks r).isEmpty then return a else .error (.malformed .trailingText)

end StandingQuery.Json
