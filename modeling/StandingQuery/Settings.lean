import StandingQuery.Query.Outcome
import StandingQuery.Text.Blank
import StandingQuery.Text.Natural
import StandingQuery.Text.Quoted

/-! What the environment decides: how many events are shown at most, and the filter of the log. The
limit is a positive number, blanks around it not counting; a filter that is blank counts as none. -/

namespace StandingQuery

structure Settings where
  limit : UInt64
  logFilter : String
deriving DecidableEq, Repr

namespace Settings

def default : Settings := ⟨Outcome.defaultLimit, "warn"⟩

def limitVariable : String := "PROVENANCE_MAX_RESULTS"

def logVariable : String := "PROVENANCE_LOG"

/-- Why a text is no limit. -/
inductive LimitFault where
  | notNatural (cause : Text.NaturalFault)
  | zero
deriving DecidableEq, Repr

/-- The texts of a fault, the outermost first. -/
def LimitFault.causes : LimitFault → List String
  | .notNatural cause => ["not an unsigned integer", cause.message]
  | .zero => ["must be greater than zero"]

def limitOf (raw : String) : Except LimitFault UInt64 :=
  match Text.natural64 (Text.trim raw.toList) with
  | .error cause => .error (.notNatural cause)
  | .ok n => if n = 0 then .error .zero else .ok n

/-- The limit was given as `raw`, which is none. -/
structure Fault where
  raw : String
  cause : LimitFault
deriving DecidableEq, Repr

def Fault.causes (f : Fault) : List String :=
  ("Invalid " ++ limitVariable ++ " value: " ++ Text.quoted f.raw) :: f.cause.causes

/-- The settings under the variables that `lookup` finds. -/
def ofLookup (lookup : String → Option String) : Except Fault Settings := do
  let limit ← match lookup limitVariable with
    | none => pure default.limit
    | some raw =>
      match limitOf raw with
      | .ok n => pure n
      | .error cause => throw ⟨raw, cause⟩
  let filter := (lookup logVariable).filter fun s => !Text.isAllBlank s.toList
  return ⟨limit, filter.getD default.logFilter⟩

end Settings
end StandingQuery
