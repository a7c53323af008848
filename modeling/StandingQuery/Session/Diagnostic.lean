/-! What a session tells the log about itself. -/

namespace StandingQuery.Session

inductive Level where
  | debug
  | warn
deriving DecidableEq, Repr

inductive Diagnostic where
  /-- A listing made its first request from the route. -/
  | derived (hasScope : Bool)
  /-- A listing runs the request that is persisted now. -/
  | resubmitting (hasScope : Bool)
  | activated
  | tornDown
  | clearing
  /-- A listing was refreshed before it had seen any request. -/
  | unseeded
  | changed (present : Bool)
  | recorded (total : UInt64)
deriving DecidableEq, Repr

def Diagnostic.level : Diagnostic → Level
  | .unseeded => .warn
  | _ => .debug

def Diagnostic.message : Diagnostic → String
  | .derived _ => "derived initial provenance request"
  | .resubmitting _ => "resubmitting provenance query"
  | .activated => "provenance listing activated"
  | .tornDown => "provenance listing torn down"
  | .clearing => "clearing provenance request"
  | .unseeded => "refresh before any persisted request was observed, using default request"
  | .changed _ => "persisted provenance request changed"
  | .recorded _ => "recorded provenance results"

end StandingQuery.Session
