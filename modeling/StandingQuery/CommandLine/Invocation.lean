import StandingQuery.CommandLine.Switch
import StandingQuery.Text.Natural

/-! What the arguments ask for. The first one names a command, whose options follow it. -/

namespace StandingQuery.CommandLine

/-- What is simulated: the route, the total that every query returns, and what is done after the
first query. -/
structure Simulation where
  componentId : Option String
  flowFileUuid : Option String
  total : UInt64
  clear : Bool
  refresh : Bool
deriving DecidableEq, Repr

/-- The file with a request, and the total that it has returned. -/
structure Inquiry where
  path : String
  total : UInt64
deriving DecidableEq, Repr

inductive Invocation where
  | bare
  | version
  | help
  | simulate (s : Simulation)
  | message (i : Inquiry)
deriving DecidableEq, Repr

def totalOf (value : String) : Option UInt64 := (Text.natural64 value.toList).toOption

def simulateSwitches : List (Switch Simulation) := [
  ⟨"component-id", .value fun v => some fun s => { s with componentId := some v }⟩,
  ⟨"flow-file-uuid", .value fun v => some fun s => { s with flowFileUuid := some v }⟩,
  ⟨"total-count", .value fun v => (totalOf v).map fun n s => { s with total := n }⟩,
  ⟨"clear", .flag fun s => { s with clear := true }⟩,
  ⟨"refresh", .flag fun s => { s with refresh := true }⟩]

/-- A path is not empty, so the empty one stands for none. -/
def messageSwitches : List (Switch Inquiry) := [
  ⟨"request", .value fun v => if v.isEmpty then none else some fun i => { i with path := v }⟩,
  ⟨"total-count", .value fun v => (totalOf v).map fun n i => { i with total := n }⟩]

/-- The choices of a command, or help. -/
def ofChoices {σ : Type} (r : Except Stop σ) (make : σ → Except Fault Invocation) :
    Except Fault Invocation :=
  match r with
  | .ok a => make a
  | .error .help => .ok .help
  | .error (.fault f) => .error f

/-- Help names at most one command. -/
def helpOn : List String → Except Fault Invocation
  | [] => .ok .help
  | topic :: rest =>
    if ["simulate", "message", "help"].contains topic then
      match rest with
      | [] => .ok .help
      | next :: _ => .error (.unexpected next)
    else .error (.unexpected topic)

/-- The argument where a command is due. Of letters behind one dash the first decides. -/
def beforeCommand (arg : String) (args : List String) : Except Fault Invocation :=
  match arg.toList with
  | ['-', '-'] =>
    match args with
    | [] => .ok .bare
    | next :: _ => .error (.unexpected next)
  | '-' :: 'V' :: _ => .ok .version
  | '-' :: 'h' :: _ => .ok .help
  | _ => .error (.unexpected arg)

def Invocation.ofArguments : List String → Except Fault Invocation
  | [] => .ok .bare
  | "simulate" :: args =>
    ofChoices (takeAll simulateSwitches none [] ⟨none, none, 0, false, false⟩ args) fun s =>
      .ok (.simulate s)
  | "message" :: args =>
    ofChoices (takeAll messageSwitches none [] ⟨"", 0⟩ args) fun i =>
      if i.path.isEmpty then .error (.required "request") else .ok (.message i)
  | "help" :: args => helpOn args
  | "--version" :: _ => .ok .version
  | "--help" :: _ => .ok .help
  | arg :: args => beforeCommand arg args

end StandingQuery.CommandLine
