import StandingQuery.CommandLine.Files
import StandingQuery.CommandLine.Invocation
import StandingQuery.Query.Printer
import StandingQuery.Query.Reader
import StandingQuery.Session.Step
import StandingQuery.Settings
import StandingQuery.Text.Place

/-! What the program prints and how it ends. The arguments are judged before the settings are read,
and those before anything is done. -/

namespace StandingQuery.CommandLine

/-- How the program ends. -/
inductive Ending where
  /-- With this text on the standard output. -/
  | done (output : String)
  /-- The arguments were refused. -/
  | refused (f : Fault)
  /-- Something failed, for these causes, the outermost first. -/
  | failed (causes : List String)
deriving DecidableEq, Repr

def Ending.code : Ending → Nat
  | .done _ => 0
  | .refused _ => 2
  | .failed _ => 1

def Ending.output : Ending → String
  | .done output => output
  | .refused _ | .failed _ => ""

/-- The causes below the outermost, numbered if there are several. -/
def causeLines : List String → List String
  | [] => []
  | [cause] => ["    " ++ cause]
  | causes => causes.mapIdx fun i cause => "    " ++ toString i ++ ": " ++ cause

/-- The text of a failure, and the causes below it. -/
def failureText : List String → String
  | [] => ""
  | [outermost] => "Error: " ++ outermost
  | outermost :: causes =>
    "\n".intercalate (("Error: " ++ outermost) :: "" :: "Caused by:" :: causeLines causes)

/-- The lines on the standard error output. -/
def Ending.errorLines : Ending → List String
  | .done _ => []
  | .refused f => ["error: " ++ f.message]
  | .failed causes => (failureText causes).splitOn "\n"

/-- The lines on the standard error output as they are compared: none ends with a place. -/
def Ending.report (e : Ending) : List String := e.errorLines.map Text.withoutPlace

def programName : String := "provenance-listing"

def versionLine : String := programName ++ " 0.1.0"

def usage : List String := [
  "Reconcile provenance query requests and report listing status",
  "",
  "Usage: " ++ programName ++ " [COMMAND]",
  "",
  "Commands:",
  "  simulate  Activate a listing and print every query that it runs",
  "            --component-id, --flow-file-uuid, --total-count, --clear, --refresh",
  "  message   Print the results message for a request read from a file",
  "            --request, --total-count",
  "  help      Print this text",
  "",
  "Options: --help, --version"]

def hint : String := "Use --help for usage information"

/-- Every line is ended. -/
def lines (ls : List String) : String := String.join (ls.map (· ++ "\n"))

/-! ## Simulation -/

def listingName : String := "listing"

/-- What is done: a listing is activated, and it clears and refreshes where that is asked for. -/
def Simulation.script (s : Simulation) : List Session.Action :=
  .activate listingName ::
    ((if s.clear then [.clearBy listingName] else []) ++
      (if s.refresh then [.refresh listingName] else []))

/-- The session after each action. Every query is answered at once. -/
def Simulation.states (s : Simulation) : List Session :=
  Session.playAll (some s.total) none (some ⟨s.componentId, s.flowFileUuid⟩) .idle s.script

/-- The line for a query that was run. -/
def queryLine : Session.Note → Option String
  | .resubmitted q => some ("resubmit: " ++ q.toText)
  | _ => none

def simulate (settings : Settings) (s : Simulation) : Ending :=
  let states := s.states
  let queries := states.flatMap fun state => state.log.filterMap queryLine
  match states.getLast?.bind (·.outcome) with
  | some o => .done (lines (queries ++ [o.statusLine settings.limit]))
  | none => .failed ["No query was executed"]

/-! ## Message -/

def message (settings : Settings) (read : String → Except FileFault String) (i : Inquiry) :
    Ending :=
  match read i.path with
  | .error f => .failed ["Failed to read request file: " ++ i.path, f.message]
  | .ok text =>
    match Request.ofText text with
    | .error f => .failed ["Failed to parse request file: " ++ i.path, f.message]
    | .ok q => .done (lines [(Outcome.mk q ⟨i.total, []⟩).statusLine settings.limit])

/-- Does what is asked for. `lookup` finds the variables, and `read` reads the files. -/
def perform (lookup : String → Option String) (read : String → Except FileFault String) :
    Invocation → Ending
  | .version => .done (lines [versionLine])
  | .help => .done (lines usage)
  | invocation =>
    match Settings.ofLookup lookup with
    | .error f => .failed f.causes
    | .ok settings =>
      match invocation with
      | .simulate s => simulate settings s
      | .message i => message settings read i
      | .bare | .version | .help => .done (lines [hint])

def run (lookup : String → Option String) (read : String → Except FileFault String)
    (args : List String) : Ending :=
  match Invocation.ofArguments args with
  | .ok invocation => perform lookup read invocation
  | .error f => .refused f

end StandingQuery.CommandLine
