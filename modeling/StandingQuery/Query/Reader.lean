import StandingQuery.Instant.Reader
import StandingQuery.Json.Record
import StandingQuery.Query.Outcome
import StandingQuery.Query.Route

/-! Reads requests, routes and outcomes. Each record is given by its schema; a date is a number of
milliseconds, a spelled instant, or null. -/

namespace StandingQuery

open Json

/-- What a date stands for, once the whole value has been read. -/
def Instant.ofSurface : Surface → Except Instant.Fault (Option Instant)
  | .null => .ok none
  | .number (.integer n) =>
    if n ≤ Int64.maxValue.toInt then
      match ofMillis? n with
      | some t => .ok (some t)
      | none => .error .outOfRange
    else .error .notInteger
  | .number (.float _) => .error .notInteger
  | .text s =>
    match Instant.read s.toList with
    | .ok t => .ok (some t)
    | .error fault => .error (.spelling fault)
  | .boolean _ | .sequence | .map => .error .wrongKind

/-- A date that may be absent. -/
def Instant.readValue (room : Nat) : Reader (Option Instant) := fun s => do
  let (v, r) ← wholeSurface room s
  match Instant.ofSurface v with
  | .ok t => return (t, r)
  | .error fault => .error (.misfit (.timestamp fault))

def Term.schema : Schema Term where
  name := "SearchTerm"
  blank := .matching ""
  fields := [
    .of "value" true (fun _ => readText) fun v t => { t with value := v },
    .of "inverse" true (fun _ => readBoolean) fun b t => { t with inverse := b }]

def TermMap.read (room : Nat) : Reader TermMap := fun s => do
  let (pairs, r) ← readMap room Term.schema.read s
  return (ofList pairs, r)

def PageSize.read : Reader PageSize := fun s => do
  let (n, r) ← readPositive32 s
  return (⟨n.1, n.2⟩, r)

def Request.schema : Schema Request where
  name := "QueryRequest"
  blank := .default
  fields := [
    .of "incrementalResults" true (fun _ => readBoolean) fun b q => { q with incremental := b },
    .of "maxResults" true (fun _ => PageSize.read) fun n q => { q with pageSize := n },
    .of "summarize" true (fun _ => readBoolean) fun b q => { q with summarize := b },
    .of "searchTerms" false (fun room => readOptional (TermMap.read room))
      fun m q => { q with terms := m },
    .of "startDate" false Instant.readValue fun t q => { q with start := t },
    .of "endDate" false Instant.readValue fun t q => { q with stop := t }]

def Route.schema : Schema Route where
  name := "NavigationParams"
  blank := ⟨none, none⟩
  fields := [
    .of "componentId" false (fun _ => readOptional readText) fun s r => { r with componentId := s },
    .of "flowFileUuid" false (fun _ => readOptional readText)
      fun s r => { r with flowFileUuid := s }]

def Event.schema : Schema Event where
  name := "EventSummary"
  blank := ⟨"", none, none⟩
  fields := [
    .of "id" true (fun _ => readText) fun s e => { e with id := s },
    .of "eventType" false (fun _ => readOptional readText) fun s e => { e with type := s },
    .of "componentName" false (fun _ => readOptional readText)
      fun s e => { e with component := s }]

def Results.schema : Schema Results where
  name := "QueryResults"
  blank := ⟨0, []⟩
  fields := [
    .of "totalCount" true (fun _ => readNatural64) fun n r => { r with total := n },
    .of "provenanceEvents" false (fun room => readSequence room Event.schema.read)
      fun es r => { r with events := es }]

def Outcome.schema : Schema Outcome where
  name := "Provenance"
  blank := ⟨.default, ⟨0, []⟩⟩
  fields := [
    .of "request" true Request.schema.read fun q o => { o with request := q },
    .of "results" true Results.schema.read fun r o => { o with results := r }]

def Term.ofText : String → Except Failure Term := readAll Term.schema.read

def Request.ofText : String → Except Failure Request := readAll Request.schema.read

def Route.ofText : String → Except Failure Route := readAll Route.schema.read

def Event.ofText : String → Except Failure Event := readAll Event.schema.read

def Results.ofText : String → Except Failure Results := readAll Results.schema.read

def Outcome.ofText : String → Except Failure Outcome := readAll Outcome.schema.read

/-- A text that holds one date or null. The date is judged before the rest of the text is. -/
def Instant.ofText : String → Except Failure (Option Instant) := readAll Instant.readValue

end StandingQuery
