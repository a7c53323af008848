import StandingQuery.Instant.Printer
import StandingQuery.Json.Printer
import StandingQuery.Query.Outcome
import StandingQuery.Query.Route

/-! The written form of requests, routes and outcomes. Members come in the order of the fields. An
absent part is left out, except that a route always names both of its parts. -/

namespace StandingQuery

open Json

def Instant.json (t : Instant) : List Char := '"' :: t.print ++ ['"']

def Term.json (t : Term) : List Char :=
  printObject [("value", printText t.value), ("inverse", printBoolean t.inverse)]

/-- The terms, ascending by field. -/
def TermMap.json (m : TermMap) : List Char :=
  printObject (m.entries.map fun (k, t) => (k, t.json))

def Request.json (q : Request) : List Char :=
  printObject <|
    [("incrementalResults", printBoolean q.incremental),
      ("maxResults", Text.decimal q.pageSize.value.toNat),
      ("summarize", printBoolean q.summarize)] ++
    memberIf "searchTerms" q.terms TermMap.json ++
    memberIf "startDate" q.start Instant.json ++
    memberIf "endDate" q.stop Instant.json

def Route.json (r : Route) : List Char :=
  let part (s : Option String) := (s.map printText).getD printNull
  printObject [("componentId", part r.componentId), ("flowFileUuid", part r.flowFileUuid)]

def Event.json (e : Event) : List Char :=
  printObject <|
    ("id", printText e.id) :: memberIf "eventType" e.type printText ++
      memberIf "componentName" e.component printText

def Results.json (r : Results) : List Char :=
  printObject
    [("totalCount", Text.decimal r.total.toNat),
      ("provenanceEvents", printArray (r.events.map Event.json))]

def Outcome.json (o : Outcome) : List Char :=
  printObject [("request", o.request.json), ("results", o.results.json)]

def Term.toText (t : Term) : String := String.ofList t.json

def Request.toText (q : Request) : String := String.ofList q.json

def Route.toText (r : Route) : String := String.ofList r.json

def Event.toText (e : Event) : String := String.ofList e.json

def Results.toText (r : Results) : String := String.ofList r.json

def Outcome.toText (o : Outcome) : String := String.ofList o.json

end StandingQuery
