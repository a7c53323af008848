import StandingQuery.Query.Request

/-! What a query returned, and the line that is shown above its events. -/

namespace StandingQuery

structure Event where
  id : String
  type : Option String
  component : Option String
deriving DecidableEq, Repr

structure Results where
  total : UInt64
  events : List Event
deriving DecidableEq, Repr

/-- A completed query. -/
structure Outcome where
  request : Request
  results : Results
deriving DecidableEq, Repr

namespace Outcome

/-- The default page size is also the default cap on what is shown. -/
def defaultLimit : UInt64 := PageSize.default.value.toUInt64

/-- Says whether the events were selected and, from `limit` events on, that not all are shown. -/
def statusLine (o : Outcome) (limit : UInt64) : String :=
  let total := o.results.total
  match o.request.isScoped, decide (limit ≤ total) with
  | true, true =>
    "Showing " ++ toString limit ++ " of " ++ toString total ++
      " events that match the specified query, please refine the search."
  | true, false => "Showing the events that match the specified query."
  | false, true =>
    "Showing the most recent " ++ toString limit ++ " of " ++ toString total ++
      " events, please refine the search."
  | false, false => "Showing the most recent events."

end Outcome
end StandingQuery
