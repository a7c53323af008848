import StandingQuery.Instant.Basic
import StandingQuery.Query.Term

/-! A query for provenance events. The default one has no scope: no terms and no dates. -/

namespace StandingQuery

/-- How many events a query returns at most. -/
structure PageSize where
  value : UInt32
  positive : value ≠ 0
deriving DecidableEq, Repr

def PageSize.default : PageSize := ⟨1000, by decide⟩

structure Request where
  incremental : Bool
  pageSize : PageSize
  summarize : Bool
  terms : Option TermMap
  start : Option Instant
  stop : Option Instant
deriving DecidableEq, Repr

namespace Request

def default : Request where
  incremental := false
  pageSize := .default
  summarize := true
  terms := none
  start := none
  stop := none

/-- Adds a term or replaces the one of that field; the map of terms comes with the first of them. -/
def withTerm (q : Request) (field : String) (t : Term) : Request :=
  { q with terms := some ((q.terms.getD .empty).insert field t) }

def withStart (q : Request) (t : Instant) : Request := { q with start := some t }

def withStop (q : Request) (t : Instant) : Request := { q with stop := some t }

/-- Has a term or a date. A map without terms gives no scope. -/
def isScoped (q : Request) : Bool :=
  q.start.isSome || q.stop.isSome || q.terms.any (!·.isEmpty)

def term? (q : Request) (field : String) : Option Term := q.terms.bind (·.get? field)

/-- The query to run for what is persisted: the default one for nothing. -/
def effective (persisted : Option Request) : Request := persisted.getD default

end Request
end StandingQuery
