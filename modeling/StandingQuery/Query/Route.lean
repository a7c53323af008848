import StandingQuery.Query.Request

/-! The searchable part of a page's route, and the request a listing starts with because of it. -/

namespace StandingQuery

structure Route where
  componentId : Option String
  flowFileUuid : Option String
deriving DecidableEq, Repr

namespace Route

/-- The component, an empty id counting as none. -/
def component? (r : Route) : Option String := r.componentId.filter (!·.isEmpty)

/-- The flow file, an empty uuid counting as none. -/
def flowFile? (r : Route) : Option String := r.flowFileUuid.filter (!·.isEmpty)

def componentField : String := "ProcessorID"

def flowFileField : String := "FlowFileUUID"

/-- The request with a term of that field, where there is a value for it. -/
def addTerm (field : String) (value : Option String) (q : Request) : Request :=
  match value with
  | some v => q.withTerm field (.matching v)
  | none => q

/-- The default request, narrowed to the component and the flow file that are known. -/
def initialRequest (r : Route) : Request :=
  addTerm flowFileField r.flowFile? (addTerm componentField r.component? .default)

end Route
end StandingQuery
