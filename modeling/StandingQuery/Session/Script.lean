import StandingQuery.Query.Outcome
import StandingQuery.Query.Route
import StandingQuery.Reaction
import StandingQuery.Session.Diagnostic

/-! What can be done in a session, and what is noted down there. Actions come from outside, one
after another, or from the rules of watchers and of those who carry out commands. Every rule looks
at the request of what was heard, for a route the one it leads to; where none belongs to it, the
request is absent. -/

namespace StandingQuery.Session

/-- What a listing or anyone else asks for: to change the persisted request, to run a query, or to
show a dialog. -/
inductive Command where
  | save (q : Request)
  | clear
  | resubmit (q : Request)
  | openSearch
  | openEvent (id : String)
deriving DecidableEq, Repr

inductive Action where
  /-- Starts a listing and keeps it under the name. -/
  | activate (name : String)
  | tearDown (name : String)
  /-- Has a listing run its request again. -/
  | refresh (name : String)
  /-- Has a listing clear the persisted request. -/
  | clearBy (name : String)
  | openSearchBy (name : String)
  | openEventBy (name : String) (e : Event)
  /-- The status line that a listing shows. -/
  | message (name : String)
  /-- The request that a listing runs. -/
  | current (name : String)
  | navigate (r : Option Route)
  | command (c : Command)
  | record (o : Outcome)
  | watch (name : String) (react : List (Rule (Option Request) Action))
  | watchRoute (name : String) (react : List (Rule (Option Request) Action))
  | watchResults (name : String) (react : List (Rule (Option Request) Action))
  | unwatch (name : String)

instance : Inhabited Action := ⟨.command .clear⟩

mutual

/-- At least the number of actions and firings that the action can lead to, itself included. -/
def Action.weight : Action → Nat
  | .watch _ react => 1 + rulesWeight react
  | .watchRoute _ react => 1 + rulesWeight react
  | .watchResults _ react => 1 + rulesWeight react
  | .activate _ | .tearDown _ | .refresh _ | .clearBy _ | .openSearchBy _ | .openEventBy _ _
  | .message _ | .current _ | .navigate _ | .command _ | .record _ | .unwatch _ => 1

def ruleWeight : Rule (Option Request) Action → Nat
  | ⟨_, times, acts⟩ => 1 + times * (1 + actionsWeight acts)

def rulesWeight : List (Rule (Option Request) Action) → Nat
  | [] => 0
  | r :: rs => ruleWeight r + rulesWeight rs

def actionsWeight : List Action → Nat
  | [] => 0
  | a :: as => a.weight + actionsWeight as

end

inductive Note where
  | resubmitted (q : Request)
  | searchOpened
  | eventOpened (id : String)
  /-- A watcher heard a request, or a route that leads to it; with it whether that is the one there
  is then. -/
  | watched (name : String) (q : Option Request) (present : Bool)
  /-- A watcher heard an outcome; with it whether that is the latest one then. -/
  | completed (name : String) (o : Outcome) (latest : Bool)
  /-- The status line of the latest outcome, if there is one. -/
  | message (line : Option String)
  | current (name : String) (q : Option Request) (active : Bool)
  | missing (name : String)
  /-- A listing cannot be torn down while it is at work. -/
  | busy (name : String)
  | diagnostic (d : Diagnostic)
deriving DecidableEq, Repr

/-- The requests that a rule asks for. -/
inductive Test where
  | any
  | absent
  | present
  | withScope
  | withoutScope
  | pageSize (n : Nat)
deriving DecidableEq, Repr

def Test.holds : Test → Option Request → Bool
  | .any, _ => true
  | .absent, q => q.isNone
  | .present, q => q.isSome
  | .withScope, q => q.any (·.isScoped)
  | .withoutScope, q => q.any (!·.isScoped)
  | .pageSize n, q => q.any (·.pageSize.value.toNat == n)

end StandingQuery.Session
