import StandingQuery.Proofs.Observer.Reaction
import StandingQuery.Session.Step

/-! Observers in a session: watchers of the route, of the persisted request or of the outcomes,
under names of their own, that have no rules. Here is what is left of a script without them, and
what is compared of two sessions of which only the first one has observers. -/

namespace StandingQuery.Session

variable (extra : String → Bool)

/-! ## A script without the observers -/

mutual

/-- The action without what observers do in it or in what it leads to. -/
def Action.without : Action → Option Action
  | .watch name react => if extra name then none else some (.watch name (rulesWithout react))
  | .watchRoute name react =>
    if extra name then none else some (.watchRoute name (rulesWithout react))
  | .watchResults name react =>
    if extra name then none else some (.watchResults name (rulesWithout react))
  | .unwatch name => if extra name then none else some (.unwatch name)
  | .activate name => some (.activate name)
  | .tearDown name => some (.tearDown name)
  | .refresh name => some (.refresh name)
  | .clearBy name => some (.clearBy name)
  | .openSearchBy name => some (.openSearchBy name)
  | .openEventBy name e => some (.openEventBy name e)
  | .message name => some (.message name)
  | .current name => some (.current name)
  | .navigate r => some (.navigate r)
  | .command c => some (.command c)
  | .record o => some (.record o)

def ruleWithout : Rule (Option Request) Action → Rule (Option Request) Action
  | ⟨applies, times, acts⟩ => ⟨applies, times, actionsWithout acts⟩

def rulesWithout : List (Rule (Option Request) Action) → List (Rule (Option Request) Action)
  | [] => []
  | r :: rs => ruleWithout r :: rulesWithout rs

def actionsWithout : List Action → List Action
  | [] => []
  | a :: as => (a.without).toList ++ actionsWithout as

end

mutual

/-- No observer that the action brings in reacts to anything. -/
def Action.isPassive : Action → Bool
  | .watch name react | .watchRoute name react | .watchResults name react =>
    if extra name then react.isEmpty else rulesPassive react
  | .unwatch _ | .activate _ | .tearDown _ | .refresh _ | .clearBy _ | .openSearchBy _
  | .openEventBy _ _ | .message _ | .current _ | .navigate _ | .command _ | .record _ => true

def rulePassive : Rule (Option Request) Action → Bool
  | ⟨_, _, acts⟩ => actionsPassive acts

def rulesPassive : List (Rule (Option Request) Action) → Bool
  | [] => true
  | r :: rs => rulePassive r && rulesPassive rs

def actionsPassive : List Action → Bool
  | [] => true
  | a :: as => a.isPassive && actionsPassive as

end

/-- Those who carry out commands may bring observers in as well. -/
def Hosts.without (h : Hosts) : Hosts where
  onResubmit := rulesWithout extra h.onResubmit
  onSearch := rulesWithout extra h.onSearch
  onEvent := rulesWithout extra h.onEvent

def Hosts.isPassive (h : Hosts) : Bool :=
  rulesPassive extra h.onResubmit && rulesPassive extra h.onSearch && rulesPassive extra h.onEvent

theorem ruleWithout_eq (r : Rule (Option Request) Action) :
    ruleWithout extra r = r.mapActs (actionsWithout extra) := by
  cases r
  rw [ruleWithout]
  rfl

theorem rulesWithout_eq (rs : List (Rule (Option Request) Action)) :
    rulesWithout extra rs = rs.map (·.mapActs (actionsWithout extra)) := by
  induction rs with
  | nil => rfl
  | cons r rs ih => rw [rulesWithout, ih, ruleWithout_eq, List.map_cons]

theorem rulePassive_eq (r : Rule (Option Request) Action) :
    rulePassive extra r = actionsPassive extra r.acts := by
  cases r
  rw [rulePassive]

theorem rulesPassive_iff (rs : List (Rule (Option Request) Action)) :
    rulesPassive extra rs = true ↔ ∀ r ∈ rs, actionsPassive extra r.acts = true := by
  induction rs with
  | nil => simp [rulesPassive]
  | cons r rs ih => rw [rulesPassive, Bool.and_eq_true, ih, rulePassive_eq, List.forall_mem_cons]

/-! ## What is seen apart from the observers -/

/-- Not about an observer. -/
def Note.isShown : Note → Bool
  | .watched name _ _ | .completed name _ _ | .missing name => !extra name
  | .resubmitted _ | .searchOpened | .eventOpened _ | .message _ | .current _ _ _ | .busy _
  | .diagnostic _ => true

def isWatching (s : Session) : Watch → Bool
  | .route id => s.route.channel.isActive id
  | .request id => s.request.channel.isActive id
  | .outcomes id => s.outcomes.isActive id

/-- For each watcher whose subscription is kept, whether it is active. -/
def activity (s : Session) : List (String × Bool) :=
  s.watches.map fun (name, w) => (name, s.isWatching w)

/-- The listing takes part in either line, the one of routes and the one of requests. -/
def taking (s : Session) (k : Nat) : Bool × Bool :=
  ((s.listings[k]?).any fun l => l.route.any s.route.channel.isActive,
    (s.listings[k]?).any fun l => l.request.any s.request.channel.isActive)

/-- The first session, with what had been noted before, is the second one with observers. -/
structure Agrees (s t : List Note × Session) : Prop where
  route : s.2.route.value = t.2.route.value
  persisted : s.2.request.value = t.2.request.value
  outcome : s.2.outcome = t.2.outcome
  names : s.2.names = t.2.names
  cached : ∀ k, s.2.currentRequest k = t.2.currentRequest k
  taking : ∀ k, s.2.taking k = t.2.taking k
  /-- The same queries have been run and the same dialogs shown, everybody else has heard the same
  requests and outcomes, and all other notes are the same, in one order. -/
  notes : (s.2.notes ++ s.1).filter (Note.isShown extra) =
    (t.2.notes ++ t.1).filter (Note.isShown extra)
  activity : s.2.activity.filter (fun p => !extra p.1) = t.2.activity

end StandingQuery.Session
