import StandingQuery.Session.Basic

/-! The steps of a session, and its runs. -/

namespace StandingQuery.Session

def act (s : Session) : Action → Session
  | .activate name => s.activate name
  | .tearDown name => s.withListing name (s.tearDown name)
  | .refresh name => s.withListing name s.refresh
  | .clearBy name => s.withListing name fun k _ => s.diagnose .clearing |>.method k .clear
  | .openSearchBy name => s.withListing name fun k _ => s.method k .openSearch
  | .openEventBy name e => s.withListing name fun k _ => s.method k (.openEvent e.id)
  | .message name => s.withListing name fun _ _ =>
      s.note (.message (s.outcome.map (·.statusLine Outcome.defaultLimit)))
  | .current name => s.withListing name fun _ l =>
      s.note (.current name l.cache l.request.isSome)
  | .navigate r => s.navigate r
  | .command c => s.plan [.command .outside c]
  | .record o => s.record o
  | .watch name rules => s.watch name rules
  | .watchRoute name rules => s.watchRoute name rules
  | .watchResults name rules => s.watchOutcomes name rules
  | .unwatch name =>
    match s.watches.get? name with
    | some w => { s with watches := s.watches.erase name }.unwatch w
    | none => s.note (.missing name)

/-- One turn of the delivery of routes. A listing accepts only one that is present. -/
def deliverRoute (s : Session) : Session :=
  let (turn, route) := s.route.advance
  let s := { s with route }
  match turn with
  | .finished => s
  | .moved | .refused _ _ => s.plan [.deliver .route]
  | .called e r =>
    let s := s.plan [.deliver .route]
    match e.target, r with
    | .listing k, some r => s.takeRoute k r
    | .listing _, none => s
    | .watcher i, r => s.hearRoute i r

def deliverRequest (s : Session) : Session :=
  let (turn, request) := s.request.advance
  let s := { s with request }
  match turn with
  | .finished => s
  | .moved | .refused _ _ => s.plan [.deliver .request]
  | .called e q =>
    let s := s.plan [.deliver .request]
    match e.target with
    | .listing k => s.takeRequest k q
    | .watcher i => s.hearRequest i q

def deliverOutcome (s : Session) : Session :=
  let (turn, outcomes) := s.outcomes.advance
  let s := { s with outcomes }
  match turn with
  | .finished => s
  | .moved | .refused _ _ => s.plan [.deliver .outcomes]
  | .called e o => s.plan [.deliver .outcomes] |>.hearOutcome e.target o

/-- Goes through the rules from number `rule` on. -/
def react (s : Session) (i before rule : Nat) (v : Option Request) : Session :=
  match s.listeners[i]? with
  | none => s
  | some l =>
    if rule < l.rules.length then
      let s := s.plan [.react i before (rule + 1) v]
      match l.fire rule before v with
      | some (acts, l) => { s with listeners := s.listeners.set i l } |>.plan (acts.map .act)
      | none => s
    else s

def perform (s : Session) : Task → Session
  | .act a => s.act a
  | .command _ c => s.carryOut c
  | .react i before rule v => s.react i before rule v
  | .deliver .route => s.deliverRoute
  | .deliver .request => s.deliverRequest
  | .deliver .outcomes => s.deliverOutcome
  | .follow k => s.follow k
  | .ready name k => s.ready name k
  | .keep name w => s.keep name w
  | .leave k => s.leave k

/-- Takes the first task, if there is one. -/
def step (s : Session) : Option Session :=
  match s.agenda with
  | [] => none
  | t :: ts => some ({ s with agenda := ts }.perform t)

/-- At most `fuel` steps. -/
def run : Nat → Session → Session
  | 0, s => s
  | fuel + 1, s =>
    match s.step with
    | some s => run fuel s
    | none => s

/-- One action from outside, with all that follows from it. The notes are only those of this action.
With a script and hosts of weight `w` together there are at most `w` listings and watchers and
`2 * w` changes of the persisted request, hence of the order of `w ^ 2` queries and outcomes and of
`w ^ 3` turns, with `w` rules to each; the number of steps allowed is beyond that. -/
def play (s : Session) (weight : Nat) (a : Action) : Session :=
  run (Nat.pow (weight + 4) 5) { s with notes := [], agenda := [.act a] }

/-- The session after each action of a script. `weight` is that of the script and the hosts. -/
def states (s : Session) (weight : Nat) : List Action → List Session
  | [] => []
  | a :: as =>
    let s := s.play weight a
    s :: states s weight as

def playAll (answer : Option UInt64) (persisted : Option Request) (route : Option Route)
    (hosts : Hosts) (script : List Action) : List Session :=
  (start answer persisted route hosts).states (hosts.weight + actionsWeight script) script

/-- What was noted, in order. -/
def log (s : Session) : List Note := s.notes.reverse

/-- What the listing of that name runs. -/
def currentRequest (s : Session) (k : Nat) : Option Request :=
  (s.listings[k]?).bind (·.cache)

end StandingQuery.Session
