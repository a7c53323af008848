import StandingQuery.Channel.Cell
import StandingQuery.Named
import StandingQuery.Session.Script

/-! A session keeps the route, the persisted request and the latest outcome, each with those who
follow it, and the listings. A listing follows the route until it has taken one request from it, and
the persisted request for as long as it is there; it runs whatever is persisted. As on a bench, the
first task of an agenda is taken in each step, and what it leads to goes in front of the rest. -/

namespace StandingQuery

namespace Session

/-- Who hears of the route or of the persisted request. -/
inductive Follower where
  | listing (k : Nat)
  | watcher (i : Nat)
deriving DecidableEq, Repr

/-- Who gives a command. -/
inductive Giver where
  | outside
  /-- A method of the listing was called. -/
  | method (k : Nat)
  /-- The listing heard of the route or of the persisted request. -/
  | follower (k : Nat)
deriving DecidableEq, Repr

/-- A watcher's subscription to one of the three lines. -/
inductive Watch where
  | route (id : Nat)
  | request (id : Nat)
  | outcomes (id : Nat)
deriving DecidableEq, Repr

inductive Line where
  | route
  | request
  | outcomes
deriving DecidableEq, Repr

inductive Task where
  | act (a : Action)
  | command (giver : Giver) (c : Command)
  /-- The rules of a listener from number `rule` on, for a value heard after `before` others. -/
  | react (listener before rule : Nat) (value : Option Request)
  /-- The next turn of the delivery on a line. -/
  | deliver (line : Line)
  /-- The listing begins to follow the persisted request. -/
  | follow (k : Nat)
  /-- The listing is ready, and kept under the name. -/
  | ready (name : String) (k : Nat)
  /-- Keeps a watcher's subscription under a name. -/
  | keep (name : String) (w : Watch)
  /-- A method of the listing has come to its end. -/
  | leave (k : Nat)

structure Listing where
  /-- The request it has run last. -/
  cache : Option Request
  /-- Its subscription to the route, unless it took its request at once or was released. -/
  route : Option Nat
  /-- Its subscription to the persisted request, until it is released. -/
  request : Option Nat
  /-- How many of its methods are under way. -/
  uses : Nat
  /-- No name leads to it any more; it is released when its methods have come to their end. -/
  orphan : Bool
deriving DecidableEq, Repr

/-- A listing that has not run anything yet. -/
def Listing.following (route : Option Nat) : Listing := ⟨none, route, none, 0, false⟩

end Session

open Session in
structure Session where
  /-- The total that every query returns at once, if queries are answered here. -/
  answer : Option UInt64
  route : Cell (Option Route) Follower
  request : Cell (Option Request) Follower
  outcomes : Channel Outcome Nat
  outcome : Option Outcome
  /-- Those who carry out commands come first, then the watchers. -/
  listeners : List (Listener (Option Request) Action)
  listings : List Listing
  names : Named Nat
  watches : Named Watch
  /-- The notes, the latest first. -/
  notes : List Note
  agenda : List Task

namespace Session

/-- The listeners' numbers of those who run queries and show the two dialogs. -/
def executor : Nat := 0

def searchDialog : Nat := 1

def eventDialog : Nat := 2

/-- How those who carry out commands react. -/
structure Hosts where
  onResubmit : List (Rule (Option Request) Action)
  onSearch : List (Rule (Option Request) Action)
  onEvent : List (Rule (Option Request) Action)

def Hosts.idle : Hosts := ⟨[], [], []⟩

def Hosts.weight (h : Hosts) : Nat :=
  rulesWeight h.onResubmit + rulesWeight h.onSearch + rulesWeight h.onEvent

def start (answer : Option UInt64) (persisted : Option Request) (route : Option Route)
    (hosts : Hosts) : Session where
  answer := answer
  route := .holding route
  request := .holding persisted
  outcomes := .empty
  outcome := none
  listeners := [.named "" hosts.onResubmit, .named "" hosts.onSearch, .named "" hosts.onEvent]
  listings := []
  names := []
  watches := []
  notes := []
  agenda := []

def note (s : Session) (n : Note) : Session := { s with notes := n :: s.notes }

def diagnose (s : Session) (d : Diagnostic) : Session := s.note (.diagnostic d)

/-- Puts tasks in front of the agenda. -/
def plan (s : Session) (tasks : List Task) : Session := { s with agenda := tasks ++ s.agenda }

def nameOf (s : Session) (i : Nat) : String := (s.listeners[i]?.map (·.name)).getD ""

/-- Lets listener `i` hear a value, which sets its rules to work. -/
def hear (s : Session) (i : Nat) (v : Option Request) : Session :=
  match s.listeners[i]? with
  | none => s
  | some l =>
    { s with listeners := s.listeners.set i { l with heard := l.heard + 1 } }
      |>.plan [.react i l.heard 0 v]

/-- Adds a listener, under the next number. -/
def addListener (s : Session) (name : String) (rules : List (Rule (Option Request) Action)) :
    Session :=
  { s with listeners := s.listeners ++ [.named name rules] }

/-- Adds a listing, under the next number. -/
def addListing (s : Session) (l : Listing) : Session := { s with listings := s.listings ++ [l] }

def setListing (s : Session) (k : Nat) (f : Listing → Listing) : Session :=
  { s with listings := s.listings.modify k f }

/-! ## The three lines -/

/-- Changes the route. Each delivery is started by the value that finds none under way. -/
def navigate (s : Session) (r : Option Route) : Session :=
  let tasks := if s.route.channel.delivering then [] else [.deliver .route]
  { s with route := s.route.put r } |>.plan tasks

/-- Changes the persisted request, unless it is the same already. -/
def persist (s : Session) (q : Option Request) : Session :=
  if s.request.value = q then s
  else
    let tasks := if s.request.channel.delivering then [] else [.deliver .request]
    { s.diagnose (.changed q.isSome) with request := s.request.put q } |>.plan tasks

/-- Takes note of a completed query. -/
def record (s : Session) (o : Outcome) : Session :=
  let tasks := if s.outcomes.delivering then [] else [.deliver .outcomes]
  { s.diagnose (.recorded o.results.total) with
    outcome := some o
    outcomes := s.outcomes.emit o } |>.plan tasks

/-! ## Commands -/

/-- Has a query run. An answer is recorded before anyone reacts. -/
def resubmit (s : Session) (q : Request) : Session :=
  let s := s.note (.resubmitted q) |>.hear executor (some q)
  match s.answer with
  | some total => s.record ⟨q, ⟨total, []⟩⟩
  | none => s

def carryOut (s : Session) : Command → Session
  | .save q => s.persist (some q)
  | .clear => s.persist none
  | .resubmit q => s.resubmit q
  | .openSearch => s.note .searchOpened |>.hear searchDialog none
  | .openEvent id => s.note (.eventOpened id) |>.hear eventDialog none

/-! ## Listings -/

/-- The listing hears of a present route: it saves the request that the route leads to. -/
def takeRoute (s : Session) (k : Nat) (r : Route) : Session :=
  let q := r.initialRequest
  s.diagnose (.derived q.isScoped) |>.plan [.command (.follower k) (.save q)]

/-- The listing hears of the persisted request: it keeps what is to be run for it, and runs that. -/
def takeRequest (s : Session) (k : Nat) (persisted : Option Request) : Session :=
  let q := Request.effective persisted
  s.setListing k ({ · with cache := some q })
    |>.diagnose (.resubmitting q.isScoped) |>.plan [.command (.follower k) (.resubmit q)]

/-- A new listing. A route that is known already is taken, with all that follows from it, before the
persisted request is followed; otherwise the first one to come will be. -/
def activate (s : Session) (name : String) : Session :=
  let k := s.listings.length
  let s := s.plan [.follow k, .ready name k]
  match s.route.value with
  | some r => s.addListing (.following none) |>.takeRoute k r
  | none =>
    { s with route := s.route.subscribe (.first Option.isSome) (.listing k) }
      |>.addListing (.following (some s.route.channel.nextId))

/-- The listing begins to follow the persisted request, and hears of the present one at once. -/
def follow (s : Session) (k : Nat) : Session :=
  let id := s.request.channel.nextId
  { s with request := s.request.subscribe .every (.listing k) }
    |>.setListing k ({ · with request := some id }) |>.takeRequest k s.request.value

/-- Ends what subscriptions the listing has. -/
def release (s : Session) (k : Nat) : Session :=
  match s.listings[k]? with
  | none => s
  | some l =>
    let s := match l.route with
      | some id => { s with route := s.route.detach id }
      | none => s
    let s := match l.request with
      | some id => { s with request := s.request.detach id } |>.diagnose .tornDown
      | none => s
    s.setListing k ({ · with route := none, request := none })

/-- No name leads to the listing any more: it is released, once none of its methods is under way. -/
def abandon (s : Session) (k : Nat) : Session :=
  match s.listings[k]? with
  | none => s
  | some l => if l.uses = 0 then s.release k else s.setListing k ({ · with orphan := true })

/-- The listing has been activated; an older one of the name is abandoned. -/
def ready (s : Session) (name : String) (k : Nat) : Session :=
  let older := s.names.get? name
  let s := { s.diagnose .activated with names := s.names.put name k }
  match older with
  | some k => s.abandon k
  | none => s

/-- A method of the listing has come to its end. -/
def leave (s : Session) (k : Nat) : Session :=
  let s := s.setListing k fun l => { l with uses := l.uses - 1 }
  match s.listings[k]? with
  | none => s
  | some l => if l.uses = 0 && l.orphan then s.release k else s

/-- The listing of that name does something. -/
def withListing (s : Session) (name : String) (f : Nat → Listing → Session) : Session :=
  match s.names.get? name with
  | none => s.note (.missing name)
  | some k =>
    match s.listings[k]? with
    | none => s.note (.missing name)
    | some l => f k l

/-- A method of listing `k`, which gives one command. -/
def method (s : Session) (k : Nat) (c : Command) : Session :=
  s.setListing k (fun l => { l with uses := l.uses + 1 })
    |>.plan [.command (.method k) c, .leave k]

/-- Runs the request of the listing again; the default one if it has none yet, which it keeps. -/
def refresh (s : Session) (k : Nat) (l : Listing) : Session :=
  match l.cache with
  | some q => s.method k (.resubmit q)
  | none =>
    s.diagnose .unseeded |>.setListing k ({ · with cache := some .default })
      |>.method k (.resubmit .default)

def tearDown (s : Session) (name : String) (k : Nat) (l : Listing) : Session :=
  if l.uses = 0 then { s with names := s.names.erase name }.release k else s.note (.busy name)

/-! ## Watchers -/

/-- What a watcher hears of a route is the request that it leads to. -/
def hearRoute (s : Session) (i : Nat) (r : Option Route) : Session :=
  let q := r.map Route.initialRequest
  s.note (.watched (s.nameOf i) q (decide (s.route.value = r))) |>.hear i q

def hearRequest (s : Session) (i : Nat) (q : Option Request) : Session :=
  s.note (.watched (s.nameOf i) q (decide (s.request.value = q))) |>.hear i q

def hearOutcome (s : Session) (i : Nat) (o : Outcome) : Session :=
  s.note (.completed (s.nameOf i) o (decide (s.outcome = some o))) |>.hear i (some o.request)

/-- A new watcher of the route, who hears of the present one at once. -/
def watchRoute (s : Session) (name : String) (rules : List (Rule (Option Request) Action)) :
    Session :=
  let i := s.listeners.length
  { s with route := s.route.subscribe .every (.watcher i) }
    |>.addListener name rules
    |>.plan [.keep name (.route s.route.channel.nextId)] |>.hearRoute i s.route.value

/-- A new watcher of the persisted request, who hears of the present one at once. -/
def watch (s : Session) (name : String) (rules : List (Rule (Option Request) Action)) : Session :=
  let i := s.listeners.length
  { s with request := s.request.subscribe .every (.watcher i) }
    |>.addListener name rules
    |>.plan [.keep name (.request s.request.channel.nextId)] |>.hearRequest i s.request.value

/-- A new watcher of the outcomes to come. -/
def watchOutcomes (s : Session) (name : String) (rules : List (Rule (Option Request) Action)) :
    Session :=
  { s with outcomes := s.outcomes.subscribe .every s.listeners.length }
    |>.addListener name rules
    |>.plan [.keep name (.outcomes s.outcomes.nextId)]

def unwatch (s : Session) : Watch → Session
  | .route id => { s with route := s.route.detach id }
  | .request id => { s with request := s.request.detach id }
  | .outcomes id => { s with outcomes := s.outcomes.detach id }

/-- Puts a subscription in its place; the one that was there is dropped. -/
def keep (s : Session) (name : String) (w : Watch) : Session :=
  let older := s.watches.get? name
  let s := { s with watches := s.watches.put name w }
  match older with
  | some w => s.unwatch w
  | none => s

end Session
end StandingQuery
