import StandingQuery.Bench.Script
import StandingQuery.Channel.Cell
import StandingQuery.Named

/-! A bench runs scripts against one channel or cell: handles come and go, subscriptions are kept
under names, and listeners react by further actions. What is still to be done is an agenda, whose
first task is taken in each step; what a task leads to goes in front of the rest, so that a call is
over before its caller goes on. -/

namespace StandingQuery

namespace Bench

/-- What the bench is about. Entries lead to the number of a listener. -/
inductive Subject (α : Type) where
  | relay (channel : Channel α Nat)
  | cell (cell : Cell α Nat)

namespace Subject

variable {α : Type}

def channel : Subject α → Channel α Nat
  | .relay c => c
  | .cell c => c.channel

/-- The value held, where there is one. -/
def held : Subject α → Option α
  | .relay _ => none
  | .cell c => some c.value

def put (v : α) : Subject α → Subject α
  | .relay c => .relay (c.emit v)
  | .cell c => .cell (c.put v)

def subscribe (mode : Mode α) (listener : Nat) : Subject α → Subject α
  | .relay c => .relay (c.subscribe mode listener)
  | .cell c => .cell (c.subscribe mode listener)

def detach (id : Nat) : Subject α → Subject α
  | .relay c => .relay (c.detach id)
  | .cell c => .cell (c.detach id)

def advance : Subject α → Turn α Nat × Subject α
  | .relay c => let (turn, c) := c.advance; (turn, .relay c)
  | .cell c => let (turn, c) := c.advance; (turn, .cell c)

end Subject

inductive Task (α : Type) where
  | act (a : Action α)
  /-- The rules of a listener from number `rule` on, for a value heard after `before` others. -/
  | react (listener before rule : Nat) (value : α)
  /-- The next turn of the delivery. -/
  | deliver
  /-- Keeps a subscription under a name; none stands for one that never was in the registry. -/
  | keep (name : String) (id : Option Nat)

end Bench

structure Bench (α : Type) where
  subject : Bench.Subject α
  /-- For each handle ever made, whether it is still there. -/
  handles : List Bool
  listeners : List (Listener α (Bench.Action α))
  kept : Named (Option Nat)
  /-- The notes, the latest first. -/
  notes : List (Bench.Note α)
  agenda : List (Bench.Task α)

namespace Bench

variable {α : Type}

/-- One handle, and nothing else yet. -/
def start (subject : Subject α) : Bench α where
  subject := subject
  handles := [true]
  listeners := []
  kept := []
  notes := []
  agenda := []

def hasHandle (b : Bench α) (h : Nat) : Bool := b.handles[h]?.getD false

/-- Some handle is left. -/
def isOpen (b : Bench α) : Bool := b.handles.any id

def note (b : Bench α) (n : Note α) : Bench α := { b with notes := n :: b.notes }

/-- Puts tasks in front of the agenda. -/
def plan (b : Bench α) (tasks : List (Task α)) : Bench α := { b with agenda := tasks ++ b.agenda }

/-- A subscription that never was in the registry is not active. -/
def isActive (b : Bench α) : Option Nat → Bool
  | some id => b.subject.channel.isActive id
  | none => false

def release (b : Bench α) : Option Nat → Bench α
  | some id => { b with subject := b.subject.detach id }
  | none => b

/-- Does something if handle `h` is there. -/
def withHandle (b : Bench α) (h : Nat) (f : Bench α → Bench α) : Bench α :=
  if b.hasHandle h then f b else b.note (.noHandle h)

/-- Adds a listener, under the next number. -/
def addListener (b : Bench α) (name : String) (rules : List (Rule α (Action α))) : Bench α :=
  { b with listeners := b.listeners ++ [.named name rules] }

def nameOf (b : Bench α) (i : Nat) : String := (b.listeners[i]?.map (·.name)).getD ""

/-- Lets listener `i` hear a value: a note, then its rules. -/
def hear (b : Bench α) (i : Nat) (v : α) : Bench α :=
  match b.listeners[i]? with
  | none => b
  | some l =>
    { b with listeners := b.listeners.set i { l with heard := l.heard + 1 } }
      |>.note (.heard l.name v (if b.isOpen then b.subject.held else none))
      |>.plan [.react i l.heard 0 v]

/-- Puts listener `i` into the registry. The subscription is kept under the name once all that the
call leads to is done. -/
def register (b : Bench α) (name : String) (mode : Mode α) (i : Nat) : Bench α :=
  { b with subject := b.subject.subscribe mode i }
    |>.plan [.keep name (some b.subject.channel.nextId)]

/-- A cell lets a new listener hear the value held at once. -/
def subscribe (b : Bench α) (name : String) (rules : List (Rule α (Action α))) : Bench α :=
  let i := b.listeners.length
  let b := b.addListener name rules |>.register name .every i
  match b.subject.held with
  | some v => b.hear i v
  | none => b

/-- A cell asks about the value held first; if accepted, the listener hears it and never comes into
the registry. -/
def subscribeFirst (b : Bench α) (name : String) (accept : α → Bool)
    (rules : List (Rule α (Action α))) : Bench α :=
  let i := b.listeners.length
  let b := b.addListener name rules
  match b.subject.held with
  | some v =>
    let b := b.note (.asked name v (accept v))
    if accept v then b.plan [.keep name none] |>.hear i v
    else b.register name (.first accept) i
  | none => b.register name (.first accept) i

/-- Starts a delivery unless one is under way. -/
def emit (b : Bench α) (v : α) : Bench α :=
  let tasks := if b.subject.channel.delivering then [] else [.deliver]
  { b with subject := b.subject.put v } |>.plan tasks

def act (b : Bench α) : Action α → Bench α
  | .emit h v => b.withHandle h (·.emit v)
  | .subscribe h name rules => b.withHandle h (·.subscribe name rules)
  | .subscribeFirst h name accept rules => b.withHandle h (·.subscribeFirst name accept rules)
  | .release how name =>
    match b.kept.get? name with
    | some id =>
      { b with kept := b.kept.erase name }
        |>.note (.released how name (b.isActive id)) |>.release id
    | none => b.note (.missing name)
  | .inspect name =>
    match b.kept.get? name with
    | some id => b.note (.inspected name (b.isActive id))
    | none => b.note (.missing name)
  | .count h => b.withHandle h fun b => b.note (.counted b.subject.channel.count)
  | .clone h => b.withHandle h fun b => { b with handles := b.handles ++ [true] }
  | .dropHandle h => { b with handles := b.handles.set h false }

/-- One turn of the delivery, then the rest of it. -/
def deliver (b : Bench α) : Bench α :=
  let (turn, subject) := b.subject.advance
  let b := { b with subject }
  match turn with
  | .finished => b
  | .moved => b.plan [.deliver]
  | .refused e v => b.note (.asked (b.nameOf e.target) v false) |>.plan [.deliver]
  | .called e v =>
    let b := match e.mode with
      | .every => b
      | .first _ => b.note (.asked (b.nameOf e.target) v true)
    b.plan [.deliver] |>.hear e.target v

/-- Goes through the rules from number `rule` on. -/
def react (b : Bench α) (i before rule : Nat) (v : α) : Bench α :=
  match b.listeners[i]? with
  | none => b
  | some l =>
    if rule < l.rules.length then
      let b := b.plan [.react i before (rule + 1) v]
      match l.fire rule before v with
      | some (acts, l) => { b with listeners := b.listeners.set i l } |>.plan (acts.map .act)
      | none => b
    else b

/-- Puts a subscription in its place; the one that was there is dropped. -/
def keep (b : Bench α) (name : String) (id : Option Nat) : Bench α :=
  let older := b.kept.get? name
  let b := { b with kept := b.kept.put name id }
  match older with
  | some id => b.release id
  | none => b

def perform (b : Bench α) : Task α → Bench α
  | .act a => b.act a
  | .react i before rule v => b.react i before rule v
  | .deliver => b.deliver
  | .keep name id => b.keep name id

/-- Takes the first task, if there is one. -/
def step (b : Bench α) : Option (Bench α) :=
  match b.agenda with
  | [] => none
  | t :: ts => some ({ b with agenda := ts }.perform t)

/-- At most `fuel` steps. -/
def run : Nat → Bench α → Bench α
  | 0, b => b
  | fuel + 1, b =>
    match b.step with
    | some b => run fuel b
    | none => b

/-- One action from outside, with all that follows from it. The notes are only those of this action.
A script of weight `w` makes at most `w` listeners and emits at most `w` values, so there are at
most `w * w` turns, and `w` rules to each; that is less than the number of steps allowed. -/
def play (b : Bench α) (weight : Nat) (a : Action α) : Bench α :=
  run (Nat.pow (weight + 4) 5) { b with notes := [], agenda := [.act a] }

/-- The bench after each action of a script. `weight` is that of the whole script. -/
def states (b : Bench α) (weight : Nat) : List (Action α) → List (Bench α)
  | [] => []
  | a :: as =>
    let b := b.play weight a
    b :: states b weight as

def playAll (subject : Subject α) (script : List (Action α)) : List (Bench α) :=
  (start subject).states (actionsWeight script) script

/-- What was noted, in order. -/
def log (b : Bench α) : List (Note α) := b.notes.reverse

/-- The subscribers, as long as a handle is left to ask. -/
def subscribers (b : Bench α) : Option Nat :=
  if b.isOpen then some b.subject.channel.count else none

/-- The value held, as long as a handle is left to ask. -/
def value? (b : Bench α) : Option α := if b.isOpen then b.subject.held else none

/-- For each subscription that is kept, whether it is active. -/
def activity (b : Bench α) : List (String × Bool) :=
  b.kept.map fun (name, id) => (name, b.isActive id)

end Bench
end StandingQuery
