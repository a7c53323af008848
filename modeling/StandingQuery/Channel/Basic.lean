/-! A channel delivers values to its subscribers one at a time. A value emitted during a delivery
waits until the one under way has reached everybody, so all subscribers see the values in the order
of emission. Each delivery walks over the entries that stood in the registry when it began; an entry
whose subscription has ended since is passed over.

A delivery is cut into turns, so that whoever runs the channel can do anything with it between two
of them: emit, subscribe, detach. -/

namespace StandingQuery

/-- Which values an entry takes. -/
inductive Mode (α : Type) where
  | every
  /-- Only the first accepted value; taking it ends the subscription. -/
  | first (accept : α → Bool)

structure Entry (α β : Type) where
  id : Nat
  mode : Mode α
  target : β

structure Channel (α β : Type) where
  /-- The id of the next subscription. -/
  nextId : Nat
  /-- The registry, in the order of subscription. -/
  entries : List (Entry α β)
  /-- The subscriptions that have ended. -/
  ended : List Nat
  /-- Values emitted and not yet under delivery, the oldest first. -/
  pending : List α
  /-- A delivery has been started and has not come to its end. -/
  delivering : Bool
  /-- The turns left of the value under delivery. -/
  turns : List (Entry α β × α)

/-- What a turn comes to. -/
inductive Turn (α β : Type) where
  /-- No value is left; the delivery is over. -/
  | finished
  /-- A value came under delivery, or an entry was passed over. -/
  | moved
  /-- An entry for the first accepted value did not accept this one. -/
  | refused (e : Entry α β) (v : α)
  /-- The value goes to the target of the entry. -/
  | called (e : Entry α β) (v : α)

namespace Channel

variable {α β : Type}

def empty : Channel α β where
  nextId := 0
  entries := []
  ended := []
  pending := []
  delivering := false
  turns := []

/-- The subscription was made and has not ended. -/
def isActive (c : Channel α β) (id : Nat) : Bool := decide (id < c.nextId) && !c.ended.contains id

def count (c : Channel α β) : Nat := c.entries.length

/-- A new subscription under the next id, at the end of the registry. -/
def subscribe (c : Channel α β) (mode : Mode α) (target : β) : Channel α β :=
  { c with nextId := c.nextId + 1, entries := c.entries ++ [⟨c.nextId, mode, target⟩] }

/-- Ends a subscription. Ending it again changes nothing that can be seen. -/
def detach (c : Channel α β) (id : Nat) : Channel α β :=
  { c with entries := c.entries.filter (·.id != id), ended := id :: c.ended }

/-- Puts a value in line. Where no delivery was under way, one is now, and its turns are due. -/
def emit (c : Channel α β) (v : α) : Channel α β :=
  { c with pending := c.pending ++ [v], delivering := true }

/-- The next turn of the delivery. -/
def advance (c : Channel α β) : Turn α β × Channel α β :=
  match c.turns, c.pending with
  | (e, v) :: rest, _ =>
    let c := { c with turns := rest }
    if c.isActive e.id then
      match e.mode with
      | .every => (.called e v, c)
      | .first accept => if accept v then (.called e v, c.detach e.id) else (.refused e v, c)
    else (.moved, c)
  | [], v :: vs => (.moved, { c with pending := vs, turns := c.entries.map (·, v) })
  | [], [] => (.finished, { c with delivering := false })

end Channel
end StandingQuery
