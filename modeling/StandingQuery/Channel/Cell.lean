import StandingQuery.Channel.Basic

/-! A cell is a channel that remembers the last value put into it. The value changes at once; the
subscribers hear of it in their turns. -/

namespace StandingQuery

structure Cell (α β : Type) where
  value : α
  channel : Channel α β

namespace Cell

variable {α β : Type}

def holding (v : α) : Cell α β := ⟨v, .empty⟩

def put (c : Cell α β) (v : α) : Cell α β := ⟨v, c.channel.emit v⟩

def subscribe (c : Cell α β) (mode : Mode α) (target : β) : Cell α β :=
  { c with channel := c.channel.subscribe mode target }

def detach (c : Cell α β) (id : Nat) : Cell α β := { c with channel := c.channel.detach id }

def advance (c : Cell α β) : Turn α β × Cell α β :=
  let (turn, channel) := c.channel.advance
  (turn, { c with channel })

end Cell
end StandingQuery
