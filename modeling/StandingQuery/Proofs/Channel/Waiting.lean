import Mathlib.Data.List.Count
import StandingQuery.Proofs.Channel.Registry

/-! What a subscriber has still to hear: the value under delivery, if its turn has not come, and all
that wait behind it. Whoever is active hears exactly that, in order, as long as he stays. -/

namespace StandingQuery

/-- The values that a turn gives to a subscription: one or none. -/
def Turn.gives {α β : Type} (id : Nat) : Turn α β → List α
  | .called e v | .refused e v => if e.id = id then [v] else []
  | .finished | .moved => []

namespace Channel

variable {α β : Type}

def waiting (c : Channel α β) (id : Nat) : List α :=
  (c.turns.filter (·.1.id == id)).map (·.2) ++ c.pending

@[simp] theorem waiting_emit (c : Channel α β) (v : α) (id : Nat) :
    (c.emit v).waiting id = c.waiting id ++ [v] :=
  (List.append_assoc ..).symm

@[simp] theorem waiting_subscribe (c : Channel α β) (mode : Mode α) (target : β) (id : Nat) :
    (c.subscribe mode target).waiting id = c.waiting id := rfl

@[simp] theorem waiting_detach (c : Channel α β) (i id : Nat) :
    (c.detach i).waiting id = c.waiting id := rfl

/-- A new subscriber has nothing to hear of the delivery under way. -/
theorem WellFormed.waiting_nextId {c : Channel α β} (h : c.WellFormed) :
    c.waiting c.nextId = c.pending := by
  have : c.turns.filter (·.1.id == c.nextId) = [] := by
    rw [List.filter_eq_nil_iff]
    intro t ht
    simpa using Nat.ne_of_lt (h.turns_known t ht)
  rw [waiting, this, List.map_nil, List.nil_append]

theorem WellFormed.waiting_idle {c : Channel α β} (h : c.WellFormed)
    (idle : c.delivering = false) (id : Nat) : c.waiting id = [] := by
  obtain ⟨turns, pending⟩ := h.idle idle
  rw [waiting, turns, pending]
  rfl

/-- The turns of a delivery that begins give its value to every subscriber once. -/
theorem WellFormed.filter_entries {c : Channel α β} (h : c.WellFormed) {id : Nat}
    (active : c.isActive id = true) (v : α) :
    ((c.entries.map (·, v)).filter (·.1.id == id)).map (·.2) = [v] := by
  have hn : c.active.Nodup := c.active_ascending.imp Nat.ne_of_lt
  calc ((c.entries.map (·, v)).filter (·.1.id == id)).map (·.2)
      = (((c.entries.map (·.id)).filter (· == id)).map fun _ => v) := by
        simp [List.filter_map, Function.comp_def]
    _ = [v] := by
        rw [h.registry, List.filter_beq, List.count_eq_one_of_mem hn (mem_active.2 active)]
        rfl

/-- What an active subscriber has to hear is what the next turn gives to him, and then the rest. -/
theorem WellFormed.waiting_advance {c c' : Channel α β} {t : Turn α β} (h : c.WellFormed)
    (ha : Advances c t c') {id : Nat} (active : c.isActive id = true) :
    c.waiting id = t.gives id ++ c'.waiting id := by
  cases ha with
  | @passed e v rest turns ended =>
    have hne : e.id ≠ id := fun he => by simp [he, active] at ended
    simp [waiting, turns, Turn.gives, hne]
  | @heard e v rest turns _ _ | @refused e v rest _ turns _ _ _ =>
    by_cases he : e.id = id <;> simp [waiting, turns, Turn.gives, he]
  | @taken e v rest _ turns _ _ _ =>
    rw [waiting_detach]
    by_cases he : e.id = id <;> simp [waiting, turns, Turn.gives, he]
  | @begun v vs turns pending =>
    simp only [waiting, turns, pending, Turn.gives, List.filter_nil, List.map_nil, List.nil_append,
      h.filter_entries active v, List.singleton_append]
  | finished turns pending => simp [waiting, turns, pending, Turn.gives]

end Channel
end StandingQuery
