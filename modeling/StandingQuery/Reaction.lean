/-! How listeners react. A rule names the values it applies to, how often it may fire, and what is
done then. The rules of a listener are gone through in order for each value heard; a rule that fires
has used up one firing before its actions begin, so actions that lead back to the same listener
find the rule spent by then. -/

namespace StandingQuery

structure Rule (α act : Type) where
  /-- Applies to the value, given how many the listener has heard before it. -/
  applies : Nat → α → Bool
  times : Nat
  acts : List act

instance {α act : Type} : Inhabited (Rule α act) := ⟨⟨fun _ _ => false, 0, []⟩⟩

structure Listener (α act : Type) where
  name : String
  rules : List (Rule α act)
  heard : Nat

namespace Listener

variable {α act : Type}

def named (name : String) (rules : List (Rule α act)) : Listener α act := ⟨name, rules, 0⟩

/-- Whether the rule at `i` fires for the value heard after `before` others: its actions, and the
listener with that firing used up. -/
def fire (l : Listener α act) (i before : Nat) (v : α) : Option (List act × Listener α act) :=
  match l.rules[i]? with
  | some r =>
    if 0 < r.times && r.applies before v then
      some (r.acts, { l with rules := l.rules.set i { r with times := r.times - 1 } })
    else none
  | none => none

theorem name_of_fire {l l' : Listener α act} {i before : Nat} {v : α} {acts : List act}
    (fired : l.fire i before v = some (acts, l')) : l'.name = l.name := by
  unfold fire at fired
  split at fired
  · obtain ⟨_, h⟩ := Option.ite_none_right_eq_some.1 fired
    cases h
    rfl
  · cases fired

/-- Nobody loses his name when one listener becomes another one of that name. -/
theorem map_name_set {ls : List (Listener α act)} {i : Nat} {l l' : Listener α act}
    (there : ls[i]? = some l) (same : l'.name = l.name) :
    (ls.set i l').map (·.name) = ls.map (·.name) := by
  obtain ⟨hi, rfl⟩ := List.getElem?_eq_some_iff.1 there
  have bound : i < (ls.map (·.name)).length := by rwa [List.length_map]
  have old : l'.name = (ls.map (·.name))[i] := by rw [same, List.getElem_map]
  rw [List.map_set, old, List.set_getElem_self]

end Listener
end StandingQuery
