import StandingQuery.Proofs.Observer.Woven
import StandingQuery.Reaction

/-! Listeners whose rules lead to the same actions but for some that are left out, and listeners
that have no rules. -/

namespace StandingQuery

variable {α act : Type}

/-- The rule with other actions. -/
def Rule.mapActs (f : List act → List act) (r : Rule α act) : Rule α act :=
  { r with acts := f r.acts }

section
variable {extra : String → Bool} {name : String}

/-- What is not left out is no observer's. -/
theorem eq_of_kept {a a' : act} (h : (if extra name then none else some a) = some a') :
    extra name = false ∧ a = a' := by simpa using h

theorem extra_of_left_out {a : act} (h : (if extra name then none else some a) = none) :
    extra name = true := by simpa using h

end

namespace Listener

/-- Two listeners that differ by what `f` does to the actions of their rules. All these actions are
allowed. -/
structure Alike (f : List act → List act) (Allowed : List act → Prop) (l l' : Listener α act) :
    Prop where
  name : l.name = l'.name
  heard : l.heard = l'.heard
  rules : l'.rules = l.rules.map (·.mapActs f)
  allowed : ∀ r ∈ l.rules, Allowed r.acts

/-- A listener that only hears, under an extra name. -/
structure Silent (extra : String → Bool) (l : Listener α act) : Prop where
  name : extra l.name = true
  rules : l.rules = []

namespace Alike

variable {f : List act → List act} {Allowed : List act → Prop} {l l' : Listener α act}

theorem named (f : List act → List act) (Allowed : List act → Prop) (name : String)
    {rules : List (Rule α act)} (h : ∀ r ∈ rules, Allowed r.acts) :
    Alike f Allowed (.named name rules) (.named name (rules.map (·.mapActs f))) :=
  ⟨rfl, rfl, rfl, h⟩

theorem hear (h : Alike f Allowed l l') (n : Nat) :
    Alike f Allowed { l with heard := l.heard + n } { l' with heard := l'.heard + n } :=
  ⟨h.name, congrArg (· + n) h.heard, h.rules, h.allowed⟩

theorem length_rules (h : Alike f Allowed l l') : l'.rules.length = l.rules.length := by
  rw [h.rules, List.length_map]

/-- A rule fires for both or for neither. -/
theorem fire (h : Alike f Allowed l l') (i before : Nat) (v : α) :
    l.fire i before v = none ∧ l'.fire i before v = none ∨
    ∃ acts k k', l.fire i before v = some (acts, k) ∧ l'.fire i before v = some (f acts, k') ∧
      Allowed acts ∧ Alike f Allowed k k' := by
  have rule : l'.rules[i]? = (l.rules[i]?).map (·.mapActs f) := by rw [h.rules, List.getElem?_map]
  unfold Listener.fire
  rw [rule]
  cases hr : l.rules[i]? with
  | none => exact .inl ⟨rfl, rfl⟩
  | some r =>
    simp only [Option.map_some, Rule.mapActs]
    split
    · have spent : Alike f Allowed { l with rules := l.rules.set i { r with times := r.times - 1 } }
          { l' with rules := l'.rules.set i { r.mapActs f with times := r.times - 1 } } := by
        refine ⟨h.name, h.heard, ?_, ?_⟩
        · simp only [h.rules, List.map_set]
          rfl
        · intro q hq
          rcases List.mem_or_eq_of_mem_set hq with hq | rfl
          · exact h.allowed q hq
          · exact h.allowed r (List.mem_of_getElem? hr)
      exact .inr ⟨_, _, _, rfl, rfl, h.allowed r (List.mem_of_getElem? hr), spent⟩
    · exact .inl ⟨rfl, rfl⟩

end Alike
end Listener
end StandingQuery
