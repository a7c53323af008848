import StandingQuery.Bench.Basic
import StandingQuery.Proofs.Observer.Reaction

/-! Observers on a bench: listeners under names of their own that have no rules. They come and go
anywhere in a script, inside the reactions of others too. Here is what is left of a script without
them, and what is compared of two benches of which only the first one has observers. -/

namespace StandingQuery.Bench

variable {α : Type} (extra : String → Bool)

/-! ## A script without the observers -/

mutual

/-- The action without what observers do in it or in what it leads to. -/
def Action.without : Action α → Option (Action α)
  | .subscribe h name react =>
    if extra name then none else some (.subscribe h name (rulesWithout react))
  | .subscribeFirst h name accept react =>
    if extra name then none else some (.subscribeFirst h name accept (rulesWithout react))
  | .release how name => if extra name then none else some (.release how name)
  | .inspect name => if extra name then none else some (.inspect name)
  | .emit h v => some (.emit h v)
  | .count h => some (.count h)
  | .clone h => some (.clone h)
  | .dropHandle h => some (.dropHandle h)

def ruleWithout : Rule α (Action α) → Rule α (Action α)
  | ⟨applies, times, acts⟩ => ⟨applies, times, actionsWithout acts⟩

def rulesWithout : List (Rule α (Action α)) → List (Rule α (Action α))
  | [] => []
  | r :: rs => ruleWithout r :: rulesWithout rs

def actionsWithout : List (Action α) → List (Action α)
  | [] => []
  | a :: as => (a.without).toList ++ actionsWithout as

end

mutual

/-- No observer that the action brings in reacts to anything. -/
def Action.isPassive : Action α → Bool
  | .subscribe _ name react => if extra name then react.isEmpty else rulesPassive react
  | .subscribeFirst _ name _ react => if extra name then react.isEmpty else rulesPassive react
  | .emit _ _ | .release _ _ | .inspect _ | .count _ | .clone _ | .dropHandle _ => true

def rulePassive : Rule α (Action α) → Bool
  | ⟨_, _, acts⟩ => actionsPassive acts

def rulesPassive : List (Rule α (Action α)) → Bool
  | [] => true
  | r :: rs => rulePassive r && rulesPassive rs

def actionsPassive : List (Action α) → Bool
  | [] => true
  | a :: as => a.isPassive && actionsPassive as

end

theorem ruleWithout_eq (r : Rule α (Action α)) :
    ruleWithout extra r = r.mapActs (actionsWithout extra) := by
  cases r
  rw [ruleWithout]
  rfl

theorem rulesWithout_eq (rs : List (Rule α (Action α))) :
    rulesWithout extra rs = rs.map (·.mapActs (actionsWithout extra)) := by
  induction rs with
  | nil => rfl
  | cons r rs ih => rw [rulesWithout, ih, ruleWithout_eq, List.map_cons]

theorem rulePassive_eq (r : Rule α (Action α)) :
    rulePassive extra r = actionsPassive extra r.acts := by
  cases r
  rw [rulePassive]

theorem rulesPassive_iff (rs : List (Rule α (Action α))) :
    rulesPassive extra rs = true ↔ ∀ r ∈ rs, actionsPassive extra r.acts = true := by
  induction rs with
  | nil => simp [rulesPassive]
  | cons r rs ih => rw [rulesPassive, Bool.and_eq_true, ih, rulePassive_eq, List.forall_mem_cons]

/-! ## What is seen apart from the observers -/

/-- Not about an observer. How many subscribers there are is not seen either, nor on which handle
somebody failed to subscribe. -/
def Note.isShown : Note α → Bool
  | .heard name _ _ | .asked name _ _ | .released _ name _ | .inspected name _ | .missing name =>
    !extra name
  | .counted _ | .noHandle _ => false

/-- The first bench, with what had been noted before, is the second one with observers. -/
structure Agrees (b c : List (Note α) × Bench α) : Prop where
  held : b.2.subject.held = c.2.subject.held
  /-- Everybody else has heard the same values, and all other notes are the same, in one order. -/
  notes : (b.2.notes ++ b.1).filter (Note.isShown extra) =
    (c.2.notes ++ c.1).filter (Note.isShown extra)
  activity : b.2.activity.filter (fun p => !extra p.1) = c.2.activity
  pending : b.2.subject.channel.pending = c.2.subject.channel.pending
  delivering : b.2.subject.channel.delivering = c.2.subject.channel.delivering
  handles : b.2.handles = c.2.handles

end StandingQuery.Bench
