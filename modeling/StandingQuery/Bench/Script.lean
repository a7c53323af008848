import StandingQuery.Reaction

/-! What can be done on a bench, and what is noted down there. Actions come from outside, one after
another, or from the rules of listeners. -/

namespace StandingQuery.Bench

/-- The two ways to give a subscription up; they differ in name only. -/
inductive Release where
  | unsubscribe
  | drop
deriving DecidableEq, Repr

inductive Action (α : Type) where
  | emit (handle : Nat) (value : α)
  | subscribe (handle : Nat) (name : String) (react : List (Rule α (Action α)))
  | subscribeFirst (handle : Nat) (name : String) (accept : α → Bool)
      (react : List (Rule α (Action α)))
  | release (how : Release) (name : String)
  | inspect (name : String)
  | count (handle : Nat)
  | clone (handle : Nat)
  | dropHandle (handle : Nat)

instance {α : Type} : Inhabited (Action α) := ⟨.count 0⟩

mutual

/-- At least the number of actions and firings that the action can lead to, itself included. -/
def Action.weight {α : Type} : Action α → Nat
  | .subscribe _ _ react => 1 + rulesWeight react
  | .subscribeFirst _ _ _ react => 1 + rulesWeight react
  | .emit _ _ | .release _ _ | .inspect _ | .count _ | .clone _ | .dropHandle _ => 1

def ruleWeight {α : Type} : Rule α (Action α) → Nat
  | ⟨_, times, acts⟩ => 1 + times * (1 + actionsWeight acts)

def rulesWeight {α : Type} : List (Rule α (Action α)) → Nat
  | [] => 0
  | r :: rs => ruleWeight r + rulesWeight rs

def actionsWeight {α : Type} : List (Action α) → Nat
  | [] => 0
  | a :: as => a.weight + actionsWeight as

end

inductive Note (α : Type) where
  /-- A listener heard a value; with it the value that the cell held then, if there is one. -/
  | heard (name : String) (value : α) (held : Option α)
  /-- A listener for the first accepted value was asked about this one. -/
  | asked (name : String) (value : α) (accepted : Bool)
  | released (how : Release) (name : String) (wasActive : Bool)
  | inspected (name : String) (active : Bool)
  | counted (subscribers : Nat)
  | missing (name : String)
  | noHandle (handle : Nat)
deriving DecidableEq, Repr

/-- How a subscription is shown. -/
def showSubscription (active : Bool) : String :=
  "Subscription \x7b active: " ++ (if active then "true" else "false") ++ " \x7d"

/-- The values, absent or whole numbers, that a rule or an acceptance asks for. -/
inductive Test where
  | any
  | never
  | present
  | absent
  | even
  | equal (n : Int)
  | atLeast (n : Int)
deriving DecidableEq, Repr

def Test.holds : Test → Option Int → Bool
  | .any, _ => true
  | .never, _ => false
  | .present, v => v.isSome
  | .absent, v => v.isNone
  | .even, v => v.any (· % 2 == 0)
  | .equal n, v => v.any (· == n)
  | .atLeast n, v => v.any (n ≤ ·)

end StandingQuery.Bench
