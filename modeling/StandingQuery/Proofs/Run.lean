/-! Machines that take inputs from outside when they are at rest and then go on by themselves. A run
is told by the states it has left behind, in order, and the state that it is in; every state left
behind by a step is there, just before the step. What holds of every run holds at every moment of
it, inside the calls that an input leads to as well as between two inputs. -/

namespace StandingQuery

structure Machine (σ ι : Type) where
  step : σ → Option σ
  AtRest : σ → Prop
  /-- The state in which an input has been taken and nothing been done about it yet. -/
  take : σ → ι → σ

namespace Machine

variable {σ ι : Type}

inductive Run (M : Machine σ ι) (s₀ : σ) : List σ → σ → Prop where
  | start : Run M s₀ [] s₀
  | input {past : List σ} {s : σ} (i : ι) : Run M s₀ past s → M.AtRest s →
      Run M s₀ past (M.take s i)
  | step {past : List σ} {s s' : σ} : Run M s₀ past s → M.step s = some s' →
      Run M s₀ (past ++ [s]) s'

/-- What holds at first, and is kept by inputs and steps, holds at every moment of a run. -/
theorem Run.invariant {M : Machine σ ι} {s₀ : σ} {P : σ → Prop} (start : P s₀)
    (input : ∀ s i, M.AtRest s → P s → P (M.take s i))
    (step : ∀ s s', P s → M.step s = some s' → P s')
    {past : List σ} {s : σ} (run : M.Run s₀ past s) : P s ∧ ∀ m ∈ past, P m := by
  induction run with
  | start => exact ⟨start, by simp⟩
  | input i _ rest ih => exact ⟨input _ i rest ih.1, ih.2⟩
  | step _ taken ih =>
    refine ⟨step _ _ ih.1 taken, fun m hm => ?_⟩
    rcases List.mem_append.1 hm with hm | hm
    · exact ih.2 m hm
    · rw [List.mem_singleton.1 hm]
      exact ih.1

/-- Every state left behind was left by a step. -/
theorem Run.step_of_mem {M : Machine σ ι} {s₀ : σ} {past : List σ} {s : σ} (run : M.Run s₀ past s) :
    ∀ m ∈ past, ∃ s', M.step m = some s' := by
  induction run with
  | start => simp
  | input i _ _ ih => exact ih
  | step _ taken ih =>
    intro m hm
    rcases List.mem_append.1 hm with hm | hm
    · exact ih m hm
    · rw [List.mem_singleton.1 hm]
      exact ⟨_, taken⟩

/-- A run goes on from every state that it has left behind, as a run from the next one. -/
theorem Run.split {M : Machine σ ι} {s₀ : σ} {past : List σ} {s : σ} (run : M.Run s₀ past s)
    {before after : List σ} {m : σ} (parts : past = before ++ m :: after) :
    ∃ m', M.Run s₀ before m ∧ M.step m = some m' ∧ M.Run m' after s := by
  induction run generalizing after with
  | start => simp at parts
  | input i _ rest ih =>
    obtain ⟨m', first, taken, later⟩ := ih parts
    exact ⟨m', first, taken, later.input i rest⟩
  | @step past s s' run taken ih =>
    rcases List.eq_nil_or_concat after with rfl | ⟨after, x, rfl⟩
    · obtain ⟨rfl, hm⟩ := List.append_inj' parts rfl
      cases hm
      exact ⟨s', run, taken, .start⟩
    · have shape : past ++ [s] = (before ++ m :: after) ++ [x] := by simpa using parts
      obtain ⟨hpast, hx⟩ := List.append_inj' shape rfl
      cases hx
      obtain ⟨m', first, taken', later⟩ := ih hpast
      refine ⟨m', first, taken', ?_⟩
      rw [List.concat_eq_append]
      exact later.step taken

/-- A run, told from the state that it has left behind as number `n`. -/
theorem Run.at {M : Machine σ ι} {s₀ : σ} {past : List σ} {s : σ} (run : M.Run s₀ past s) {n : Nat}
    (h : n < past.length) : M.Run s₀ (past.take n ++ past[n] :: past.drop (n + 1)) s := by
  rw [← List.drop_eq_getElem_cons h, List.take_append_drop]
  exact run

/-- What the next step puts in front of the list that `rest` is before it. -/
def added {ν : Type} (M : Machine σ ι) (rest list : σ → List ν) (s : σ) : List ν :=
  match M.step s with
  | some s' => (list s').take ((list s').length - (rest s).length)
  | none => []

theorem added_eq {ν : Type} {M : Machine σ ι} {rest list : σ → List ν} {s s' : σ}
    (taken : M.step s = some s') {new : List ν} (h : list s' = new ++ rest s) :
    M.added rest list s = new := by
  simp [added, taken, h]

/-- At most `n` steps: the states left behind, and the one reached. -/
def steps (M : Machine σ ι) : Nat → List σ → σ → List σ × σ
  | 0, past, s => (past, s)
  | n + 1, past, s =>
    match M.step s with
    | some s' => M.steps n (past ++ [s]) s'
    | none => (past, s)

theorem Run.steps {M : Machine σ ι} {s₀ : σ} {past : List σ} {s : σ} (run : M.Run s₀ past s)
    (n : Nat) : M.Run s₀ (M.steps n past s).1 (M.steps n past s).2 := by
  induction n generalizing past s with
  | zero => exact run
  | succ n ih =>
    rw [Machine.steps]
    split
    · next s' taken => exact ih (run.step taken)
    · exact run

end Machine
end StandingQuery
