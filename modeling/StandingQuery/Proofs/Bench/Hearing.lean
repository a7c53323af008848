import StandingQuery.Proofs.Bench.Effect

/-! Who hears something in a step of a bench, by the number of the listener: the target of the turn
that is taken, or a listener that comes in and hears the value held. Nobody is run in any other
way. -/

namespace StandingQuery.Bench

open Channel (Operation Moment toldTo toldTo_append toldTo_eq_nil)

variable {α : Type}

/-- What a listener is to hear, from what the bench is about to do before each step. -/
def dueTo (i : Nat) (past : List (Bench α)) : List α := toldTo i (past.filterMap reaches?)

theorem dueTo_append (i : Nat) (past past' : List (Bench α)) :
    dueTo i (past ++ past') = dueTo i past ++ dueTo i past' := by
  rw [dueTo, List.filterMap_append, toldTo_append]
  rfl

theorem dueTo_singleton (i : Nat) (b : Bench α) : dueTo i [b] = toldTo i b.reaches?.toList := by
  cases h : b.reaches? <;> simp [dueTo, h]

/-- A turn reaches whom it tells a value that he takes. -/
theorem turnTells?_reaches {c c' : Channel α Nat} {t : Turn α Nat} (ha : Channel.Advances c t c') :
    (turnTells? t).bind Telling.reaches? = t.reaches? := by
  cases ha with
  | heard _ _ mode => simp [Turn.reaches?, turnTells?, Telling.reaches?, mode, Mode.takes]
  | taken _ _ mode accepted =>
    simp [Turn.reaches?, turnTells?, Telling.reaches?, mode, Mode.takes, accepted]
  | refused _ _ mode rejected =>
    simp [Turn.reaches?, turnTells?, Telling.reaches?, mode, Mode.takes, rejected]
  | passed _ _ | begun _ _ | finished _ _ => rfl

/-- It is the target of a turn, or a listener that comes in. -/
theorem reaches?_spec {b : Bench α} {i : Nat} {v : α} (reached : b.reaches? = some (i, v)) :
    b.operation? = some .advance ∧ b.channel.advance.1.reaches? = some (i, v) ∨
      i = b.listeners.length ∧ ∃ name, b.agenda.head?.bind b.taskAdds? = some name := by
  obtain ⟨t, told, takes⟩ := Option.bind_eq_some_iff.1 reached
  rcases tells?_spec told with ⟨advance, turn⟩ | ⟨_, new, adds⟩
  · refine .inl ⟨advance, ?_⟩
    rw [← turnTells?_reaches b.channel.advances, turn]
    exact takes
  · obtain ⟨_, ⟨⟩⟩ := Option.ite_none_right_eq_some.1 takes
    exact .inr ⟨new, adds⟩

/-- Whoever hears something is known by then. -/
theorem Manned.reached_known {b b' : Bench α} (h : b.Manned) (taken : b.step = some b') {i : Nat}
    {v : α} (reached : b.reaches? = some (i, v)) : i < b'.listeners.length :=
  h.runs_known taken (i, v) ((h.effect taken).2 ▸ Option.mem_toList.2 reached)

/-- Nobody who is still to come has heard anything. -/
theorem dueTo_of_unknown {s : Subject α} (hs : s.channel = .empty) {past : List (Bench α)}
    {b : Bench α} (run : machine.Run (start s) past b) {i : Nat}
    (unknown : b.listeners.length ≤ i) :
    dueTo i past = [] := by
  induction run with
  | start => rfl
  | input a _ _ ih => exact ih unknown
  | @step past b b' run taken ih =>
    have before := ih (Nat.le_trans (listeners_le taken) unknown)
    have now : toldTo i b.reaches?.toList = [] := by
      refine toldTo_eq_nil fun x hx hi => ?_
      have known := (manned_of_run hs run).1.reached_known taken (Option.mem_toList.1 hx)
      omega
    rw [dueTo_append, before, dueTo_singleton, now]
    rfl

/-- A listener that has been there is reached by the turns of the delivery only. -/
theorem toldTo_reaches? {b : Bench α} {i : Nat} (known : i < b.listeners.length) :
    toldTo i b.reaches?.toList =
      toldTo i (b.operation?.bind fun o => (Moment.mk b.channel o).reached?).toList := by
  cases agenda : b.agenda with
  | nil => simp [reaches?, tells?, operation?, agenda]
  | cons t ts =>
    have head : b.agenda.head? = some t := by rw [agenda]; rfl
    by_cases ht : t = .deliver
    · subst ht
      rw [reaches?, tells?, operation?, head, Option.bind_some, Option.bind_some, taskTells?,
        b.subject.turn_advance, turnTells?_reaches b.channel.advances]
      rfl
    · have silent : (b.operation?.bind fun o => (Moment.mk b.channel o).reached?) = none := by
        rw [operation?, head, Option.bind_some, Option.bind_eq_none_iff]
        intro o ho
        cases o with
        | advance => exact absurd (eq_deliver_of_advance ho) ht
        | emit _ | subscribe _ _ | detach _ => rfl
      rw [silent]
      refine toldTo_eq_nil fun x hx hi => ?_
      rcases reaches?_spec (Option.mem_toList.1 hx) with ⟨advance, _⟩ | ⟨new, _⟩
      · rw [operation?, head] at advance
        exact ht (eq_deliver_of_advance advance)
      · omega

/-! ## Those who are run -/

/-- What a listener has been run with. -/
def reachedBy (i : Nat) (past : List (Bench α)) : List α := toldTo i (past.flatMap runs)

/-- **A listener is run with what he is to hear, and with nothing else.** -/
theorem reachedBy_eq {s : Subject α} (hs : s.channel = .empty) {past : List (Bench α)} {b : Bench α}
    (run : machine.Run (start s) past b) (i : Nat) : reachedBy i past = dueTo i past := by
  induction run with
  | start => rfl
  | input _ _ _ ih => exact ih
  | @step past b b' run taken ih =>
    have manned := (manned_of_run hs run).1
    rw [dueTo_append, dueTo_singleton, ← (manned.effect taken).2, ← ih, reachedBy,
      List.flatMap_append, toldTo_append]
    simp [reachedBy]

end StandingQuery.Bench
