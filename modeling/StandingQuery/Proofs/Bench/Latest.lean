import StandingQuery.Proofs.Bench.Delivery
import StandingQuery.Proofs.Bench.Reception

/-! A cell holds what was put into it last, and nobody who listens to it stays behind. A listener
that comes in during a delivery hears the value held first and older ones after it; but the last of
those that wait is always the one held, so that he ends with it like everybody else. -/

namespace StandingQuery.Bench

open Channel (emissions emissions_append toldTo)

variable {α : Type}

/-! ## The delivery is on the agenda exactly while it lasts -/

def Task.isDelivery : Task α → Bool
  | .deliver => true
  | .act _ | .react _ _ _ _ | .keep _ _ => false

/-- How often the delivery is on the agenda: once while it lasts. -/
def Planned (delivering : Bool) (ts : List (Task α)) : Prop :=
  ts.countP Task.isDelivery = if delivering then 1 else 0

theorem planned_cons {t : Task α} (h : t.isDelivery = false) {delivering : Bool}
    {ts : List (Task α)} : Planned delivering (t :: ts) ↔ Planned delivering ts := by
  rw [Planned, List.countP_cons_of_neg (by simp [h])]
  rfl

theorem Heard.planned {heard : List (Task α)} (h : Heard heard) {delivering : Bool}
    {ts : List (Task α)} (planned : Planned delivering ts) : Planned delivering (heard ++ ts) := by
  cases h with
  | nobody => exact planned
  | rules i before v => exact (planned_cons rfl).2 planned

theorem Planned.reacted {delivering : Bool} {ts new : List (Task α)} (h : Planned delivering ts)
    (quiet : ∀ t ∈ new, t.isDelivery = false) : Planned delivering (new ++ ts) := by
  induction new with
  | nil => exact h
  | cons t new ih =>
    obtain ⟨first, rest⟩ := List.forall_mem_cons.1 quiet
    exact (planned_cons first).2 (ih rest)

/-- The delivery itself is taken off the agenda. -/
theorem Planned.deliver {delivering : Bool} {ts : List (Task α)}
    (h : Planned delivering (.deliver :: ts)) : delivering = true ∧ Planned false ts := by
  rw [Planned, List.countP_cons_of_pos rfl] at h
  cases delivering with
  | true => exact ⟨rfl, Nat.succ.inj h⟩
  | false => cases h

theorem Planned.goesOn {ts : List (Task α)} (h : Planned false ts) :
    Planned true (.deliver :: ts) := by
  rw [Planned, List.countP_cons_of_pos rfl, show ts.countP Task.isDelivery = 0 from h]
  rfl

theorem Leads.planned {b : Bench α} {t : Task α} {ts new : List (Task α)} (leads : Leads b t new)
    (h : Planned b.channel.delivering (t :: ts)) :
    Planned (after b.channel (b.taskOperation? t)).delivering (new ++ ts) := by
  have rest (other : t.isDelivery = false) : Planned b.channel.delivering ts :=
    (planned_cons other).1 h
  cases leads with
  | nothing ht same =>
    rw [same]
    refine rest ?_
    cases t with
    | deliver => exact absurd rfl ht
    | act _ | react _ _ _ _ | keep _ _ => rfl
  | started handle idle =>
    have rest := rest rfl
    rw [idle] at rest
    rw [taskOperation?, actOperation?, if_pos handle]
    exact rest.goesOn
  | subscribed handle hh _ =>
    rw [taskOperation?, actOperation?, if_pos handle, List.append_assoc]
    exact hh.planned ((planned_cons rfl).2 (rest rfl))
  | awaiting handle hv =>
    rw [taskOperation?, actOperation?, if_pos handle, if_neg (by simp [hv])]
    exact (planned_cons rfl).2 (rest rfl)
  | accepted hh hv =>
    rw [taskOperation?, actOperation?, if_pos hv, ite_self, List.append_assoc]
    exact hh.planned ((planned_cons rfl).2 (rest rfl))
  | reacted hnew =>
    refine (rest rfl).reacted fun t ht => ?_
    rcases hnew t ht with ⟨a, rfl⟩ | ⟨rule, rfl⟩ <;> rfl
  | finished turn =>
    obtain ⟨busy, rest⟩ := h.deliver
    have ended : (b.channel.apply .advance).delivering = false := by
      rw [← Bool.not_eq_true, delivering_advance busy, not_not]
      exact turn
    rw [taskOperation?, after, Option.elim_some, ended]
    exact rest
  | turned turn hh =>
    obtain ⟨busy, rest⟩ := h.deliver
    rw [taskOperation?, after, Option.elim_some, (delivering_advance busy).2 turn,
      List.append_assoc]
    exact hh.planned rest.goesOn

theorem planned_of_run {s : Subject α} (hs : s.channel = .empty) {past : List (Bench α)}
    {b : Bench α} (run : machine.Run (start s) past b) : Planned b.channel.delivering b.agenda := by
  refine (run.invariant (P := fun b => Planned b.channel.delivering b.agenda) ?_ ?_ ?_).1
  · rw [start, channel, hs]
    rfl
  · intro b a rest h
    rw [show b.agenda = [] from rest] at h
    exact (planned_cons rfl).2 h
  · intro b b' h taken
    obtain ⟨t, ts, new, stepped⟩ := step_spec taken
    rw [stepped.before] at h
    rw [stepped.channel, stepped.after]
    exact stepped.leads.planned h

theorem idle_of_rest {s : Subject α} (hs : s.channel = .empty) {past : List (Bench α)} {b : Bench α}
    (run : machine.Run (start s) past b) (rest : b.agenda = []) : b.channel.delivering = false := by
  have planned := planned_of_run hs run
  rw [rest] at planned
  cases delivering : b.channel.delivering with
  | false => rfl
  | true =>
    rw [delivering] at planned
    cases planned

/-! ## What is held, and what waits -/

theorem held_of_run {v₀ : α} {past : List (Bench α)} {b : Bench α}
    (run : machine.Run (start (.cell (.holding v₀))) past b) :
    b.subject.held = some ((emissions (journal past)).getLastD v₀) := by
  induction run with
  | start => rfl
  | input _ _ _ ih => exact ih
  | @step past b b' _ taken ih =>
    obtain ⟨t, ts, new, stepped⟩ := step_spec taken
    rw [stepped.held, ih, journal_append, ← stepped.operation, Option.map_some]
    cases b.operation? with
    | none => simp [leaves]
    | some o =>
      rw [Option.map_some, Option.toList_some, emissions_append, Channel.getLastD_append]
      cases o <;> rfl

/-- The last of the values that wait is the one held. -/
theorem pending_getLastD {v₀ v : α} {past : List (Bench α)} {b : Bench α}
    (run : machine.Run (start (.cell (.holding v₀))) past b) (held : b.subject.held = some v) :
    b.channel.pending.getLastD v = v := by
  have values := (journal_of_run rfl run).1.law.values
  obtain rfl : v = (emissions (journal past)).getLastD v₀ :=
    Option.some.inj (held.symm.trans (held_of_run run))
  rw [← values, Channel.getLastD_append]
  cases b.channel.pending with
  | nil => rfl
  | cons w ws => rw [List.getLastD_cons, List.getLastD_cons]

/-! ## Nobody stays behind -/

/-- How a cell that held `v₀` at first serves those who listen to it. -/
structure HearsTheLatest (v₀ : α) (past : List (Bench α)) (b : Bench α) : Prop where
  /-- At every moment it holds what was put into it last. -/
  held : b.subject.held = some ((emissions (journal past)).getLastD v₀)
  /-- Whoever listens is run with what he hears, and with nothing else. -/
  ran : ∀ m ∈ past, ∀ id, m.listens? = some id →
    reachedBy m.listeners.length past = heardBy id past
  /-- That shows in the notes: whoever is run is noted to hear the value, and nobody else is. -/
  noted : ∀ n ∈ past, n.heardNotes = n.runs.map fun (i, v) => .heard (b.nameOf i) v n.value?
  /-- When nothing is under delivery, every listener who is still there has heard that last. -/
  heard : b.channel.delivering = false → ∀ id ∈ past.filterMap listens?,
    b.channel.isActive id = true → (heardBy id past).getLast? = b.subject.held
  /-- So it is whenever an action from outside has come to its end. -/
  settled : b.agenda = [] → ∀ id ∈ past.filterMap listens?,
    b.channel.isActive id = true → (heardBy id past).getLast? = b.subject.held

theorem heard_of_run {v₀ : α} {past : List (Bench α)} {b : Bench α}
    (run : machine.Run (start (.cell (.holding v₀))) past b) (idle : b.channel.delivering = false)
    {id : Nat} (known : id ∈ past.filterMap listens?) (active : b.channel.isActive id = true) :
    (heardBy id past).getLast? = b.subject.held := by
  obtain ⟨m, hm, listens⟩ := List.mem_filterMap.1 known
  obtain ⟨earlier, later, rfl⟩ := List.append_of_mem hm
  obtain ⟨_, first, _, _⟩ := run.split rfl
  obtain ⟨v, held⟩ := cell_of_run first
  have told : heardBy id (earlier ++ m :: later) =
      v :: (m.channel.pending ++ emissions (journal later)) := by
    rw [heardBy_listener run listens held,
      (hears_from_then_on rfl run (joins?_of_listens? listens)).complete active idle]
  have put : emissions (journal (earlier ++ m :: later)) =
      emissions (journal earlier) ++ emissions (journal later) := by
    obtain ⟨_, operation⟩ := listens?_spec listens
    simp [journal, emissions, operation, List.filterMap_cons, Channel.Moment.emitted?]
  have before : (emissions (journal earlier)).getLastD v₀ = v :=
    Option.some.inj ((held_of_run first).symm.trans held)
  calc (heardBy id (earlier ++ m :: later)).getLast?
      = some ((m.channel.pending ++ emissions (journal later)).getLastD v) := by
        rw [told, List.getLast?_cons, List.getLastD_eq_getLast?]
    _ = some ((emissions (journal (earlier ++ m :: later))).getLastD v₀) := by
        rw [put, Channel.getLastD_append, Channel.getLastD_append, before,
          pending_getLastD first held]
    _ = b.subject.held := (held_of_run run).symm

theorem hears_the_latest {v₀ : α} {past : List (Bench α)} {b : Bench α}
    (run : machine.Run (start (.cell (.holding v₀))) past b) : HearsTheLatest v₀ past b where
  held := held_of_run run
  ran := fun m hm id listens => by
    obtain ⟨earlier, later, rfl⟩ := List.append_of_mem hm
    exact reachedBy_listener rfl run listens
  noted := heardNotes_of_run rfl run
  heard := fun idle _ known active => heard_of_run run idle known active
  settled := fun rest _ known active => heard_of_run run (idle_of_rest rfl run rest) known active

/-- Puts a value into the cell. -/
def onZeroThenOne : Rule Nat (Action Nat) := ⟨fun _ v => v == 0, 1, [.emit 0 1]⟩

/-- A listener puts a value into the cell while he hears the one held, and two more when he hears
that one; with both in line another one comes in. The two hear different values, but the same one
last. -/
theorem hears_the_latest_nested : ∃ (past : List (Bench Nat)) (b : Bench Nat),
    machine.Run (start (.cell (.holding 0))) past b ∧ b.agenda = [] ∧
    past.filterMap listens? = [0, 1] ∧ heardBy 0 past = [0, 1, 2, 3] ∧ heardBy 1 past = [3, 2, 3] ∧
    HearsTheLatest 0 past b := by
  have begun : machine.Run (start (.cell (.holding 0)) : Bench Nat) [] _ := .start
  have first := (begun.input (.subscribe 0 "first" [onZeroThenOne, onOneThenLate]) rfl).steps 40
  refine ⟨_, _, first, ?_, ?_, ?_, ?_, hears_the_latest first⟩
  all_goals decide +kernel

end StandingQuery.Bench
