import StandingQuery.Bench.Basic
import StandingQuery.Proofs.Channel.Delivery
import StandingQuery.Proofs.Run

/-! A bench as a machine: each step takes one task off the agenda and does at most one thing with
the channel, so that a run of the bench keeps the journal of its channel. Calls return in the order
of the agenda: whatever a task leads to stands in front of what was there before. -/

namespace StandingQuery

open Channel (Operation Moment Journal)

namespace Bench

variable {α : Type}

/-- A bench at rest takes an action. -/
def machine : Machine (Bench α) (Action α) where
  step := step
  AtRest b := b.agenda = []
  take b a := { b with notes := [], agenda := [.act a] }

abbrev channel (b : Bench α) : Channel α Nat := b.subject.channel

/-- What giving up the subscription kept under a name does to the channel. -/
def releaseOperation? (b : Bench α) (name : String) : Option (Operation α Nat) :=
  (b.kept.get? name).join.map .detach

def actOperation? (b : Bench α) : Action α → Option (Operation α Nat)
  | .emit h v => if b.hasHandle h then some (.emit v) else none
  | .subscribe h _ _ => if b.hasHandle h then some (.subscribe .every b.listeners.length) else none
  | .subscribeFirst h _ accept _ =>
    if b.hasHandle h then
      if b.subject.held.any accept then none
      else some (.subscribe (.first accept) b.listeners.length)
    else none
  | .release _ name => b.releaseOperation? name
  | .inspect _ | .count _ | .clone _ | .dropHandle _ => none

/-- What a task does to the channel. -/
def taskOperation? (b : Bench α) : Task α → Option (Operation α Nat)
  | .act a => b.actOperation? a
  | .keep name _ => b.releaseOperation? name
  | .deliver => some .advance
  | .react _ _ _ _ => none

/-- What the next step does to the channel. -/
def operation? (b : Bench α) : Option (Operation α Nat) := b.agenda.head?.bind b.taskOperation?

/-- The moments at which something is done with the channel. -/
def journal (past : List (Bench α)) : List (Moment α Nat) :=
  past.filterMap fun b => b.operation?.map (⟨b.channel, ·⟩)

/-- The callback that the next step runs, by its subscription, and the value it is run with. -/
def call? (b : Bench α) : Option (Nat × α) :=
  match b.agenda with
  | .deliver :: _ => b.subject.advance.1.call?
  | _ => none

/-! ## What the parts of a step leave alone -/

namespace Subject

@[simp] theorem channel_put (s : Subject α) (v : α) : (s.put v).channel = s.channel.emit v := by
  cases s <;> rfl

@[simp] theorem channel_subscribe (s : Subject α) (mode : Mode α) (i : Nat) :
    (s.subscribe mode i).channel = s.channel.subscribe mode i := by
  cases s <;> rfl

@[simp] theorem channel_detach (s : Subject α) (id : Nat) :
    (s.detach id).channel = s.channel.detach id := by
  cases s <;> rfl

@[simp] theorem channel_advance (s : Subject α) : s.advance.2.channel = s.channel.advance.2 := by
  cases s <;> rfl

@[simp] theorem turn_advance (s : Subject α) : s.advance.1 = s.channel.advance.1 := by
  cases s <;> rfl

@[simp] theorem held_subscribe (s : Subject α) (mode : Mode α) (i : Nat) :
    (s.subscribe mode i).held = s.held := by
  cases s <;> rfl

@[simp] theorem held_detach (s : Subject α) (id : Nat) : (s.detach id).held = s.held := by
  cases s <;> rfl

@[simp] theorem held_advance (s : Subject α) : s.advance.2.held = s.held := by
  cases s <;> rfl

/-- Only a cell remembers what is put into it. -/
@[simp] theorem held_put (s : Subject α) (v : α) : (s.put v).held = s.held.map fun _ => v := by
  cases s <;> rfl

end Subject

@[simp] theorem subject_note (b : Bench α) (n : Note α) : (b.note n).subject = b.subject := rfl

@[simp] theorem agenda_note (b : Bench α) (n : Note α) : (b.note n).agenda = b.agenda := rfl

@[simp] theorem kept_note (b : Bench α) (n : Note α) : (b.note n).kept = b.kept := rfl

@[simp] theorem subject_plan (b : Bench α) (ts : List (Task α)) :
    (b.plan ts).subject = b.subject := rfl

@[simp] theorem agenda_plan (b : Bench α) (ts : List (Task α)) :
    (b.plan ts).agenda = ts ++ b.agenda := rfl

@[simp] theorem kept_plan (b : Bench α) (ts : List (Task α)) : (b.plan ts).kept = b.kept := rfl

@[simp] theorem subject_hear (b : Bench α) (i : Nat) (v : α) :
    (b.hear i v).subject = b.subject := by
  unfold hear
  split <;> rfl

@[simp] theorem kept_hear (b : Bench α) (i : Nat) (v : α) : (b.hear i v).kept = b.kept := by
  unfold hear
  split <;> rfl

theorem subject_react (b : Bench α) (i before rule : Nat) (v : α) :
    (b.react i before rule v).subject = b.subject := by
  unfold react
  split
  · rfl
  · split
    · dsimp only
      split <;> rfl
    · rfl

theorem kept_react (b : Bench α) (i before rule : Nat) (v : α) :
    (b.react i before rule v).kept = b.kept := by
  unfold react
  split
  · rfl
  · split
    · dsimp only
      split <;> rfl
    · rfl

/-- Rules lead to rules and actions. -/
theorem agenda_react (b : Bench α) (i before rule : Nat) (v : α) :
    ∃ new, (b.react i before rule v).agenda = new ++ b.agenda ∧
      ∀ t ∈ new, (∃ a, t = .act a) ∨ ∃ rule, t = .react i before rule v := by
  unfold react
  split
  · exact ⟨[], rfl, by simp⟩
  · split
    · dsimp only
      split
      · next acts l _ =>
        refine ⟨acts.map .act ++ [.react i before (rule + 1) v], by simp [plan], ?_⟩
        simp only [List.mem_append, List.mem_map, List.mem_singleton]
        rintro t (⟨a, _, rfl⟩ | rfl)
        · exact .inl ⟨a, rfl⟩
        · exact .inr ⟨_, rfl⟩
      · exact ⟨[.react i before (rule + 1) v], rfl, fun t ht => .inr ⟨_, List.mem_singleton.1 ht⟩⟩
    · exact ⟨[], rfl, by simp⟩

/-! ## What a task does to the channel -/

/-- A channel after an operation, if there is one. -/
def after (c : Channel α Nat) (o : Option (Operation α Nat)) : Channel α Nat := o.elim c c.apply

theorem channel_release (b : Bench α) (id : Option Nat) :
    (b.release id).channel = after b.channel (id.map .detach) := by
  cases id with
  | none => rfl
  | some id => exact b.subject.channel_detach id

theorem subject_withHandle (b : Bench α) (h : Nat) (f : Bench α → Bench α) :
    (b.withHandle h f).subject = if b.hasHandle h then (f b).subject else b.subject := by
  unfold withHandle
  split <;> rfl

theorem subject_subscribe (b : Bench α) (name : String) (rules : List (Rule α (Action α))) :
    (b.subscribe name rules).subject = b.subject.subscribe .every b.listeners.length := by
  unfold subscribe
  dsimp only
  split
  · rw [subject_hear]
    rfl
  · rfl

theorem subject_subscribeFirst (b : Bench α) (name : String) (accept : α → Bool)
    (rules : List (Rule α (Action α))) :
    (b.subscribeFirst name accept rules).subject =
      if b.subject.held.any accept then b.subject
      else b.subject.subscribe (.first accept) b.listeners.length := by
  unfold subscribeFirst
  dsimp only [addListener]
  cases hheld : b.subject.held with
  | none => rfl
  | some v => cases hv : accept v <;> simp [hv, register]

theorem channel_act (b : Bench α) (a : Action α) :
    (b.act a).channel = after b.channel (b.actOperation? a) := by
  cases a with
  | emit h v =>
    rw [act, channel, subject_withHandle, actOperation?]
    cases b.hasHandle h with
    | false => rfl
    | true => exact b.subject.channel_put v
  | subscribe h name rules =>
    rw [act, channel, subject_withHandle, actOperation?, subject_subscribe]
    cases b.hasHandle h with
    | false => rfl
    | true => exact b.subject.channel_subscribe _ _
  | subscribeFirst h name accept rules =>
    rw [act, channel, subject_withHandle, actOperation?, subject_subscribeFirst]
    cases b.hasHandle h with
    | false => rfl
    | true =>
      cases b.subject.held.any accept with
      | true => rfl
      | false => exact b.subject.channel_subscribe _ _
  | release how name =>
    rw [act, actOperation?, releaseOperation?]
    cases b.kept.get? name with
    | none => rfl
    | some id => exact channel_release _ _
  | inspect name =>
    rw [act, actOperation?]
    split <;> rfl
  | count h | clone h =>
    rw [act, channel, subject_withHandle, actOperation?]
    split <;> rfl
  | dropHandle h => rfl

theorem subject_deliver (b : Bench α) : b.deliver.subject = b.subject.advance.2 := by
  unfold deliver
  dsimp only
  split
  · rfl
  · rfl
  · rfl
  · rw [subject_hear]
    split <;> rfl

theorem channel_perform (b : Bench α) (t : Task α) :
    (b.perform t).channel = after b.channel (b.taskOperation? t) := by
  cases t with
  | act a => exact b.channel_act a
  | react i before rule v => exact congrArg Subject.channel (b.subject_react i before rule v)
  | deliver =>
    rw [perform, channel, subject_deliver]
    exact b.subject.channel_advance
  | keep name id =>
    rw [perform, keep, taskOperation?, releaseOperation?]
    cases b.kept.get? name with
    | none => rfl
    | some older => exact channel_release _ _

/-- Only the delivery takes turns. -/
theorem eq_deliver_of_advance {b : Bench α} {t : Task α} (h : b.taskOperation? t = some .advance) :
    t = .deliver := by
  have release : ∀ name, b.releaseOperation? name ≠ some .advance := by
    intro name hr
    obtain ⟨id, _, hid⟩ := Option.map_eq_some_iff.1 hr
    cases hid
  cases t with
  | deliver => rfl
  | act a =>
    cases a with
    | release how name => exact absurd h (release name)
    | _ => simp [taskOperation?, actOperation?] at h
  | keep name id => exact absurd h (release name)
  | react i before rule v => cases h

/-! ## What a task leads to -/

/-- The tasks that hearing a value leads to: the rules of one listener, if it exists. -/
inductive Heard : List (Task α) → Prop where
  | nobody : Heard []
  | rules (i before : Nat) (v : α) : Heard [.react i before 0 v]

theorem agenda_hear {b : Bench α} {ts : List (Task α)} (h : b.agenda = ts) (i : Nat) (v : α) :
    ∃ heard, Heard heard ∧ (b.hear i v).agenda = heard ++ ts := by
  unfold hear
  split
  · exact ⟨[], .nobody, h⟩
  · exact ⟨_, .rules i _ v, congrArg _ h⟩

/-- The tasks that a task leads to. -/
inductive Leads (b : Bench α) : Task α → List (Task α) → Prop where
  | nothing {t : Task α} (ht : t ≠ .deliver)
      (same : (after b.channel (b.taskOperation? t)).delivering = b.channel.delivering) :
      Leads b t []
  | started {h : Nat} {v : α} (handle : b.hasHandle h = true)
      (idle : b.channel.delivering = false) :
      Leads b (.act (.emit h v)) [.deliver]
  | subscribed {h : Nat} {name : String} {rules : List (Rule α (Action α))} {heard : List (Task α)}
      (handle : b.hasHandle h = true) (hh : Heard heard)
      (relay : b.subject.held = none → heard = []) :
      Leads b (.act (.subscribe h name rules)) (heard ++ [.keep name (some b.channel.nextId)])
  | awaiting {h : Nat} {name : String} {accept : α → Bool} {rules : List (Rule α (Action α))}
      (handle : b.hasHandle h = true) (hv : b.subject.held.any accept = false) :
      Leads b (.act (.subscribeFirst h name accept rules)) [.keep name (some b.channel.nextId)]
  | accepted {h : Nat} {name : String} {accept : α → Bool} {rules : List (Rule α (Action α))}
      {heard : List (Task α)} (hh : Heard heard) (hv : b.subject.held.any accept = true) :
      Leads b (.act (.subscribeFirst h name accept rules)) (heard ++ [.keep name none])
  | reacted {i before rule : Nat} {v : α} {new : List (Task α)}
      (hnew : ∀ t ∈ new, (∃ a, t = .act a) ∨ ∃ rule, t = .react i before rule v) :
      Leads b (.react i before rule v) new
  | finished (turn : b.channel.advance.1 = .finished) : Leads b .deliver []
  | turned {heard : List (Task α)} (turn : b.channel.advance.1 ≠ .finished) (hh : Heard heard) :
      Leads b .deliver (heard ++ [.deliver])

theorem agenda_withHandle {b : Bench α} {h : Nat} {f : Bench α → Bench α} {t : Task α}
    (ht : t ≠ .deliver) (hno : b.hasHandle h = false → b.taskOperation? t = none)
    (hf : b.hasHandle h = true → ∃ new, Leads b t new ∧ (f b).agenda = new ++ b.agenda) :
    ∃ new, Leads b t new ∧ (b.withHandle h f).agenda = new ++ b.agenda := by
  unfold withHandle
  cases handle : b.hasHandle h with
  | true => exact hf handle
  | false => exact ⟨[], .nothing ht (by rw [hno handle]; rfl), rfl⟩

theorem delivering_releaseOperation (b : Bench α) (name : String) :
    (after b.channel (b.releaseOperation? name)).delivering = b.channel.delivering := by
  rw [releaseOperation?]
  cases (b.kept.get? name).join <;> rfl

theorem agenda_subscribe (b : Bench α) {h : Nat} (handle : b.hasHandle h = true) (name : String)
    (rules : List (Rule α (Action α))) :
    ∃ new, Leads b (.act (.subscribe h name rules)) new ∧
      (b.subscribe name rules).agenda = new ++ b.agenda := by
  unfold subscribe
  dsimp only
  have hheld : ((b.addListener name rules).register name .every b.listeners.length).subject.held =
      b.subject.held := b.subject.held_subscribe _ _
  rw [hheld]
  cases held : b.subject.held with
  | none => exact ⟨_, .subscribed handle .nobody fun _ => rfl, rfl⟩
  | some v =>
    obtain ⟨heard, hh, hagenda⟩ := agenda_hear
      (b := (b.addListener name rules).register name .every b.listeners.length) rfl
      b.listeners.length v
    exact ⟨_, .subscribed handle hh (by simp [held]), hagenda.trans (List.append_assoc ..).symm⟩

theorem agenda_subscribeFirst (b : Bench α) {h : Nat} (handle : b.hasHandle h = true)
    (name : String) (accept : α → Bool) (rules : List (Rule α (Action α))) :
    ∃ new, Leads b (.act (.subscribeFirst h name accept rules)) new ∧
      (b.subscribeFirst name accept rules).agenda = new ++ b.agenda := by
  unfold subscribeFirst
  have hheld : (b.addListener name rules).subject.held = b.subject.held := rfl
  dsimp only
  rw [hheld]
  cases held : b.subject.held with
  | none => exact ⟨_, .awaiting handle (by simp [held]), rfl⟩
  | some v =>
    dsimp only
    split
    · next hv =>
      obtain ⟨heard, hh, hagenda⟩ := agenda_hear
        (b := ((b.addListener name rules).note (.asked name v (accept v))).plan [.keep name none])
        rfl b.listeners.length v
      exact ⟨_, .accepted hh (by simp [held, hv]), hagenda.trans (List.append_assoc ..).symm⟩
    · next hv => exact ⟨_, .awaiting handle (by simp [held, hv]), rfl⟩

theorem agenda_act (b : Bench α) (a : Action α) :
    ∃ new, Leads b (.act a) new ∧ (b.act a).agenda = new ++ b.agenda := by
  have quiet : (after b.channel (b.actOperation? a)).delivering = b.channel.delivering →
      ∀ {b' : Bench α}, b'.agenda = b.agenda →
        ∃ new, Leads b (.act a) new ∧ b'.agenda = new ++ b.agenda :=
    fun same b' h => ⟨[], .nothing (by simp) same, h⟩
  cases a with
  | emit h v =>
    refine agenda_withHandle (by simp) (fun no => by simp [taskOperation?, actOperation?, no]) ?_
    intro handle
    rw [emit]
    cases idle : b.subject.channel.delivering with
    | false => exact ⟨[.deliver], .started handle idle, rfl⟩
    | true =>
      exact quiet (by simp [actOperation?, handle, after, Channel.apply, Channel.emit, idle]) rfl
  | subscribe h name rules =>
    exact agenda_withHandle (by simp) (fun no => by simp [taskOperation?, actOperation?, no])
      fun handle => b.agenda_subscribe handle name rules
  | subscribeFirst h name accept rules =>
    exact agenda_withHandle (by simp) (fun no => by simp [taskOperation?, actOperation?, no])
      fun handle => b.agenda_subscribeFirst handle name accept rules
  | release how name =>
    have quiet := @quiet (b.delivering_releaseOperation name)
    rw [act]
    split
    · next id _ => cases id <;> exact quiet rfl
    · exact quiet rfl
  | inspect name =>
    rw [act]
    split <;> exact quiet rfl rfl
  | count h | clone h => exact agenda_withHandle (by simp) (fun _ => rfl) fun _ => quiet rfl rfl
  | dropHandle h => exact quiet rfl rfl

theorem agenda_deliver (b : Bench α) :
    ∃ new, Leads b .deliver new ∧ b.deliver.agenda = new ++ b.agenda := by
  have hturn :
      ∀ {t}, b.subject.advance.1 = t → t ≠ .finished → b.channel.advance.1 ≠ .finished := by
    intro t ht hne hf
    exact hne (ht.symm.trans (b.subject.turn_advance.trans hf))
  unfold deliver
  dsimp only
  cases turn : b.subject.advance.1 with
  | finished => exact ⟨[], .finished (b.subject.turn_advance.symm.trans turn), rfl⟩
  | moved => exact ⟨[.deliver], .turned (hturn turn (by simp)) .nobody, rfl⟩
  | refused e v => exact ⟨[.deliver], .turned (hturn turn (by simp)) .nobody, rfl⟩
  | called e v =>
    have called : ∀ b' : Bench α, b'.agenda = .deliver :: b.agenda →
        ∃ new, Leads b .deliver new ∧ (b'.hear e.target v).agenda = new ++ b.agenda := by
      intro b' hb'
      obtain ⟨heard, hh, hagenda⟩ := agenda_hear hb' e.target v
      exact ⟨_, .turned (hturn turn (by simp)) hh, hagenda.trans (by simp)⟩
    dsimp only
    split <;> exact called _ rfl

/-- What a task leads to stands in front of what there was to do before. -/
theorem agenda_perform (b : Bench α) (t : Task α) :
    ∃ new, Leads b t new ∧ (b.perform t).agenda = new ++ b.agenda := by
  cases t with
  | act a => exact b.agenda_act a
  | react i before rule v =>
    obtain ⟨new, hagenda, hnew⟩ := b.agenda_react i before rule v
    exact ⟨new, .reacted hnew, hagenda⟩
  | deliver => exact b.agenda_deliver
  | keep name id =>
    refine ⟨[], .nothing (by simp) (b.delivering_releaseOperation name), ?_⟩
    rw [perform, keep]
    cases b.kept.get? name with
    | none => rfl
    | some older => cases older <;> rfl

end Bench
end StandingQuery
