import Mathlib.Algebra.GroupWithZero.Nat
import StandingQuery.Proofs.Observer.Bench.Observed
import StandingQuery.Proofs.Observer.Simulation

/-! A step of a bench with observers is a step of the bench without them, or it is about an observer
and leaves the other bench as it is. An observer does not react, so there are only so many steps of
that kind in a row. -/

namespace StandingQuery.Bench

variable {α : Type} {extra : String → Bool}

/-! ## What observers keep the bench busy with -/

def Task.burden : Task α → Nat
  | .act _ => 3
  | .react _ _ _ _ | .keep _ _ => 1
  | .deliver => 0

/-- More than the steps that can be made in a row for observers only. -/
def burden (b : Bench α) : Nat :=
  2 * b.subject.channel.turns.length + (b.agenda.map Task.burden).sum

theorem burden_plan (b : Bench α) (ts : List (Task α)) :
    (b.plan ts).burden = (ts.map Task.burden).sum + b.burden := by
  simp only [burden, plan, List.map_append, List.sum_append]
  omega

theorem burden_hear (b : Bench α) (i : Nat) (v : α) : (b.hear i v).burden ≤ b.burden + 1 := by
  unfold hear
  split
  · exact Nat.le_succ _
  · rw [burden_plan, Nat.add_comm]
    exact Nat.le_refl _

theorem burden_register (b : Bench α) (name : String) (mode : Mode α) (i : Nat) :
    (b.register name mode i).burden = b.burden + 1 := by
  rw [register, burden_plan, Nat.add_comm]
  simp [burden, Channel.subscribe, Task.burden]

theorem burden_release (b : Bench α) (id : Option Nat) : (b.release id).burden = b.burden := by
  cases id with
  | none => rfl
  | some i => simp [release, burden, Channel.detach]

theorem burden_subscribe (b : Bench α) (name : String) (rules : List (Rule α (Action α))) :
    (b.subscribe name rules).burden ≤ b.burden + 2 := by
  have registered : ((b.addListener name rules).register name .every b.listeners.length).burden =
      b.burden + 1 := burden_register ..
  unfold subscribe
  dsimp only
  split
  · exact Nat.le_trans (burden_hear _ _ _) (Nat.le_of_eq (congrArg (· + 1) registered))
  · exact registered ▸ Nat.le_succ _

theorem burden_subscribeFirst (b : Bench α) (name : String) (accept : α → Bool)
    (rules : List (Rule α (Action α))) :
    (b.subscribeFirst name accept rules).burden ≤ b.burden + 2 := by
  have registered (b₁ : Bench α) (h : b₁.burden = b.burden) :
      (b₁.register name (.first accept) b.listeners.length).burden ≤ b.burden + 2 := by
    rw [burden_register, h]
    exact Nat.le_succ _
  unfold subscribeFirst
  dsimp only
  split
  · split
    · refine Nat.le_trans (burden_hear _ _ _) ?_
      rw [burden_plan]
      show 1 + b.burden + 1 ≤ b.burden + 2
      omega
    · exact registered _ rfl
  · exact registered _ rfl

theorem burden_actAlone (b : Bench α) {a : Action α} (without : a.without extra = none) :
    (b.act a).burden ≤ b.burden + 2 := by
  have withHandle (i : Nat) {f : Bench α → Bench α} (h : (f b).burden ≤ b.burden + 2) :
      (b.withHandle i f).burden ≤ b.burden + 2 := by
    unfold Bench.withHandle
    split
    · exact h
    · exact Nat.le_add_right _ _
  cases a with
  | subscribe i name rules => exact withHandle i (burden_subscribe ..)
  | subscribeFirst i name accept rules => exact withHandle i (burden_subscribeFirst ..)
  | release how name =>
    rw [act]
    split
    · rw [burden_release]
      exact Nat.le_add_right _ _
    · exact Nat.le_add_right _ _
  | inspect name =>
    rw [act]
    split <;> exact Nat.le_add_right _ _
  | emit i v | count i | clone i | dropHandle i => cases without

theorem burden_keep (b : Bench α) (name : String) (id : Option Nat) :
    (b.keep name id).burden = b.burden := by
  unfold keep
  dsimp only
  split
  · exact burden_release ..
  · rfl

/-! ## One step -/

namespace Observed

variable {old : List (Note α) × List (Note α)} {N : Numbers} {b c : Bench α}

/-- The next turn on both benches. -/
theorem deliver (h : Observed extra old N b c)
    (turn : Channel.TurnAlike N.ids N.people.same b.subject.channel.advance.1
      c.subject.channel.advance.1)
    (next : Channel.Alike N.ids N.people.same N.people.Alone b.subject.channel.advance.2
      c.subject.channel.advance.2) : Observed extra old N b.deliver c.deliver := by
  have advanced : Observed extra old N { b with subject := b.subject.advance.2 }
      { c with subject := c.subject.advance.2 } :=
    { h with
      held := by rw [Subject.held_advance, Subject.held_advance, h.held]
      channel := by
        rw [Subject.channel_advance, Subject.channel_advance]
        exact next }
  have again {b₁ c₁ : Bench α} (h : Observed extra old N b₁ c₁) :
      Observed extra old N (b₁.plan [.deliver]) (c₁.plan [.deliver]) := h.plan (.single .deliver)
  unfold Bench.deliver
  dsimp only
  rw [Subject.turn_advance, Subject.turn_advance]
  generalize b.subject.channel.advance.1 = t at turn
  generalize c.subject.channel.advance.1 = u at turn
  cases turn with
  | finished => exact advanced
  | moved => exact again advanced
  | refused v hef =>
    dsimp only
    rw [← advanced.nameOf hef.target]
    exact again (advanced.note _)
  | called v hef =>
    dsimp only
    rw [← hef.mode]
    refine (again ?_).hear hef.target v
    split
    · exact advanced
    · rw [← advanced.nameOf hef.target]
      exact advanced.note _

/-- The next turn is an observer's. -/
theorem deliverAlone (h : Observed extra old N b c)
    (turn : Channel.TurnAlone N.people.Alone b.subject.channel.advance.1)
    (next : Channel.Alike N.ids N.people.same N.people.Alone b.subject.channel.advance.2
      c.subject.channel)
    (less : b.subject.channel.advance.2.turns.length + 1 = b.subject.channel.turns.length) :
    Observed extra old N b.deliver (c.plan [.deliver]) ∧ b.deliver.burden < b.burden := by
  have advanced : Observed extra old N { b with subject := b.subject.advance.2 } c :=
    { h with
      held := by rw [Subject.held_advance, h.held]
      channel := by
        rw [Subject.channel_advance]
        exact next }
  have again {b₁ : Bench α} (h : Observed extra old N b₁ c) :
      Observed extra old N (b₁.plan [.deliver]) (c.plan [.deliver]) := h.plan (.single .deliver)
  have lighter : burden { b with subject := b.subject.advance.2 } + 2 = b.burden := by
    simp only [burden, Subject.channel_advance]
    omega
  have goesOn (b₁ : Bench α) : (b₁.plan [.deliver]).burden = b₁.burden := by
    rw [burden_plan]
    exact Nat.zero_add _
  have noted (b₁ : Bench α) (n : Note α) : (b₁.note n).burden = b₁.burden := rfl
  unfold Bench.deliver
  dsimp only
  rw [Subject.turn_advance]
  generalize b.subject.channel.advance.1 = t at turn
  cases turn with
  | moved =>
    refine ⟨again advanced, ?_⟩
    rw [goesOn]
    omega
  | refused v ha =>
    have hidden := advanced.nameOfAlone ha
    refine ⟨again (advanced.noteAlone (by simp [Note.isShown, hidden])), ?_⟩
    rw [goesOn, noted]
    omega
  | @called e v ha =>
    have hidden := advanced.nameOfAlone ha
    have heard {b₁ : Bench α} (h₁ : Observed extra old N b₁ c) (less : b₁.burden + 2 = b.burden) :
        Observed extra old N ((b₁.plan [.deliver]).hear e.target v) (c.plan [.deliver]) ∧
          ((b₁.plan [.deliver]).hear e.target v).burden < b.burden := by
      have most := burden_hear (b₁.plan [.deliver]) e.target v
      rw [goesOn] at most
      exact ⟨(again h₁).hearAlone ha v, by omega⟩
    dsimp only
    split
    · exact heard advanced lighter
    · exact heard (advanced.noteAlone (by simp [Note.isShown, hidden])) lighter

/-- A task that is there on both benches. Only a delivery can be an observer's turn; then it stays
on the agenda of the bench without him. -/
theorem perform (h : Observed extra old N b c) {t u : Task α} (tasks : TaskAlike extra N t u) :
    (∃ N', Observed extra old N' (b.perform t) (c.perform u)) ∨
      Observed extra old N (b.perform t) (c.plan [u]) ∧ (b.perform t).burden < b.burden := by
  cases tasks with
  | act without passive => exact .inl (h.act without passive)
  | react same before rule v => exact .inl ⟨N, h.react same before rule v⟩
  | keep other same => exact .inl ⟨N, h.keep other same⟩
  | deliver =>
    rcases h.channel.advance with ⟨turn, next⟩ | ⟨turn, next, less⟩
    · exact .inl ⟨N, h.deliver turn next⟩
    · exact .inr (h.deliverAlone turn next less)

/-- A task of an observer. -/
theorem performAlone (h : Observed extra old N b c) {t : Task α} (task : TaskAlone extra N t) :
    ∃ N', Observed extra old N' (b.perform t) c ∧
      (b.perform t).burden < t.burden + b.burden := by
  cases task with
  | act without passive =>
    obtain ⟨N', done⟩ := h.actAlone without passive
    refine ⟨N', done, Nat.lt_of_le_of_lt (burden_actAlone _ without) ?_⟩
    simp only [Task.burden]
    omega
  | react ha before rule v =>
    rw [Bench.perform, h.reactAlone ha before rule v]
    exact ⟨N, h, Nat.lt_add_of_pos_left Nat.one_pos⟩
  | keep he ha =>
    refine ⟨N, h.keepAlone he ha, ?_⟩
    rw [Bench.perform, burden_keep]
    exact Nat.lt_add_of_pos_left Nat.one_pos

/-- A step is one without the observers, or leads a bit closer to the next one that is. -/
theorem step (h : Observed extra old N b c) {b' : Bench α} (taken : b.step = some b') :
    (∃ c' N', c.step = some c' ∧ Observed extra old N' b' c') ∨
      ∃ N', Observed extra old N' b' c ∧ b'.burden < b.burden := by
  have agenda := h.agenda
  cases hb : b.agenda with
  | nil =>
    rw [Bench.step, hb] at taken
    cases taken
  | cons t ts =>
    rw [Bench.step, hb] at taken
    cases taken
    rw [hb] at agenda
    have weight : b.burden = t.burden + burden { b with agenda := ts } := by
      simp only [burden, hb, List.map_cons, List.sum_cons]
      omega
    generalize hc : c.agenda = us at agenda
    cases agenda with
    | @both _ u _ us task rest =>
      have left : Observed extra old N { b with agenda := ts } { c with agenda := us } :=
        { h with agenda := rest }
      rcases left.perform task with ⟨N', done⟩ | ⟨done, less⟩
      · exact .inl ⟨_, N', by rw [Bench.step, hc], done⟩
      · have waits : Bench.plan { c with agenda := us } [u] = c := by
          rw [Bench.plan, List.singleton_append, ← hc]
        rw [waits] at done
        exact .inr ⟨N, done, weight ▸ Nat.lt_of_lt_of_le less (Nat.le_add_left _ _)⟩
    | extra task rest =>
      have left : Observed extra old N { b with agenda := ts } c := { h with agenda := hc ▸ rest }
      obtain ⟨N', done, less⟩ := left.performAlone task
      exact .inr ⟨N', done, weight ▸ less⟩

theorem agrees (h : Observed extra old N b c) : Agrees extra (old.1, b) (old.2, c) where
  held := h.held
  notes := h.notes
  activity := h.kept.listed fun _ _ => h.isActive
  pending := h.channel.pending
  delivering := h.channel.delivering
  handles := h.handles

/-- The next action is taken, with nothing noted about it yet. -/
theorem take (h : Observed extra old N b c) {ts us : List (Task α)}
    (tasks : Woven (TaskAlike extra N) (TaskAlone extra N) ts us) :
    Observed extra (b.notes ++ old.1, c.notes ++ old.2) N { b with notes := [], agenda := ts }
      { c with notes := [], agenda := us } :=
  { h with agenda := tasks }

/-- The next action is an observer's. -/
theorem takeAlone (h : Observed extra old N b c) {t : Task α} (new : TaskAlone extra N t)
    (rest : b.agenda = []) :
    Observed extra (b.notes ++ old.1, old.2) N { b with notes := [], agenda := [t] } c :=
  { h with agenda := .extra new (rest ▸ h.agenda) }

end Observed

/-! ## Whole scripts -/

/-- A bench with all that has been noted on it. -/
def recorder : Machine (List (Note α) × Bench α) (Action α) := machine.telling Bench.notes

theorem shadows : (recorder (α := α)).Shadows (Action.without extra)
    (fun a => a.isPassive extra = true) (fun b c => ∃ N, Observed extra (b.1, c.1) N b.2 c.2)
    (fun b => b.2.burden) where
  rest := by
    rintro ⟨old, b⟩
    cases hb : b.agenda <;> simp [recorder, Machine.telling, machine, Bench.step, hb]
  step := by
    rintro ⟨old, b⟩ ⟨old', c⟩ _ ⟨N, h⟩ taken
    obtain ⟨b', made, rfl⟩ := Option.map_eq_some_iff.1 taken
    rcases h.step made with ⟨c', N', ahead, done⟩ | ⟨N', done, less⟩
    · exact .inl ⟨(old', c'), Option.map_eq_some_iff.2 ⟨c', ahead, rfl⟩, N', done⟩
    · exact .inr ⟨⟨N', done⟩, less⟩
  halt := by
    rintro ⟨old, b⟩ ⟨old', c⟩ ⟨N, h⟩ (rest : b.agenda = [])
    have agenda := h.agenda
    rw [rest] at agenda
    exact agenda.eq_nil
  same := by
    rintro a a' ⟨old, b⟩ ⟨old', c⟩ passive without ⟨N, h⟩ _
    exact ⟨N, h.take (.single (.act without passive))⟩
  extra := by
    rintro a ⟨old, b⟩ ⟨old', c⟩ passive without ⟨N, h⟩ rest
    exact ⟨N, h.takeAlone (.act without passive) rest⟩

theorem alike_start {s : Subject α} (hs : s.channel = .empty) :
    Observed extra ([], []) .empty (start s) (start s) where
  held := rfl
  channel := by
    rw [show (start s).subject.channel = .empty from hs]
    exact Channel.alike_empty _ _
  handles := rfl
  listeners := ⟨rfl, rfl, fun _ _ h => h.elim, fun _ h => absurd h.1 (Nat.not_lt_zero _)⟩
  kept := .nil
  notes := rfl
  agenda := .nil

/-- Observers change nothing for the others on a bench. -/
theorem mirrors (extra : String → Bool) {s : Subject α} (hs : s.channel = .empty)
    {script : List (Action α)} (passive : ∀ a ∈ script, a.isPassive extra = true) :
    recorder.Mirrors (Action.without extra) (Agrees extra) ([], start s) ([], start s) script :=
  shadows.mirrors (fun _ _ ⟨_, h⟩ => h.agrees) ⟨.empty, alike_start hs⟩ passive

end StandingQuery.Bench
