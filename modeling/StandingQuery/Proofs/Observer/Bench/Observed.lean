import StandingQuery.Proofs.Bench.Agenda
import StandingQuery.Proofs.Observer.Bench.Script
import StandingQuery.Proofs.Observer.Channel

/-! Two benches of which the first one has observers besides. Subscriptions and listeners have other
numbers there, since the observers take some, but whatever is done for the others keeps the two
alike, and so does what is done for an observer, with nothing being done on the second bench. -/

namespace StandingQuery.Bench

variable {α : Type} (extra : String → Bool)

/-- The numbers of subscriptions and of listeners with and without the observers. -/
structure Numbers where
  ids : Pairing
  people : Pairing

def Numbers.empty : Numbers := ⟨.empty, .empty⟩

/-- A listener is added on both benches, or on the first one only. -/
def Numbers.meet (N : Numbers) : Numbers := { N with people := N.people.both }

def Numbers.meetAlone (N : Numbers) : Numbers := { N with people := N.people.one }

/-- A subscription is made on both benches, or on the first one only. -/
def Numbers.enroll (N : Numbers) : Numbers := { N with ids := N.ids.both }

def Numbers.enrollAlone (N : Numbers) : Numbers := { N with ids := N.ids.one }

inductive TaskAlike (N : Numbers) : Task α → Task α → Prop where
  | act {a a' : Action α} (h : a.without extra = some a') (passive : a.isPassive extra = true) :
      TaskAlike N (.act a) (.act a')
  | react {i j : Nat} (h : N.people.same i j) (before rule : Nat) (v : α) :
      TaskAlike N (.react i before rule v) (.react j before rule v)
  | deliver : TaskAlike N .deliver .deliver
  | keep {name : String} {i j : Option Nat} (other : extra name = false)
      (h : N.ids.SameOrNone i j) :
      TaskAlike N (.keep name i) (.keep name j)

inductive TaskAlone (N : Numbers) : Task α → Prop where
  | act {a : Action α} (h : a.without extra = none) (passive : a.isPassive extra = true) :
      TaskAlone N (.act a)
  | react {i : Nat} (h : N.people.Alone i) (before rule : Nat) (v : α) :
      TaskAlone N (.react i before rule v)
  | keep {name : String} {id : Option Nat} (he : extra name = true) (h : N.ids.AloneOrNone id) :
      TaskAlone N (.keep name id)

/-- Two benches alike. `old` is what had been noted before the present action, the latest first,
with and without the observers. -/
structure Observed (old : List (Note α) × List (Note α)) (N : Numbers) (b c : Bench α) : Prop where
  held : b.subject.held = c.subject.held
  channel : Channel.Alike N.ids N.people.same N.people.Alone b.subject.channel c.subject.channel
  handles : b.handles = c.handles
  listeners : Tables N.people
    (Listener.Alike (actionsWithout extra) fun acts => actionsPassive extra acts = true)
    (Listener.Silent extra) b.listeners c.listeners
  kept : Named.Covers extra (N.ids.SameOrNone) (N.ids.AloneOrNone) b.kept c.kept
  notes : (b.notes ++ old.1).filter (Note.isShown extra) =
    (c.notes ++ old.2).filter (Note.isShown extra)
  agenda : Woven (TaskAlike extra N) (TaskAlone extra N) b.agenda c.agenda

variable {extra}

structure Numbers.Grows (N N' : Numbers) : Prop where
  ids : N.ids.Grows N'.ids
  people : N.people.Grows N'.people

section
variable {N N' : Numbers} (g : N.Grows N')
include g

theorem TaskAlike.mono {t u : Task α} (h : TaskAlike extra N t u) : TaskAlike extra N' t u := by
  cases h with
  | act h passive => exact .act h passive
  | react h before rule v => exact .react (g.people.same _ _ h) before rule v
  | deliver => exact .deliver
  | keep other h => exact .keep other (h.mono g.ids)

theorem TaskAlone.mono {t : Task α} (h : TaskAlone extra N t) : TaskAlone extra N' t := by
  cases h with
  | act h passive => exact .act h passive
  | react h before rule v => exact .react (g.people.alone _ h) before rule v
  | keep he h => exact .keep he (h.mono g.ids)

end

namespace Observed

variable {old : List (Note α) × List (Note α)} {N : Numbers} {b c : Bench α}

/-! ### Small parts of a step, on both benches and on the first one -/

theorem note (h : Observed extra old N b c) (n : Note α) :
    Observed extra old N (b.note n) (c.note n) :=
  { h with notes := by simp only [Bench.note, List.cons_append, List.filter_cons, h.notes] }

theorem noteAlone (h : Observed extra old N b c) {n : Note α} (hidden : n.isShown extra = false) :
    Observed extra old N (b.note n) c :=
  { h with
    notes := by
      simp only [Bench.note, List.cons_append, List.filter_cons, hidden, h.notes]
      rfl }

theorem noteBoth (h : Observed extra old N b c) {n n' : Note α} (hidden : n.isShown extra = false)
    (hidden' : n'.isShown extra = false) : Observed extra old N (b.note n) (c.note n') :=
  { h with
    notes := by
      simp only [Bench.note, List.cons_append, List.filter_cons, hidden, hidden', h.notes]
      rfl }

theorem plan (h : Observed extra old N b c) {ts us : List (Task α)}
    (new : Woven (TaskAlike extra N) (TaskAlone extra N) ts us) :
    Observed extra old N (b.plan ts) (c.plan us) :=
  { h with agenda := new.append h.agenda }

theorem planAlone (h : Observed extra old N b c) {t : Task α} (new : TaskAlone extra N t) :
    Observed extra old N (b.plan [t]) c :=
  { h with agenda := .extra new h.agenda }

theorem isOpen (h : Observed extra old N b c) : b.isOpen = c.isOpen := by
  rw [Bench.isOpen, Bench.isOpen, h.handles]

theorem hasHandle (h : Observed extra old N b c) (i : Nat) : b.hasHandle i = c.hasHandle i := by
  rw [Bench.hasHandle, Bench.hasHandle, h.handles]

theorem isActive (h : Observed extra old N b c) {i j : Option Nat} (hs : N.ids.SameOrNone i j) :
    b.isActive i = c.isActive j := by
  cases hs with
  | none => rfl
  | some hs => exact h.channel.isActive hs

theorem nameOf (h : Observed extra old N b c) {i j : Nat} (hs : N.people.same i j) :
    b.nameOf i = c.nameOf j := by
  obtain ⟨l, l', hl, hl', hll⟩ := h.listeners.same i j hs
  simp [Bench.nameOf, hl, hl', hll.name]

theorem nameOfAlone (h : Observed extra old N b c) {i : Nat} (ha : N.people.Alone i) :
    extra (b.nameOf i) = true := by
  obtain ⟨l, hl, silent⟩ := h.listeners.alone i ha
  simpa [Bench.nameOf, hl] using silent.name

theorem hear (h : Observed extra old N b c) {i j : Nat} (hs : N.people.same i j) (v : α) :
    Observed extra old N (b.hear i v) (c.hear j v) := by
  obtain ⟨l, l', hl, hl', hll⟩ := h.listeners.same i j hs
  have heard : Observed extra old N
      { b with listeners := b.listeners.set i { l with heard := l.heard + 1 } }
      { c with listeners := c.listeners.set j { l' with heard := l'.heard + 1 } } :=
    { h with listeners := h.listeners.set hs (hll.hear 1) }
  have note : Note.heard l'.name v (if c.isOpen then c.subject.held else none) =
      Note.heard l.name v (if b.isOpen then b.subject.held else none) := by
    rw [hll.name, h.held, h.isOpen]
  have react : Task.react j l'.heard 0 v = Task.react j l.heard 0 v := by rw [hll.heard]
  simp only [Bench.hear, hl, hl']
  rw [note, react]
  exact (heard.note _).plan (.single (.react hs ..))

theorem hearAlone (h : Observed extra old N b c) {i : Nat} (ha : N.people.Alone i) (v : α) :
    Observed extra old N (b.hear i v) c := by
  obtain ⟨l, hl, silent⟩ := h.listeners.alone i ha
  have heard : Observed extra old N
      { b with listeners := b.listeners.set i { l with heard := l.heard + 1 } } c :=
    { h with listeners := h.listeners.setAlone ha ⟨silent.name, silent.rules⟩ }
  simp only [Bench.hear, hl]
  exact (heard.noteAlone (by simp [Note.isShown, silent.name])).planAlone (.react ha ..)

theorem addListener (h : Observed extra old N b c) (name : String)
    {rules : List (Rule α (Action α))} (passive : rulesPassive extra rules = true) :
    Observed extra old N.meet (b.addListener name rules)
      (c.addListener name (rulesWithout extra rules)) := by
  have g : N.Grows N.meet := ⟨.refl _, N.people.grows_both⟩
  have new := Listener.Alike.named (actionsWithout extra)
    (fun acts => actionsPassive extra acts = true) name ((rulesPassive_iff extra rules).1 passive)
  rw [← rulesWithout_eq] at new
  exact { h with
    channel := h.channel.mono g.people.same g.people.alone
    listeners := h.listeners.add new
    agenda := h.agenda.mono (fun _ _ => .mono g) fun _ => .mono g }

theorem addListenerAlone (h : Observed extra old N b c) {name : String} (he : extra name = true) :
    Observed extra old N.meetAlone (b.addListener name []) c := by
  have g : N.Grows N.meetAlone := ⟨.refl _, N.people.grows_one⟩
  exact { h with
    channel := h.channel.mono g.people.same g.people.alone
    listeners := h.listeners.addAlone ⟨he, rfl⟩
    agenda := h.agenda.mono (fun _ _ => .mono g) fun _ => .mono g }

theorem register (h : Observed extra old N b c) {name : String} (other : extra name = false)
    (mode : Mode α) {i j : Nat} (hs : N.people.same i j) :
    Observed extra old N.enroll (b.register name mode i) (c.register name mode j) := by
  have g : N.Grows N.enroll := ⟨N.ids.grows_both, .refl _⟩
  have subscribed : Observed extra old N.enroll { b with subject := b.subject.subscribe mode i }
      { c with subject := c.subject.subscribe mode j } :=
    { h with
      held := by rw [Subject.held_subscribe, Subject.held_subscribe, h.held]
      channel := by
        rw [Subject.channel_subscribe, Subject.channel_subscribe]
        exact h.channel.subscribe mode hs
      kept := h.kept.mono (fun _ _ => .mono g.ids) fun _ => .mono g.ids
      agenda := h.agenda.mono (fun _ _ => .mono g) fun _ => .mono g }
  refine subscribed.plan (.single (.keep other (.some ?_)))
  rw [← h.channel.here, ← h.channel.there]
  exact N.ids.same_both

theorem registerAlone (h : Observed extra old N b c) {name : String} (he : extra name = true)
    (mode : Mode α) {i : Nat} (ha : N.people.Alone i) :
    Observed extra old N.enrollAlone (b.register name mode i) c := by
  have g : N.Grows N.enrollAlone := ⟨N.ids.grows_one, .refl _⟩
  have subscribed : Observed extra old N.enrollAlone
      { b with subject := b.subject.subscribe mode i } c :=
    { h with
      held := by rw [Subject.held_subscribe, h.held]
      channel := by
        rw [Subject.channel_subscribe]
        exact h.channel.subscribeAlone mode ha
      kept := h.kept.mono (fun _ _ => .mono g.ids) fun _ => .mono g.ids
      agenda := h.agenda.mono (fun _ _ => .mono g) fun _ => .mono g }
  refine subscribed.planAlone (.keep he (Pairing.aloneOrNone_some ?_))
  rw [← h.channel.here]
  exact N.ids.alone_one

theorem release (h : Observed extra old N b c) {i j : Option Nat} (hs : N.ids.SameOrNone i j) :
    Observed extra old N (b.release i) (c.release j) := by
  cases hs with
  | none => exact h
  | some hs =>
    exact { h with
      held := by simp only [Bench.release, Subject.held_detach, h.held]
      channel := by
        simp only [Bench.release, Subject.channel_detach]
        exact h.channel.detach hs }

theorem releaseAlone (h : Observed extra old N b c) {id : Option Nat} (ha : N.ids.AloneOrNone id) :
    Observed extra old N (b.release id) c := by
  cases id with
  | none => exact h
  | some i =>
    exact { h with
      held := by simp only [Bench.release, Subject.held_detach, h.held]
      channel := by
        simp only [Bench.release, Subject.channel_detach]
        exact h.channel.detachAlone (ha i rfl) }

/-! ### Subscribing -/

/-- The listener added last has the next number on either bench. -/
theorem newest (h : Observed extra old N b c) :
    N.meet.people.same b.listeners.length c.listeners.length := by
  rw [← h.listeners.here, ← h.listeners.there]
  exact N.people.same_both

theorem newestAlone (h : Observed extra old N b c) :
    N.meetAlone.people.Alone b.listeners.length := by
  rw [← h.listeners.here]
  exact N.people.alone_one

theorem subscribe (h : Observed extra old N b c) {name : String} (other : extra name = false)
    {rules : List (Rule α (Action α))} (passive : rulesPassive extra rules = true) :
    ∃ N', Observed extra old N' (b.subscribe name rules)
      (c.subscribe name (rulesWithout extra rules)) := by
  have registered := (h.addListener name passive).register other .every h.newest
  refine ⟨N.meet.enroll, ?_⟩
  unfold Bench.subscribe
  dsimp only
  rw [← registered.held]
  split
  · exact registered.hear h.newest _
  · exact registered

theorem subscribeAlone (h : Observed extra old N b c) {name : String} (he : extra name = true) :
    ∃ N', Observed extra old N' (b.subscribe name []) c := by
  have registered := (h.addListenerAlone he).registerAlone he .every h.newestAlone
  refine ⟨N.meetAlone.enrollAlone, ?_⟩
  unfold Bench.subscribe
  dsimp only
  split
  · exact registered.hearAlone h.newestAlone _
  · exact registered

theorem subscribeFirst (h : Observed extra old N b c) {name : String} (other : extra name = false)
    (accept : α → Bool) {rules : List (Rule α (Action α))}
    (passive : rulesPassive extra rules = true) :
    ∃ N', Observed extra old N' (b.subscribeFirst name accept rules)
      (c.subscribeFirst name accept (rulesWithout extra rules)) := by
  have added := h.addListener name passive
  unfold Bench.subscribeFirst
  dsimp only
  rw [← added.held]
  split
  · next v _ =>
    have asked := added.note (.asked name v (accept v))
    split
    · exact ⟨N.meet, (asked.plan (.single (.keep other .none))).hear h.newest v⟩
    · exact ⟨N.meet.enroll, asked.register other _ h.newest⟩
  · exact ⟨N.meet.enroll, added.register other _ h.newest⟩

theorem subscribeFirstAlone (h : Observed extra old N b c) {name : String} (he : extra name = true)
    (accept : α → Bool) : ∃ N', Observed extra old N' (b.subscribeFirst name accept []) c := by
  have added := h.addListenerAlone he
  unfold Bench.subscribeFirst
  dsimp only
  split
  · next v _ =>
    have asked := added.noteAlone (n := .asked name v (accept v)) (by simp [Note.isShown, he])
    split
    · have planned := asked.planAlone (.keep he N.meetAlone.ids.aloneOrNone_none)
      exact ⟨N.meetAlone, planned.hearAlone h.newestAlone v⟩
    · exact ⟨N.meetAlone.enrollAlone, asked.registerAlone he _ h.newestAlone⟩
  · exact ⟨N.meetAlone.enrollAlone, added.registerAlone he _ h.newestAlone⟩

/-! ### Actions -/

theorem withHandle (h : Observed extra old N b c) (i : Nat) {f g : Bench α → Bench α}
    (done : ∃ N', Observed extra old N' (f b) (g c)) :
    ∃ N', Observed extra old N' (b.withHandle i f) (c.withHandle i g) := by
  unfold Bench.withHandle
  rw [← h.hasHandle i]
  split
  · exact done
  · exact ⟨N, h.note _⟩

theorem withHandleAlone (h : Observed extra old N b c) (i : Nat) {f : Bench α → Bench α}
    (done : ∃ N', Observed extra old N' (f b) c) :
    ∃ N', Observed extra old N' (b.withHandle i f) c := by
  unfold Bench.withHandle
  split
  · exact done
  · exact ⟨N, h.noteAlone rfl⟩

theorem emit (h : Observed extra old N b c) (v : α) :
    Observed extra old N (b.emit v) (c.emit v) := by
  have put : Observed extra old N { b with subject := b.subject.put v }
      { c with subject := c.subject.put v } :=
    { h with
      held := by rw [Subject.held_put, Subject.held_put, h.held]
      channel := by
        rw [Subject.channel_put, Subject.channel_put]
        exact h.channel.emit v }
  unfold Bench.emit
  dsimp only
  rw [← h.channel.delivering]
  split
  · exact put.plan .nil
  · exact put.plan (.single .deliver)

theorem act (h : Observed extra old N b c) {a a' : Action α} (without : a.without extra = some a')
    (passive : a.isPassive extra = true) : ∃ N', Observed extra old N' (b.act a) (c.act a') := by
  cases a with
  | emit i v =>
    cases without
    rw [Bench.act, Bench.act]
    exact h.withHandle i ⟨N, h.emit v⟩
  | subscribe i name rules =>
    obtain ⟨other, rfl⟩ := eq_of_kept without
    simp only [Action.isPassive, other, Bool.false_eq_true, if_false] at passive
    rw [Bench.act, Bench.act]
    exact h.withHandle i (h.subscribe other passive)
  | subscribeFirst i name accept rules =>
    obtain ⟨other, rfl⟩ := eq_of_kept without
    simp only [Action.isPassive, other, Bool.false_eq_true, if_false] at passive
    rw [Bench.act, Bench.act]
    exact h.withHandle i (h.subscribeFirst other accept passive)
  | release how name =>
    obtain ⟨other, rfl⟩ := eq_of_kept without
    refine ⟨N, ?_⟩
    rcases h.kept.get? other with ⟨hb, hc⟩ | ⟨i, j, hb, hc, hs⟩
    · simp only [Bench.act, hb, hc]
      exact h.note _
    · have erased : Observed extra old N { b with kept := b.kept.erase name }
          { c with kept := c.kept.erase name } := { h with kept := h.kept.erase name }
      simp only [Bench.act, hb, hc]
      rw [← h.isActive hs]
      exact (erased.note _).release hs
  | inspect name =>
    obtain ⟨other, rfl⟩ := eq_of_kept without
    refine ⟨N, ?_⟩
    rcases h.kept.get? other with ⟨hb, hc⟩ | ⟨i, j, hb, hc, hs⟩
    · simp only [Bench.act, hb, hc]
      exact h.note _
    · simp only [Bench.act, hb, hc]
      rw [← h.isActive hs]
      exact h.note _
  | count i =>
    cases without
    rw [Bench.act, Bench.act]
    exact h.withHandle i ⟨N, h.noteBoth rfl rfl⟩
  | clone i =>
    cases without
    rw [Bench.act, Bench.act]
    exact h.withHandle i ⟨N, { h with handles := congrArg (· ++ [true]) h.handles }⟩
  | dropHandle i =>
    cases without
    exact ⟨N, { h with handles := congrArg (·.set i false) h.handles }⟩

/-- What an observer does. -/
theorem actAlone (h : Observed extra old N b c) {a : Action α} (without : a.without extra = none)
    (passive : a.isPassive extra = true) : ∃ N', Observed extra old N' (b.act a) c := by
  cases a with
  | subscribe i name rules =>
    have he := extra_of_left_out without
    simp only [Action.isPassive, he, if_true, List.isEmpty_iff] at passive
    subst passive
    rw [Bench.act]
    exact h.withHandleAlone i (h.subscribeAlone he)
  | subscribeFirst i name accept rules =>
    have he := extra_of_left_out without
    simp only [Action.isPassive, he, if_true, List.isEmpty_iff] at passive
    subst passive
    rw [Bench.act]
    exact h.withHandleAlone i (h.subscribeFirstAlone he accept)
  | release how name =>
    have he := extra_of_left_out without
    refine ⟨N, ?_⟩
    rw [Bench.act]
    split
    · next id found =>
      have erased : Observed extra old N { b with kept := b.kept.erase name } c :=
        { h with kept := h.kept.eraseExtra he }
      exact (erased.noteAlone (by simp [Note.isShown, he])).releaseAlone
        (h.kept.get?_extra he found)
    · exact h.noteAlone (by simp [Note.isShown, he])
  | inspect name =>
    have he := extra_of_left_out without
    refine ⟨N, ?_⟩
    rw [Bench.act]
    split <;> exact h.noteAlone (by simp [Note.isShown, he])
  | emit i v | count i | clone i | dropHandle i => cases without

/-! ### The other tasks -/

theorem actions {acts : List (Action α)} (passive : actionsPassive extra acts = true) :
    Woven (TaskAlike extra N) (TaskAlone extra N) (acts.map .act)
      ((actionsWithout extra acts).map .act) := by
  induction acts with
  | nil => exact .nil
  | cons a as ih =>
    rw [actionsPassive, Bool.and_eq_true] at passive
    have rest := ih passive.2
    rw [actionsWithout]
    cases without : a.without extra with
    | none => exact .extra (.act without passive.1) rest
    | some a' => exact .both (.act without passive.1) rest

theorem react (h : Observed extra old N b c) {i j : Nat} (hs : N.people.same i j)
    (before rule : Nat) (v : α) :
    Observed extra old N (b.react i before rule v) (c.react j before rule v) := by
  obtain ⟨l, l', hl, hl', hll⟩ := h.listeners.same i j hs
  have next : Observed extra old N (b.plan [.react i before (rule + 1) v])
      (c.plan [.react j before (rule + 1) v]) := h.plan (.single (.react hs ..))
  simp only [Bench.react, hl, hl', hll.length_rules]
  split
  · rcases hll.fire rule before v with ⟨hf, hf'⟩ | ⟨acts, k, k', hf, hf', passive, hk⟩
    · simp only [hf, hf']
      exact next
    · simp only [hf, hf']
      have spent : Observed extra old N
          { b.plan [.react i before (rule + 1) v] with listeners := b.listeners.set i k }
          { c.plan [.react j before (rule + 1) v] with listeners := c.listeners.set j k' } :=
        { next with listeners := h.listeners.set hs hk }
      exact spent.plan (actions passive)
  · exact h

theorem reactAlone (h : Observed extra old N b c) {i : Nat} (ha : N.people.Alone i)
    (before rule : Nat) (v : α) : b.react i before rule v = b := by
  obtain ⟨l, hl, silent⟩ := h.listeners.alone i ha
  simp [Bench.react, hl, silent.rules]

theorem keep (h : Observed extra old N b c) {name : String} (other : extra name = false)
    {i j : Option Nat} (hs : N.ids.SameOrNone i j) :
    Observed extra old N (b.keep name i) (c.keep name j) := by
  have put : Observed extra old N { b with kept := b.kept.put name i }
      { c with kept := c.kept.put name j } :=
    { h with kept := h.kept.put other hs }
  rcases h.kept.get? other with ⟨hb, hc⟩ | ⟨i', j', hb, hc, hs'⟩
  · simp only [Bench.keep, hb, hc]
    exact put
  · simp only [Bench.keep, hb, hc]
    exact put.release hs'

theorem keepAlone (h : Observed extra old N b c) {name : String} (he : extra name = true)
    {id : Option Nat} (ha : N.ids.AloneOrNone id) : Observed extra old N (b.keep name id) c := by
  have put : Observed extra old N { b with kept := b.kept.put name id } c :=
    { h with kept := h.kept.putExtra he ha }
  unfold Bench.keep
  dsimp only
  split
  · next id' found => exact put.releaseAlone (h.kept.get?_extra he found)
  · exact put

end Observed

end StandingQuery.Bench
