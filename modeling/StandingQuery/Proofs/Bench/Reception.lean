import StandingQuery.Proofs.Bench.Hearing

/-! What a callback hears that comes in while a bench is at work. It has no part in the deliveries
that have begun, but whatever waits at the time is still to be delivered and reaches it as well,
although it was emitted before. Only where nothing waits does a new callback hear what is emitted
from then on and nothing else. A new listener of a cell hears the value held first; if that is among
the values that wait, he hears it a second time. -/

namespace StandingQuery.Bench

open Channel (Operation Moment Journal Served toldTo toldTo_append toldTo_eq_nil emissions
  deliveries calls)

variable {α : Type}

/-- The subscription that the next step makes for every value. -/
def listens? (b : Bench α) : Option Nat :=
  match b.agenda with
  | .act (.subscribe h _ _) :: _ => if b.hasHandle h then some b.channel.nextId else none
  | _ => none

/-- A new listener of a cell hears the value held. -/
def replay? (b : Bench α) : Option (Nat × α) :=
  b.listens?.bind fun id => b.subject.held.map (id, ·)

/-- The callback that the next step runs, be it because of a delivery or to hear the value held. -/
def hears? (b : Bench α) : Option (Nat × α) := b.replay?.or b.call?

/-- What the callback of a subscription has been run with. -/
def heardBy (id : Nat) (past : List (Bench α)) : List α := toldTo id (past.filterMap hears?)

theorem heardBy_append (id : Nat) (past past' : List (Bench α)) :
    heardBy id (past ++ past') = heardBy id past ++ heardBy id past' := by
  rw [heardBy, List.filterMap_append, toldTo_append]
  rfl

theorem heardBy_singleton (id : Nat) (b : Bench α) :
    heardBy id [b] = toldTo id b.hears?.toList := by
  cases h : b.hears? <;> simp [heardBy, h]

/-! ## Who hears something in a step -/

theorem listens?_spec {b : Bench α} {id : Nat} (h : b.listens? = some id) :
    id = b.channel.nextId ∧ b.operation? = some (.subscribe .every b.listeners.length) := by
  unfold listens? at h
  split at h
  · next handle name rules ts agenda =>
    obtain ⟨there, hid⟩ := Option.ite_none_right_eq_some.1 h
    cases hid
    exact ⟨rfl, by simp [operation?, agenda, taskOperation?, actOperation?, there]⟩
  · cases h

theorem replay?_spec {b : Bench α} {i : Nat} {v : α} (h : b.replay? = some (i, v)) :
    b.listens? = some i ∧ b.subject.held = some v := by
  obtain ⟨id, listens, held⟩ := Option.bind_eq_some_iff.1 h
  obtain ⟨w, held, hw⟩ := Option.map_eq_some_iff.1 held
  cases hw
  exact ⟨listens, held⟩

/-- A callback is run by turns of the delivery only. -/
theorem call?_eq (b : Bench α) :
    b.call? = b.operation?.bind fun o => (Moment.mk b.channel o).called? := by
  have never : ∀ {t : Task α} {o : Operation α Nat}, t ≠ .deliver → b.taskOperation? t = some o →
      (Moment.mk b.channel o).called? = none := by
    intro t o ht ho
    cases o with
    | advance => exact absurd (eq_deliver_of_advance ho) ht
    | emit _ | subscribe _ _ | detach _ => rfl
  cases agenda : b.agenda with
  | nil => simp [call?, operation?, agenda]
  | cons t ts =>
    have operation : b.operation? = b.taskOperation? t := by simp [operation?, agenda]
    by_cases ht : t = .deliver
    · subst ht
      rw [operation]
      simp [call?, agenda, taskOperation?, Moment.called?]
    · have quiet : b.call? = none := by
        unfold call?
        rw [agenda]
        cases t <;> first | rfl | exact absurd rfl ht
      rw [quiet, operation, eq_comm, Option.bind_eq_none_iff]
      exact fun o => never ht

/-- Whoever hears something has been subscribed by then, or is by the next moment. -/
theorem Stepped.hearer_known {b b' : Bench α} {t : Task α} {ts new : List (Task α)}
    (stepped : Stepped b b' t ts new) {i : Nat} {v : α} (h : b.hears? = some (i, v)) :
    i < b'.channel.nextId := by
  rcases Option.or_eq_some_iff.1 h with replay | ⟨_, call⟩
  · obtain ⟨rfl, operation⟩ := listens?_spec (replay?_spec replay).1
    rw [stepped.channel, ← stepped.operation, operation]
    exact Nat.lt_succ_self _
  · rw [call?_eq] at call
    obtain ⟨o, _, called⟩ := Option.bind_eq_some_iff.1 call
    have active := Channel.Moment.isActive_of_called? called
    exact Nat.lt_of_lt_of_le (Channel.lt_of_isActive active) stepped.nextId_le

/-- A callback that has been there hears no more than it is told in its turn. -/
theorem toldTo_hears? {b : Bench α} {id : Nat} (known : id < b.channel.nextId) :
    toldTo id b.hears?.toList = toldTo id b.call?.toList := by
  cases h : b.replay? with
  | none => rw [hears?, h, Option.none_or]
  | some r =>
    obtain ⟨i, v⟩ := r
    obtain ⟨rfl, operation⟩ := listens?_spec (replay?_spec h).1
    have silent : b.call? = none := by rw [call?_eq, operation]; rfl
    have other : b.channel.nextId ≠ id := Nat.ne_of_gt known
    rw [hears?, h, silent]
    exact toldTo_eq_nil (by simpa using other)

/-! ## Over a run -/

/-- Nobody who is still to come has heard anything. -/
theorem heardBy_of_unknown {s b : Bench α} {past : List (Bench α)} (run : machine.Run s past b)
    {id : Nat} (unknown : b.channel.nextId ≤ id) : heardBy id past = [] := by
  refine Channel.toldTo_of_unknown channel (fun _ _ => rfl) run (fun m _ m' taken => ?_) unknown
  obtain ⟨t, ts, new, stepped⟩ := step_spec taken
  exact ⟨stepped.nextId_le, fun x hx => stepped.hearer_known hx⟩

/-- **Whoever is subscribed is served.** -/
theorem served_of_run {m b : Bench α} {past : List (Bench α)} (run : machine.Run m past b)
    (wellFormed : m.channel.WellFormed) (books : m.Known) {id : Nat}
    (made : id < m.channel.nextId) :
    b.channel.WellFormed ∧ b.Known ∧ id < b.channel.nextId ∧
      Served m.channel b.channel id (heardBy id past) (emissions (journal past)) := by
  induction run with
  | start => exact ⟨wellFormed, books, made, .nothing _ _⟩
  | input a _ _ ih =>
    obtain ⟨wellFormed, books, made, served⟩ := ih
    exact ⟨wellFormed, ⟨books.kept, by simp [machine]⟩, made, served⟩
  | @step past b b' _ taken ih =>
    obtain ⟨wellFormed, books, made, served⟩ := ih
    obtain ⟨t, ts, new, stepped⟩ := step_spec taken
    have later := Nat.lt_of_lt_of_le made stepped.nextId_le
    have channel : b'.channel = after b.channel b.operation? := by
      rw [stepped.channel, stepped.operation]
    rw [heardBy_append, heardBy_singleton, toldTo_hears? made, call?_eq, journal_append]
    cases operation : b.operation? with
    | none =>
      rw [operation] at channel
      have same : b'.channel = b.channel := channel
      simp only [same, Option.bind_none, Option.map_none, Option.toList_none, List.append_nil]
      exact ⟨wellFormed, books.step taken, made, by simpa [toldTo] using served⟩
    | some o =>
      rw [operation] at channel
      have applied : b'.channel = b.channel.apply o := channel
      have more := served.next wellFormed made o
      rw [← applied, ← Channel.emissions_append] at more
      exact ⟨applied ▸ wellFormed.apply (books.operation_valid operation), books.step taken, later,
        more⟩

/-! ## Whoever comes in -/

/-- The subscription that the next step makes. -/
def joins? (b : Bench α) : Option Nat :=
  b.operation?.bind fun o => (Moment.mk b.channel o).subscribed?

theorem joins?_spec {b : Bench α} {id : Nat} (h : b.joins? = some id) :
    id = b.channel.nextId ∧ ∃ mode i, b.operation? = some (.subscribe mode i) := by
  obtain ⟨o, operation, made⟩ := Option.bind_eq_some_iff.1 h
  cases o with
  | subscribe mode i =>
    cases made
    exact ⟨rfl, mode, i, operation⟩
  | emit _ | detach _ | advance => cases made

/-- What the callback `id` is told that is subscribed at the moment `m`: what waits then, and what
is emitted afterwards. -/
structure HearsFromThenOn (id : Nat) (m : Bench α) (later : List (Bench α)) (b : Bench α)
    (told : List α) : Prop where
  inOrder : told <+: m.channel.pending ++ emissions (journal later)
  /-- Nothing is left out as long as it stays. -/
  exact : b.channel.isActive id = true →
    told ++ b.channel.waiting id = m.channel.pending ++ emissions (journal later)
  complete : b.channel.isActive id = true → b.channel.delivering = false →
    told = m.channel.pending ++ emissions (journal later)

theorem hears_from_then_on {s : Subject α} (hs : s.channel = .empty) {m b : Bench α}
    {earlier later : List (Bench α)} (run : machine.Run (start s) (earlier ++ m :: later) b)
    {id : Nat} (joins : m.joins? = some id) : HearsFromThenOn id m later b (heardBy id later) := by
  obtain ⟨rfl, mode, i, operation⟩ := joins?_spec joins
  obtain ⟨m', first, taken, rest⟩ := run.split rfl
  obtain ⟨journal, books⟩ := journal_of_run hs first
  have wellFormed := journal.law.wellFormed
  obtain ⟨t, ts, new, stepped⟩ := step_spec taken
  have channel : m'.channel = m.channel.subscribe mode i := by
    rw [stepped.channel, ← stepped.operation, operation]
    rfl
  have waits : m'.channel.waiting m.channel.nextId = m.channel.pending := by
    rw [channel, Channel.waiting_subscribe, wellFormed.waiting_nextId]
  have made : m.channel.nextId < m'.channel.nextId := by
    rw [channel]
    exact Nat.lt_succ_self _
  obtain ⟨wellFormed', _, _, served⟩ :=
    served_of_run rest (channel ▸ wellFormed.subscribe mode i) (books.step taken) made
  constructor
  · exact waits ▸ served.inOrder
  · exact waits ▸ served.exact
  · exact waits ▸ served.complete wellFormed'

/-- A new callback has heard nothing before, and when it comes in the value held at most. -/
theorem heardBy_joined {s : Subject α} {m b : Bench α} {earlier later : List (Bench α)}
    (run : machine.Run (start s) (earlier ++ m :: later) b) {id : Nat}
    (joins : m.joins? = some id) :
    heardBy id (earlier ++ m :: later) = toldTo id m.replay?.toList ++ heardBy id later := by
  obtain ⟨rfl, mode, i, operation⟩ := joins?_spec joins
  obtain ⟨_, first, _, _⟩ := run.split rfl
  have silent : m.call? = none := by
    rw [call?_eq, operation]
    rfl
  have now : heardBy m.channel.nextId [m] = toldTo m.channel.nextId m.replay?.toList := by
    rw [heardBy_singleton, hears?, silent, Option.or_none]
  rw [← List.singleton_append, heardBy_append, heardBy_append, now,
    heardBy_of_unknown first (Nat.le_refl _), List.nil_append]

theorem joins?_of_listens? {b : Bench α} {id : Nat} (h : b.listens? = some id) :
    b.joins? = some id := by
  obtain ⟨rfl, operation⟩ := listens?_spec h
  rw [joins?, operation]
  rfl

/-- A new listener of a cell hears the value held first. -/
theorem heardBy_listener {s : Subject α} {m b : Bench α} {earlier later : List (Bench α)}
    (run : machine.Run (start s) (earlier ++ m :: later) b) {id : Nat}
    (listens : m.listens? = some id) {v : α} (held : m.subject.held = some v) :
    heardBy id (earlier ++ m :: later) = v :: heardBy id later := by
  have replay : toldTo id m.replay?.toList = [v] := by simp [replay?, listens, held, toldTo]
  rw [heardBy_joined run (joins?_of_listens? listens), replay, List.singleton_append]

/-! ## Whose callback it is -/

/-- The subscription `id` is for every value, and the only one that leads to listener `i`. -/
def Plain (id i : Nat) (c : Channel α Nat) : Prop :=
  ∀ e ∈ c.listed, e.id = id ∨ e.target = i → e = ⟨id, .every, i⟩

theorem Plain.apply {id i : Nat} {c : Channel α Nat} (h : Plain id i c) (made : id < c.nextId)
    {o : Operation α Nat} (other : ∀ mode, o ≠ .subscribe mode i) : Plain id i (c.apply o) := by
  intro e he own
  rcases Channel.mem_listed_apply he with he | ⟨mode, j, rfl, rfl⟩
  · exact h e he own
  · rcases own with rfl | rfl
    · exact absurd made (Nat.lt_irrefl _)
    · exact absurd rfl (other mode)

/-- The turns of the subscription reach the listener, and no other turns do. -/
theorem Plain.reached {id i : Nat} {c : Channel α Nat} (h : Plain id i c) (o : Operation α Nat) :
    toldTo i (Moment.mk c o).reached?.toList = toldTo id (Moment.mk c o).called?.toList := by
  cases o with
  | emit _ | subscribe _ _ | detach _ => rfl
  | advance =>
    show toldTo i c.advance.1.reaches?.toList = toldTo id c.advance.1.call?.toList
    have turn := c.advances
    generalize c.advance.1 = t at turn ⊢
    generalize c.advance.2 = c' at turn
    have own {e : Entry α Nat} {v : α} (turns : (e, v) ∈ c.turns) :=
      h e (Channel.listed_of_turn turns)
    cases turn with
    | @heard e v _ turns _ _ | @taken e v _ _ turns _ _ _ =>
      have own := own (turns ▸ List.mem_cons_self)
      by_cases hid : e.id = id
      · simp [Turn.reaches?, Turn.call?, own (.inl hid), toldTo]
      · have ht : e.target ≠ i := fun ht => hid (own (.inr ht) ▸ rfl)
        simp [Turn.reaches?, Turn.call?, toldTo, hid, ht]
    | @refused e v _ accept turns _ mode _ =>
      have hid : e.id ≠ id := fun hid => by
        rw [own (turns ▸ List.mem_cons_self) (.inl hid)] at mode
        cases mode
      simp [Turn.reaches?, Turn.call?, toldTo, hid]
    | passed _ _ | begun _ _ | finished _ _ => rfl

theorem dueTo_of_plain {m b : Bench α} {past : List (Bench α)} (run : machine.Run m past b)
    {id i : Nat} (plain : Plain id i m.channel) (made : id < m.channel.nextId)
    (known : i < m.listeners.length) :
    Plain id i b.channel ∧ id < b.channel.nextId ∧ i < b.listeners.length ∧
      dueTo i past = heardBy id past := by
  induction run with
  | start => exact ⟨plain, made, known, rfl⟩
  | input a _ _ ih => exact ih
  | @step past b b' _ taken ih =>
    obtain ⟨plain, made, known, same⟩ := ih
    obtain ⟨t, ts, new, stepped⟩ := step_spec taken
    refine ⟨?_, Nat.lt_of_lt_of_le made stepped.nextId_le,
      Nat.lt_of_lt_of_le known (listeners_le taken), ?_⟩
    · rw [stepped.channel, ← stepped.operation]
      cases operation : b.operation? with
      | none => exact plain
      | some o =>
        refine plain.apply made fun mode ho => ?_
        rw [ho] at operation
        exact absurd (subscribe_spec taken operation).1 (Nat.ne_of_lt known)
    · rw [dueTo_append, heardBy_append, same, dueTo_singleton, heardBy_singleton,
        toldTo_hears? made, toldTo_reaches? known, call?_eq]
      cases b.operation? with
      | none => rfl
      | some o => rw [Option.bind_some, Option.bind_some, plain.reached o]

/-- Whoever comes in hears the value held, if there is one. -/
theorem reaches?_of_listens? {m : Bench α} {id : Nat} (listens : m.listens? = some id) :
    m.reaches?.toList = (m.subject.held.map (m.listeners.length, ·)).toList ∧
      m.replay?.toList = (m.subject.held.map (id, ·)).toList := by
  refine ⟨?_, by rw [replay?, listens]; rfl⟩
  unfold listens? at listens
  split at listens
  · next h name rules ts agenda =>
    obtain ⟨handle, _⟩ := Option.ite_none_right_eq_some.1 listens
    rw [reaches?, tells?, agenda, List.head?_cons, Option.bind_some, taskTells?, if_pos handle]
    cases m.subject.held <;> rfl
  · cases listens

/-- **What the callback of a subscription for every value is told, its listener is run with.** -/
theorem reachedBy_listener {s : Subject α} (hs : s.channel = .empty) {m b : Bench α}
    {earlier later : List (Bench α)} (run : machine.Run (start s) (earlier ++ m :: later) b)
    {id : Nat} (listens : m.listens? = some id) :
    reachedBy m.listeners.length (earlier ++ m :: later) = heardBy id (earlier ++ m :: later) := by
  obtain ⟨m', first, taken, rest⟩ := run.split rfl
  obtain ⟨rfl, operation⟩ := listens?_spec listens
  obtain ⟨t, ts, new, stepped⟩ := step_spec taken
  have wellFormed := (journal_of_run hs first).1.law.wellFormed
  have manned := (manned_of_run hs first).1
  have channel : m'.channel = m.channel.subscribe .every m.listeners.length := by
    rw [stepped.channel, ← stepped.operation, operation]
    rfl
  have plain : Plain m.channel.nextId m.listeners.length m'.channel := by
    intro e he own
    rw [channel] at he
    rcases Channel.mem_listed_apply (o := .subscribe .every m.listeners.length) he with
      he | ⟨mode, j, ⟨⟩, rfl⟩
    · rcases own with hid | ht
      · exact absurd (wellFormed.listed_known he) (hid ▸ Nat.lt_irrefl _)
      · exact absurd (manned e he) (ht ▸ Nat.lt_irrefl _)
    · rfl
  have made : m.channel.nextId < m'.channel.nextId := by
    rw [channel]
    exact Nat.lt_succ_self _
  have known := (subscribe_spec taken operation).2
  obtain ⟨reaches, replay⟩ := reaches?_of_listens? listens
  have later := (dueTo_of_plain rest plain made known).2.2.2
  rw [reachedBy_eq hs run, heardBy_joined run (joins?_of_listens? listens), ← List.singleton_append,
    dueTo_append, dueTo_append, dueTo_of_unknown hs first (Nat.le_refl _), dueTo_singleton, reaches,
    replay, later]
  cases m.subject.held <;> simp [toldTo]

/-! ## On a relay -/

theorem relay_of_run {past : List (Bench α)} {b : Bench α}
    (run : machine.Run (start (.relay .empty)) past b) : b.subject.held = none :=
  (run.invariant (P := fun b => b.subject.held = none) rfl (fun _ _ _ h => h) fun _ _ h taken => by
    obtain ⟨t, ts, new, stepped⟩ := step_spec taken
    exact stepped.relay h).1

/-- How a relay serves the callback `id` that is subscribed at the moment `m`. Values are numbered
by the emitting calls, from zero. -/
structure JoinsRelay (id : Nat) (earlier : List (Bench α)) (m : Bench α) (later : List (Bench α))
    (b : Bench α) : Prop where
  /-- If it is there for every value, it is run with what it hears, and with nothing else. -/
  ran : m.listens? = some id →
    reachedBy m.listeners.length (earlier ++ m :: later) = heardBy id (earlier ++ m :: later)
  /-- That shows in the notes: whoever is run is noted to hear the value, and nobody else is. -/
  noted : ∀ n ∈ earlier ++ m :: later,
    n.heardNotes = n.runs.map fun (i, v) => .heard (b.nameOf i) v n.value?
  hears : HearsFromThenOn id m later b (heardBy id (earlier ++ m :: later))
  /-- Of the values emitted before, it is run with none but those that wait. -/
  values : ∀ k v, (k, id, v) ∈ calls (journal (earlier ++ m :: later)) →
    (emissions (journal earlier)).length ≤ k + m.channel.pending.length
  /-- So where nothing waits, it is run only with values that are emitted from then on. -/
  fresh : m.channel.pending = [] → ∀ k v, (k, id, v) ∈ calls (journal (earlier ++ m :: later)) →
    (emissions (journal earlier)).length ≤ k

theorem joins_relay {earlier later : List (Bench α)} {m b : Bench α}
    (run : machine.Run (start (.relay .empty)) (earlier ++ m :: later) b) {id : Nat}
    (joins : m.joins? = some id) : JoinsRelay id earlier m later b := by
  have hears := hears_from_then_on rfl run joins
  have heard := heardBy_joined run joins
  obtain ⟨rfl, mode, i, operation⟩ := joins?_spec joins
  obtain ⟨m', first, _, _⟩ := run.split rfl
  have before := (journal_of_run rfl first).1
  have whole := (journal_of_run rfl run).1
  have parts : journal (earlier ++ m :: later) =
      journal earlier ++ ⟨m.channel, .subscribe mode i⟩ :: journal later := by
    simp [journal, operation]
  have fewer : ∀ k v, (k, m.channel.nextId, v) ∈ calls (journal (earlier ++ m :: later)) →
      (emissions (journal earlier)).length ≤ k + m.channel.pending.length := by
    intro k v called
    rw [parts] at called whole
    have begun := whole.le_of_called before called
    rw [← before.law.values, List.length_append, List.length_map]
    exact Nat.add_le_add_right begun _
  have unasked : m.replay? = none := by
    cases h : m.replay? with
    | none => rfl
    | some r =>
      have held := (replay?_spec h).2
      rw [relay_of_run first] at held
      cases held
  rw [unasked] at heard
  exact {
    ran := reachedBy_listener rfl run
    noted := heardNotes_of_run rfl run
    hears := heard.symm ▸ hears
    values := fewer
    fresh := fun nothing k v called => by simpa [nothing] using fewer k v called }

/-- Emits a second value and then lets another callback in. -/
def onFirstThenLate : Rule Nat (Action Nat) :=
  ⟨fun _ v => v == 1, 1, [.emit 0 2, .subscribe 0 "late" []]⟩

/-- The second of the values emitted still waits when the callback comes in, and reaches it. -/
theorem joins_relay_late :
    ∃ (earlier : List (Bench Nat)) (m : Bench Nat) (later : List (Bench Nat)) (b : Bench Nat),
      machine.Run (start (.relay .empty)) (earlier ++ m :: later) b ∧ m.joins? = some 1 ∧
      emissions (journal earlier) = [1, 2] ∧
      calls (journal (earlier ++ m :: later)) = [(0, 0, 1), (1, 0, 2), (1, 1, 2)] ∧
      reachedBy 1 (earlier ++ m :: later) = [2] ∧ JoinsRelay 1 earlier m later b := by
  have begun : machine.Run (start (.relay .empty) : Bench Nat) [] (start (.relay .empty)) := .start
  have first := (begun.input (.subscribe 0 "first" [onFirstThenLate]) rfl).steps 2
  have emitted := (first.input (.emit 0 1) rfl).steps 20
  have told := emitted.at (n := 7) (by decide +kernel)
  refine ⟨_, _, _, _, told, ?joins, ?_, ?_, ?_, joins_relay told ?joins⟩
  all_goals decide +kernel

/-! ## On a cell -/

theorem cell_of_run {v₀ : α} {past : List (Bench α)} {b : Bench α}
    (run : machine.Run (start (.cell (.holding v₀))) past b) : ∃ v, b.subject.held = some v := by
  have invariant := run.invariant (P := fun b => b.subject.held.isSome) rfl (fun _ _ _ h => h)
    fun b b' h taken => by
      obtain ⟨t, ts, new, stepped⟩ := step_spec taken
      rw [stepped.held, Option.isSome_map]
      exact h
  exact Option.isSome_iff_exists.1 invariant.1

/-- How a cell serves the listener `id` that subscribes at the moment `m`, when `v` is held. -/
structure JoinsCell (id : Nat) (v : α) (earlier : List (Bench α)) (m : Bench α)
    (later : List (Bench α)) (b : Bench α) : Prop where
  /-- What it hears it is run with, and with nothing else. -/
  ran : reachedBy m.listeners.length (earlier ++ m :: later) = heardBy id (earlier ++ m :: later)
  /-- That shows in the notes: whoever is run is noted to hear the value, and nobody else is. -/
  noted : ∀ n ∈ earlier ++ m :: later,
    n.heardNotes = n.runs.map fun (i, v) => .heard (b.nameOf i) v n.value?
  first : heardBy id (earlier ++ m :: later) = v :: heardBy id later
  hears : HearsFromThenOn id m later b (heardBy id later)
  /-- So where nothing waits, it hears the value held and then what is put into the cell from then
  on, once each and in order. -/
  fresh : m.channel.pending = [] →
    heardBy id (earlier ++ m :: later) <+: v :: emissions (journal later) ∧
    (b.channel.isActive id = true → b.channel.delivering = false →
      heardBy id (earlier ++ m :: later) = v :: emissions (journal later))

theorem joins_cell {v₀ : α} {earlier later : List (Bench α)} {m b : Bench α}
    (run : machine.Run (start (.cell (.holding v₀))) (earlier ++ m :: later) b) {id : Nat}
    (listens : m.listens? = some id) :
    ∃ v, m.subject.held = some v ∧ JoinsCell id v earlier m later b := by
  obtain ⟨_, first, _, _⟩ := run.split rfl
  obtain ⟨v, held⟩ := cell_of_run first
  have heard := heardBy_listener run listens held
  have hears := hears_from_then_on rfl run (joins?_of_listens? listens)
  refine ⟨v, held, reachedBy_listener rfl run listens, heardNotes_of_run rfl run, heard, hears,
    fun nothing => ⟨?_, fun active idle => ?_⟩⟩
  · have inOrder := hears.inOrder
    rw [nothing, List.nil_append] at inOrder
    rw [heard]
    exact (List.prefix_cons_inj v).2 inOrder
  · rw [heard]
    show v :: heardBy id later = v :: emissions (journal later)
    rw [hears.complete active idle, nothing, List.nil_append]

/-- Puts two more values into the cell and then lets another listener in. -/
def onOneThenLate : Rule Nat (Action Nat) :=
  ⟨fun _ v => v == 1, 1, [.emit 0 2, .emit 0 3, .subscribe 0 "late" []]⟩

/-- Both values wait when the listener comes in. He hears the second at once, and then both of them,
though nothing is put into the cell any more. -/
theorem joins_cell_late :
    ∃ (earlier : List (Bench Nat)) (m : Bench Nat) (later : List (Bench Nat)) (b : Bench Nat),
      machine.Run (start (.cell (.holding 0))) (earlier ++ m :: later) b ∧ m.listens? = some 1 ∧
      emissions (journal later) = [] ∧ heardBy 1 (earlier ++ m :: later) = [3, 2, 3] ∧
      ∃ v, m.subject.held = some v ∧ JoinsCell 1 v earlier m later b := by
  have begun : machine.Run (start (.cell (.holding 0)) : Bench Nat) [] _ := .start
  have first := (begun.input (.subscribe 0 "first" [onOneThenLate]) rfl).steps 4
  have emitted := (first.input (.emit 0 1) rfl).steps 30
  have told := emitted.at (n := 10) (by decide +kernel)
  refine ⟨_, _, _, _, told, ?listens, ?_, ?_, joins_cell told ?listens⟩
  all_goals decide +kernel

end StandingQuery.Bench
