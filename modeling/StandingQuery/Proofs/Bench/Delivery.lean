import StandingQuery.Proofs.Bench.Reception

/-! The law of delivery, for every script that is run over a relay. Listeners may emit, subscribe
and give subscriptions up while a value is on its way; still the calls come one after the other, in
the order of the values and then of the subscriptions, and when the bench is at rest everything that
was emitted has been delivered. -/

namespace StandingQuery.Bench

open Channel (Operation Moment Journal)

variable {α : Type}

/-! ## Calls return before the next one starts -/

/-- On a relay everything that is under way is led to by the one delivery at the bottom of the
agenda; outside of deliveries there is at most one task. -/
structure Orderly (b : Bench α) : Prop where
  relay : b.subject.held = none
  busy : b.channel.delivering = true →
    ∃ top, b.agenda = top ++ [.deliver] ∧ ∀ t ∈ top, t ≠ .deliver
  idle : b.channel.delivering = false →
    b.agenda.length ≤ 1 ∧ ∀ t ∈ b.agenda, (∃ a, t = .act a) ∨ ∃ name id, t = .keep name id

theorem Heard.ne_deliver {heard : List (Task α)} (h : Heard heard) : ∀ t ∈ heard, t ≠ .deliver := by
  cases h <;> simp

theorem Orderly.start (c : Channel α Nat) (hc : c.delivering = false) :
    (start (.relay c)).Orderly where
  relay := rfl
  busy := fun h => by
    rw [show (Bench.start (.relay c)).channel = c from rfl, hc] at h
    cases h
  idle := fun _ => ⟨Nat.zero_le _, by simp [Bench.start]⟩

theorem Orderly.take {b : Bench α} (h : b.Orderly) (rest : b.agenda = []) (a : Action α) :
    (machine.take b a).Orderly where
  relay := h.relay
  busy := fun hd => by
    obtain ⟨top, htop, _⟩ := h.busy hd
    rw [rest] at htop
    simp at htop
  idle := fun _ => ⟨Nat.le_refl _, fun t ht => .inl ⟨a, List.mem_singleton.1 ht⟩⟩

theorem delivering_apply {c : Channel α Nat} (busy : c.delivering = true) {o : Operation α Nat}
    (ho : o ≠ .advance) : (c.apply o).delivering = true := by
  cases o with
  | emit v => rfl
  | subscribe mode target => exact busy
  | detach id => exact busy
  | advance => exact absurd rfl ho

theorem delivering_advance {c : Channel α Nat} (busy : c.delivering = true) :
    (c.apply .advance).delivering = true ↔ c.advance.1 ≠ .finished := by
  have ha := c.advances
  rw [Channel.apply]
  generalize c.advance.1 = t at ha
  generalize c.advance.2 = c' at ha
  cases ha with
  | passed _ _ | heard _ _ _ | taken _ _ _ _ | refused _ _ _ _ | begun _ _ =>
    simpa [Channel.detach] using busy
  | finished _ _ => simp

/-- A task that is no delivery does not end the one under way, and starts none. -/
theorem Leads.aside {b : Bench α} {t : Task α} {new : List (Task α)} (h : Leads b t new)
    (ht : t ≠ .deliver) (busy : b.channel.delivering = true) :
    (∀ u ∈ new, u ≠ .deliver) ∧ (after b.channel (b.taskOperation? t)).delivering = true := by
  constructor
  · cases h with
    | nothing _ _ => simp
    | started _ idle => simp [idle] at busy
    | subscribed _ hh _ | accepted hh _ =>
      intro u hu
      rcases List.mem_append.1 hu with hu | hu
      · exact hh.ne_deliver u hu
      · rw [List.mem_singleton.1 hu]
        simp
    | awaiting _ _ => simp
    | reacted hnew =>
      intro u hu
      rcases hnew u hu with ⟨a, rfl⟩ | ⟨r, rfl⟩ <;> simp
    | finished _ | turned _ _ => exact absurd rfl ht
  · cases ho : b.taskOperation? t with
    | none => exact busy
    | some o =>
      refine delivering_apply busy fun hadv => ?_
      rw [hadv] at ho
      exact ht (eq_deliver_of_advance ho)

/-- Outside of deliveries an action starts one, or leads to keeping a subscription at most. -/
theorem Leads.alone {b : Bench α} {t : Task α} {new : List (Task α)} (h : Leads b t new)
    (relay : b.subject.held = none) (ht : (∃ a, t = .act a) ∨ ∃ name id, t = .keep name id)
    (idle : b.channel.delivering = false) :
    (new = [.deliver] ∧ (after b.channel (b.taskOperation? t)).delivering = true) ∨
    ((new = [] ∨ ∃ name id, new = [.keep name id]) ∧
      (after b.channel (b.taskOperation? t)).delivering = false) := by
  cases h with
  | nothing _ same => exact .inr ⟨.inl rfl, same.trans idle⟩
  | started handle _ => exact .inl ⟨rfl, by simp [taskOperation?, actOperation?, handle]; rfl⟩
  | subscribed handle _ hheard =>
    rw [hheard relay]
    exact .inr ⟨.inr ⟨_, _, rfl⟩, by simp [taskOperation?, actOperation?, handle]; exact idle⟩
  | awaiting handle hv =>
    exact .inr ⟨.inr ⟨_, _, rfl⟩, by simp [taskOperation?, actOperation?, handle, hv]; exact idle⟩
  | accepted _ hv => simp [relay] at hv
  | reacted _ | finished _ | turned _ _ => rcases ht with ⟨a, ht⟩ | ⟨name, id, ht⟩ <;> cases ht

theorem Orderly.step {b b' : Bench α} (h : b.Orderly) (hs : b.step = some b') : b'.Orderly := by
  obtain ⟨t, ts, new, stepped⟩ := step_spec hs
  have relay := stepped.relay h.relay
  cases hd : b.channel.delivering with
  | true =>
    obtain ⟨top, htop, hne⟩ := h.busy hd
    rw [stepped.before] at htop
    cases top with
    | nil =>
      -- the delivery itself takes its next turn, or ends
      obtain ⟨rfl, rfl⟩ := List.cons.inj htop
      have hd' : b'.channel.delivering = true ↔ b.channel.advance.1 ≠ .finished := by
        rw [stepped.channel]
        exact delivering_advance hd
      have hafter := stepped.after
      cases stepped.leads with
      | nothing ht _ => exact absurd rfl ht
      | finished turn =>
        exact ⟨relay, fun hb => absurd turn (hd'.1 hb), fun _ => by simp [hafter]⟩
      | turned turn hh =>
        refine ⟨relay, fun _ => ⟨_, by simpa using hafter, hh.ne_deliver⟩, fun hb => ?_⟩
        rw [hd'.2 turn] at hb
        cases hb
    | cons u top =>
      obtain ⟨rfl, rfl⟩ := List.cons.inj htop
      obtain ⟨hnew, hd'⟩ := stepped.leads.aside (hne t List.mem_cons_self) hd
      rw [← stepped.channel] at hd'
      refine ⟨relay, fun _ => ⟨new ++ top, by simp [stepped.after], fun u hu => ?_⟩, fun hb => ?_⟩
      · rcases List.mem_append.1 hu with hu | hu
        · exact hnew u hu
        · exact hne u (List.mem_cons_of_mem _ hu)
      · rw [hd'] at hb
        cases hb
  | false =>
    obtain ⟨hlen, hact⟩ := h.idle hd
    rw [stepped.before] at hlen hact
    have hts : ts = [] := by simpa using hlen
    have hafter := stepped.after
    have hchannel := stepped.channel
    rw [hts, List.append_nil] at hafter
    rcases stepped.leads.alone h.relay (hact t List.mem_cons_self) hd with ⟨rfl, hd'⟩ | ⟨hnew, hd'⟩
    · rw [← hchannel] at hd'
      exact ⟨relay, fun _ => ⟨[], hafter, by simp⟩, fun hb => by rw [hd'] at hb; cases hb⟩
    · rw [← hchannel] at hd'
      refine ⟨relay, fun hb => absurd (hd'.symm.trans hb) Bool.false_ne_true, fun _ => ?_⟩
      rw [hafter]
      rcases hnew with rfl | ⟨name, id, rfl⟩
      · simp
      · exact ⟨Nat.le_refl _, fun u hu => .inr ⟨name, id, List.mem_singleton.1 hu⟩⟩

theorem orderly_of_run {past : List (Bench α)} {b : Bench α}
    (run : machine.Run (start (.relay .empty)) past b) : b.Orderly ∧ ∀ m ∈ past, m.Orderly :=
  run.invariant (.start _ rfl) (fun _ a rest h => h.take rest a) fun _ _ h => h.step

/-- When a turn is taken, nothing else is left to do: all calls have returned. -/
theorem Orderly.agenda_of_deliver {b : Bench α} (h : b.Orderly) {ts : List (Task α)}
    (hb : b.agenda = .deliver :: ts) : b.agenda = [.deliver] := by
  cases hd : b.channel.delivering with
  | true =>
    obtain ⟨top, htop, hne⟩ := h.busy hd
    cases top with
    | nil => exact htop
    | cons u top =>
      rw [hb] at htop
      exact absurd (List.cons.inj htop).1.symm (hne u List.mem_cons_self)
  | false =>
    obtain ⟨_, hact⟩ := h.idle hd
    rcases hact .deliver (hb ▸ List.mem_cons_self) with ⟨a, ha⟩ | ⟨name, id, hk⟩
    · cases ha
    · cases hk

/-! ## Calls are what they are said to be

On a relay a listener has the number of his subscription, so that what a call does shows under that
number. -/

open Channel (calls deliveries emissions modes subscriptions turnsTaken)

/-- The listeners are numbered as the subscriptions are, and every entry says how its subscription
was made. -/
structure Roster (past : List (Bench α)) (b : Bench α) : Prop where
  count : b.listeners.length = (subscriptions (journal past)).length
  entries : ∀ e ∈ b.channel.listed,
    e.target = e.id ∧ (modes (journal past))[e.id]? = some e.mode

/-- On a relay a listener comes in exactly when a subscription is made. -/
theorem adds_of_relay {b : Bench α} (relay : b.subject.held = none) :
    (b.agenda.head?.bind b.taskAdds?).toList.length =
      (b.operation?.bind fun o => (Moment.mk b.channel o).subscribed?).toList.length := by
  have release (name : String) : (b.releaseOperation? name).bind
      (fun o => (Moment.mk b.channel o).subscribed?) = none := by
    rw [releaseOperation?]
    cases (b.kept.get? name).join <;> rfl
  rw [operation?]
  cases b.agenda.head? with
  | none => rfl
  | some t =>
    rw [Option.bind_some, Option.bind_some]
    cases t with
    | act a =>
      cases a with
      | emit h v =>
        rw [taskOperation?, actOperation?]
        cases b.hasHandle h <;> rfl
      | subscribe h name rules =>
        rw [taskOperation?, actOperation?, taskAdds?]
        cases b.hasHandle h <;> rfl
      | subscribeFirst h name accept rules =>
        rw [taskOperation?, actOperation?, taskAdds?, relay]
        cases b.hasHandle h <;> rfl
      | release how name => exact congrArg (·.toList.length) (release name).symm
      | inspect | count | clone | dropHandle => rfl
    | keep name id => exact congrArg (·.toList.length) (release name).symm
    | deliver | react => rfl

theorem roster_of_run {past : List (Bench α)} {b : Bench α}
    (run : machine.Run (start (.relay .empty)) past b) : Roster past b := by
  induction run with
  | start => exact ⟨rfl, fun e he => by cases he⟩
  | input a _ _ ih => exact ⟨ih.count, ih.entries⟩
  | @step past b b' run taken ih =>
    have ids := congrArg List.length (journal_of_run rfl run).1.law.ids
    rw [List.length_range] at ids
    constructor
    · rw [← length_names, (tells_step taken).named, List.length_append,
        adds_of_relay (relay_of_run run), journal_append]
      show b.names.length + _ = _
      rw [length_names, ih.count]
      cases b.operation? with
      | none => simp
      | some o => simp [Channel.subscriptions_append]
    · intro e he
      rw [journal_append, Channel.modes_append]
      rcases listed_of_step taken he with he | ⟨operation, new⟩
      · obtain ⟨target, mode⟩ := ih.entries e he
        exact ⟨target, by rw [List.getElem?_append_left (List.getElem?_eq_some_iff.1 mode).1, mode]⟩
      · rw [new, operation]
        refine ⟨ih.count.trans ids, ?_⟩
        show (modes (journal past) ++ [e.mode])[b.channel.nextId]? = some e.mode
        rw [← ids, ← Channel.length_modes, List.getElem?_concat_length]

/-- On a relay somebody is told a value exactly when the callback of a subscription is run. -/
theorem tells_of_relay {b : Bench α} (relay : b.subject.held = none) :
    b.call? = none ∧ b.tells? = none ∨ ∃ e v, e ∈ b.channel.listed ∧ b.call? = some (e.id, v) ∧
      b.tells? = some ⟨e.target, e.mode, v⟩ := by
  cases told : b.tells? with
  | some t =>
    rcases tells?_spec told with ⟨advance, turn⟩ | ⟨held, _⟩
    · obtain ⟨e, v, turns, _, rfl, call⟩ := turnTells?_spec b.channel.advances turn
      refine .inr ⟨e, v, Channel.listed_of_turn turns, ?_, rfl⟩
      rw [call?_eq, advance]
      exact call
    · rw [relay] at held
      cases held
  | none =>
    refine .inl ⟨?_, rfl⟩
    unfold call?
    split
    · next ts agenda =>
      rw [tells?, agenda] at told
      have told : turnTells? b.subject.advance.1 = none := told
      generalize b.subject.advance.1 = t at told ⊢
      cases t with
      | called e v | refused e v => cases told
      | finished | moved => rfl
    · rfl

/-- **What a step of a relay shows of the callback that it runs.** -/
theorem shows_call {past : List (Bench α)} {b : Bench α}
    (run : machine.Run (start (.relay .empty)) past b) : ∀ m ∈ past,
    m.runs = m.call?.toList.filter (fun (id, v) =>
      ((modes (journal past))[id]?).any (·.takes v)) ∧
    m.toldNotes = m.call?.toList.flatMap fun (id, v) =>
      ((modes (journal past))[id]?).elim [] fun mode => notesOf mode (b.nameOf id) none v := by
  intro m hm
  obtain ⟨front, back, rfl⟩ := List.append_of_mem hm
  obtain ⟨m', first, taken, rest⟩ := run.split rfl
  have relay := relay_of_run first
  have manned := (manned_of_run rfl first).1
  obtain ⟨told, ran⟩ := manned.effect taken
  have nothing : m.value? = none := by
    rw [value?, relay, ite_self]
  rw [told, ran, reaches?, nothing]
  rcases tells_of_relay relay with ⟨silent, quiet⟩ | ⟨e, v, listed, call, tells⟩
  · rw [silent, quiet]
    exact ⟨rfl, rfl⟩
  · obtain ⟨target, mode⟩ := (roster_of_run first).entries e listed
    have known := manned.told_known taken _ tells
    have whole : (modes (journal (front ++ m :: back)))[e.id]? = some e.mode := by
      have parts : journal (front ++ m :: back) = journal front ++ journal (m :: back) :=
        List.filterMap_append
      rw [parts, Channel.modes_append,
        List.getElem?_append_left (List.getElem?_eq_some_iff.1 mode).1, mode]
    rw [call, tells]
    simp only [Option.bind_some, Option.elim_some, Option.toList_some, List.flatMap_singleton,
      whole]
    rw [nameOf_later rest (target ▸ known), target]
    refine ⟨?_, rfl⟩
    cases takes : e.mode.takes v <;> simp [Telling.reaches?, takes, whole]

/-- What a listener does about a value from rule number `rule` on: the actions of this rule, if it
fires, and then the next rule. -/
def reaction (i before rule : Nat) (v : α) (l : Listener α (Action α)) : List (Task α) :=
  if rule < l.rules.length then
    ((l.fire rule before v).elim [] fun (acts, _) => acts.map .act) ++
      [.react i before (rule + 1) v]
  else []

theorem newTasks_react {b : Bench α} {i before rule : Nat} {v : α} {ts : List (Task α)}
    (agenda : b.agenda = .react i before rule v :: ts) :
    b.newTasks = (b.listeners[i]?).elim [] (reaction i before rule v) := by
  have taken : b.step = some (({ b with agenda := ts } : Bench α).react i before rule v) := by
    rw [step, agenda]
    rfl
  refine Machine.added_eq taken ?_
  rw [agenda, List.tail_cons, react]
  dsimp only
  cases b.listeners[i]? with
  | none => rfl
  | some l =>
    dsimp only [Option.elim_some]
    rw [reaction]
    split
    · cases l.fire rule before v with
      | none => rfl
      | some fired => simp [plan]
    · rfl

/-- The calls of a journal are those that the steps make. -/
theorem calls_journal (past : List (Bench α)) :
    (calls (journal past)).map (·.2) = past.flatMap fun m => m.call?.toList := by
  rw [Channel.calls_snd, journal, List.filterMap_filterMap, List.filterMap_eq_flatMap_toList]
  refine List.flatMap_congr fun m _ => ?_
  rw [call?_eq]
  cases m.operation? <;> rfl

/-! ## The law of delivery -/

/-- How a relay delivers, from the states that the bench has left behind and the one it is in.
Values are numbered by the emitting calls, and subscriptions by the subscribing calls, both from
zero. -/
structure DeliversInOrder (past : List (Bench α)) (b : Bench α) : Prop where
  ids : subscriptions (journal past) = List.range b.channel.nextId
  /-- Callbacks are run in the order of the values, and for one value in that of the ids. -/
  ascending :
    ((calls (journal past)).map fun x => (x.1, x.2.1)).Pairwise (Prod.Lex (· < ·) (· < ·))
  /-- A callback is given the value of that number. -/
  value : ∀ k id v, (k, id, v) ∈ calls (journal past) → (emissions (journal past))[k]? = some v
  /-- The listeners that the steps set to work are those that are called, except where a callback
  does not accept the value: in the same order, and each with the value of its call. -/
  ran : past.flatMap runs = ((calls (journal past)).map (·.2)).filter fun (id, v) =>
    ((modes (journal past))[id]?).any (·.takes v)
  /-- For each call it is noted that the callback was asked about the value, if it waits for the
  first accepted one, and that it heard it, if it does. Nothing else is noted of that kind. -/
  noted : past.flatMap toldNotes = ((calls (journal past)).map (·.2)).flatMap fun (id, v) =>
    ((modes (journal past))[id]?).elim [] fun mode => notesOf mode (b.nameOf id) none v
  /-- When a callback is run nothing is left to do of any call before. -/
  returned : ∀ m ∈ past, m.call?.isSome ∨ m.runs ≠ [] ∨ m.toldNotes ≠ [] → m.agenda = [.deliver]
  /-- A callback that is run goes through its rules. What a rule leads to is all done before the
  next rule is looked at, and all rules before anything else. -/
  reacts : ∀ m ∈ past, ∀ i before rule v ts, m.agenda = .react i before rule v :: ts →
    m.newTasks = (m.listeners[i]?).elim [] (reaction i before rule v)
  /-- A callback is run with a value exactly if it was there when the delivery began and is still
  active when its turn comes. -/
  called : ∀ k id, (∃ v, (k, id, v) ∈ calls (journal past)) ↔
    (∃ d, (deliveries (journal past))[k]? = some d ∧ id ∈ d.2) ∧
      (k, id, true) ∈ turnsTaken (journal past)
  /-- In a delivery that is over, everyone who was there when it began has had one turn. -/
  turns : ∀ k d, (deliveries (journal past))[k]? = some d →
    k + 1 < (deliveries (journal past)).length ∨ b.channel.turns = [] →
    ((turnsTaken (journal past)).filter (·.1 == k)).map (·.2.1) = d.2
  /-- No value is lost for those who are still active. -/
  complete : ∀ k d id, (deliveries (journal past))[k]? = some d →
    k + 1 < (deliveries (journal past)).length ∨ b.channel.turns = [] → id ∈ d.2 →
    b.channel.isActive id = true → ∃ v, (k, id, v) ∈ calls (journal past)
  /-- A call that starts a delivery is made from outside. -/
  outermost : ∀ m ∈ past, m.channel.delivering = false → m.agenda.length = 1
  /-- When it has returned, all that was emitted has been delivered. -/
  settled : b.agenda = [] →
    (deliveries (journal past)).map (·.1) = emissions (journal past) ∧
      b.channel.turns = [] ∧ b.channel.pending = [] ∧ b.channel.delivering = false

theorem delivers_in_order {past : List (Bench α)} {b : Bench α}
    (run : machine.Run (start (.relay .empty)) past b) : DeliversInOrder past b := by
  have law := (journal_of_run rfl run).1.law
  obtain ⟨orderly, orderlyPast⟩ := orderly_of_run run
  exact {
    ids := law.ids
    ascending := law.calls_ascending
    value := fun k id v h => law.call_values (k, id, v) h
    ran := by
      rw [calls_journal, List.filter_flatMap]
      exact List.flatMap_congr fun m hm => (shows_call run m hm).1
    noted := by
      rw [calls_journal, List.flatMap_assoc]
      exact List.flatMap_congr fun m hm => (shows_call run m hm).2
    returned := fun m hm acted => by
      have call : m.call?.isSome := by
        by_contra silent
        obtain ⟨ran, noted⟩ := shows_call run m hm
        rw [Option.not_isSome_iff_eq_none.1 silent] at ran noted
        rcases acted with call | runs | notes
        · exact silent call
        · exact runs ran
        · exact notes noted
      obtain ⟨ts, hts⟩ : ∃ ts, m.agenda = .deliver :: ts := by
        unfold call? at call
        split at call
        · exact ⟨_, ‹_›⟩
        · cases call
      exact (orderlyPast m hm).agenda_of_deliver hts
    reacts := fun m _ _ _ _ _ _ agenda => newTasks_react agenda
    called := law.called_iff
    turns := fun k d hd ended => law.turns_of_over hd ended
    complete := fun k d id hd ended hid active => law.called_of_active hd ended hid active
    outermost := fun m hm idle => by
      obtain ⟨s', taken⟩ := run.step_of_mem m hm
      obtain ⟨t, ts, new, stepped⟩ := step_spec taken
      have := ((orderlyPast m hm).idle idle).1
      rw [stepped.before, List.length_cons] at this ⊢
      omega
    settled := fun rest => by
      have idle : b.channel.delivering = false := by
        cases hd : b.channel.delivering with
        | false => rfl
        | true =>
          obtain ⟨top, htop, _⟩ := orderly.busy hd
          simp [rest] at htop
      obtain ⟨turns, pending⟩ := law.wellFormed.idle idle
      have values := law.values
      rw [pending, List.append_nil] at values
      exact ⟨values, turns, pending, idle⟩ }

/-- Emits a second value and lets another callback in when it hears the first one. -/
def onFirst : Rule Nat (Action Nat) :=
  ⟨fun _ v => v == 1, 1, [.emit 0 2, .subscribe 0 "late" []]⟩

/-- A callback that emits while it is run: both values reach both callbacks, one after the other,
and the second one reaches the callback that came in during the first delivery. -/
theorem delivers_in_order_nested : ∃ (past : List (Bench Nat)) (b : Bench Nat),
    machine.Run (start (.relay .empty)) past b ∧
    calls (journal past) = [(0, 0, 1), (0, 1, 1), (1, 0, 2), (1, 1, 2), (1, 2, 2)] ∧
    DeliversInOrder past b := by
  have begun : machine.Run (start (.relay .empty) : Bench Nat) [] (start (.relay .empty)) := .start
  have first := (begun.input (.subscribe 0 "first" [onFirst]) rfl).steps 2
  have second := (first.input (.subscribe 0 "second" []) rfl).steps 2
  have emitted := (second.input (.emit 0 1) rfl).steps 20
  refine ⟨_, _, emitted, ?_, delivers_in_order emitted⟩
  decide +kernel

end StandingQuery.Bench
