import StandingQuery.Proofs.Bench.Reception

/-! A callback for the first accepted value is run once at most, with the first value that it
accepts of those that it is told. On a cell the value held is asked about before anything else; if
it is accepted, the callback is run at once and nothing is put into the registry. Otherwise it waits
in the registry, and by the time it is run it has left. -/

namespace StandingQuery.Bench

open Channel (Operation Moment Awaited toldTo releases emissions)

variable {α : Type}

/-! ## Over a run -/

/-- **A subscription for the first accepted value goes on until that value comes.** -/
theorem awaited_of_run {m b : Bench α} {past : List (Bench α)} (run : machine.Run m past b)
    (wellFormed : m.channel.WellFormed) (books : m.Known) {id i : Nat} {accept : α → Bool}
    (awaited : Awaited id accept i [] [] [] m.channel) (known : i < m.listeners.length) :
    b.channel.WellFormed ∧ b.Known ∧ i < b.listeners.length ∧
      Awaited id accept i (heardBy id past) (dueTo i past) (releases (journal past))
        b.channel := by
  induction run with
  | start => exact ⟨wellFormed, books, known, awaited⟩
  | input a _ _ ih =>
    obtain ⟨wellFormed, books, known, awaited⟩ := ih
    exact ⟨wellFormed, ⟨books.kept, by simp [machine]⟩, known, awaited⟩
  | @step past b b' _ taken ih =>
    obtain ⟨wellFormed, books, known, awaited⟩ := ih
    obtain ⟨t, ts, new, stepped⟩ := step_spec taken
    have later := Nat.lt_of_lt_of_le known (listeners_le taken)
    have channel : b'.channel = after b.channel b.operation? := by
      rw [stepped.channel, stepped.operation]
    rw [heardBy_append, heardBy_singleton, toldTo_hears? awaited.made, call?_eq, dueTo_append,
      dueTo_singleton, toldTo_reaches? known, journal_append]
    cases operation : b.operation? with
    | none =>
      rw [operation] at channel
      have same : b'.channel = b.channel := channel
      simp only [same, Option.bind_none, Option.map_none, Option.toList_none, List.append_nil]
      exact ⟨wellFormed, books.step taken, later, by simpa [toldTo] using awaited⟩
    | some o =>
      rw [operation] at channel
      have applied : b'.channel = b.channel.apply o := channel
      have other : ∀ mode, o ≠ .subscribe mode i := by
        rintro mode rfl
        exact absurd (subscribe_spec taken operation).1 (Nat.ne_of_lt known)
      have more := awaited.next wellFormed o other
      rw [← applied] at more
      refine ⟨applied ▸ wellFormed.apply (books.operation_valid operation), books.step taken, later,
        ?_⟩
      rw [Option.map_some, Option.toList_some, Channel.releases_append]
      exact more

/-- What holds of every run from then on holds at every moment of this one. -/
theorem awaited_meanwhile {m b : Bench α} {past : List (Bench α)} (run : machine.Run m past b)
    (wellFormed : m.channel.WellFormed) (books : m.Known) {id i : Nat} {accept : α → Bool}
    (awaited : Awaited id accept i [] [] [] m.channel) (known : i < m.listeners.length) :
    ∀ n ∈ past, n.channel.WellFormed ∧ i < n.listeners.length ∧
      ∃ told reached released, Awaited id accept i told reached released n.channel := by
  intro n hn
  obtain ⟨front, back, parts⟩ := List.append_of_mem hn
  obtain ⟨_, before, _, _⟩ := run.split parts
  obtain ⟨wellFormed, _, known, awaited⟩ := awaited_of_run before wellFormed books awaited known
  exact ⟨wellFormed, known, _, _, _, awaited⟩

/-- Nobody hears anything to whom no entry leads. -/
theorem dueTo_of_unlisted {m b : Bench α} {past : List (Bench α)} (run : machine.Run m past b)
    {i : Nat} (known : i < m.listeners.length) (unlisted : ∀ e ∈ m.channel.listed, e.target ≠ i) :
    i < b.listeners.length ∧ (∀ e ∈ b.channel.listed, e.target ≠ i) ∧ dueTo i past = [] := by
  induction run with
  | start => exact ⟨known, unlisted, rfl⟩
  | input a _ _ ih => exact ih
  | @step past b b' _ taken ih =>
    obtain ⟨known, unlisted, silent⟩ := ih
    refine ⟨Nat.lt_of_lt_of_le known (listeners_le taken), fun e he => ?_, ?_⟩
    · rcases listed_of_step taken he with he | ⟨_, new⟩
      · exact unlisted e he
      · rw [new]
        exact Nat.ne_of_gt known
    · rw [dueTo_append, silent, dueTo_singleton, List.nil_append]
      refine Channel.toldTo_eq_nil fun x hx hi => ?_
      rcases reaches?_spec (i := x.1) (v := x.2) (Option.mem_toList.1 hx) with ⟨_, turn⟩ | ⟨new, _⟩
      · obtain ⟨e, turns, ht⟩ := b.channel.advances.reaches_spec turn
        exact unlisted e (Channel.listed_of_turn turns) (ht.trans hi)
      · omega

/-! ## Single steps -/

theorem agenda_deliver_called {b : Bench α} {e : Entry α Nat} {v : α}
    (turn : b.subject.advance.1 = .called e v) {l : Listener α (Action α)}
    (there : b.listeners[e.target]? = some l) :
    b.deliver.agenda = .react e.target l.heard 0 v :: .deliver :: b.agenda := by
  unfold deliver
  dsimp only
  rw [turn]
  cases mode : e.mode <;> simp [hear, there, plan, note, mode]

/-- Where it is told something, that is its entry's turn. -/
theorem turn_of_call {n : Bench α} {id i : Nat} {accept : α → Bool} {told reached : List α}
    {released : List Nat} (awaited : Awaited id accept i told reached released n.channel) {v : α}
    (call : n.call? = some (id, v)) :
    n.channel.isActive id = true ∧ ∃ ts rest, n.agenda = .deliver :: ts ∧
      n.channel.turns = (⟨id, .first accept, i⟩, v) :: rest := by
  unfold call? at call
  split at call
  · next ts agenda =>
    rw [n.subject.turn_advance] at call
    have ha := n.channel.advances
    refine ⟨ha.isActive_of_call? call, ts, ?_⟩
    have own {e : Entry α Nat} {w : α} {rest : List (Entry α Nat × α)}
        (turns : n.channel.turns = (e, w) :: rest) (called : some (e.id, w) = some (id, v)) :
        ∃ rest, n.agenda = .deliver :: ts ∧
          n.channel.turns = (⟨id, .first accept, i⟩, v) :: rest := by
      obtain ⟨hid, rfl⟩ := Prod.mk.inj (Option.some.inj called)
      rcases awaited.own_or_other (turns ▸ List.mem_cons_self) with same | ⟨other, _⟩
      · exact ⟨rest, agenda, same ▸ turns⟩
      · exact absurd hid other
    generalize n.channel.advance.1 = t at ha call
    generalize n.channel.advance.2 = c at ha
    cases ha with
    | heard turns _ _ | taken turns _ _ _ | refused turns _ _ _ => exact own turns call
    | passed _ _ | begun _ _ | finished _ _ => cases call
  · cases call

theorem step_deliver {n : Bench α} {ts : List (Task α)} (agenda : n.agenda = .deliver :: ts)
    {t : Turn α Nat} {c : Channel α Nat} (turn : Channel.Advances n.channel t c) :
    n.step = some ({ n with agenda := ts } : Bench α).deliver ∧
      ({ n with agenda := ts } : Bench α).deliver.channel = c ∧
      ({ n with agenda := ts } : Bench α).subject.advance.1 = t := by
  refine ⟨by rw [step, agenda]; rfl, ?_, ?_⟩
  · exact (channel_perform { n with agenda := ts } .deliver).trans (congrArg Prod.snd turn.eq)
  · exact (n.subject.turn_advance).trans (congrArg Prod.fst turn.eq)

/-- A value that is not accepted leaves the registry as it is. -/
theorem refuses_of_call {n : Bench α} {id i : Nat} {accept : α → Bool} {told reached : List α}
    {released : List Nat} (awaited : Awaited id accept i told reached released n.channel) {v : α}
    (call : n.call? = some (id, v)) (rejected : accept v = false) :
    ∃ n', n.step = some n' ∧ n'.channel.entries = n.channel.entries ∧
      n'.channel.isActive id = true := by
  obtain ⟨active, ts, rest, agenda, turns⟩ := turn_of_call awaited call
  obtain ⟨taken, channel, _⟩ := step_deliver agenda (.refused turns active rfl rejected)
  exact ⟨_, taken, by rw [channel], by rw [channel]; exact active⟩

/-- With a value that is accepted the subscription ends, and then the callback is run. -/
theorem accepts_of_call {n : Bench α} {id i : Nat} {accept : α → Bool} {told reached : List α}
    {released : List Nat} (awaited : Awaited id accept i told reached released n.channel)
    (wellFormed : n.channel.WellFormed) (known : i < n.listeners.length) {v : α}
    (call : n.call? = some (id, v)) (accepted : accept v = true) :
    ∃ n', n.step = some n' ∧ n'.channel.isActive id = false ∧
      n'.channel.count + 1 = n.channel.count ∧
        ∃ before, n'.agenda = .react i before 0 v :: n.agenda := by
  obtain ⟨active, ts, rest, agenda, turns⟩ := turn_of_call awaited call
  obtain ⟨taken, channel, turn⟩ := step_deliver agenda (.taken turns active rfl accepted)
  refine ⟨_, taken, by rw [channel]; simp, ?_, ?_⟩
  · rw [channel]
    exact (wellFormed.withTurns (turns ▸ List.sublist_cons_self _ _)).count_detach active
  · have there := List.getElem?_eq_getElem known
    exact ⟨_, agenda ▸ agenda_deliver_called turn there⟩

/-! ## What becomes of a callback for the first accepted value -/

/-- The callback `i` is run at once, when the value held is accepted at the moment `m`. -/
structure TakesHeld (i : Nat) (name : String) (v : α) (earlier : List (Bench α)) (m : Bench α)
    (later : List (Bench α)) : Prop where
  /-- It is run before the call returns; what is kept then is no subscription, and the registry is
  as it was. -/
  atOnce : ∃ m', m.step = some m' ∧ m'.channel = m.channel ∧
    m'.agenda = .react i 0 0 v :: .keep name none :: m.agenda.tail
  once : reachedBy i (earlier ++ m :: later) = [v]

/-- The callback `i` waits in the registry, under the id that is given at the moment `m`. -/
structure TakesFirst (i : Nat) (name : String) (accept : α → Bool) (earlier : List (Bench α))
    (m : Bench α) (later : List (Bench α)) (b : Bench α) : Prop where
  registers : ∃ m', m.step = some m' ∧ m'.channel = m.channel.subscribe (.first accept) i ∧
    m'.agenda = .keep name (some m.channel.nextId) :: m.agenda.tail
  /-- It is told what waits then and what is emitted afterwards, for as long as it stays. -/
  told : HearsFromThenOn m.channel.nextId m later b (heardBy m.channel.nextId later)
  /-- It is run with the first value that it accepts of those it is told, and with no other. -/
  first : reachedBy i (earlier ++ m :: later) =
    ((heardBy m.channel.nextId later).find? accept).toList
  /-- It is told nothing after that. -/
  last : ∀ v ∈ (heardBy m.channel.nextId later).dropLast, accept v = false
  /-- The subscription goes on until then, unless it is given up before. -/
  active : b.channel.isActive m.channel.nextId = true ↔
    (∀ v ∈ heardBy m.channel.nextId later, accept v = false) ∧
      m.channel.nextId ∉ releases (journal later)
  registered : b.channel.isActive m.channel.nextId = true →
    ⟨m.channel.nextId, .first accept, i⟩ ∈ b.channel.entries
  gone : b.channel.isActive m.channel.nextId = false →
    ∀ e ∈ b.channel.entries, e.id ≠ m.channel.nextId
  /-- A value that is not accepted leaves the registry as it is. -/
  refuses : ∀ n ∈ later, ∀ v, n.call? = some (m.channel.nextId, v) → accept v = false →
    ∃ n', n.step = some n' ∧ n'.channel.entries = n.channel.entries ∧
      n'.channel.isActive m.channel.nextId = true
  /-- With the value that is accepted the subscription ends, and then the callback is run. -/
  accepts : ∀ n ∈ later, ∀ v, n.call? = some (m.channel.nextId, v) → accept v = true →
    ∃ n', n.step = some n' ∧ n'.channel.isActive m.channel.nextId = false ∧
      n'.channel.count + 1 = n.channel.count ∧ ∃ before, n'.agenda = .react i before 0 v :: n.agenda

/-! ## The moment of subscribing -/

section
variable {m : Bench α} {h : Nat} {name : String} {accept : α → Bool}
  {rules : List (Rule α (Action α))}
  {ts : List (Task α)}

theorem step_subscribeFirst (asks : m.agenda = .act (.subscribeFirst h name accept rules) :: ts)
    (handle : m.hasHandle h = true) :
    m.step = some (({ m with agenda := ts } : Bench α).subscribeFirst name accept rules) := by
  have there : ({ m with agenda := ts } : Bench α).hasHandle h = true := handle
  rw [step, asks]
  simp only [perform, act, withHandle, there, if_true]

/-- A value held that is accepted. -/
theorem atOnce (asks : m.agenda = .act (.subscribeFirst h name accept rules) :: ts)
    (handle : m.hasHandle h = true) {v : α} (held : m.subject.held = some v)
    (accepted : accept v = true) :
    ∃ m', m.step = some m' ∧ m'.channel = m.channel ∧
      m'.agenda = .react m.listeners.length 0 0 v :: .keep name none :: m.agenda.tail := by
  refine ⟨_, step_subscribeFirst asks handle, ?_, ?_⟩
  · rw [channel, subject_subscribeFirst]
    simp [held, accepted]
  · simp [subscribeFirst, addListener, held, accepted, hear, note, plan, Listener.named, asks]

/-- Nothing is held, or it is not accepted. -/
theorem registers (asks : m.agenda = .act (.subscribeFirst h name accept rules) :: ts)
    (handle : m.hasHandle h = true) (waits : m.subject.held.any accept = false) :
    ∃ m', m.step = some m' ∧ m'.channel = m.channel.subscribe (.first accept) m.listeners.length ∧
      m'.agenda = .keep name (some m.channel.nextId) :: m.agenda.tail := by
  refine ⟨_, step_subscribeFirst asks handle, ?_, ?_⟩
  · rw [channel, subject_subscribeFirst, if_neg (by simp [waits])]
    exact m.subject.channel_subscribe _ _
  · cases held : m.subject.held with
    | none => simp [subscribeFirst, addListener, register, held, plan, asks]
    | some v =>
      have rejected : accept v = false := by simpa [held] using waits
      simp [subscribeFirst, addListener, register, held, rejected, note, plan, asks]

end

/-! ## The law -/

theorem registered_of_awaited {b : Bench α} {id i : Nat} {accept : α → Bool} {told reached : List α}
    {released : List Nat} (awaited : Awaited id accept i told reached released b.channel)
    (wellFormed : b.channel.WellFormed) :
    (b.channel.isActive id = true → ⟨id, .first accept, i⟩ ∈ b.channel.entries) ∧
      (b.channel.isActive id = false → ∀ e ∈ b.channel.entries, e.id ≠ id) := by
  constructor
  · intro active
    obtain ⟨e, he, hid⟩ := wellFormed.exists_entry active
    exact awaited.own e (Channel.listed_of_entry he) (.inl hid) ▸ he
  · rintro ended e he rfl
    exact absurd (wellFormed.mem_entries_isActive he) (by simp [ended])

/-- On a relay or a cell, whatever other listeners do. -/
theorem takes_first {s : Subject α} (hs : s.channel = .empty) {earlier later : List (Bench α)}
    {m b : Bench α} (run : machine.Run (start s) (earlier ++ m :: later) b) {h : Nat}
    {name : String} {accept : α → Bool} {rules : List (Rule α (Action α))} {ts : List (Task α)}
    (asks : m.agenda = .act (.subscribeFirst h name accept rules) :: ts)
    (handle : m.hasHandle h = true) :
    (∀ v, m.subject.held = some v → accept v = true →
        TakesHeld m.listeners.length name v earlier m later) ∧
      (m.subject.held.any accept = false →
        TakesFirst m.listeners.length name accept earlier m later b) := by
  obtain ⟨m', first, taken, rest⟩ := run.split rfl
  obtain ⟨journal, books⟩ := journal_of_run hs first
  have wellFormed := journal.law.wellFormed
  have manned := (manned_of_run hs first).1
  have books' := books.step taken
  have new : ∀ e ∈ m.channel.listed, e.target ≠ m.listeners.length :=
    fun e he => Nat.ne_of_lt (manned e he)
  have known : m.listeners.length < m'.listeners.length := by
    have adds : m.agenda.head?.bind m.taskAdds? = some name := by
      rw [asks]
      exact if_pos handle
    rw [← m'.length_names, (tells_step taken).named, adds, List.length_append, length_names]
    exact Nat.lt_succ_self _
  have parts : reachedBy m.listeners.length (earlier ++ m :: later) =
      toldTo m.listeners.length m.reaches?.toList ++ dueTo m.listeners.length later := by
    rw [reachedBy_eq hs run, ← List.singleton_append, dueTo_append, dueTo_append, dueTo_singleton,
      dueTo_of_unknown hs first (Nat.le_refl _), List.nil_append]
  have now : m.reaches? = (m.subject.held.filter accept).map (m.listeners.length, ·) := by
    rw [reaches?, tells?, asks, List.head?_cons, Option.bind_some, taskTells?, if_pos handle]
    cases m.subject.held with
    | none => rfl
    | some v => cases hv : accept v <;> simp [Telling.reaches?, Mode.takes, Option.filter, hv]
  constructor
  · intro v held accepted
    obtain ⟨n, taken', channel, agenda⟩ := atOnce asks handle held accepted
    obtain rfl : m' = n := Option.some.inj (taken.symm.trans taken')
    refine ⟨⟨m', taken, channel, agenda⟩, ?_⟩
    have silent := (dueTo_of_unlisted rest known (channel ▸ new)).2.2
    rw [parts, silent, now, held, Option.filter_some_pos accepted]
    simp [toldTo]
  · intro waits
    obtain ⟨n, taken', channel, agenda⟩ := registers asks handle waits
    obtain rfl : m' = n := Option.some.inj (taken.symm.trans taken')
    have start : Awaited m.channel.nextId accept m.listeners.length [] [] [] m'.channel := by
      rw [channel]
      exact .subscribed wellFormed accept new
    have wellFormed' : m'.channel.WellFormed := channel ▸ wellFormed.subscribe _ _
    have joins : m.joins? = some m.channel.nextId := by
      simp [joins?, operation?, asks, taskOperation?, actOperation?, handle, waits,
        Moment.subscribed?]
    have silent : m.reaches? = none := by
      have unaccepted : m.subject.held.filter accept = none := by
        simpa using (Option.any_eq_false _ _).1 waits
      rw [now, unaccepted]
      rfl
    have meanwhile := awaited_meanwhile rest wellFormed' books' start known
    obtain ⟨wf, _, _, awaited⟩ := awaited_of_run rest wellFormed' books' start known
    obtain ⟨registered, gone⟩ := registered_of_awaited awaited wf
    exact {
      registers := ⟨m', taken, channel, agenda⟩
      told := hears_from_then_on hs run joins
      first := by
        rw [parts, silent]
        exact awaited.reached
      last := awaited.last
      active := awaited.active
      registered := registered
      gone := gone
      refuses := fun n hn v call rejected => by
        obtain ⟨_, _, _, _, _, awaited⟩ := meanwhile n hn
        exact refuses_of_call awaited call rejected
      accepts := fun n hn v call accepted => by
        obtain ⟨wf, there, _, _, _, awaited⟩ := meanwhile n hn
        exact accepts_of_call awaited wf there call accepted }

def isEven (v : Nat) : Bool := v % 2 == 0

/-- Emits another value that is accepted, and subscribes once more. -/
def againOnce : Rule Nat (Action Nat) :=
  ⟨fun _ _ => true, 1, [.emit 0 4, .subscribeFirst 0 "again" isEven []]⟩

/-- A callback that emits an accepted value while it is run and comes in again under another name:
on a relay it is told two values and run with the second, on a cell it is run with the value held.
The value it emits reaches the one that has come in only. -/
theorem takes_first_reentrant :
    (∃ (m : Bench Nat) (later : List (Bench Nat)) (b : Bench Nat),
      machine.Run (start (.relay .empty)) ([] ++ m :: later) b ∧
      heardBy 0 later = [1, 2] ∧ reachedBy 0 ([] ++ m :: later) = [2] ∧
      reachedBy 1 ([] ++ m :: later) = [4] ∧ TakesFirst 0 "once" isEven [] m later b) ∧
    ∃ (m : Bench Nat) (later : List (Bench Nat)) (b : Bench Nat),
      machine.Run (start (.cell (.holding 2))) ([] ++ m :: later) b ∧
      reachedBy 1 ([] ++ m :: later) = [4] ∧ TakesHeld 0 "once" 2 [] m later := by
  constructor
  · have begun : machine.Run (start (.relay .empty) : Bench Nat) [] _ := .start
    have asked := (begun.input (.subscribeFirst 0 "once" isEven [againOnce]) rfl).steps 4
    have refused := (asked.input (.emit 0 1) rfl).steps 10
    have accepted := (refused.input (.emit 0 2) rfl).steps 30
    have told := accepted.at (n := 0) (by decide +kernel)
    refine ⟨_, _, _, told, ?_, ?_, ?_, (takes_first rfl told rfl ?_).2 ?_⟩
    all_goals decide +kernel
  · have begun : machine.Run (start (.cell (.holding 2)) : Bench Nat) [] _ := .start
    have asked := (begun.input (.subscribeFirst 0 "once" isEven [againOnce]) rfl).steps 40
    have told := asked.at (n := 0) (by decide +kernel)
    refine ⟨_, _, _, told, ?_, (takes_first rfl told rfl ?_).1 2 ?_ ?_⟩
    all_goals decide +kernel

end StandingQuery.Bench
