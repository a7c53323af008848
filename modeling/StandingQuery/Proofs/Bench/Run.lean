import StandingQuery.Proofs.Bench.Agenda

/-! Runs of a bench: they keep the journal of its channel. Only subscriptions that were made are
ever kept or given up. -/

namespace StandingQuery.Bench

open Channel (Operation Moment Journal)

variable {α : Type}

/-- Every subscription that is kept, or about to be, has been made. -/
structure Known (b : Bench α) : Prop where
  kept : ∀ name id, (name, some id) ∈ b.kept → id < b.channel.nextId
  keeping : ∀ name id, .keep name (some id) ∈ b.agenda → id < b.channel.nextId

/-- What is kept once a task is done. -/
def keptAfter (b : Bench α) : Task α → Named (Option Nat)
  | .act (.release _ name) => b.kept.erase name
  | .keep name id => b.kept.put name id
  | .act _ | .react _ _ _ _ | .deliver => b.kept

@[simp] theorem kept_release (b : Bench α) (id : Option Nat) : (b.release id).kept = b.kept := by
  cases id <;> rfl

theorem kept_act (b : Bench α) (a : Action α) : (b.act a).kept = b.keptAfter (.act a) := by
  have withHandle : ∀ {i : Nat} {f : Bench α → Bench α}, (f b).kept = b.kept →
      (b.withHandle i f).kept = b.kept := by
    intro i f hf
    unfold withHandle
    split
    · exact hf
    · rfl
  cases a with
  | emit i v => exact withHandle rfl
  | subscribe i name rules =>
    refine withHandle ?_
    unfold subscribe
    dsimp only
    split
    · exact kept_hear _ _ _
    · rfl
  | subscribeFirst i name accept rules =>
    refine withHandle ?_
    unfold subscribeFirst
    dsimp only
    split
    · split
      · exact kept_hear _ _ _
      · rfl
    · rfl
  | release how name =>
    rw [act, keptAfter]
    split
    · exact kept_release _ _
    · next absent => exact (Named.erase_of_get?_none absent).symm
  | inspect name =>
    rw [act]
    split <;> rfl
  | count i | clone i => exact withHandle rfl
  | dropHandle i => rfl

theorem kept_deliver (b : Bench α) : b.deliver.kept = b.kept := by
  unfold deliver
  dsimp only
  split
  · rfl
  · rfl
  · rfl
  · rw [kept_hear]
    split <;> rfl

theorem kept_perform (b : Bench α) (t : Task α) : (b.perform t).kept = b.keptAfter t := by
  cases t with
  | act a => exact b.kept_act a
  | react i before rule v => exact b.kept_react i before rule v
  | deliver => exact b.kept_deliver
  | keep name id =>
    rw [perform, keep]
    split
    · exact kept_release _ _
    · rfl

/-- Nothing is kept but what was kept or is put in its place now. -/
theorem mem_keptAfter {b : Bench α} {t : Task α} {p : String × Option Nat} (h : p ∈ b.keptAfter t) :
    p ∈ b.kept ∨ t = .keep p.1 p.2 := by
  cases t with
  | act a =>
    cases a with
    | release how name => exact .inl (Named.mem_of_mem_erase h)
    | _ => exact .inl h
  | react i before rule v => exact .inl h
  | deliver => exact .inl h
  | keep name id =>
    rcases Named.mem_of_mem_put h with h | rfl
    · exact .inl h
    · exact .inr rfl

/-! ## What is held -/

/-- What a cell that held `v` holds after an operation. -/
def leaves (o : Option (Operation α Nat)) (v : α) : α :=
  match o with
  | some (.emit w) => w
  | _ => v

@[simp] theorem held_release (b : Bench α) (id : Option Nat) :
    (b.release id).subject.held = b.subject.held := by
  cases id with
  | none => rfl
  | some id => exact b.subject.held_detach id

theorem leaves_releaseOperation (b : Bench α) (name : String) (v : α) :
    leaves (b.releaseOperation? name) v = v := by
  rw [releaseOperation?]
  cases (b.kept.get? name).join <;> rfl

theorem held_act (b : Bench α) (a : Action α) :
    (b.act a).subject.held = b.subject.held.map (leaves (b.actOperation? a)) := by
  have same {o : Option (Operation α Nat)} (h : ∀ v, leaves o v = v) :
      b.subject.held = b.subject.held.map (leaves o) := by
    rw [show leaves o = id from funext h, Option.map_id_fun, id]
  cases a with
  | emit i v =>
    rw [act, subject_withHandle, actOperation?]
    cases b.hasHandle i with
    | false => exact same fun _ => rfl
    | true => exact b.subject.held_put v
  | subscribe i name rules =>
    rw [act, subject_withHandle, actOperation?, subject_subscribe]
    cases b.hasHandle i with
    | false => exact same fun _ => rfl
    | true => exact (b.subject.held_subscribe _ _).trans (same fun _ => rfl)
  | subscribeFirst i name accept rules =>
    rw [act, subject_withHandle, actOperation?, subject_subscribeFirst]
    cases b.hasHandle i with
    | false => exact same fun _ => rfl
    | true =>
      cases b.subject.held.any accept with
      | true => exact same fun _ => rfl
      | false => exact (b.subject.held_subscribe _ _).trans (same fun _ => rfl)
  | release how name =>
    refine Eq.trans ?_ (same (b.leaves_releaseOperation name))
    rw [act]
    split
    · exact held_release _ _
    · rfl
  | inspect name =>
    refine Eq.trans ?_ (same fun _ => rfl)
    rw [act]
    split <;> rfl
  | count i | clone i =>
    refine Eq.trans ?_ (same fun _ => rfl)
    rw [act, subject_withHandle]
    split <;> rfl
  | dropHandle i => exact same fun _ => rfl

/-- Only what is put into a cell changes what it holds. -/
theorem held_perform (b : Bench α) (t : Task α) :
    (b.perform t).subject.held = b.subject.held.map (leaves (b.taskOperation? t)) := by
  have same {o : Option (Operation α Nat)} (h : ∀ v, leaves o v = v) :
      b.subject.held = b.subject.held.map (leaves o) := by
    rw [show leaves o = id from funext h, Option.map_id_fun, id]
  cases t with
  | act a => exact b.held_act a
  | react i before rule v =>
    rw [perform, subject_react]
    exact same fun _ => rfl
  | deliver =>
    rw [perform, subject_deliver, Subject.held_advance]
    exact same fun _ => rfl
  | keep name id =>
    refine Eq.trans ?_ (same (b.leaves_releaseOperation name))
    rw [perform, keep]
    split
    · exact held_release _ _
    · rfl

/-! ## One step -/

/-- What a step does: it takes `t` off the agenda, and puts `new` in front of the rest. -/
structure Stepped (b b' : Bench α) (t : Task α) (ts new : List (Task α)) : Prop where
  before : b.agenda = t :: ts
  after : b'.agenda = new ++ ts
  leads : Leads b t new
  channel : b'.channel = Bench.after b.channel (b.taskOperation? t)
  kept : b'.kept = b.keptAfter t
  held : b'.subject.held = b.subject.held.map (leaves (b.taskOperation? t))

theorem Leads.of_rest {b : Bench α} {rest new : List (Task α)} {t : Task α}
    (h : Leads { b with agenda := rest } t new) : Leads b t new := by
  cases h with
  | nothing ht same => exact .nothing ht same
  | started handle idle => exact .started handle idle
  | subscribed handle hh relay => exact .subscribed handle hh relay
  | awaiting handle hv => exact .awaiting handle hv
  | accepted hh hv => exact .accepted hh hv
  | reacted hnew => exact .reacted hnew
  | finished turn => exact .finished turn
  | turned turn hh => exact .turned turn hh

theorem step_spec {b b' : Bench α} (h : b.step = some b') : ∃ t ts new, Stepped b b' t ts new := by
  unfold step at h
  split at h
  · cases h
  · next t ts ht =>
    obtain rfl := Option.some.inj h
    obtain ⟨new, leads, hnew⟩ := agenda_perform { b with agenda := ts } t
    exact ⟨t, ts, new, ht, hnew, leads.of_rest, channel_perform { b with agenda := ts } t,
      kept_perform { b with agenda := ts } t,
      held_perform { b with agenda := ts } t⟩

theorem Stepped.operation {b b' : Bench α} {t : Task α} {ts new : List (Task α)}
    (h : Stepped b b' t ts new) : b.operation? = b.taskOperation? t := by
  rw [operation?, h.before]
  rfl

/-- A relay stays one. -/
theorem Stepped.relay {b b' : Bench α} {t : Task α} {ts new : List (Task α)}
    (h : Stepped b b' t ts new) (relay : b.subject.held = none) : b'.subject.held = none := by
  rw [h.held, relay, Option.map_none]

theorem Stepped.nextId_le {b b' : Bench α} {t : Task α} {ts new : List (Task α)}
    (h : Stepped b b' t ts new) : b.channel.nextId ≤ b'.channel.nextId := by
  rw [h.channel]
  cases b.taskOperation? t with
  | none => exact Nat.le_refl _
  | some o => exact b.channel.nextId_le_apply o

/-! ## Subscriptions that are kept have been made -/

theorem known_start (s : Subject α) : (start s).Known where
  kept := by simp [start]
  keeping := by simp [start]

/-- A task that is to keep a new subscription is led to by making it. -/
theorem Leads.keep {b : Bench α} {t : Task α} {new : List (Task α)} (h : Leads b t new)
    {name : String} {id : Nat} (hk : .keep name (some id) ∈ new) :
    id = b.channel.nextId ∧ ∃ mode i, b.taskOperation? t = some (.subscribe mode i) := by
  have notHeard : ∀ {heard : List (Task α)}, Heard heard → .keep name (some id) ∉ heard := by
    intro heard hh
    cases hh <;> simp
  cases h with
  | nothing _ _ | started _ _ | finished _ => simp at hk
  | subscribed handle hh _ =>
    rcases List.mem_append.1 hk with hk | hk
    · exact absurd hk (notHeard hh)
    · obtain ⟨_, this⟩ : _ ∧ id = b.channel.nextId := by simpa using hk
      exact ⟨this, _, _, by simp [taskOperation?, actOperation?, handle]; exact ⟨rfl, rfl⟩⟩
  | awaiting handle hv =>
    obtain ⟨_, this⟩ : _ ∧ id = b.channel.nextId := by simpa using hk
    exact ⟨this, _, _, by simp [taskOperation?, actOperation?, handle, hv]; exact ⟨rfl, rfl⟩⟩
  | accepted hh _ =>
    rcases List.mem_append.1 hk with hk | hk
    · exact absurd hk (notHeard hh)
    · simp at hk
  | reacted hnew =>
    rcases hnew _ hk with ⟨a, h⟩ | ⟨r, h⟩ <;> cases h
  | turned _ hh =>
    rcases List.mem_append.1 hk with hk | hk
    · exact absurd hk (notHeard hh)
    · simp at hk

theorem Known.step {b b' : Bench α} (h : b.Known) (hs : b.step = some b') : b'.Known := by
  obtain ⟨t, ts, new, stepped⟩ := step_spec hs
  have hle := stepped.nextId_le
  constructor
  · intro name id hp
    rcases mem_keptAfter (stepped.kept ▸ hp) with hp | rfl
    · exact Nat.lt_of_lt_of_le (h.kept name id hp) hle
    · exact Nat.lt_of_lt_of_le (h.keeping name id (stepped.before ▸ List.mem_cons_self)) hle
  · intro name id hp
    rw [stepped.after, List.mem_append] at hp
    rcases hp with hp | hp
    · obtain ⟨rfl, mode, i, ho⟩ := stepped.leads.keep hp
      rw [stepped.channel, ho]
      exact Nat.lt_succ_self _
    · have hp := stepped.before ▸ List.mem_cons_of_mem t hp
      exact Nat.lt_of_lt_of_le (h.keeping name id hp) hle

/-- Nothing but a subscription that was made is ever given up. -/
theorem Known.operation_valid {b : Bench α} (h : b.Known) {o : Operation α Nat}
    (ho : b.operation? = some o) : o.Valid b.channel := by
  have release : ∀ name, b.releaseOperation? name = some o → o.Valid b.channel := by
    intro name hr
    obtain ⟨id, hid, rfl⟩ := Option.map_eq_some_iff.1 hr
    exact h.kept name id (Named.mem_of_get? (Option.join_eq_some_iff.1 hid))
  obtain ⟨t, _, ht⟩ := Option.bind_eq_some_iff.1 ho
  cases t with
  | act a =>
    cases a with
    | release how name => exact release name ht
    | emit _ _ | subscribe _ _ _ =>
      simp only [taskOperation?, actOperation?, Option.ite_none_right_eq_some] at ht
      obtain ⟨_, ⟨⟩⟩ := ht
      trivial
    | subscribeFirst _ _ _ _ =>
      simp only [taskOperation?, actOperation?, Option.ite_none_right_eq_some,
        Option.ite_none_left_eq_some] at ht
      obtain ⟨_, _, ⟨⟩⟩ := ht
      trivial
    | inspect | count | clone | dropHandle => cases ht
  | keep name id => exact release name ht
  | deliver =>
    cases ht
    trivial
  | react i before rule v => cases ht

theorem journal_append (past : List (Bench α)) (b : Bench α) :
    journal (past ++ [b]) =
      journal past ++ (b.operation?.map (Moment.mk b.channel)).toList := by
  cases h : b.operation? <;> simp [journal, h]

/-- **A run of a bench keeps the journal of its channel.** -/
theorem journal_of_run {s : Subject α} (hs : s.channel = .empty) {past : List (Bench α)}
    {b : Bench α}
    (run : machine.Run (start s) past b) : Journal (journal past) b.channel ∧ b.Known := by
  induction run with
  | start => exact ⟨by rw [start, channel, hs]; exact .empty, known_start s⟩
  | input a _ _ ih => exact ⟨ih.1, ih.2.kept, by simp [machine]⟩
  | @step past b b' _ taken ih =>
    obtain ⟨t, ts, new, stepped⟩ := step_spec taken
    refine ⟨?_, ih.2.step taken⟩
    rw [stepped.channel, ← stepped.operation, journal_append]
    cases ho : b.operation? with
    | none => simpa [after] using ih.1
    | some o => simpa [after] using ih.1.next (ih.2.operation_valid ho)

end StandingQuery.Bench
