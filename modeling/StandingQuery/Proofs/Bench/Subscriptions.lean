import Mathlib.Data.List.ReduceOption
import StandingQuery.Proofs.Bench.Run
import StandingQuery.Proofs.Channel.Ending

/-! The subscriptions of a bench and the registry of its channel. A subscription is there from the
call that makes it until it is given up: kept under its name, or on the agenda to be kept once the
call is over. The registry has one entry for each of them that is active and no other entry, inside
the calls that an action leads to as well as after them. -/

namespace StandingQuery.Bench

open Channel (Operation Continues)

variable {α : Type}

/-! ## The subscriptions there are -/

/-- The subscription that a task is to keep. -/
def Task.keeps? : Task α → Option (Option Nat)
  | .keep _ id => some id
  | .act _ | .react _ _ _ _ | .deliver => none

/-- The subscriptions that are about to be kept. -/
def keeping (b : Bench α) : List (Option Nat) := b.agenda.filterMap Task.keeps?

/-- The subscriptions there are, each once. Those that never were in the registry have no id. -/
def existing (b : Bench α) : List (Option Nat) := b.kept.map (·.2) ++ b.keeping

/-- The subscription that a task makes. -/
def makes? (b : Bench α) : Task α → Option (Option Nat)
  | .act (.subscribe h _ _) => if b.hasHandle h then some (some b.channel.nextId) else none
  | .act (.subscribeFirst h _ accept _) =>
    if b.hasHandle h then
      some (if b.subject.held.any accept then none else some b.channel.nextId)
    else none
  | .act _ | .react _ _ _ _ | .deliver | .keep _ _ => none

/-- The subscription that a task gives up, if there is one under the name. -/
def drops? (b : Bench α) : Task α → Option (Option Nat)
  | .act (.release _ name) | .keep name _ => b.kept.get? name
  | .act _ | .react _ _ _ _ | .deliver => none

/-! ## What a task makes is about to be kept -/

@[simp] theorem keeping_note (b : Bench α) (n : Note α) : (b.note n).keeping = b.keeping := rfl

@[simp] theorem keeping_plan (b : Bench α) (ts : List (Task α)) :
    (b.plan ts).keeping = ts.filterMap Task.keeps? ++ b.keeping :=
  List.filterMap_append

@[simp] theorem keeping_release (b : Bench α) (id : Option Nat) :
    (b.release id).keeping = b.keeping := by
  cases id <;> rfl

@[simp] theorem keeping_hear (b : Bench α) (i : Nat) (v : α) :
    (b.hear i v).keeping = b.keeping := by
  unfold hear
  split
  · rfl
  · exact keeping_plan _ _

theorem keeping_react (b : Bench α) (i before rule : Nat) (v : α) :
    (b.react i before rule v).keeping = b.keeping := by
  obtain ⟨new, agenda, reacted⟩ := b.agenda_react i before rule v
  have nothing : new.filterMap Task.keeps? = [] := List.filterMap_eq_nil_iff.2 fun t ht => by
    rcases reacted t ht with ⟨a, rfl⟩ | ⟨r, rfl⟩ <;> rfl
  rw [keeping, agenda, List.filterMap_append, nothing]
  rfl

theorem keeping_deliver (b : Bench α) : b.deliver.keeping = b.keeping := by
  unfold deliver
  dsimp only
  split
  · rfl
  · rfl
  · rfl
  · rw [keeping_hear]
    split <;> rfl

theorem keeping_subscribe (b : Bench α) (name : String) (rules : List (Rule α (Action α))) :
    (b.subscribe name rules).keeping = some b.channel.nextId :: b.keeping := by
  unfold subscribe
  dsimp only
  split
  · exact keeping_hear _ _ _
  · rfl

theorem keeping_subscribeFirst (b : Bench α) (name : String) (accept : α → Bool)
    (rules : List (Rule α (Action α))) : (b.subscribeFirst name accept rules).keeping =
      (if b.subject.held.any accept then none else some b.channel.nextId) :: b.keeping := by
  unfold subscribeFirst
  dsimp only [addListener]
  cases b.subject.held with
  | none => rfl
  | some v =>
    dsimp only [Option.any_some]
    by_cases accepted : accept v = true
    · rw [if_pos accepted, if_pos accepted]
      exact keeping_hear _ _ _
    · rw [if_neg accepted, if_neg accepted]
      rfl

theorem keeping_act (b : Bench α) (a : Action α) :
    (b.act a).keeping = (b.makes? (.act a)).toList ++ b.keeping := by
  have withHandle {i : Nat} {f : Bench α → Bench α} {made : Option Nat}
      (hf : (f b).keeping = made :: b.keeping) : (b.withHandle i f).keeping =
        (if b.hasHandle i then some made else none).toList ++ b.keeping := by
    unfold withHandle
    split
    · exact hf
    · rfl
  cases a with
  | subscribe i name rules => exact withHandle (b.keeping_subscribe name rules)
  | subscribeFirst i name accept rules =>
    exact withHandle (b.keeping_subscribeFirst name accept rules)
  | emit i v =>
    rw [act, Bench.withHandle]
    split
    · rw [emit, keeping_plan]
      split <;> rfl
    · rfl
  | release how name =>
    rw [act]
    split
    · exact keeping_release _ _
    · rfl
  | inspect name =>
    rw [act]
    split <;> rfl
  | count i | clone i =>
    rw [act, Bench.withHandle]
    split <;> rfl
  | dropHandle i => rfl

theorem keeping_perform (b : Bench α) (t : Task α) :
    (b.perform t).keeping = (b.makes? t).toList ++ b.keeping := by
  cases t with
  | act a => exact b.keeping_act a
  | react i before rule v => exact b.keeping_react i before rule v
  | deliver => exact b.keeping_deliver
  | keep name id =>
    rw [perform, keep]
    split
    · exact keeping_release _ _
    · rfl

/-! ## The balance of a step -/

theorem perm_found {t : Named (Option Nat)} (h : t.OnePerName) (name : String) :
    ((t.get? name).toList ++ (t.erase name).map (·.2)).Perm (t.map (·.2)) := by
  cases found : t.get? name with
  | none => exact .of_eq (by rw [Named.erase_of_get?_none found]; rfl)
  | some a => exact ((h.perm_erase found).map (·.2)).symm

theorem perm_keptAfter {b : Bench α} (h : b.kept.OnePerName) (t : Task α) :
    ((b.drops? t).toList ++ (b.keptAfter t).map (·.2)).Perm
      (t.keeps?.toList ++ b.kept.map (·.2)) := by
  cases t with
  | act a =>
    cases a with
    | release how name => exact perm_found h name
    | _ => exact .refl _
  | react i before rule v => exact .refl _
  | deliver => exact .refl _
  | keep name id =>
    rw [keptAfter, Named.put, List.map_append, ← List.append_assoc]
    exact List.perm_append_comm.trans ((perm_found h name).append_left [id])

/-- What there is after a step, with what the step gives up, is what there was and what it makes. -/
theorem Stepped.balance {b b' : Bench α} {t : Task α} {ts new : List (Task α)}
    (h : Stepped b b' t ts new) (taken : b.step = some b') (single : b.kept.OnePerName) :
    ((b.drops? t).toList ++ b'.existing).Perm ((b.makes? t).toList ++ b.existing) := by
  have keeping : b'.keeping = (b.makes? t).toList ++ ts.filterMap Task.keeps? := by
    rw [step, h.before] at taken
    obtain rfl := Option.some.inj taken
    exact keeping_perform { b with agenda := ts } t
  have before : b.keeping = t.keeps?.toList ++ ts.filterMap Task.keeps? := by
    rw [Bench.keeping, h.before]
    cases t <;> rfl
  refine List.perm_iff_count.2 fun id => ?_
  have kept := (perm_keptAfter single t).count_eq id
  rw [List.count_append, List.count_append] at kept
  simp only [existing, h.kept, keeping, before, List.count_append]
  omega

/-- What is made under an id is made under the next one. -/
theorem id_of_makes? {b : Bench α} {t : Task α} {id : Nat} (h : b.makes? t = some (some id)) :
    id = b.channel.nextId := by
  unfold makes? at h
  split at h
  · simp_all
  · simp_all
  · cases h
  all_goals cases h

theorem makes?_of_subscribe {b : Bench α} {t : Task α} {mode : Mode α} {i : Nat}
    (h : b.taskOperation? t = some (.subscribe mode i)) :
    b.makes? t = some (some b.channel.nextId) := by
  have release : ∀ name, b.releaseOperation? name ≠ some (.subscribe mode i) := by
    intro name hr
    obtain ⟨id, _, hid⟩ := Option.map_eq_some_iff.1 hr
    cases hid
  cases t with
  | act a =>
    cases a with
    | subscribe h' name rules =>
      simp only [taskOperation?, actOperation?, Option.ite_none_right_eq_some] at h
      simp [makes?, h.1]
    | subscribeFirst h' name accept rules =>
      simp only [taskOperation?, actOperation?, Option.ite_none_right_eq_some,
        Option.ite_none_left_eq_some] at h
      simp [makes?, h.1, h.2.1]
    | emit _ _ => simp [taskOperation?, actOperation?] at h
    | release how name => exact absurd h (release name)
    | inspect | count | clone | dropHandle => cases h
  | keep name id => exact absurd h (release name)
  | deliver | react _ _ _ _ => cases h

theorem operation_of_drops? {b : Bench α} {t : Task α} {id : Nat}
    (h : b.drops? t = some (some id)) :
    b.taskOperation? t = some (.detach id) := by
  have release : ∀ {name}, b.kept.get? name = some (some id) →
      b.releaseOperation? name = some (.detach id) := by
    intro name found
    rw [releaseOperation?, found]
    rfl
  cases t with
  | act a =>
    cases a with
    | release how name => exact release h
    | _ => cases h
  | keep name _ => exact release h
  | deliver | react _ _ _ _ => cases h

/-! ## The books are kept -/

/-- No subscription is there twice, and none that is active is lost. -/
structure Booked (b : Bench α) : Prop where
  wellFormed : b.channel.WellFormed
  known : b.Known
  single : b.kept.OnePerName
  distinct : b.existing.reduceOption.Nodup
  complete : ∀ id, b.channel.isActive id = true → some id ∈ b.existing

theorem booked_start {s : Subject α} (hs : s.channel = .empty) : (start s).Booked where
  wellFormed := by
    rw [show (start s).channel = .empty from hs]
    exact Channel.wellFormed_empty
  known := known_start s
  single := List.nodup_nil
  distinct := List.nodup_nil
  complete := fun id active => by
    rw [show (start s).channel = .empty from hs] at active
    cases active

theorem Booked.take {b : Bench α} (h : b.Booked) (rest : b.agenda = []) (a : Action α) :
    (machine.take b a).Booked := by
  have same : (machine.take b a).existing = b.existing := by
    rw [existing, existing, keeping, keeping, rest]
    rfl
  exact {
    wellFormed := h.wellFormed
    known := ⟨h.known.kept, by simp [machine]⟩
    single := h.single
    distinct := same ▸ h.distinct
    complete := fun id active => same ▸ h.complete id active }

theorem Known.existing {b : Bench α} (h : b.Known) {id : Nat} (there : some id ∈ b.existing) :
    id < b.channel.nextId := by
  rcases List.mem_append.1 there with there | there
  · obtain ⟨⟨name, _⟩, kept, rfl⟩ := List.mem_map.1 there
    exact h.kept name id kept
  · obtain ⟨t, ht, keeps⟩ := List.mem_filterMap.1 there
    cases t with
    | keep name _ =>
      cases keeps
      exact h.keeping name id ht
    | act _ | react _ _ _ _ | deliver => cases keeps

section
variable {b b' : Bench α} {t : Task α} {ts new : List (Task α)}

/-- A subscription that is made has the next id, which none has had before. -/
theorem Booked.distinct_of_balance (h : b.Booked)
    (balance : ((b.drops? t).toList ++ b'.existing).Perm ((b.makes? t).toList ++ b.existing)) :
    b'.existing.reduceOption.Nodup := by
  have nodup : ((b.makes? t).toList ++ b.existing).reduceOption.Nodup := by
    rcases makes : b.makes? t with _ | _ | id
    · exact h.distinct
    · exact h.distinct
    · refine List.nodup_cons.2 ⟨fun there => ?_, h.distinct⟩
      have known := h.known.existing (List.reduceOption_mem_iff.1 there)
      rw [id_of_makes? makes] at known
      exact Nat.lt_irrefl _ known
  have nodup' := (balance.filterMap id).nodup_iff.2 nodup
  rw [List.filterMap_append] at nodup'
  exact nodup'.of_append_right

/-- What is active was active before or is made now, and it is not given up. -/
theorem Booked.complete_of_balance (h : b.Booked) (stepped : Stepped b b' t ts new)
    (balance : ((b.drops? t).toList ++ b'.existing).Perm ((b.makes? t).toList ++ b.existing))
    (id : Nat) (active : b'.channel.isActive id = true) : some id ∈ b'.existing := by
  have there : some id ∈ (b.makes? t).toList ++ b.existing := by
    cases ho : b.taskOperation? t with
    | none =>
      rw [stepped.channel, ho] at active
      exact List.mem_append_right _ (h.complete id active)
    | some o =>
      rw [stepped.channel, ho] at active
      rcases h.wellFormed.isActive_of_apply active with before | ⟨mode, i, rfl, rfl⟩
      · exact List.mem_append_right _ (h.complete id before)
      · rw [makes?_of_subscribe ho]
        exact List.mem_cons_self
  rcases List.mem_append.1 (balance.mem_iff.2 there) with dropped | there
  · rw [stepped.channel, operation_of_drops? (Option.mem_toList.1 dropped)] at active
    have ended : (b.channel.detach id).isActive id = false := by simp
    rw [show (after b.channel (some (.detach id))).isActive id = false from ended] at active
    cases active
  · exact there

end

theorem Booked.step {b b' : Bench α} (h : b.Booked) (taken : b.step = some b') : b'.Booked := by
  obtain ⟨t, ts, new, stepped⟩ := step_spec taken
  have balance := stepped.balance taken h.single
  have operation := stepped.operation
  refine ⟨?_, h.known.step taken, ?_, ?_, ?_⟩
  · rw [stepped.channel, ← operation]
    cases ho : b.operation? with
    | none => exact h.wellFormed
    | some o => exact h.wellFormed.apply (h.known.operation_valid ho)
  · rw [stepped.kept]
    cases t with
    | act a =>
      cases a with
      | release how name => exact h.single.erase name
      | _ => exact h.single
    | keep name id => exact h.single.put name id
    | deliver | react _ _ _ _ => exact h.single
  · exact Booked.distinct_of_balance h balance
  · exact Booked.complete_of_balance h stepped balance

theorem booked_of_run {s : Subject α} (hs : s.channel = .empty) {past : List (Bench α)}
    {b : Bench α} (run : machine.Run (start s) past b) : b.Booked :=
  (run.invariant (P := Booked) (booked_start hs) (fun _ a rest h => h.take rest a)
    (fun _ _ h taken => h.step taken)).1

/-! ## The registry -/

/-- The subscription that the next step ends, unless it has ended before: the one that is given up
under its name, the one whose name is taken by another, or the one for the first accepted value that
takes the value of this turn. -/
def ends? (b : Bench α) : Option Nat := b.operation?.bind (·.ends? b.channel)

/-- What a step does to the registry and to the flags: at most one subscription ends with it, and at
most one comes in, after all others. -/
structure EndsOne (b b' : Bench α) : Prop where
  flags : ∀ id < b.channel.nextId,
    b'.isActive (some id) = (b.isActive (some id) && some id != b.ends?)
  entries : ∃ new : Option (Entry α Nat),
    b'.channel.entries = b.channel.entries.filter (some ·.id != b.ends?) ++ new.toList ∧
    ∀ e ∈ new, e.id = b.channel.nextId

theorem Booked.endsOne {b b' : Bench α} (h : b.Booked) (taken : b.step = some b') :
    EndsOne b b' := by
  obtain ⟨t, ts, new, stepped⟩ := step_spec taken
  have channel := stepped.channel
  rw [← stepped.operation] at channel
  cases ho : b.operation? with
  | none =>
    rw [ho] at channel
    have nothing : b.ends? = none := by
      rw [ends?, ho]
      rfl
    refine ⟨fun id _ => ?_, none, ?_, by simp⟩
    · show b'.channel.isActive id = (b.channel.isActive id && some id != b.ends?)
      rw [nothing, channel]
      exact (Bool.and_true _).symm
    · rw [nothing, Channel.filter_unended, channel]
      exact (List.append_nil _).symm
  | some o =>
    rw [ho] at channel
    have ends : b.ends? = o.ends? b.channel := by
      rw [ends?, ho]
      rfl
    refine ⟨fun id known => ?_, o.enters? b.channel, ?_, fun e he => Channel.id_of_enters? he⟩
    · show b'.channel.isActive id = (b.channel.isActive id && some id != b.ends?)
      rw [ends, channel]
      exact h.wellFormed.isActive_apply o known
    · rw [ends, channel]
      exact b.channel.entries_apply o

theorem Booked.continues {b b' : Bench α} (h : b.Booked) (taken : b.step = some b')
    {c : Channel α Nat} (wellFormed : c.WellFormed) (continues : Continues c b.channel) :
    Continues c b'.channel := by
  obtain ⟨t, ts, new, stepped⟩ := step_spec taken
  rw [stepped.channel]
  cases b.taskOperation? t with
  | none => exact continues
  | some o => exact continues.next wellFormed h.wellFormed o

/-- How the registry of a channel and the subscriptions of its bench go together. -/
structure Registered (past : List (Bench α)) (b : Bench α) : Prop where
  ascending : (b.channel.entries.map (·.id)).Pairwise (· < ·)
  below : ∀ e ∈ b.channel.entries, e.id < b.channel.nextId
  active : ∀ e ∈ b.channel.entries, b.isActive (some e.id) = true
  /-- Every entry is that of a subscription that is still there. -/
  owned : ∀ e ∈ b.channel.entries, some e.id ∈ b.existing
  /-- No two subscriptions have the same id. -/
  distinct : b.existing.reduceOption.Nodup
  /-- An active subscription has one entry, and one that is not active has none. -/
  one : ∀ id, some id ∈ b.existing →
    b.channel.entries.countP (·.id == id) = if b.isActive (some id) then 1 else 0
  count : b.channel.count = b.existing.countP b.isActive
  /-- A flag that fell has not risen since; entries that are left stand in the order they stood
  in. -/
  continues : ∀ m ∈ past, Continues m.channel b.channel
  /-- Each step has ended at most one subscription, and left all others alone. -/
  steps : ∀ m ∈ past, ∃ m', m.step = some m' ∧ EndsOne m m'

theorem Booked.count_eq {b : Bench α} (h : b.Booked) :
    b.channel.count = b.existing.countP b.isActive := by
  have same : b.channel.active.Perm (b.existing.reduceOption.filter b.channel.isActive) := by
    refine (List.perm_ext_iff_of_nodup (b.channel.active_ascending.imp Nat.ne_of_lt)
      (h.distinct.filter _)).2 fun id => ?_
    rw [Channel.mem_active, List.mem_filter, List.reduceOption_mem_iff]
    exact ⟨fun active => ⟨h.complete id active, active⟩, And.right⟩
  rw [h.wellFormed.count_eq, same.length_eq, ← List.countP_eq_length_filter, List.reduceOption,
    List.countP_filterMap]
  refine List.countP_congr fun o _ => ?_
  cases o <;> rfl

theorem registers_the_active {s : Subject α} (hs : s.channel = .empty) {past : List (Bench α)}
    {b : Bench α} (run : machine.Run (start s) past b) : Registered past b := by
  have booked := booked_of_run hs run
  have wellFormed := booked.wellFormed
  have active : ∀ e ∈ b.channel.entries, b.channel.isActive e.id = true :=
    fun _ he => wellFormed.mem_entries_isActive he
  refine {
    ascending := wellFormed.registry ▸ b.channel.active_ascending
    below := fun e he => Channel.lt_of_isActive (active e he)
    active := active
    owned := fun e he => booked.complete e.id (active e he)
    distinct := booked.distinct
    one := fun id _ => ?_
    count := booked.count_eq
    continues := fun m hm => ?_
    steps := fun m hm => ?_ }
  · have once : b.channel.active.Nodup := b.channel.active_ascending.imp Nat.ne_of_lt
    calc b.channel.entries.countP (·.id == id)
        = b.channel.active.count id := by
          rw [← wellFormed.registry, List.count, List.countP_map]
          rfl
      _ = if b.isActive (some id) then 1 else 0 := by
          rw [once.count]
          simp only [Channel.mem_active]
          rfl
  · obtain ⟨earlier, later, rfl⟩ := List.append_of_mem hm
    obtain ⟨m', first, taken, rest⟩ := run.split rfl
    have booked := booked_of_run hs first
    exact (rest.invariant (P := fun x => x.Booked ∧ Continues m.channel x.channel)
      ⟨booked.step taken, booked.continues taken booked.wellFormed booked.wellFormed.continues⟩
      (fun _ a rest h => ⟨h.1.take rest a, h.2⟩)
      (fun _ _ h taken => ⟨h.1.step taken, h.1.continues taken booked.wellFormed h.2⟩)).1.2
  · obtain ⟨earlier, later, rfl⟩ := List.append_of_mem hm
    obtain ⟨m', first, taken, _⟩ := run.split rfl
    exact ⟨m', taken, (booked_of_run hs first).endsOne taken⟩

/-- Drops a subscription whose turn is still to come, and makes another one. -/
def dropsAndSubscribes : Rule Nat (Action Nat) :=
  ⟨fun _ _ => true, 1, [.release .drop "second", .subscribe 0 "late" []]⟩

/-- Unsubscribes what has ended of itself. -/
def unsubscribesOnce : Rule Nat (Action Nat) :=
  ⟨fun _ _ => true, 1, [.release .unsubscribe "once"]⟩

/-- In the midst of a delivery: one listener has dropped a subscription whose turn was still to
come, and made another; then one for the first accepted value has ended of itself, is there no less,
and is about to be unsubscribed in its own callback. -/
theorem registers_the_active_midway : ∃ (past : List (Bench Nat)) (b : Bench Nat),
    machine.Run (start (.relay .empty)) past b ∧ b.channel.delivering = true ∧
    b.existing = [some 0, some 2, some 3] ∧ b.channel.entries.map (·.id) = [0, 3] ∧
    b.ends? = some 2 ∧ Registered past b := by
  have begun : machine.Run (start (.relay .empty) : Bench Nat) [] _ := .start
  have first := (begun.input (.subscribe 0 "first" [dropsAndSubscribes]) rfl).steps 4
  have second := (first.input (.subscribe 0 "second" []) rfl).steps 4
  have once := (second.input (.subscribeFirst 0 "once" (· == 2) [unsubscribesOnce]) rfl).steps 4
  have midway := (once.input (.emit 0 2) rfl).steps 11
  refine ⟨_, _, midway, ?_, ?_, ?_, ?_, registers_the_active rfl midway⟩
  all_goals decide +kernel

end StandingQuery.Bench
