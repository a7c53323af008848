import StandingQuery.Proofs.Channel.Waiting
import StandingQuery.Proofs.Session.Change

/-! What holds at every moment of a session. The registry of the persisted request says who follows
it: each listing that does has one entry there, which is no watcher's. A listing begins to follow
it once; its delivery is on the agenda exactly while it lasts; and a listing hands a request over
only as the very next thing. -/

namespace StandingQuery.Session

/-! ## Who follows the persisted request -/

/-- The entries of the listings are those of the subscriptions that they know of. -/
structure Owned (c : Channel (Option Request) Follower) (following : Nat → Option Nat)
    (count : Nat) : Prop where
  channel : c.WellFormed
  every : ∀ e ∈ c.entries, e.mode = .every
  owned : ∀ e ∈ c.entries, ∀ k, e.target = .listing k → following k = some e.id
  registered : ∀ k id, following k = some id →
    (⟨id, .every, .listing k⟩ : Entry (Option Request) Follower) ∈ c.entries
  listed : ∀ k id, following k = some id → k < count
  turned : ∀ p ∈ c.turns, ∀ k, p.1.target = .listing k → k < count

namespace Owned

variable {c c' : Channel (Option Request) Follower} {following : Nat → Option Nat} {count : Nat}

theorem active (h : Owned c following count) {k id : Nat} (held : following k = some id) :
    c.isActive id = true :=
  h.channel.mem_entries_isActive (h.registered k id held)

theorem injective (h : Owned c following count) {j k id : Nat} (hj : following j = some id)
    (hk : following k = some id) : j = k := by
  have := h.channel.entry_unique (h.registered j id hj) (h.registered k id hk) rfl
  cases this
  rfl

/-- Requests go to everybody who follows them, so a turn changes the registry never. -/
theorem entries_advance (h : Owned c following count) {t : Turn (Option Request) Follower}
    (ha : Channel.Advances c t c') : c'.entries = c.entries := by
  cases ha with
  | passed _ _ | heard _ _ _ | refused _ _ _ _ | begun _ _ | finished _ _ => rfl
  | @taken e v rest accept turns active mode _ =>
    rw [h.every e (h.channel.turns_registered (e, v) (by simp [turns]) active)] at mode
    cases mode

theorem emit (h : Owned c following count) (q : Option Request) :
    Owned (c.emit q) following count :=
  { h with channel := h.channel.emit q }

theorem more (h : Owned c following count) : Owned c following (count + 1) :=
  { h with
    listed := fun k id held => Nat.lt_succ_of_lt (h.listed k id held)
    turned := fun p hp k hk => Nat.lt_succ_of_lt (h.turned p hp k hk) }

theorem advance (h : Owned c following count) {t : Turn (Option Request) Follower}
    (ha : Channel.Advances c t c') : Owned c' following count := by
  have same := h.entries_advance ha
  refine ⟨h.channel.advance ha, same ▸ h.every, same ▸ h.owned, same ▸ h.registered, h.listed, ?_⟩
  cases ha with
  | passed turns _ | heard turns _ _ | refused turns _ _ _ | taken turns _ _ _ =>
    exact fun p hp => h.turned p (turns ▸ List.mem_cons_of_mem _ hp)
  | begun _ _ =>
    intro p hp k hk
    obtain ⟨e, he, rfl⟩ := List.mem_map.1 hp
    exact h.listed k e.id (h.owned e he k hk)
  | finished _ _ => exact h.turned

theorem nextId_fresh (h : Owned c following count) {k id : Nat} (held : following k = some id) :
    id < c.nextId :=
  Channel.lt_of_isActive (h.active held)

/-- An entry whose turn it is still stands in the registry, unless it is passed over. -/
theorem registered_of_turn (h : Owned c following count) {e : Entry (Option Request) Follower}
    {q : Option Request} {rest : List (Entry (Option Request) Follower × Option Request)}
    (turns : c.turns = (e, q) :: rest) (active : c.isActive e.id = true) : e ∈ c.entries :=
  h.channel.turns_registered (e, q) (by simp [turns]) active

/-- A listing that hears of a request follows it. -/
theorem held_of_called (h : Owned c following count) {e : Entry (Option Request) Follower}
    {q : Option Request} (ha : Channel.Advances c (.called e q) c') {k : Nat}
    (target : e.target = .listing k) : following k = some e.id := by
  cases ha with
  | heard turns active _ | taken turns active _ _ =>
    exact h.owned e (h.registered_of_turn turns active) k target

/-- A listing has as much to hear after a turn that does not go to it as before. -/
theorem waiting_elsewhere (h : Owned c following count) {t : Turn (Option Request) Follower}
    (ha : Channel.Advances c t c') {k id : Nat} (held : following k = some id)
    (elsewhere : ∀ e q, t = .called e q → e.target ≠ .listing k) :
    c'.waiting id = c.waiting id := by
  have own {e : Entry (Option Request) Follower} (he : e ∈ c.entries) (hid : e.id = id) :
      e = ⟨id, .every, .listing k⟩ :=
    h.channel.entry_unique he (h.registered k id held) hid
  have gives : t.gives id = [] := by
    cases ha with
    | passed _ _ | begun _ _ | finished _ _ => rfl
    | @heard e v rest turns active _ | @taken e v rest _ turns active _ _ =>
      refine if_neg fun hid => elsewhere e v rfl ?_
      rw [own (h.registered_of_turn turns active) hid]
    | @refused e v rest _ turns active mode _ =>
      refine if_neg fun hid => ?_
      rw [own (h.registered_of_turn turns active) hid] at mode
      cases mode
  have := h.channel.waiting_advance ha (h.active held)
  rw [gives, List.nil_append] at this
  exact this.symm

/-- A turn that goes to a listing takes the first of what it has to hear. -/
theorem waiting_called (h : Owned c following count) {e : Entry (Option Request) Follower}
    {q : Option Request} (ha : Channel.Advances c (.called e q) c') {k : Nat}
    (held : following k = some e.id) : c.waiting e.id = q :: c'.waiting e.id := by
  have := h.channel.waiting_advance ha (h.active held)
  rwa [Turn.gives, if_pos rfl, List.singleton_append] at this

/-- A listing begins to follow the requests. -/
theorem listing (h : Owned c following count) {k : Nat} (new : following k = none)
    (known : k < count) :
    Owned (c.subscribe .every (.listing k)) (Function.update following k (some c.nextId))
      count where
  channel := h.channel.subscribe ..
  every := by
    intro e he
    rcases List.mem_append.1 he with he | he
    · exact h.every e he
    · rw [List.mem_singleton.1 he]
  owned := by
    intro e he j hj
    rcases List.mem_append.1 he with he | he
    · have held := h.owned e he j hj
      have hne : j ≠ k := fun hjk => by simp [hjk, new] at held
      rw [Function.update_of_ne hne, held]
    · cases List.mem_singleton.1 he
      cases hj
      rw [Function.update_self]
  registered := by
    intro j id held
    by_cases hj : j = k
    · subst hj
      rw [Function.update_self] at held
      cases held
      exact List.mem_append_right _ List.mem_cons_self
    · rw [Function.update_of_ne hj] at held
      exact List.mem_append_left _ (h.registered j id held)
  listed := by
    intro j id held
    by_cases hj : j = k
    · exact hj ▸ known
    · rw [Function.update_of_ne hj] at held
      exact h.listed j id held
  turned := h.turned

theorem watcher (h : Owned c following count) (i : Nat) :
    Owned (c.subscribe .every (.watcher i)) following count where
  channel := h.channel.subscribe ..
  every := by
    intro e he
    rcases List.mem_append.1 he with he | he
    · exact h.every e he
    · rw [List.mem_singleton.1 he]
  owned := by
    intro e he j hj
    rcases List.mem_append.1 he with he | he
    · exact h.owned e he j hj
    · cases List.mem_singleton.1 he
      cases hj
  registered := fun k id held => List.mem_append_left _ (h.registered k id held)
  listed := h.listed
  turned := h.turned

/-- A subscription ends that is no listing's. -/
theorem detach (h : Owned c following count) {id : Nat} (known : id < c.nextId)
    (other : ∀ k, following k ≠ some id) : Owned (c.detach id) following count where
  channel := h.channel.detach known
  every := fun e he => h.every e (List.mem_filter.1 he).1
  owned := fun e he => h.owned e (List.mem_filter.1 he).1
  registered := by
    intro k id' held
    refine List.mem_filter.2 ⟨h.registered k id' held, ?_⟩
    simpa using fun hid : id' = id => other k (hid ▸ held)
  listed := h.listed
  turned := h.turned

/-- A listing is released. -/
theorem release (h : Owned c following count) {k id : Nat} (held : following k = some id) :
    Owned (c.detach id) (Function.update following k none) count where
  channel := h.channel.detach (h.nextId_fresh held)
  every := fun e he => h.every e (List.mem_filter.1 he).1
  owned := by
    intro e he j hj
    obtain ⟨he, hid⟩ := List.mem_filter.1 he
    have owns := h.owned e he j hj
    have hne : j ≠ k := by
      rintro rfl
      rw [held] at owns
      cases owns
      simp at hid
    rw [Function.update_of_ne hne, owns]
  registered := by
    intro j id' held'
    by_cases hj : j = k
    · subst hj
      simp at held'
    · rw [Function.update_of_ne hj] at held'
      refine List.mem_filter.2 ⟨h.registered j id' held', ?_⟩
      simpa using fun hid : id' = id => hj (h.injective (hid ▸ held') held)
  listed := by
    intro j id' held'
    by_cases hj : j = k
    · subst hj
      simp at held'
    · rw [Function.update_of_ne hj] at held'
      exact h.listed j id' held'
  turned := h.turned

end Owned

/-! ## What is on the agenda -/

/-- Those who are to follow the requests have not begun to, and the delivery is there while it
lasts. -/
structure Planned (following : Nat → Option Nat) (count : Nat) (delivering : Bool)
    (ts : List Task) : Prop where
  ahead : ∀ k ∈ ts.filterMap Task.follower?, k < count ∧ following k = none
  once : (ts.filterMap Task.follower?).Nodup
  delivery : ts.countP Task.deliversRequest = if delivering then 1 else 0

namespace Planned

variable {following : Nat → Option Nat} {count : Nat} {delivering : Bool} {t : Task}
  {ts new : List Task}

theorem inert_cons (inert : View.Inert t) : Planned following count delivering (t :: ts) ↔
    Planned following count delivering ts := by
  have followers : (t :: ts).filterMap Task.follower? = ts.filterMap Task.follower? := by
    rw [List.filterMap_cons, inert.follower]
  have deliveries : (t :: ts).countP Task.deliversRequest = ts.countP Task.deliversRequest :=
    List.countP_cons_of_neg (by simp [inert.delivers])
  constructor
  · exact fun h => ⟨followers ▸ h.ahead, followers ▸ h.once, deliveries ▸ h.delivery⟩
  · exact fun h => ⟨followers ▸ h.ahead, followers ▸ h.once, deliveries ▸ h.delivery⟩

theorem add (h : Planned following count delivering ts) (quiet : Quiet new) :
    Planned following count delivering (new ++ ts) := by
  induction new with
  | nil => exact h
  | cons t new ih =>
    obtain ⟨ht, hnew⟩ := List.forall_mem_cons.1 quiet
    exact (inert_cons ht.inert).2 (ih hnew)

theorem begin (h : Planned following count false ts) :
    Planned following count true (.deliver .request :: ts) where
  ahead := h.ahead
  once := h.once
  delivery := by
    rw [List.countP_cons_of_pos rfl, h.delivery]
    rfl

theorem finish (h : Planned following count delivering (.deliver .request :: ts)) :
    delivering = true ∧ Planned following count false ts := by
  have delivery := h.delivery
  rw [List.countP_cons_of_pos rfl] at delivery
  cases delivering with
  | true => exact ⟨rfl, h.ahead, h.once, Nat.succ.inj delivery⟩
  | false => cases delivery

theorem idle (h : Planned following count delivering ts)
    (none : ts.countP Task.deliversRequest = 0) : delivering = false := by
  have delivery := h.delivery
  rw [none] at delivery
  cases delivering with
  | false => rfl
  | true => cases delivery

theorem follow {k : Nat} (h : Planned following count delivering (.follow k :: ts))
    (x : Option Nat) :
    Planned (Function.update following k x) count delivering ts where
  ahead := by
    intro j hj
    have hne : j ≠ k := fun hjk => (List.nodup_cons.1 h.once).1 (hjk ▸ hj)
    rw [Function.update_of_ne hne]
    exact h.ahead j (List.mem_cons_of_mem _ hj)
  once := (List.nodup_cons.1 h.once).2
  delivery := h.delivery

theorem activate (h : Planned following count delivering ts) (new : following count = none) :
    Planned following (count + 1) delivering (.follow count :: ts) where
  ahead := by
    intro k hk
    rcases List.mem_cons.1 hk with rfl | hk
    · exact ⟨Nat.lt_succ_self _, new⟩
    · exact (h.ahead k hk).imp_left Nat.lt_succ_of_lt
  once := List.nodup_cons.2 ⟨fun hk => Nat.lt_irrefl _ (h.ahead _ hk).1, h.once⟩
  delivery := h.delivery

theorem release (h : Planned following count delivering ts) (k : Nat) :
    Planned (Function.update following k none) count delivering ts where
  ahead := by
    intro j hj
    refine (h.ahead j hj).imp_right fun hf => ?_
    by_cases hjk : j = k
    · rw [hjk, Function.update_self]
    · rw [Function.update_of_ne hjk, hf]
  once := h.once
  delivery := h.delivery

end Planned

namespace View

structure Sound (v : View) : Prop where
  owned : Owned v.request.channel v.following v.count
  planned : Planned v.following v.count v.request.channel.delivering v.agenda
  apart : Apart v.request.channel.nextId v.following v.kept (v.agenda.filterMap Task.kept?)
  still : Still v.agenda.tail

end View

open View

/-! ## It is kept by every step -/

namespace View.Change

variable {v v' : View} {t : Task} {o : Option Occurrence}

theorem owned (change : Change v t o v') (h : Sound { v with agenda := t :: v.agenda }) :
    Owned v'.request.channel v'.following v'.count := by
  have owned : Owned v.request.channel v.following v.count := h.owned
  cases change with
  | aside _ _ _ | refreshed _ _ => exact owned
  | emitted q _ _ => exact owned.emit q
  | ended turned | passed turned _ _ _ | reached turned _ => exact owned.advance turned
  | @began k =>
    obtain ⟨known, new⟩ := h.planned.ahead k List.mem_cons_self
    exact owned.listing new known
  | activated _ => exact owned.more
  | @watched _ i _ _ _ _ _ => exact owned.watcher i
  | @unwatched _ id _ _ _ known _ =>
    obtain ⟨made, free⟩ := h.apart id (.inl known)
    exact owned.detach made free
  | released _ _ held _ => exact owned.release held

theorem planned (change : Change v t o v') (h : Sound { v with agenda := t :: v.agenda }) :
    Planned v'.following v'.count v'.request.channel.delivering v'.agenda := by
  have planned : Planned v.following v.count v.request.channel.delivering (t :: v.agenda) :=
    h.planned
  cases change with
  | aside inert quiet filed => exact ((Planned.inert_cons inert).1 planned).add quiet
  | emitted q quiet other =>
    have planned := (Planned.inert_cons quiet.inert).1 planned
    cases under : v.request.channel.delivering with
    | true =>
      rw [under] at planned
      exact planned
    | false =>
      rw [under] at planned
      exact planned.begin
  | ended turned => exact turned.not_delivering ▸ planned.finish.2
  | passed turned goesOn elsewhere quiet =>
    rw [← turned.delivering_eq goesOn] at planned
    exact planned.add quiet
  | reached turned target =>
    rw [← turned.delivering_eq (by simp)] at planned
    exact (Planned.inert_cons ⟨rfl, rfl⟩).2 planned
  | began => exact (Planned.inert_cons ⟨rfl, rfl⟩).2 (planned.follow _)
  | @activated name new quiet =>
    have free : v.following v.count = none := by
      cases held : v.following v.count with
      | none => rfl
      | some id => exact absurd (h.owned.listed _ _ held) (Nat.lt_irrefl _)
    have planned := (Planned.inert_cons (quiet_act _).inert).1 planned
    have planned := (Planned.inert_cons (t := .ready name v.count) ⟨rfl, rfl⟩).2 planned
    exact (planned.activate free).add quiet
  | @refreshed _ k _ _ _ =>
    have planned := (Planned.inert_cons (quiet_act _).inert).1 planned
    have planned := (Planned.inert_cons (quiet_leave k).inert).2 planned
    exact (Planned.inert_cons ⟨rfl, rfl⟩).2 planned
  | @watched _ i name new task other quiet =>
    have planned := (Planned.inert_cons task.inert).1 planned
    have keep : Inert (.keep name (.request v.request.channel.nextId)) := ⟨rfl, rfl⟩
    exact ((Planned.inert_cons keep).2 planned).add quiet
  | unwatched inert _ _ _ => exact (Planned.inert_cons inert).1 planned
  | @released _ k _ _ _ inert _ _ _ => exact ((Planned.inert_cons inert).1 planned).release k

theorem apart (change : Change v t o v') (h : Sound { v with agenda := t :: v.agenda }) :
    Apart v'.request.channel.nextId v'.following v'.kept (v'.agenda.filterMap Task.kept?) := by
  -- What is kept is kept already, is kept now or is still to be kept.
  have apart {kept : Nat → Prop} {coming : List Nat}
      (known : ∀ id, kept id ∨ id ∈ coming →
        v.kept id ∨ t.kept? = some id ∨ id ∈ v.agenda.filterMap Task.kept?) :
      Apart v.request.channel.nextId v.following kept coming := by
    intro id hid
    refine h.apart id ((known id hid).imp_right fun hid => List.mem_filterMap.2 ?_)
    rcases hid with hid | hid
    · exact ⟨t, List.mem_cons_self, hid⟩
    · obtain ⟨u, hu, hid⟩ := List.mem_filterMap.1 hid
      exact ⟨u, List.mem_cons_of_mem _ hu, hid⟩
  have left : Apart v.request.channel.nextId v.following v.kept
      (v.agenda.filterMap Task.kept?) :=
    apart fun id hid => hid.imp_right .inr
  cases change with
  | aside inert quiet filed =>
    refine apart fun id hid => ?_
    rw [quiet.kept] at hid
    rcases hid with hid | hid
    · exact (filed.kept id hid).imp_right .inl
    · exact .inr (.inr hid)
  | emitted q quiet other =>
    cases under : v.request.channel.delivering with
    | true =>
      rw [if_pos rfl]
      exact left
    | false =>
      rw [if_neg Bool.false_ne_true]
      exact left
  | ended turned => exact turned.nextId_eq ▸ left
  | passed turned goesOn elsewhere quiet =>
    refine turned.nextId_eq ▸ apart fun id hid => ?_
    rw [quiet.kept] at hid
    exact hid.imp_right .inr
  | reached turned target => exact turned.nextId_eq ▸ left
  | @began k =>
    refine (left.update k fun id hid => ?_).subscribe
    simpa using Nat.ne_of_gt hid
  | activated quiet =>
    refine apart fun id hid => ?_
    rw [quiet.kept] at hid
    exact hid.imp_right .inr
  | refreshed _ _ => exact apart fun id hid => hid.imp_right .inr
  | @watched _ i name new task other quiet =>
    intro id hid
    rw [quiet.kept] at hid
    exact left.watch (fun _ _ held => h.owned.nextId_fresh held) id hid
  | unwatched inert other known filed =>
    refine apart fun id hid => ?_
    rcases hid with hid | hid
    · exact (filed.kept id hid).imp_right .inl
    · exact .inr (.inr hid)
  | @released _ k _ _ _ _ _ _ _ => exact left.update k fun _ _ => (Option.some_ne_none _).symm

theorem still (change : Change v t o v') (still : Still v.agenda) : Still v'.agenda.tail := by
  cases change with
  | aside _ quiet _ => exact (quiet.still.append still).tail
  | @emitted q _ _ =>
    cases v.request.channel.delivering with
    | true => exact still.tail
    | false => exact still
  | ended _ | unwatched _ _ _ _ | released _ _ _ _ => exact still.tail
  | passed _ _ _ quiet | watched _ _ quiet => exact (quiet.still.append (.cons rfl still)).tail
  | reached _ _ | refreshed _ _ => exact .cons rfl still
  | began => exact still
  | activated quiet => exact (quiet.still.append (.cons rfl (.cons rfl still))).tail

theorem sound (change : Change v t o v') (h : Sound { v with agenda := t :: v.agenda }) :
    Sound v' :=
  ⟨change.owned h, change.planned h, change.apart h, change.still h.still⟩

/-- Only a new listing is to follow the requests. -/
theorem not_follower (change : Change v t o v') {k : Nat} (known : k < v.count)
    (h : k ∉ v.agenda.filterMap Task.follower?) : k ∉ v'.agenda.filterMap Task.follower? := by
  have quietly {new : List Task} (quiet : Quiet new) (ts : List Task)
      (h : k ∉ ts.filterMap Task.follower?) : k ∉ (new ++ ts).filterMap Task.follower? := by
    rwa [List.filterMap_append, quiet.followers, List.nil_append]
  cases change with
  | aside _ quiet _ => exact quietly quiet _ h
  | emitted _ _ _ =>
    show k ∉ (_ ++ v.agenda).filterMap Task.follower?
    split <;> exact h
  | ended _ | reached _ _ | began | refreshed _ _ | unwatched _ _ _ _ | released _ _ _ _ => exact h
  | passed _ _ _ quiet | watched _ _ quiet => exact quietly quiet _ h
  | activated quiet =>
    refine quietly quiet _ fun hk => ?_
    rcases List.mem_cons.1 hk with rfl | hk
    · exact Nat.lt_irrefl _ known
    · exact h hk

end View.Change

theorem followers_rest (t : Task) (ts : List Task) :
    ts.filterMap Task.follower? ⊆ (t :: ts).filterMap Task.follower? :=
  ((List.sublist_cons_self t ts).filterMap _).subset

/-! ## It holds at every moment -/

theorem sound_start (answer : Option UInt64) (persisted : Option Request) (route : Option Route)
    (hosts : Hosts) : (start answer persisted route hosts).view.Sound where
  owned := {
    channel := Channel.wellFormed_empty
    every := fun _ he => absurd he List.not_mem_nil
    owned := fun _ he => absurd he List.not_mem_nil
    registered := by simp [view, following?, start]
    listed := by simp [view, following?, start]
    turned := fun _ hp => absurd hp List.not_mem_nil }
  planned := ⟨fun _ hk => absurd hk List.not_mem_nil, List.nodup_nil, rfl⟩
  apart := by
    rintro id (⟨_, h⟩ | h)
    · exact absurd h List.not_mem_nil
    · exact absurd h List.not_mem_nil
  still := quiet_nil.still

theorem View.Sound.take {s : Session} (h : s.view.Sound) (rest : s.agenda = []) (a : Action) :
    (machine.take s a).view.Sound where
  owned := h.owned
  planned := (Planned.inert_cons (quiet_act a).inert).2 (rest ▸ h.planned)
  apart := by
    have apart := h.apart
    rw [show s.view.agenda = [] from rest] at apart
    exact apart
  still := quiet_nil.still

theorem view_next {s : Session} {t : Task} {ts : List Task} (h : s.agenda = t :: ts) :
    ({ s.view with agenda := t :: ts } : View) = s.view := by
  rw [← h]
  rfl

/-- A step is one of the changes, and leaves everything as it should be. -/
theorem View.Sound.step {s s' : Session} (h : s.view.Sound) (taken : s.step = some s') :
    ∃ t ts, s.agenda = t :: ts ∧ Change { s.view with agenda := ts } t s.occurrence? s'.view ∧
      s'.view.Sound := by
  obtain ⟨t, ts, hagenda, change⟩ :=
    step_change taken (fun k hk => (h.planned.ahead k hk).1) h.owned.turned
  exact ⟨t, ts, hagenda, change, change.sound ((view_next hagenda).symm ▸ h)⟩

theorem sound_of_run {answer : Option UInt64} {persisted : Option Request} {route : Option Route}
    {hosts : Hosts} {past : List Session} {s : Session}
    (run : machine.Run (start answer persisted route hosts) past s) :
    s.view.Sound ∧ ∀ m ∈ past, m.view.Sound := by
  refine run.invariant (P := fun s => s.view.Sound) (sound_start ..)
    (fun _ a rest h => h.take rest a) fun _ _ h taken => ?_
  obtain ⟨_, _, _, _, sound⟩ := h.step taken
  exact sound

end StandingQuery.Session
