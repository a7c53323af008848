import StandingQuery.Proofs.Channel.Waiting
import StandingQuery.Proofs.Session.Move

/-! What holds of the route at every moment of a session. Each entry of its registry is a watcher's,
or it is for the first route that is present and belongs to the listing that knows of the
subscription; and a listing saves a request only as the very next thing. -/

namespace StandingQuery.Session

/-! ## Who waits for a route -/

/-- A listing takes one route, the first that is present; a watcher hears of every one. -/
def Follower.routeMode : Follower → Mode (Option Route)
  | .listing _ => .first Option.isSome
  | .watcher _ => .every

/-- The entries of listings are those of the subscriptions that they know of. -/
structure Waits (c : Channel (Option Route) Follower) (guided : Nat → Option Nat) (count : Nat) :
    Prop where
  channel : c.WellFormed
  mode : ∀ e ∈ c.entries, e.mode = e.target.routeMode
  owned : ∀ e ∈ c.entries, ∀ k, e.target = .listing k ↔ guided k = some e.id
  made : ∀ k id, guided k = some id → id < c.nextId
  listed : ∀ k id, guided k = some id → k < count
  injective : ∀ j k id, guided j = some id → guided k = some id → j = k

namespace Waits

variable {c c' : Channel (Option Route) Follower} {guided : Nat → Option Nat} {count : Nat}

theorem fresh (h : Waits c guided count) : guided count = none := by
  cases held : guided count with
  | none => rfl
  | some id => exact absurd (h.listed _ _ held) (Nat.lt_irrefl _)

theorem emit (h : Waits c guided count) (r : Option Route) : Waits (c.emit r) guided count :=
  { h with channel := h.channel.emit r }

theorem entries_advance {t : Turn (Option Route) Follower} (ha : Channel.Advances c t c') :
    ∀ e ∈ c'.entries, e ∈ c.entries := by
  intro e he
  cases ha with
  | passed _ _ | heard _ _ _ | refused _ _ _ _ | begun _ _ | finished _ _ => exact he
  | taken _ _ _ _ => exact (List.mem_filter.1 he).1

theorem advance (h : Waits c guided count) {t : Turn (Option Route) Follower}
    (ha : Channel.Advances c t c') : Waits c' guided count where
  channel := h.channel.advance ha
  mode := fun e he => h.mode e (entries_advance ha e he)
  owned := fun e he => h.owned e (entries_advance ha e he)
  made := ha.nextId_eq ▸ h.made
  listed := h.listed
  injective := h.injective

/-- A listing is activated that takes the route it knows at once. -/
theorem known (h : Waits c guided count) :
    Waits c (Function.update guided count none) (count + 1) := by
  rw [← h.fresh, Function.update_eq_self]
  exact { h with listed := fun k id held => Nat.lt_succ_of_lt (h.listed k id held) }

/-- Whoever subscribes to the route gets a subscription that nobody has had. -/
theorem subscribe (h : Waits c guided count) (f : Follower) {e : Entry (Option Route) Follower}
    (he : e ∈ (c.subscribe f.routeMode f).entries) :
    e.mode = e.target.routeMode ∧
      (e ∈ c.entries ∨ e.target = f ∧ e.id = c.nextId ∧ ∀ k, guided k ≠ some e.id) := by
  rcases List.mem_append.1 he with he | he
  · exact ⟨h.mode e he, .inl he⟩
  · cases List.mem_singleton.1 he
    exact ⟨rfl, .inr ⟨rfl, rfl, fun k held => Nat.lt_irrefl _ (h.made k _ held)⟩⟩

/-- A listing is activated that waits for a route. -/
theorem unknown (h : Waits c guided count) :
    Waits (c.subscribe (.first Option.isSome) (.listing count))
      (Function.update guided count (some c.nextId)) (count + 1) where
  channel := h.channel.subscribe ..
  mode := fun e he => (h.subscribe (.listing count) he).1
  owned := by
    intro e he k
    rcases (h.subscribe (.listing count) he).2 with he | ⟨target, new, free⟩
    · by_cases hk : k = count
      · have old : c.nextId ≠ e.id :=
          (Nat.ne_of_lt (Channel.lt_of_isActive (h.channel.mem_entries_isActive he))).symm
        simp [hk, h.owned e he, h.fresh, old]
      · rw [Function.update_of_ne hk]
        exact h.owned e he k
    · by_cases hk : k = count
      · simp [hk, target, new]
      · rw [Function.update_of_ne hk, target]
        exact ⟨fun hc => absurd (Follower.listing.inj hc).symm hk, fun held => absurd held (free k)⟩
  made := by
    intro k id held
    by_cases hk : k = count
    · rw [hk, Function.update_self] at held
      cases held
      exact Nat.lt_succ_self _
    · rw [Function.update_of_ne hk] at held
      exact Nat.lt_succ_of_lt (h.made k id held)
  listed := by
    intro k id held
    by_cases hk : k = count
    · exact hk ▸ Nat.lt_succ_self _
    · rw [Function.update_of_ne hk] at held
      exact Nat.lt_succ_of_lt (h.listed k id held)
  injective := by
    -- The new subscription is nobody else's.
    have alone {j : Nat} (hj : j ≠ count)
        (held : Function.update guided count (some c.nextId) j = some c.nextId) : False := by
      rw [Function.update_of_ne hj] at held
      exact Nat.lt_irrefl _ (h.made _ _ held)
    intro j k id hj hk
    by_cases hjc : j = count
    · rw [hjc, Function.update_self] at hj
      cases hj
      by_contra hne
      exact alone (fun hkc => hne (hjc.trans hkc.symm)) hk
    · by_cases hkc : k = count
      · rw [hkc, Function.update_self] at hk
        cases hk
        exact absurd hj fun hj => alone hjc hj
      · rw [Function.update_of_ne hjc] at hj
        rw [Function.update_of_ne hkc] at hk
        exact h.injective j k id hj hk

/-- A watcher begins to follow the route. -/
theorem watcher (h : Waits c guided count) (i : Nat) :
    Waits (c.subscribe .every (.watcher i)) guided count where
  channel := h.channel.subscribe ..
  mode := fun e he => (h.subscribe (.watcher i) he).1
  owned := by
    intro e he k
    rcases (h.subscribe (.watcher i) he).2 with he | ⟨target, _, free⟩
    · exact h.owned e he k
    · rw [target]
      exact ⟨nofun, fun held => absurd held (free k)⟩
  made := fun k id held => Nat.lt_succ_of_lt (h.made k id held)
  listed := h.listed
  injective := h.injective

/-- The subscription of a watcher ends. -/
theorem detach (h : Waits c guided count) {id : Nat} (known : id < c.nextId) :
    Waits (c.detach id) guided count :=
  { h with
    channel := h.channel.detach known
    mode := fun e he => h.mode e (List.mem_filter.1 he).1
    owned := fun e he => h.owned e (List.mem_filter.1 he).1 }

/-- A listing is released. -/
theorem release (h : Waits c guided count) {k id : Nat} (held : guided k = some id) :
    Waits (c.detach id) (Function.update guided k none) count := by
  have detached := h.detach (h.made k id held)
  have other {j i : Nat} (hj : Function.update guided k none j = some i) : guided j = some i := by
    by_cases hjk : j = k
    · rw [hjk, Function.update_self] at hj
      cases hj
    · rwa [Function.update_of_ne hjk] at hj
  refine ⟨detached.channel, detached.mode, ?_, ?_, ?_, ?_⟩
  · intro e he j
    obtain ⟨there, hid⟩ := List.mem_filter.1 he
    have owns := h.owned e there j
    by_cases hj : j = k
    · subst hj
      rw [owns, held, Function.update_self]
      simpa using (bne_iff_ne.1 hid).symm
    · rw [Function.update_of_ne hj]
      exact owns
  · exact fun j i hj => h.made j i (other hj)
  · exact fun j i hj => h.listed j i (other hj)
  · exact fun i j id hi hj => h.injective i j id (other hi) (other hj)

/-! ## A turn -/

theorem registered_of_turn (h : Waits c guided count) {e : Entry (Option Route) Follower}
    {r : Option Route} {rest : List (Entry (Option Route) Follower × Option Route)}
    (turns : c.turns = (e, r) :: rest) (active : c.isActive e.id = true) : e ∈ c.entries :=
  h.channel.turns_registered (e, r) (by simp [turns]) active

/-- Whoever is called with a route or refuses it stands in the registry. -/
theorem registered_of_given (h : Waits c guided count) {t : Turn (Option Route) Follower}
    (ha : Channel.Advances c t c') {e : Entry (Option Route) Follower} {r : Option Route}
    (given : t = .called e r ∨ t = .refused e r) : e ∈ c.entries ∧ c.isActive e.id = true := by
  cases ha with
  | heard turns active _ | taken turns active _ _ | refused turns active _ _ =>
    rcases given with given | given <;> cases given
    exact ⟨h.registered_of_turn turns active, active⟩
  | passed _ _ | begun _ _ | finished _ _ => rcases given with given | given <;> cases given

/-- The listing that a route is given to waits for it no longer. -/
theorem called (h : Waits c guided count) {e : Entry (Option Route) Follower} {r : Option Route}
    {k : Nat} (ha : Channel.Advances c (.called e r) c') (target : e.target = .listing k) :
    guided k = some e.id ∧ c.isActive e.id = true ∧ r.isSome = true ∧
      c'.isActive e.id = false := by
  obtain ⟨there, active⟩ := h.registered_of_given ha (.inl rfl)
  have own := h.mode e there
  rw [target] at own
  refine ⟨(h.owned e there k).1 target, active, ?_⟩
  cases ha with
  | heard turns active mode =>
    rw [own] at mode
    cases mode
  | taken turns active mode accepted =>
    rw [own] at mode
    cases mode
    exact ⟨accepted, by simp⟩

/-- The listing that an absent route is shown to goes on waiting. -/
theorem refused (h : Waits c guided count) {e : Entry (Option Route) Follower} {r : Option Route}
    {k : Nat} (ha : Channel.Advances c (.refused e r) c') (target : e.target = .listing k) :
    guided k = some e.id ∧ c.isActive e.id = true ∧ r = none ∧ c'.isActive e.id = true := by
  obtain ⟨there, active⟩ := h.registered_of_given ha (.inr rfl)
  have own := h.mode e there
  rw [target] at own
  refine ⟨(h.owned e there k).1 target, active, ?_⟩
  cases ha with
  | refused turns active mode rejected =>
    rw [own] at mode
    cases mode
    exact ⟨Option.not_isSome_iff_eq_none.1 (by simp [rejected]), active⟩

/-- A turn that goes to a listing shows it the first of the routes that wait for it. -/
theorem waiting_given (h : Waits c guided count) {t : Turn (Option Route) Follower}
    (ha : Channel.Advances c t c') {e : Entry (Option Route) Follower} {r : Option Route}
    (given : t = .called e r ∨ t = .refused e r) (active : c.isActive e.id = true) :
    c.waiting e.id = r :: c'.waiting e.id := by
  have := h.channel.waiting_advance ha active
  rcases given with rfl | rfl
  · rwa [Turn.gives, if_pos rfl, List.singleton_append] at this
  · rwa [Turn.gives, if_pos rfl, List.singleton_append] at this

/-- A turn that does not go to a listing leaves its subscription and what that has to hear alone. -/
theorem elsewhere (h : Waits c guided count) {t : Turn (Option Route) Follower}
    (ha : Channel.Advances c t c') {k id : Nat} (held : guided k = some id)
    (other : ∀ e r, t = .called e r ∨ t = .refused e r → e.target ≠ .listing k) :
    c'.isActive id = c.isActive id ∧
      (c.isActive id = true → c'.waiting id = c.waiting id) := by
  have apart {e : Entry (Option Route) Follower} {r : Option Route}
      (given : t = .called e r ∨ t = .refused e r) : e.id ≠ id := by
    rintro rfl
    exact other e r given ((h.owned e (h.registered_of_given ha given).1 k).2 held)
  have gives : t.gives id = [] := by
    cases t with
    | finished | moved => rfl
    | called e r => exact if_neg (apart (.inl rfl))
    | refused e r => exact if_neg (apart (.inr rfl))
  constructor
  · cases ha with
    | passed _ _ | heard _ _ _ | refused _ _ _ _ | begun _ _ | finished _ _ => rfl
    | @taken e r rest accept turns active mode accepted =>
      have hne : id ≠ e.id := (apart (.inl rfl)).symm
      rw [Channel.isActive_detach, bne_iff_ne.2 hne, Bool.and_true]
      rfl
  · intro active
    have := h.channel.waiting_advance ha active
    rw [gives, List.nil_append] at this
    exact this.symm

end Waits

/-! ## It is kept by every step -/

namespace Guide

structure Sound (g : Guide) : Prop where
  waits : Waits g.route.channel g.guided g.count
  unsaving : Unsaving g.agenda.tail
  apart : Apart g.route.channel.nextId g.guided g.kept (g.agenda.filterMap Task.keptRoute?)

theorem unsaving_savings {k : Nat} {r : Option Route} {ts : List Task} (h : Unsaving ts) :
    Unsaving (savings k r ++ ts).tail := by
  cases r with
  | none => exact h.tail
  | some r => exact h

theorem kept_savings (k : Nat) (r : Option Route) (ts : List Task) :
    (savings k r ++ ts).filterMap Task.keptRoute? = ts.filterMap Task.keptRoute? := by
  cases r <;> rfl

theorem Move.unsaving {g g' : Guide} {t : Task} {o : Option Guidance} (move : Move g t o g')
    (unsaving : Unsaving g.agenda) : Unsaving g'.agenda.tail := by
  cases move with
  | aside _ aloof _ => exact (unsaving_append aloof.unsaving unsaving).tail
  | navigated r =>
    refine Unsaving.tail ?_
    split
    · exact unsaving
    · exact unsaving_cons rfl unsaving
  | ended _ | unwatched _ _ _ => exact unsaving.tail
  | passed _ _ _ aloof | watched _ aloof =>
    exact (unsaving_append aloof.unsaving (unsaving_cons rfl unsaving)).tail
  | refused _ _ => exact unsaving
  | taken _ _ => exact unsaving_savings (unsaving_cons rfl unsaving)
  | known _ => exact unsaving_savings (unsaving_cons rfl (unsaving_cons rfl unsaving))
  | unknown _ => exact unsaving_cons rfl unsaving
  | @released _ k _ _ => exact g.agenda_release k ▸ unsaving.tail

theorem Move.waits {g g' : Guide} {t : Task} {o : Option Guidance} (move : Move g t o g')
    (h : Sound { g with agenda := t :: g.agenda }) :
    Waits g'.route.channel g'.guided g'.count := by
  have waits : Waits g.route.channel g.guided g.count := h.waits
  cases move with
  | aside _ _ _ => exact waits
  | navigated r => exact waits.emit r
  | ended turned | passed turned _ _ _ | refused turned _ | taken turned _ =>
    exact waits.advance turned
  | known _ => exact waits.known
  | unknown _ => exact waits.unknown
  | @watched _ i _ _ _ _ => exact waits.watcher i
  | @unwatched _ id _ _ known _ => exact waits.detach (h.apart id (.inl known)).1
  | @released _ k _ _ =>
    unfold release
    split
    · next id held => exact waits.release held
    · exact waits

theorem Move.apart {g g' : Guide} {t : Task} {o : Option Guidance} (move : Move g t o g')
    (h : Sound { g with agenda := t :: g.agenda }) :
    Apart g'.route.channel.nextId g'.guided g'.kept (g'.agenda.filterMap Task.keptRoute?) := by
  have waits : Waits g.route.channel g.guided g.count := h.waits
  -- What is kept is kept already, is kept now or is still to be kept.
  have apart {kept : Nat → Prop} {coming : List Nat}
      (known : ∀ id, kept id ∨ id ∈ coming →
        g.kept id ∨ t.keptRoute? = some id ∨ id ∈ g.agenda.filterMap Task.keptRoute?) :
      Apart g.route.channel.nextId g.guided kept coming := by
    intro id hid
    refine h.apart id ((known id hid).imp_right fun hid => List.mem_filterMap.2 ?_)
    rcases hid with hid | hid
    · exact ⟨t, List.mem_cons_self, hid⟩
    · obtain ⟨u, hu, hid⟩ := List.mem_filterMap.1 hid
      exact ⟨u, List.mem_cons_of_mem _ hu, hid⟩
  have left : Apart g.route.channel.nextId g.guided g.kept
      (g.agenda.filterMap Task.keptRoute?) :=
    apart fun id hid => hid.imp_right .inr
  have booked {kept : Nat → Prop} (keeps : g.Keeps t kept) :
      Apart g.route.channel.nextId g.guided kept (g.agenda.filterMap Task.keptRoute?) := by
    refine apart fun id hid => ?_
    rcases hid with hid | hid
    · exact (keeps id hid).imp_right .inl
    · exact .inr (.inr hid)
  cases move with
  | aside _ aloof keeps =>
    rw [aloof.kept]
    exact booked keeps
  | navigated r =>
    cases under : g.route.channel.delivering with
    | true =>
      rw [if_pos rfl]
      exact left
    | false =>
      rw [if_neg Bool.false_ne_true]
      exact left
  | ended turned | refused turned _ => exact turned.nextId_eq ▸ left
  | passed turned _ _ aloof =>
    rw [aloof.kept]
    exact turned.nextId_eq ▸ left
  | taken turned _ =>
    rw [kept_savings]
    exact turned.nextId_eq ▸ left
  | known _ =>
    rw [kept_savings]
    exact left.update g.count fun _ _ => (Option.some_ne_none _).symm
  | unknown _ =>
    refine (left.update g.count fun id hid => ?_).subscribe
    simpa using Nat.ne_of_gt hid
  | watched _ aloof =>
    rw [aloof.kept]
    exact left.watch waits.made
  | unwatched _ _ keeps => exact booked keeps
  | @released _ k _ _ =>
    rw [agenda_release]
    unfold release
    split
    · exact left.update k fun _ _ => (Option.some_ne_none _).symm
    · exact left

theorem Move.sound {g g' : Guide} {t : Task} {o : Option Guidance} (move : Move g t o g')
    (h : Sound { g with agenda := t :: g.agenda }) : Sound g' :=
  ⟨move.waits h, move.unsaving h.unsaving, move.apart h⟩

/-- Tasks are put in front of those that were there. -/
theorem Move.agenda {g g' : Guide} {t : Task} {o : Option Guidance} (move : Move g t o g') :
    ∃ new, g'.agenda = new ++ g.agenda := by
  cases move with
  | aside _ _ _ | navigated _ => exact ⟨_, rfl⟩
  | ended _ | unwatched _ _ _ => exact ⟨[], rfl⟩
  | @passed _ _ new _ _ _ _ => exact ⟨new ++ [.deliver .route], by simp⟩
  | refused _ _ => exact ⟨[.deliver .route], rfl⟩
  | @taken _ r _ k _ _ => exact ⟨savings k r ++ [.deliver .route], by simp⟩
  | @known name r _ =>
    exact ⟨savings g.count (some r) ++ [.follow g.count, .ready name g.count], by simp⟩
  | @unknown name _ => exact ⟨[.follow g.count, .ready name g.count], rfl⟩
  | @watched _ _ name new _ _ =>
    exact ⟨new ++ [.keep name (.route g.route.channel.nextId)], by simp⟩
  | @released _ k _ _ => exact ⟨[], g.agenda_release k⟩

theorem Move.count {g g' : Guide} {t : Task} {o : Option Guidance} (move : Move g t o g') :
    g.count ≤ g'.count := by
  cases move with
  | aside _ _ _ | navigated _ | ended _ | passed _ _ _ _ | refused _ _ | taken _ _ | watched _ _
  | unwatched _ _ _ => exact Nat.le_refl _
  | known _ | unknown _ => exact Nat.le_succ _
  | @released _ k _ _ => exact Nat.le_of_eq (g.count_release k).symm

end Guide

open Guide

/-! ## It holds at every moment -/

theorem guided_start (answer : Option UInt64) (persisted : Option Request) (route : Option Route)
    (hosts : Hosts) : (start answer persisted route hosts).guide.Sound where
  waits := {
    channel := Channel.wellFormed_empty
    mode := fun _ he => absurd he List.not_mem_nil
    owned := fun _ he => absurd he List.not_mem_nil
    made := by simp [guide, guided?, start]
    listed := by simp [guide, guided?, start]
    injective := by simp [guide, guided?, start] }
  unsaving := unsaving_nil
  apart := by
    rintro id (⟨_, h⟩ | h)
    · exact absurd h List.not_mem_nil
    · exact absurd h List.not_mem_nil

theorem Guide.Sound.take {s : Session} (h : s.guide.Sound) (a : Action) :
    (machine.take s a).guide.Sound :=
  ⟨h.waits, unsaving_nil, fun id hid => h.apart id (.inl (hid.resolve_right List.not_mem_nil))⟩

theorem guide_next {s : Session} {t : Task} {ts : List Task} (h : s.agenda = t :: ts) :
    ({ s.guide with agenda := t :: ts } : Guide) = s.guide := by
  rw [← h]
  rfl

/-- A listing saves only as the very next thing. -/
theorem Guide.Sound.unsaving_rest {s : Session} (h : s.guide.Sound) {t : Task} {ts : List Task}
    (hagenda : s.agenda = t :: ts) : Unsaving ts := by
  have unsaving := h.unsaving
  rwa [show s.guide.agenda = t :: ts from hagenda] at unsaving

theorem Guide.Sound.step {s s' : Session} (h : s.guide.Sound) (taken : s.step = some s') :
    ∃ t ts, s.agenda = t :: ts ∧ Move { s.guide with agenda := ts } t s.guidance? s'.guide ∧
      Unsaving ts ∧ s'.guide.Sound := by
  obtain ⟨t, ts, hagenda, move⟩ := step_move taken
  exact ⟨t, ts, hagenda, move, h.unsaving_rest hagenda,
    move.sound ((guide_next hagenda).symm ▸ h)⟩

/-! ## Agendas and listings -/

/-- A step replaces the first task by what it leads to. -/
theorem step_agenda {s s' : Session} (taken : s.step = some s') :
    ∃ t ts new, s.agenda = t :: ts ∧ s'.agenda = new ++ ts := by
  obtain ⟨t, ts, hagenda, move⟩ := step_move taken
  obtain ⟨new, hnew⟩ := move.agenda
  exact ⟨t, ts, new, hagenda, hnew⟩

theorem count_le_step {s s' : Session} (taken : s.step = some s') :
    s.listings.length ≤ s'.listings.length := by
  obtain ⟨_, _, _, move⟩ := step_move taken
  exact move.count

/-- There are never fewer listings than there were. -/
theorem count_le_of_run {s₀ : Session} {past : List Session} {s : Session}
    (run : machine.Run s₀ past s) :
    ∀ m ∈ past, m.listings.length ≤ s.listings.length := by
  induction run with
  | start => exact fun _ hm => absurd hm List.not_mem_nil
  | input _ _ _ ih => exact ih
  | step _ taken ih =>
    intro m hm
    have more := count_le_step taken
    rcases List.mem_append.1 hm with hm | hm
    · exact Nat.le_trans (ih m hm) more
    · rw [List.mem_singleton.1 hm]
      exact more

end StandingQuery.Session
