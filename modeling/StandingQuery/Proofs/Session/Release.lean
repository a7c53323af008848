import StandingQuery.Proofs.Session.Hearing
import StandingQuery.Proofs.Session.Placement

/-! The end of a listing. With its subscriptions its entries leave both registries, and since the
turns that are left of a delivery go only to those who are still subscribed, neither a route nor a
request reaches it any more, whatever waits for it. A listing that is gone stays so: it saves
nothing and runs nothing. The deliveries themselves and what waits are as they were, so that
everybody else is served as if nothing had happened. -/

namespace StandingQuery.Session

open View Guide
open Channel (Drops Served toldTo)

/-! ## A listing that is gone -/

structure Gone (k : Nat) (s : Session) : Prop where
  known : k < s.listings.length
  unguided : s.guided? k = none
  unfollowing : s.following? k = none
  begun : k ∉ s.agenda.filterMap Task.follower?
  unsaving : nextSave? k s.agenda = none

section
variable {k : Nat}

/-- Nobody but a new listing gets a subscription to the route. -/
theorem Guide.Move.unguided {g g' : Guide} {t : Task} {o : Option Guidance} (move : Move g t o g')
    (known : k < g.count) (h : g.guided k = none) : g'.guided k = none := by
  cases move with
  | aside _ _ _ | navigated _ | ended _ | passed _ _ _ _ | refused _ _ | taken _ _ | watched _ _
  | unwatched _ _ _ => exact h
  | known _ | unknown _ =>
    show Function.update g.guided g.count _ k = none
    rw [Function.update_of_ne (Nat.ne_of_lt known), h]
  | @released _ j _ _ =>
    by_cases hj : k = j
    · exact hj ▸ g.guided_release k
    · unfold Guide.release
      split
      · show Function.update g.guided j none k = none
        rw [Function.update_of_ne hj, h]
      · exact h

/-- Whoever has no subscription to the route is shown none. -/
theorem Guide.Move.unseen {g g' : Guide} {t : Task} {o : Option Guidance} (move : Move g t o g')
    (waits : Waits g.route.channel g.guided g.count) (known : k < g.count)
    (h : g.guided k = none) : offers k o.toList = [] := by
  have other {j id : Nat} (held : g.guided j = some id) : j ≠ k := by
    rintro rfl
    rw [h] at held
    cases held
  cases move with
  | aside _ _ _ | navigated _ | ended _ | passed _ _ _ _ | watched _ _ | unwatched _ _ _
  | released _ _ => rfl
  | @refused e r c j turned target =>
    simp [offers, Guidance.offered?, other (waits.refused turned target).1]
  | @taken e r c j turned target =>
    simp [offers, Guidance.offered?, other (waits.called turned target).1]
  | known _ | unknown _ => simp [offers, Guidance.offered?, Nat.ne_of_gt known]

theorem View.Change.unfollowing {v v' : View} {t : Task} {o : Option Occurrence}
    (change : Change v t o v') (elsewhere : t.follower? ≠ some k) (h : v.following k = none) :
    v'.following k = none := by
  cases change with
  | aside _ _ _ | emitted _ _ _ | ended _ | passed _ _ _ _ | reached _ _ | activated _
  | refreshed _ _ | watched _ _ _ | unwatched _ _ _ _ => exact h
  | @began j =>
    have other : k ≠ j := by
      rintro rfl
      exact elsewhere rfl
    show Function.update v.following j _ k = none
    rw [Function.update_of_ne other, h]
  | @released _ j _ _ _ _ _ _ _ =>
    show Function.update v.following j none k = none
    by_cases hj : k = j
    · rw [hj, Function.update_self]
    · rw [Function.update_of_ne hj, h]

/-- The books of a session on the route and on the persisted request. -/
structure Kept (s : Session) : Prop where
  attended : s.Attended
  guided : s.guide.Sound

theorem kept_start (answer : Option UInt64) (persisted : Option Request)
    (route : Option Route) (hosts : Hosts) : (start answer persisted route hosts).Kept :=
  ⟨attended_start .., guided_start ..⟩

theorem Kept.take {s : Session} (h : s.Kept) (rest : s.agenda = []) (a : Action) :
    (machine.take s a).Kept :=
  ⟨h.attended.take rest a, h.guided.take a⟩

theorem Kept.step {s s' : Session} (h : s.Kept) (taken : s.step = some s') : s'.Kept := by
  obtain ⟨_, _, _, _, _, guided⟩ := h.guided.step taken
  exact ⟨h.attended.step taken, guided⟩

theorem kept_of_run {answer : Option UInt64} {persisted : Option Request}
    {route : Option Route} {hosts : Hosts} {past : List Session} {s : Session}
    (run : machine.Run (start answer persisted route hosts) past s) :
    s.Kept ∧ ∀ m ∈ past, m.Kept :=
  run.invariant (kept_start ..) (fun _ a rest h => h.take rest a) fun _ _ h taken => h.step taken

theorem Gone.step {s s' : Session} (h : Gone k s) (kept : s.Kept) (taken : s.step = some s') :
    Gone k s' := by
  obtain ⟨t, ts, hagenda, change, _⟩ := kept.attended.sound.step taken
  obtain ⟨u, us, hagenda', move, unsaving, _⟩ := kept.guided.step taken
  have begun := h.begun
  rw [hagenda] at begun
  have head : t.follower? ≠ some k := fun hk =>
    begun (List.mem_filterMap.2 ⟨t, List.mem_cons_self, hk⟩)
  have rest : k ∉ ts.filterMap Task.follower? := fun hk => begun (followers_rest t ts hk)
  refine ⟨Nat.lt_of_lt_of_le h.known (count_le_step taken), move.unguided h.known h.unguided,
    change.unfollowing head h.unfollowing, change.not_follower h.known rest, ?_⟩
  have saves := move.saves kept.guided.waits unsaving k
  rw [move.unseen kept.guided.waits h.known h.unguided] at saves
  exact Option.toList_eq_nil_iff.1 saves

theorem Gone.take {s : Session} (h : Gone k s) (a : Action) : Gone k (machine.take s a) :=
  ⟨h.known, h.unguided, h.unfollowing, by simp [machine, Task.follower?], rfl⟩

/-- It is about to do nothing. -/
theorem Gone.silent {s : Session} (h : Gone k s) (kept : s.Kept) (q : Request) :
    .command (.follower k) (.save q) ∉ s.agenda ∧
      .command (.follower k) (.resubmit q) ∉ s.agenda := by
  have still : underWay (.follower k) s.agenda = [] := by
    by_contra under
    have following := kept.attended.following k under
    rw [h.unfollowing] at following
    cases following
  have unsaving := h.unsaving
  cases hagenda : s.agenda with
  | nil => simp
  | cons t ts =>
    rw [hagenda] at still unsaving
    have stillTail : Still ts := by
      have := kept.attended.sound.still
      rwa [show s.view.agenda = t :: ts from hagenda] at this
    have unsavingTail := kept.guided.unsaving_rest hagenda
    constructor
    · intro there
      rcases List.mem_cons.1 there with rfl | there
      · simp [nextSave?, Task.saving?] at unsaving
      · cases unsavingTail _ there
    · intro there
      rcases List.mem_cons.1 there with rfl | there
      · simp [underWay, Task.handover?] at still
      · cases stillTail _ there _ q rfl

theorem gone_of_run {s₀ s : Session} {past : List Session} (run : machine.Run s₀ past s)
    (kept : s₀.Kept) (gone : Gone k s₀) :
    (s.Kept ∧ Gone k s) ∧ ∀ m ∈ past, m.Kept ∧ Gone k m := by
  refine run.invariant (P := fun s => s.Kept ∧ Gone k s) ⟨kept, gone⟩ ?_ ?_
  · rintro s a rest ⟨kept, gone⟩
    exact ⟨kept.take rest a, gone.take a⟩
  · rintro s s' ⟨kept, gone⟩ taken
    exact ⟨kept.step taken, gone.step kept taken⟩

theorem Gone.entries {s : Session} (h : Gone k s) (kept : s.Kept) :
    (∀ e ∈ s.route.channel.entries, e.target ≠ .listing k) ∧
      ∀ e ∈ s.request.channel.entries, e.target ≠ .listing k := by
  constructor
  · intro e he hk
    have held : s.guided? k = some e.id := (kept.guided.waits.owned e he k).1 hk
    rw [h.unguided] at held
    cases held
  · intro e he hk
    have held : s.following? k = some e.id := kept.attended.sound.owned.owned e he k hk
    rw [h.unfollowing] at held
    cases held

end

/-! ## The moment of the release -/

theorem following_release (s : Session) (k : Nat) : (s.release k).following? k = none := by
  have view := congrArg View.following (s.view_release k)
  change (s.release k).following? = _ at view
  rw [view]
  split
  · exact Function.update_self ..
  · next free => exact free

theorem request_release (s : Session) (k : Nat) : (s.release k).request =
    match s.following? k with
    | some id => s.request.detach id
    | none => s.request := by
  refine (congrArg View.request (s.view_release k)).trans ?_
  cases s.following? k <;> rfl

theorem route_release (s : Session) (k : Nat) : (s.release k).route =
    match s.guided? k with
    | some id => s.route.detach id
    | none => s.route := by
  refine (congrArg Guide.route (s.guide_release k)).trans ?_
  have own : s.guide.guided k = s.guided? k := rfl
  rw [Guide.release, own]
  cases s.guided? k <;> rfl

section
variable {k : Nat} {m m' : Session}

/-- A moment that is about the end of a listing is followed by its release, and by nothing else that
bears on what listings follow. -/
theorem released_step (ends : m.guidance? = some (.released k)) (taken : m.step = some m') :
    ∃ t ts s₁, m.agenda = t :: ts ∧ releasedBy? { m with agenda := ts } t = some k ∧
      Alike { m with agenda := ts } s₁ ∧ m' = s₁.release k := by
  obtain ⟨t, head, guides⟩ := Option.bind_eq_some_iff.1 ends
  obtain ⟨ts, hagenda⟩ := List.head?_eq_some_iff.1 head
  have does : m' = perform { m with agenda := ts } t := by
    rw [Session.step, hagenda] at taken
    exact (Option.some.inj taken).symm
  have names : releasedBy? { m with agenda := ts } t = some k := by
    unfold Session.guides at guides
    split at guides
    · cases guides
    · cases guides
    · split at guides
      · split at guides <;> cases guides
      · split at guides <;> cases guides
      · cases guides
      · cases guides
    · obtain ⟨j, hj, same⟩ := Option.map_eq_some_iff.1 guides
      cases same
      exact hj
  have disposes (h : Disposes { m with agenda := ts } t) :
      ∃ s₁, Alike { m with agenda := ts } s₁ ∧ m' = s₁.release k := by
    rcases h with ⟨j, s₁, hj, performs, alike⟩ | ⟨none, _⟩
    · obtain rfl : j = k := Option.some.inj (hj.symm.trans names)
      exact ⟨s₁, alike, does.trans performs⟩
    · rw [names] at none
      cases none
  have found : ∃ s₁, Alike { m with agenda := ts } s₁ ∧ m' = s₁.release k := by
    have which := names
    unfold releasedBy? at which
    split at which
    · exact disposes (tearDown_disposes _ _)
    · exact disposes (ready_disposes _ _ _)
    · exact disposes (leave_disposes _ _)
    · cases which
  obtain ⟨s₁, alike, h⟩ := found
  exact ⟨t, ts, s₁, hagenda, names, alike, h⟩

/-- A listing that is released has had a name, or is an orphan. -/
theorem placed_of_releasedBy? {s : Session} {t : Task} (h : s.releasedBy? t = some k) :
    k ∈ s.names.map (·.2) ∨ s.isOrphan k = true := by
  have named {name : String} (h : (s.names.get? name).filter s.isFree = some k) :
      k ∈ s.names.map (·.2) :=
    List.mem_map.2 ⟨(name, k), Named.mem_of_get? (Option.filter_eq_some_iff.1 h).1, rfl⟩
  unfold releasedBy? at h
  split at h
  · exact .inl (named h)
  · exact .inl (named h)
  · obtain ⟨last, hk⟩ := Option.ite_none_right_eq_some.1 h
    cases hk
    obtain ⟨l, listed, last⟩ := (Option.any_eq_true _ _).1 last
    refine .inr ((isOrphan_eq listed).trans ?_)
    simp only [Bool.and_eq_true] at last
    exact last.2
  · cases h

theorem gone_of_released (ends : m.guidance? = some (.released k)) (taken : m.step = some m')
    (kept : m.Kept) (unplaced : Unplaced m.names m.isOrphan m.agenda) : Gone k m' := by
  obtain ⟨t, ts, s₁, hagenda, names, alike, rfl⟩ := released_step ends taken
  have known : k < m.listings.length := lt_of_releasedBy? names
  have guide : (s₁.release k).guide = Guide.release { m.guide with agenda := ts } k := by
    rw [guide_release, alike.guide]
    rfl
  have agenda : (s₁.release k).agenda = ts :=
    (congrArg Guide.agenda guide).trans (agenda_release ..)
  have unsaving := kept.guided.unsaving_rest hagenda
  refine ⟨Nat.lt_of_lt_of_le known (count_le_step taken), ?_, following_release s₁ k, ?_, ?_⟩
  · exact (congrFun (congrArg Guide.guided guide) k).trans (guided_release _ k)
  · rw [agenda]
    intro ahead
    obtain ⟨out, stays⟩ := (hagenda ▸ unplaced).tail.nowhere k ahead
    rcases placed_of_releasedBy? names with named | orphan
    · exact out named
    · exact absurd (stays.symm.trans orphan) (by simp)
  · rw [agenda, nextSave?_eq_none unsaving]

theorem drops_route (ends : m.guidance? = some (.released k)) (taken : m.step = some m')
    (kept : m.Kept) : Drops (.listing k) m.route.channel m'.route.channel := by
  obtain ⟨t, ts, s₁, _, _, alike, rfl⟩ := released_step ends taken
  have waits := kept.guided.waits
  have guided : s₁.guided? = m.guided? := congrArg Guide.guided alike.guide
  have route : s₁.route = m.route := congrArg Guide.route alike.guide
  rw [route_release, guided, route]
  split
  · next id held =>
    apply waits.channel.drops_detach
    intro e he
    have owns : e.target = .listing k ↔ m.guided? k = some e.id := waits.owned e he k
    rw [owns, held]
    exact ⟨fun same => (Option.some.inj same).symm, fun same => congrArg some same.symm⟩
  · next free =>
    apply waits.channel.drops_nothing
    intro e he hk
    have owns : m.guided? k = some e.id := (waits.owned e he k).1 hk
    rw [free] at owns
    cases owns

theorem drops_request (ends : m.guidance? = some (.released k)) (taken : m.step = some m')
    (kept : m.Kept) : Drops (.listing k) m.request.channel m'.request.channel := by
  obtain ⟨t, ts, s₁, _, _, alike, rfl⟩ := released_step ends taken
  have owned := kept.attended.sound.owned
  have following : s₁.following? = m.following? := alike.following
  have request : s₁.request = m.request := alike.request
  rw [request_release, following, request]
  split
  · next id held =>
    apply owned.channel.drops_detach
    intro e he
    constructor
    · intro hk
      exact Option.some.inj ((owned.owned e he k hk).symm.trans held)
    · intro hid
      rw [owned.channel.entry_unique he (owned.registered k id held) hid]
  · next free =>
    apply owned.channel.drops_nothing
    intro e he hk
    have owns := owned.owned e he k hk
    exact absurd (owns.symm.trans free) (by simp)

end

/-! ## What is true at every moment -/

/-- How those who follow a line besides a listing that ended are served: `told` is what a
subscription has been told since and `emitted` what has been emitted. What somebody makes of what he
is told is `answer?`, and `done` is what he has done since. -/
structure ServedOn {α β γ : Type} (c₀ c : Channel α β) (b : β) (told : Nat → List α)
    (emitted : List α) (answer? : β → α → Option γ) (done : β → List γ) : Prop where
  /-- Each gets what waited for him, then what was emitted, once and in order, as long as he
  stays. -/
  served : ∀ e ∈ c₀.entries, e.target ≠ b → Served c₀ c e.id (told e.id) emitted
  /-- When nothing is under delivery he has got all of it. -/
  complete : ∀ e ∈ c₀.entries, e.target ≠ b → c.isActive e.id = true → c.delivering = false →
    told e.id = c₀.waiting e.id ++ emitted
  /-- Whenever he is told something he does what he is to do about it, and nothing else. -/
  reached : ∀ e ∈ c₀.entries, done e.target = (told e.id).filterMap (answer? e.target)

/-- What becomes of a session in which listing `k` is torn down or dropped with the step from `m` to
`m'`. -/
structure EndsForGood (k : Nat) (m m' : Session) (later : List Session) (s : Session) : Prop where
  /-- Its entries are gone and no others; the deliveries under way and what waits stay as they
  are. -/
  route : Drops (.listing k) m.route.channel m'.route.channel
  request : Drops (.listing k) m.request.channel m'.request.channel
  unregistered : ∀ n ∈ later ++ [s], (∀ e ∈ n.route.channel.entries, e.target ≠ .listing k) ∧
    ∀ e ∈ n.request.channel.entries, e.target ≠ .listing k
  /-- It is never about to save or to run anything. -/
  silent : ∀ n ∈ later ++ [s], ∀ q, .command (.follower k) (.save q) ∉ n.agenda ∧
    .command (.follower k) (.resubmit q) ∉ n.agenda
  routes : ServedOn m.route.channel s.route.channel (.listing k)
    (fun id => toldTo id (later.filterMap routeCall?)) (navigations (course later))
    Follower.routeAnswer? fun f => toldTo f.onRoute (later.flatMap answers)
  requests : ServedOn m.request.channel s.request.channel (.listing k)
    (fun id => toldTo id (later.filterMap requestCall?)) (emissions (history later))
    (fun f q => some (f.requestAnswer q)) fun f => toldTo f.onRequest (later.flatMap answers)
  /-- What anyone does about what he is told is noted. -/
  noted : ∀ n ∈ later, List.Forall₂ (Announces s.crew) n.callNotes n.answers

theorem servedOn_of_drops {α β γ : Type} [DecidableEq β] {b : β} {c₀ c₁ c : Channel α β}
    {told : Nat → List α} {emitted : List α} {answer? : β → α → Option γ} {done : β → List γ}
    (drops : Drops b c₀ c₁) (wellFormed : c.WellFormed)
    (served : ∀ id, id < c₁.nextId → Served c₁ c id (told id) emitted)
    (reached : ∀ e ∈ c₀.entries, done e.target = (told e.id).filterMap (answer? e.target)) :
    ServedOn c₀ c b told emitted answer? done := by
  have same (id : Nat) : c₁.waiting id = c₀.waiting id := by
    rw [Channel.waiting, drops.turns, drops.pending, Channel.waiting]
  have known {e : Entry α β} (he : e ∈ c₀.entries) (hb : e.target ≠ b) : e.id < c₁.nextId :=
    Channel.lt_of_isActive (drops.others e he hb)
  refine ⟨?_, ?_, reached⟩
  · intro e he hb
    have h := served e.id (known he hb)
    exact ⟨same e.id ▸ h.inOrder, same e.id ▸ h.exact⟩
  · intro e he hb active idle
    exact same e.id ▸ (served e.id (known he hb)).complete wellFormed active idle

/-- Whatever happens in a session, and wherever in it a listing is torn down or dropped, the listing
has come to its end with that, and nobody else is affected. -/
theorem ends_for_good {answer : Option UInt64} {persisted : Option Request} {route : Option Route}
    {hosts : Hosts} {earlier later : List Session} {m s : Session} {k : Nat}
    (run : machine.Run (start answer persisted route hosts) (earlier ++ m :: later) s)
    (ends : m.guidance? = some (.released k)) :
    ∃ m', m.step = some m' ∧ EndsForGood k m m' later s := by
  obtain ⟨m', before, taken, rest⟩ := run.split rfl
  have keptM : m.Kept := (kept_of_run before).1
  have gone := gone_of_run rest (keptM.step taken)
    (gone_of_released ends taken keptM (unplaced_of_run before).1)
  have all : ∀ n ∈ later ++ [s], n.Kept ∧ Gone k n := by
    intro n hn
    rcases List.mem_append.1 hn with hn | hn
    · exact gone.2 n hn
    · rw [List.mem_singleton.1 hn]
      exact gone.1
  have routeDrops := drops_route ends taken keptM
  have requestDrops := drops_request ends taken keptM
  have manned := (manned_of_run before).1
  have guided : ∀ n ∈ later, n.guide.Sound := fun n hn => (gone.2 n hn).1.guided
  refine ⟨m', taken, routeDrops, requestDrops, fun n hn => (all n hn).2.entries (all n hn).1,
    fun n hn => (all n hn).2.silent (all n hn).1, ?_, ?_, fun n hn =>
    announced_of_run run n (by simp [hn])⟩
  · refine servedOn_of_drops routeDrops gone.1.1.guided.waits.channel
      (fun id known => route_served rest guided known) fun e he => ?_
    have post := manned.posts _ (route_post (Channel.listed_of_entry he))
    exact (post.step manned taken).answers_route (manned.step taken) rest guided
  · refine servedOn_of_drops requestDrops gone.1.1.attended.sound.owned.channel
      (fun id known => request_served rest (fun n hn => (gone.2 n hn).1.attended.sound) known)
      fun e he => ?_
    have post := manned.posts _ (request_post (Channel.listed_of_entry he))
    rw [(post.step manned taken).answers_request (manned.step taken) rest, ← List.filterMap_eq_map]
    rfl

/-- Persists another request when the third query is run, and sets a route. -/
def onThirdQuery : Rule (Option Request) Action :=
  ⟨fun before _ => before == 2, 1,
    [.command (.save freshQuery), .navigate (some componentRoute)]⟩

/-- Tears a listing down when there is a route. -/
def onPresentRoute : Rule (Option Request) Action :=
  ⟨fun _ q => q.isSome, 1, [.tearDown "events"]⟩

/-- A listing is torn down by a watcher of the route while a query of its own is run, with a request
under delivery, another one in line, and a route under delivery that it waits for. All of that still
reaches the other listing, and what is in line reaches the watcher of the requests. So does the
request that is saved for the route. -/
theorem ends_for_good_midway :
    ∃ (earlier : List Session) (m : Session) (later : List Session) (s : Session),
      machine.Run (start none none none ⟨[onThirdQuery], [], []⟩) (earlier ++ m :: later) s ∧
      m.guidance? = some (.released 0) ∧
      m.request.channel.delivering = true ∧ m.request.channel.waiting 2 = [plainQuery, freshQuery] ∧
      m.route.channel.delivering = true ∧ m.route.channel.waiting 1 = [some componentRoute] ∧
      toldTo (.following 1) (later.flatMap answers) =
        [some plainQuery, some freshQuery, some componentRoute.initialRequest] ∧
      toldTo (.listener 4) (later.flatMap answers) =
        [some freshQuery, some componentRoute.initialRequest] ∧
      toldTo (.guided 1) (later.flatMap answers) = [some componentRoute.initialRequest] ∧
      handed (.follower 0) (history (earlier ++ m :: later)) = [.default, plainQuery] ∧
      saves 0 (earlier ++ m :: later) = [] ∧
      ∃ m', m.step = some m' ∧ EndsForGood 0 m m' later s := by
  have begun : machine.Run (start none none none ⟨[onThirdQuery], [], []⟩) [] _ := .start
  have guided := (begun.input (.watchRoute "guide" [onPresentRoute]) rfl).steps 10
  have watched := (guided.input (.watch "requests" []) rfl).steps 10
  have activated := (watched.input (.activate "events") rfl).steps 10
  have joined := (activated.input (.activate "late") rfl).steps 10
  have saved := (joined.input (.command (.save plainQuery)) rfl).steps 60
  have told := saved.at (n := 33) (by decide +kernel)
  refine ⟨_, _, _, _, told, ?ends, ?_, ?_, ?_, ?_, ?_, ?_, ?_, ?_, ?_, ends_for_good told ?ends⟩
  all_goals decide +kernel

end StandingQuery.Session
