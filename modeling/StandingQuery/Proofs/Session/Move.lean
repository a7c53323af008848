import StandingQuery.Proofs.Channel.Registry
import StandingQuery.Proofs.Session.Guide

/-! What a step of a session can do to the route and to those who follow it. There are eleven
things, each with what it comes to for the listings, the end of a listing among them. -/

namespace StandingQuery.Session

/-! ## Who is released -/

/-- The listing can be released: none of its methods is under way. -/
def isFree (s : Session) (k : Nat) : Bool := (s.listings[k]?).any (·.uses = 0)

/-- The listing that is torn down or dropped with a task. -/
def releasedBy? (s : Session) : Task → Option Nat
  | .act (.tearDown name) | .ready name _ => (s.names.get? name).filter s.isFree
  | .leave k => if (s.listings[k]?).any fun l => l.uses - 1 = 0 && l.orphan then some k else none
  | _ => none

/-- The two sessions do not differ in what listings follow. -/
structure Alike (s s₁ : Session) : Prop where
  guide : s₁.guide = s.guide
  request : s₁.request = s.request
  following : s₁.following? = s.following?

/-- A task that may release a listing does so, or leaves the route alone. -/
def Disposes (s : Session) (t : Task) : Prop :=
  (∃ k s₁, s.releasedBy? t = some k ∧ s.perform t = s₁.release k ∧ s.Alike s₁) ∨
    (s.releasedBy? t = none ∧ Spares s (s.perform t))

theorem isFree_eq {s : Session} {k : Nat} {l : Listing} (h : s.listings[k]? = some l) :
    s.isFree k = decide (l.uses = 0) := by
  simp [isFree, h]

theorem lt_of_any {ls : List Listing} {k : Nat} {p : Listing → Bool} (h : (ls[k]?).any p = true) :
    k < ls.length := by
  obtain ⟨l, listed, _⟩ := (Option.any_eq_true _ _).1 h
  exact (List.getElem?_eq_some_iff.1 listed).1

/-- Only a listing that is there is released. -/
theorem lt_of_releasedBy? {s : Session} {t : Task} {k : Nat} (h : s.releasedBy? t = some k) :
    k < s.listings.length := by
  unfold releasedBy? at h
  split at h
  · exact lt_of_any (Option.filter_eq_some_iff.1 h).2
  · exact lt_of_any (Option.filter_eq_some_iff.1 h).2
  · obtain ⟨last, hk⟩ := Option.ite_none_right_eq_some.1 h
    cases hk
    exact lt_of_any last
  · cases h

theorem tearDown_disposes (s : Session) (name : String) :
    Disposes s (.act (.tearDown name)) := by
  obtain ⟨k, l, named, listed, does⟩ | ⟨missing, does⟩ :=
    s.withListing_cases name (s.tearDown name)
  · by_cases free : l.uses = 0
    · refine .inl ⟨k, { s with names := s.names.erase name }, ?_, ?_, rfl, rfl, rfl⟩
      · simp [releasedBy?, named, isFree_eq listed, free]
      · rw [perform, act, does, tearDown, if_pos free]
    · refine .inr ⟨by simp [releasedBy?, named, isFree_eq listed, free], ?_⟩
      rw [perform, act, does, tearDown, if_neg free]
      exact spares_note s _
  · refine .inr ⟨?_, ?_⟩
    · rw [releasedBy?, Option.filter_eq_none_iff]
      intro k named
      simp [isFree, missing k named]
    · rw [perform, act, does]
      exact spares_note s _

theorem ready_disposes (s : Session) (name : String) (k : Nat) : Disposes s (.ready name k) := by
  have put : Alike s { s.diagnose .activated with names := s.names.put name k } := ⟨rfl, rfl, rfl⟩
  cases named : s.names.get? name with
  | none =>
    refine .inr ⟨by simp [releasedBy?, named], .of_guide ?_⟩
    simp only [perform, ready, named]
    exact put.guide
  | some older =>
    cases listed : s.listings[older]? with
    | none =>
      refine .inr ⟨by simp [releasedBy?, named, isFree, listed], .of_guide ?_⟩
      simp only [perform, ready, named, abandon, diagnose, note, listed]
      exact put.guide
    | some l =>
      by_cases free : l.uses = 0
      · refine .inl ⟨older, _, ?_, ?_, put⟩
        · simp [releasedBy?, named, isFree_eq listed, free]
        · simp only [perform, ready, named, abandon, diagnose, note, listed, if_pos free]
      · refine .inr ⟨by simp [releasedBy?, named, isFree_eq listed, free], .of_guide ?_⟩
        simp only [perform, ready, named, abandon, diagnose, note, listed, if_neg free]
        exact guide_setListing _ older fun _ => rfl

theorem leave_disposes (s : Session) (k : Nat) : Disposes s (.leave k) := by
  have left : Alike s (s.setListing k fun l => { l with uses := l.uses - 1 }) :=
    ⟨s.guide_setListing k fun _ => rfl, rfl, congrArg View.following (view_setUses s k (· - 1))⟩
  have listed : (s.setListing k fun l => { l with uses := l.uses - 1 }).listings[k]? =
      (s.listings[k]?).map fun l => { l with uses := l.uses - 1 } :=
    List.getElem?_modify_eq ..
  cases h : s.listings[k]? with
  | none =>
    rw [h] at listed
    refine .inr ⟨by simp [releasedBy?, h], .of_guide ?_⟩
    simp only [perform, leave, listed]
    exact left.guide
  | some l =>
    rw [h] at listed
    by_cases last : (l.uses - 1 = 0 && l.orphan) = true
    · refine .inl ⟨k, _, by simpa [releasedBy?, h] using last, ?_, left⟩
      simp only [perform, leave, listed, Option.map_some, last, if_true]
    · refine .inr ⟨by simpa [releasedBy?, h] using last, .of_guide ?_⟩
      simp only [perform, leave, listed, Option.map_some, last]
      exact left.guide

/-! ## What a step comes to -/

/-- What a moment of a session is about, as far as the route goes. -/
inductive Guidance where
  /-- The route is set. -/
  | navigated (r : Option Route)
  /-- A listing is activated with the route that is known then. -/
  | started (k : Nat) (r : Option Route)
  /-- A route reaches a listing that waits for one. -/
  | reached (k : Nat) (r : Option Route)
  /-- A listing is torn down or dropped. -/
  | released (k : Nat)
deriving DecidableEq

def guides (s : Session) : Task → Option Guidance
  | .act (.navigate r) => some (.navigated r)
  | .act (.activate _) => some (.started s.listings.length s.route.value)
  | .deliver .route =>
    match s.route.channel.advance.1 with
    | .called e r | .refused e r =>
      match e.target with
      | .listing k => some (.reached k r)
      | .watcher _ => none
    | .finished | .moved => none
  | t => (s.releasedBy? t).map .released

def guidance? (s : Session) : Option Guidance := s.agenda.head?.bind s.guides

/-- What the moments left behind were about, in order. -/
def course (past : List Session) : List Guidance := past.filterMap guidance?

theorem course_append (past : List Session) (s : Session) :
    course (past ++ [s]) = course past ++ s.guidance?.toList := by
  rw [course, List.filterMap_append]
  cases h : s.guidance? <;> simp [course, h]

/-- What a listing does that a route reaches: it saves the request that a present one leads to. -/
def savings (k : Nat) : Option Route → List Task
  | some r => [.command (.follower k) (.save r.initialRequest)]
  | none => []

namespace Guide

/-- What is kept with a task has been kept, or is put under a name by it. -/
def Keeps (g : Guide) (t : Task) (kept : Nat → Prop) : Prop :=
  ∀ id, kept id → g.kept id ∨ t.keptRoute? = some id

theorem keeps_same (g : Guide) (t : Task) : g.Keeps t g.kept := fun _ h => .inl h

/-- All that a task can do, once it has been taken off the agenda. -/
inductive Move (g : Guide) : Task → Option Guidance → Guide → Prop where
  | aside {t : Task} {new : List Task} {kept : Nat → Prop} (other : t ≠ .deliver .route)
      (aloof : Aloof new) (keeps : g.Keeps t kept) :
      Move g t none { g with kept, agenda := new ++ g.agenda }
  | navigated (r : Option Route) :
      Move g (.act (.navigate r)) (some (.navigated r))
        { g with
          route := g.route.put r
          agenda := (if g.route.channel.delivering then [] else [.deliver .route]) ++ g.agenda }
  /-- The delivery of routes is over. -/
  | ended {c : Channel (Option Route) Follower}
      (turned : Channel.Advances g.route.channel .finished c) :
      Move g (.deliver .route) none { g with route := ⟨g.route.value, c⟩ }
  /-- A turn that goes to no listing. -/
  | passed {turn : Turn (Option Route) Follower} {c : Channel (Option Route) Follower}
      {new : List Task} (turned : Channel.Advances g.route.channel turn c)
      (goesOn : turn ≠ .finished)
      (elsewhere : ∀ e r k, turn = .called e r ∨ turn = .refused e r → e.target ≠ .listing k)
      (aloof : Aloof new) :
      Move g (.deliver .route) none
        { g with route := ⟨g.route.value, c⟩, agenda := new ++ .deliver .route :: g.agenda }
  | refused {e : Entry (Option Route) Follower} {r : Option Route}
      {c : Channel (Option Route) Follower} {k : Nat}
      (turned : Channel.Advances g.route.channel (.refused e r) c)
      (target : e.target = .listing k) :
      Move g (.deliver .route) (some (.reached k r))
        { g with route := ⟨g.route.value, c⟩, agenda := .deliver .route :: g.agenda }
  | taken {e : Entry (Option Route) Follower} {r : Option Route}
      {c : Channel (Option Route) Follower} {k : Nat}
      (turned : Channel.Advances g.route.channel (.called e r) c) (target : e.target = .listing k) :
      Move g (.deliver .route) (some (.reached k r))
        { g with
          route := ⟨g.route.value, c⟩
          agenda := savings k r ++ .deliver .route :: g.agenda }
  /-- A listing is activated that takes the route it knows at once. -/
  | known {name : String} {r : Route} (present : g.route.value = some r) :
      Move g (.act (.activate name)) (some (.started g.count (some r)))
        { g with
          count := g.count + 1
          guided := Function.update g.guided g.count none
          agenda := savings g.count (some r) ++ .follow g.count :: .ready name g.count :: g.agenda }
  /-- A listing is activated that waits for a route. -/
  | unknown {name : String} (absent : g.route.value = none) :
      Move g (.act (.activate name)) (some (.started g.count none))
        { g with
          route := g.route.subscribe (.first Option.isSome) (.listing g.count)
          count := g.count + 1
          guided := Function.update g.guided g.count (some g.route.channel.nextId)
          agenda := .follow g.count :: .ready name g.count :: g.agenda }
  /-- A watcher begins to follow the route. -/
  | watched {t : Task} {i : Nat} {name : String} {new : List Task} (other : t ≠ .deliver .route)
      (aloof : Aloof new) :
      Move g t none
        { g with
          route := g.route.subscribe .every (.watcher i)
          agenda := new ++ .keep name (.route g.route.channel.nextId) :: g.agenda }
  /-- The subscription of a watcher ends. -/
  | unwatched {t : Task} {id : Nat} {kept : Nat → Prop} (other : t ≠ .deliver .route)
      (known : g.kept id) (keeps : g.Keeps t kept) :
      Move g t none { g with route := g.route.detach id, kept }
  | released {t : Task} {k : Nat} (other : t ≠ .deliver .route) (known : k < g.count) :
      Move g t (some (.released k)) (g.release k)

end Guide

open Guide

/-! ## Each task is one of these things -/

theorem Spares.move {s s' : Session} (h : Spares s s') {t : Task} (other : t ≠ .deliver .route) :
    Move s.guide t none s'.guide := by
  obtain ⟨new, aloof, hguide⟩ := h
  rw [hguide]
  exact .aside other aloof (s.guide.keeps_same t)

theorem Disposes.move {s : Session} {t : Task} (h : Disposes s t) (other : t ≠ .deliver .route) :
    Move s.guide t ((s.releasedBy? t).map .released) (s.perform t).guide := by
  rcases h with ⟨k, s₁, ends, does, alike⟩ | ⟨stays, spares⟩
  · rw [ends, does, guide_release, alike.guide]
    exact .released other (lt_of_releasedBy? ends)
  · rw [stays]
    exact spares.move other

theorem guide_takeRoute (s : Session) (k : Nat) (r : Route) :
    (s.takeRoute k r).guide = { s.guide with agenda := savings k (some r) ++ s.agenda } := rfl

theorem activate_move (s : Session) (name : String) :
    Move s.guide (.act (.activate name)) (some (.started s.listings.length s.route.value))
      (s.activate name).guide := by
  unfold activate
  dsimp only
  split
  · next r hr =>
    have present : s.route.value = some r := hr
    rw [present, guide_takeRoute, guide_addListing]
    exact .known (g := s.guide) present
  · next hr =>
    have absent : s.route.value = none := hr
    rw [absent, guide_addListing]
    exact .unknown (g := s.guide) absent

theorem deliverRoute_move (s : Session) :
    Move s.guide (.deliver .route) (s.guides (.deliver .route)) s.deliverRoute.guide := by
  have turned := s.route.channel.advances
  unfold guides deliverRoute Cell.advance
  dsimp only
  generalize s.route.channel.advance.1 = turn at turned
  generalize s.route.channel.advance.2 = c at turned
  cases turn with
  | finished => exact .ended turned
  | moved => exact .passed turned (by simp) (by simp) aloof_nil
  | refused e r =>
    cases target : e.target with
    | listing k =>
      simp only [target]
      exact .refused turned target
    | watcher i =>
      simp only [target]
      refine .passed turned (by simp) (fun e' r' k h => ?_) aloof_nil
      rcases h with h | h <;> cases h
      simp [target]
  | called e r =>
    cases target : e.target with
    | listing k =>
      cases r with
      | none =>
        simp only [target]
        exact .taken turned target
      | some r =>
        simp only [target]
        exact .taken turned target
    | watcher i =>
      simp only [target]
      obtain ⟨new, aloof, hguide⟩ := spares_hearRoute
        (plan { s with route := ⟨s.route.value, c⟩ } [.deliver .route]) i r
      rw [hguide]
      refine .passed turned (by simp) (fun e' r' k h => ?_) aloof
      rcases h with h | h <;> cases h
      simp [target]

theorem watchRoute_move (s : Session) (name : String)
    (rules : List (Rule (Option Request) Action)) :
    Move s.guide (.act (.watchRoute name rules)) none (s.watchRoute name rules).guide := by
  unfold watchRoute
  dsimp only
  obtain ⟨new, aloof, hguide⟩ := spares_hearRoute
    ((({ s with route := s.route.subscribe .every (.watcher s.listeners.length) } : Session)
      |>.addListener name rules).plan [.keep name (.route s.route.channel.nextId)])
    s.listeners.length s.route.value
  rw [hguide]
  exact .watched nofun aloof

theorem unwatch_move {s s₁ : Session} {kept : Nat → Prop}
    (hguide : s₁.guide = { s.guide with kept }) {t : Task} (other : t ≠ .deliver .route)
    (keeps : s.guide.Keeps t kept) {w : Watch} (known : ∀ id, w = .route id → s.guide.kept id) :
    Move s.guide t none (s₁.unwatch w).guide := by
  cases w with
  | route id =>
    have same : (unwatch s₁ (.route id)).guide = { s₁.guide with route := s₁.route.detach id } :=
      rfl
    rw [same, hguide, show s₁.route = s.route from congrArg Guide.route hguide]
    exact .unwatched other (known id rfl) keeps
  | request id | outcomes id =>
    have aside : Move s.guide t none s₁.guide := by
      rw [hguide]
      exact .aside other aloof_nil keeps
    exact aside

theorem keep_move (s : Session) (name : String) (w : Watch) :
    Move s.guide (.keep name w) none (s.keep name w).guide := by
  have put : guide { s with watches := s.watches.put name w } =
      { s.guide with
        kept := fun id => IsKept { s with watches := s.watches.put name w } (.route id) } := rfl
  have keeps : s.guide.Keeps (.keep name w)
      fun id => IsKept { s with watches := s.watches.put name w } (.route id) := by
    rintro id ⟨name', hid⟩
    rcases Named.mem_of_mem_put hid with hid | hid
    · exact .inl ⟨name', hid⟩
    · cases hid
      exact .inr rfl
  unfold keep
  dsimp only
  split
  · next older hold =>
    refine unwatch_move put (by simp) keeps fun id hid => ?_
    exact ⟨name, Named.mem_of_get? (hid ▸ hold)⟩
  · rw [put]
    exact .aside (by simp) aloof_nil keeps

theorem act_move (s : Session) (a : Action) :
    Move s.guide (.act a) (s.guides (.act a)) (s.act a).guide := by
  have found {name : String} {f : Nat → Listing → Session} (h : ∀ k l, Spares s (f k l)) :
      Move s.guide (.act a) none (s.withListing name f).guide := by
    obtain ⟨k, l, _, _, does⟩ | ⟨_, does⟩ := s.withListing_cases name f <;> rw [does]
    · exact (h k l).move nofun
    · exact (spares_note s _).move nofun
  cases a with
  | activate name => exact activate_move s name
  | navigate r => exact .navigated r
  | tearDown name => exact (tearDown_disposes s name).move nofun
  | refresh name => exact found fun k l => spares_refresh s k l
  | clearBy name => exact found fun k _ => (spares_note s _).trans (spares_method _ k _)
  | openSearchBy name => exact found fun k _ => spares_method s k _
  | openEventBy name e => exact found fun k _ => spares_method s k _
  | message name | current name => exact found fun _ _ => spares_note s _
  | command c => exact (spares_plan s (aloof_cons rfl rfl aloof_nil)).move nofun
  | record o => exact (spares_record s o).move nofun
  | watch name rules => exact (spares_watch s name rules).move nofun
  | watchRoute name rules => exact watchRoute_move s name rules
  | watchResults name rules =>
    exact Spares.move ⟨[.keep name (.outcomes _)], aloof_cons rfl rfl aloof_nil, rfl⟩ nofun
  | unwatch name =>
    rw [act]
    split
    · next w hw =>
      have erased : guide { s with watches := s.watches.erase name } =
          { s.guide with
            kept := fun id => IsKept { s with watches := s.watches.erase name } (.route id) } := rfl
      refine unwatch_move erased (by simp) ?_ fun id hid => ?_
      · rintro id ⟨name', hid⟩
        exact .inl ⟨name', Named.mem_of_mem_erase hid⟩
      · exact ⟨name, Named.mem_of_get? (hid ▸ hw)⟩
    · exact (spares_note s _).move nofun

theorem perform_move (s : Session) (t : Task) :
    Move s.guide t (s.guides t) (s.perform t).guide := by
  cases t with
  | act a => exact act_move s a
  | command g c => exact (spares_carryOut s c).move nofun
  | react i before rule v => exact (spares_react ..).move nofun
  | deliver l =>
    cases l with
    | route => exact deliverRoute_move s
    | request => exact (spares_deliverRequest s).move nofun
    | outcomes => exact (spares_deliverOutcome s).move nofun
  | follow k => exact (spares_follow s k).move nofun
  | ready name k => exact (ready_disposes s name k).move nofun
  | keep name w => exact keep_move s name w
  | leave k => exact (leave_disposes s k).move nofun

/-- A step takes the first task off the agenda and performs it. -/
theorem step_move {s s' : Session} (taken : s.step = some s') :
    ∃ t ts, s.agenda = t :: ts ∧ Move { s.guide with agenda := ts } t s.guidance? s'.guide := by
  unfold step at taken
  split at taken
  · cases taken
  · next t ts hagenda =>
    cases taken
    have comes : s.guidance? = guides { s with agenda := ts } t := by
      simp only [guidance?, hagenda]
      rfl
    refine ⟨t, ts, hagenda, ?_⟩
    rw [comes]
    exact perform_move { s with agenda := ts } t

end StandingQuery.Session
