import StandingQuery.Proofs.Session.Posts
import StandingQuery.Proofs.Session.Service

/-! Whoever follows the route or the persisted request does something whenever his subscription is
called, and at no other time: a watcher is run with what he is told; a listing saves the request
that a route leads to, or has the one run that is to be run for the persisted one. -/

namespace StandingQuery.Session

open Channel (toldTo toldTo_append toldTo_eq_nil)

theorem Follower.onRoute_injective {f g : Follower} (h : f.onRoute = g.onRoute) : f = g := by
  cases f <;> cases g <;> cases h <;> rfl

theorem Follower.onRequest_injective {f g : Follower} (h : f.onRequest = g.onRequest) : f = g := by
  cases f <;> cases g <;> cases h <;> rfl

/-! ## One step -/

section
variable {s s' : Session} {f : Follower} {id : Nat} (manned : s.Manned) (taken : s.step = some s')
include manned taken

theorem Holds.toldTo_request (h : Holds ⟨.request, id, f.onRequest⟩ s) :
    toldTo f.onRequest s.answers = (toldTo id s.requestCall?.toList).map f.requestAnswer := by
  by_cases head : s.agenda.head? = some (.deliver .request)
  · obtain ⟨ts, hagenda⟩ := List.head?_eq_some_iff.1 head
    have call : s.requestCall? = s.request.channel.advance.1.call? := by rw [requestCall?, hagenda]
    have tells : s.tells? = requestTells? s.request.channel.advance.1 := by
      rw [tells?, head]
      rfl
    have turned := s.request.channel.advances
    rw [(manned.effect taken).1, call, tells]
    generalize s.request.channel.advance.1 = turn at turned
    generalize s.request.channel.advance.2 = c at turned
    cases turn with
    | called e q =>
      have post := request_post turned.listed_of_called
      by_cases own : e.id = id
      · have same := h.alone _ post (.inl ⟨rfl, own⟩)
        obtain rfl := Follower.onRequest_injective (congrArg Post.role same)
        simp [toldTo, requestTells?, Turn.call?, own]
      · have other : e.target.onRequest ≠ f.onRequest := fun role =>
          own (congrArg Post.id (h.alone _ post (.inr role)))
        simp [toldTo, requestTells?, Turn.call?, own, other]
    | refused e q =>
      cases turned with
      | refused turns active mode _ =>
        rw [manned.sound.owned.every e (manned.sound.owned.registered_of_turn turns active)] at mode
        cases mode
    | moved | finished => rfl
  · have call : s.requestCall? = none := by
      unfold requestCall?
      split
      · next hagenda => exact absurd (hagenda ▸ rfl) head
      · rfl
    rw [call]
    exact h.silent manned taken head

theorem Holds.toldTo_route (h : Holds ⟨.route, id, f.onRoute⟩ s) (guided : s.guide.Sound) :
    toldTo f.onRoute s.answers = (toldTo id s.routeCall?.toList).filterMap f.routeAnswer? := by
  by_cases head : s.agenda.head? = some (.deliver .route)
  · obtain ⟨ts, hagenda⟩ := List.head?_eq_some_iff.1 head
    have call : s.routeCall? = s.route.channel.advance.1.call? := by rw [routeCall?, hagenda]
    have tells : s.tells? = routeTells? s.route.channel.advance.1 := by
      rw [tells?, head]
      rfl
    have turned := s.route.channel.advances
    rw [(manned.effect taken).1, call, tells]
    generalize s.route.channel.advance.1 = turn at turned
    generalize s.route.channel.advance.2 = c at turned
    cases turn with
    | called e r =>
      have post := route_post turned.listed_of_called
      by_cases own : e.id = id
      · have same := h.alone _ post (.inl ⟨rfl, own⟩)
        obtain rfl := Follower.onRoute_injective (congrArg Post.role same)
        cases answers : e.target.routeAnswer? r <;>
          simp [toldTo, routeTells?, Turn.call?, own, answers]
      · have other : e.target.onRoute ≠ f.onRoute := fun role =>
          own (congrArg Post.id (h.alone _ post (.inr role)))
        cases answers : e.target.routeAnswer? r <;>
          simp [toldTo, routeTells?, Turn.call?, own, other, answers]
    | refused e r =>
      by_cases own : e.id = id
      · obtain ⟨there, _⟩ := guided.waits.registered_of_given turned (.inr rfl)
        have same := h.alone _ (route_post (Channel.listed_of_entry there)) (.inl ⟨rfl, own⟩)
        obtain rfl := Follower.onRoute_injective (congrArg Post.role same)
        cases target : e.target with
        | listing k =>
          obtain ⟨_, _, rfl, _⟩ := guided.waits.refused turned target
          simp [toldTo, routeTells?, Turn.call?, own, Follower.routeAnswer?]
        | watcher i =>
          have every := guided.waits.mode e there
          cases turned with
          | refused _ _ mode _ =>
            rw [mode, target] at every
            cases every
      · simp [toldTo, routeTells?, Turn.call?, own]
    | moved | finished => rfl
  · have call : s.routeCall? = none := by
      unfold routeCall?
      split
      · next hagenda => exact absurd (hagenda ▸ rfl) head
      · rfl
    rw [call]
    exact h.silent manned taken head

end

/-! ## Over a run -/

/-- A post stays what it is. -/
theorem Holds.later {s₀ s : Session} {past : List Session} {p : Post} (h : Holds p s₀)
    (manned : s₀.Manned) (run : machine.Run s₀ past s) :
    (s.Manned ∧ Holds p s) ∧ ∀ m ∈ past, m.Manned ∧ Holds p m := by
  refine run.invariant (P := fun s => s.Manned ∧ Holds p s) ⟨manned, h⟩ ?_ ?_
  · rintro s a rest ⟨manned, h⟩
    exact ⟨manned.take rest a, h.take a⟩
  · rintro s s' ⟨manned, h⟩ taken
    exact ⟨manned.step taken, h.step manned taken⟩

section
variable {s₀ s : Session} {past : List Session} {f : Follower} {id : Nat} (manned : s₀.Manned)
  (run : machine.Run s₀ past s)
include manned run

theorem Holds.answers_request (h : Holds ⟨.request, id, f.onRequest⟩ s₀) :
    toldTo f.onRequest (past.flatMap answers) =
      (toldTo id (past.filterMap requestCall?)).map f.requestAnswer := by
  rw [← List.filterMap_eq_map]
  refine Channel.toldTo_flatMap fun m hm => ?_
  obtain ⟨_, taken⟩ := run.step_of_mem m hm
  obtain ⟨here, holds⟩ := (h.later manned run).2 m hm
  rw [holds.toldTo_request here taken, List.filterMap_eq_map]

theorem Holds.answers_route (h : Holds ⟨.route, id, f.onRoute⟩ s₀)
    (guided : ∀ m ∈ past, m.guide.Sound) :
    toldTo f.onRoute (past.flatMap answers) =
      (toldTo id (past.filterMap routeCall?)).filterMap f.routeAnswer? := by
  refine Channel.toldTo_flatMap fun m hm => ?_
  obtain ⟨_, taken⟩ := run.step_of_mem m hm
  obtain ⟨here, holds⟩ := (h.later manned run).2 m hm
  exact holds.toldTo_route here taken (guided m hm)

end

/-- Whoever begins to follow the requests has done nothing about them before. -/
theorem toldTo_of_entering {s₀ s : Session} {past : List Session} (manned : s₀.Manned)
    (run : machine.Run s₀ past s) {f : Follower} (enters : s.Enters f.onRequest) :
    toldTo f.onRequest (past.flatMap answers) = [] := by
  refine toldTo_eq_nil fun (r, v) hx role => ?_
  obtain rfl : r = f.onRequest := role
  obtain ⟨m, hm, answered⟩ := List.mem_flatMap.1 hx
  obtain ⟨front, back, parts⟩ := List.append_of_mem hm
  obtain ⟨m', first, taken, rest⟩ := run.split parts
  have here := (manned.later first).1
  have next := here.step taken
  cases f with
  | watcher i =>
    have known : i < m'.crew.length := here.ran_known taken answered
    have new : i = s.crew.length := enters
    exact absurd (Nat.lt_of_lt_of_le known (next.later rest).2.length_le) (new ▸ Nat.lt_irrefl _)
  | listing k =>
    have holds : ∃ p, p.role = .following k ∧ Holds p m' := by
      rw [(here.effect taken).1] at answered
      rcases (source_of_tells? (Option.mem_toList.1 answered)).cases_role with ⟨_, _, _, carried⟩ |
        begins | ⟨p, hp, role, _⟩
      · obtain ⟨_, _, host⟩ := Command.tells?_role carried
        cases host
      · refine ⟨⟨.request, m.request.channel.nextId, .following k⟩, rfl, here.new taken ?_⟩
        rw [newcomer?, show m.agenda.head? = some (.follow k) from begins]
        rfl
      · exact ⟨p, role, (here.posts p hp).step here taken⟩
    obtain ⟨p, role, holds⟩ := holds
    exact (holds.later next rest).1.2.not_enters (role ▸ enters)

end StandingQuery.Session
