import StandingQuery.Proofs.Channel.Reception
import StandingQuery.Proofs.Session.Activation

/-! A step of a session does one operation at most on the route and one at most on the persisted
request. So each line serves those who follow it as any channel does, whatever becomes of the
others. -/

namespace StandingQuery.Session

open Channel (Operated Served toldTo)

/-- The subscription to the route that is called in the next step, and what it is told. -/
def routeCall? (s : Session) : Option (Nat × Option Route) :=
  match s.agenda with
  | .deliver .route :: _ => s.route.channel.advance.1.call?
  | _ => none

/-- The subscription to the persisted request that is called in the next step, and what it is
told. -/
def requestCall? (s : Session) : Option (Nat × Option Request) :=
  match s.agenda with
  | .deliver .request :: _ => s.request.channel.advance.1.call?
  | _ => none

/-! ## One step -/

open Guide in
theorem route_operated {s s' : Session} (sound : s.guide.Sound) (taken : s.step = some s') :
    Operated s.route.channel s'.route.channel s.routeCall?
      (s.guidance?.bind Guidance.navigated?) := by
  obtain ⟨t, ts, hagenda, move, _, _⟩ := sound.step taken
  have waits := sound.waits
  have quiet (other : t ≠ .deliver .route) : s.routeCall? = none := by
    unfold routeCall?
    split
    · next h =>
      rw [hagenda] at h
      exact absurd (List.cons.inj h).1 other
    · rfl
  have turn (ht : t = .deliver .route) : s.routeCall? = s.route.channel.advance.1.call? := by
    rw [routeCall?, hagenda, ht]
  generalize s.guidance? = o at move
  change Operated s.guide.route.channel s'.guide.route.channel _ _
  generalize s'.guide = g' at move
  cases move with
  | aside other _ _ =>
    rw [quiet other]
    exact .still
  | navigated r =>
    rw [quiet nofun]
    exact .one (.emit r) trivial
  | ended turned | passed turned _ _ _ | refused turned _ | taken turned _ =>
    rw [turn rfl]
    exact turned.operated
  | known _ =>
    rw [quiet nofun]
    exact .still
  | unknown _ =>
    rw [quiet nofun]
    exact .one (.subscribe _ _) trivial
  | watched other _ =>
    rw [quiet other]
    exact .one (.subscribe _ _) trivial
  | @unwatched _ id _ other known _ =>
    rw [quiet other]
    exact .one (.detach id) (sound.apart id (.inl known)).1
  | @released _ k other _ =>
    rw [quiet other]
    unfold Guide.release
    split
    · next id held => exact .one (.detach id) (waits.made k id held)
    · exact .still

open View in
theorem request_operated {s s' : Session} (sound : s.view.Sound) (taken : s.step = some s') :
    Operated s.request.channel s'.request.channel s.requestCall?
      (s.occurrence?.bind Occurrence.emitted?) := by
  obtain ⟨t, ts, hagenda, change, _⟩ := sound.step taken
  have quiet (other : t.deliversRequest = false) : s.requestCall? = none := by
    unfold requestCall?
    split
    · next h =>
      rw [hagenda] at h
      rw [(List.cons.inj h).1] at other
      cases other
    · rfl
  have turn (ht : t = .deliver .request) : s.requestCall? = s.request.channel.advance.1.call? := by
    rw [requestCall?, hagenda, ht]
  generalize s.occurrence? = o at change
  change Operated s.view.request.channel s'.view.request.channel _ _
  generalize s'.view = v' at change
  cases change with
  | aside inert _ _ =>
    rw [quiet inert.delivers]
    cases t.handover? <;> exact .still
  | emitted q task _ =>
    rw [quiet task.delivers]
    exact .one (.emit q) trivial
  | ended turned | passed turned _ _ _ | reached turned _ =>
    rw [turn rfl]
    exact turned.operated
  | began =>
    rw [quiet rfl]
    exact .one (.subscribe _ _) trivial
  | activated _ | refreshed _ _ =>
    rw [quiet rfl]
    exact .still
  | watched task _ _ =>
    rw [quiet task.delivers]
    exact .one (.subscribe _ _) trivial
  | @unwatched _ id _ inert _ known _ =>
    rw [quiet inert.delivers]
    exact .one (.detach id) (sound.apart id (.inl known)).1
  | @released _ k id _ _ inert _ held _ =>
    rw [quiet inert.delivers]
    exact .one (.detach id) (sound.owned.nextId_fresh held)

/-! ## Over a run -/

theorem navigations_course (past : List Session) :
    navigations (course past) = past.filterMap fun m => m.guidance?.bind Guidance.navigated? :=
  List.filterMap_filterMap

theorem emissions_history (past : List Session) :
    emissions (history past) = past.filterMap fun m => m.occurrence?.bind Occurrence.emitted? :=
  List.filterMap_filterMap

section
variable {s₀ s : Session} {past : List Session} {id : Nat}

theorem route_served (run : machine.Run s₀ past s) (sound : ∀ m ∈ past, m.guide.Sound)
    (known : id < s₀.route.channel.nextId) :
    Served s₀.route.channel s.route.channel id (toldTo id (past.filterMap routeCall?))
      (navigations (course past)) := by
  rw [navigations_course]
  refine (Channel.served_of_operated (fun s => s.route.channel) (fun _ _ => rfl) run ?_ known).2
  intro m hm
  refine ⟨(sound m hm).waits.channel, ?_⟩
  intro m' taken
  exact route_operated (sound m hm) taken

theorem request_served (run : machine.Run s₀ past s) (sound : ∀ m ∈ past, m.view.Sound)
    (known : id < s₀.request.channel.nextId) :
    Served s₀.request.channel s.request.channel id (toldTo id (past.filterMap requestCall?))
      (emissions (history past)) := by
  rw [emissions_history]
  refine (Channel.served_of_operated (fun s => s.request.channel) (fun _ _ => rfl) run ?_ known).2
  intro m hm
  refine ⟨(sound m hm).owned.channel, ?_⟩
  intro m' taken
  exact request_operated (sound m hm) taken

end

end StandingQuery.Session
