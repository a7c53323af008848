import Mathlib.Data.List.Induction
import StandingQuery.Proofs.Session.Consumption

/-! A listing that knows a route when it is activated has saved the request for it, with all that
follows from that, before it runs any. The tasks that its activation puts on the agenda are worked
off from the front, so the last but one of them, with which it begins to follow the persisted
request, is reached only when nothing is left of the save; and no request is handed over for a
listing that does not follow them. -/

namespace StandingQuery.Session

/-! ## Agendas are worked off from the front -/

/-- Some tasks are left above these. -/
def Above (base : List Task) (s : Session) : Prop := ∃ t new, s.agenda = (t :: new) ++ base

/-- How far the tasks above some others have been worked off. -/
inductive Progress (base : List Task) (past : List Session) (s : Session) : Prop where
  | above (before : ∀ m ∈ past, Above base m) (now : Above base s)
  | reached (before : ∀ m ∈ past, Above base m) (now : s.agenda = base)
  | beyond {during later : List Session} {b : Session} (parts : past = during ++ b :: later)
      (before : ∀ m ∈ during, Above base m) (there : b.agenda = base)

theorem above_or_reached {base new : List Task} {s : Session} (h : s.agenda = new ++ base) :
    Above base s ∨ s.agenda = base := by
  cases new with
  | nil => exact .inr h
  | cons t new => exact .inl ⟨t, new, h⟩

theorem progress_of_run {s₀ s : Session} {past : List Session} {base new : List Task}
    (first : s₀.agenda = new ++ base) (something : base ≠ []) (run : machine.Run s₀ past s) :
    Progress base past s := by
  induction run with
  | start =>
    rcases above_or_reached first with above | there
    · exact .above (by simp) above
    · exact .reached (by simp) there
  | @input past s a _ rest ih =>
    have rest : s.agenda = [] := rest
    cases ih with
    | above _ now =>
      obtain ⟨t, new, h⟩ := now
      rw [rest] at h
      cases h
    | reached _ now => exact absurd (now.symm.trans rest) something
    | beyond parts before there => exact .beyond parts before there
  | @step past s s' _ taken ih =>
    cases ih with
    | above before now =>
      obtain ⟨u, us, h⟩ := now
      obtain ⟨t, ts, new, hagenda, hnext⟩ := step_agenda taken
      have left : ts = us ++ base := (List.cons.inj (hagenda.symm.trans h)).2
      have before : ∀ m ∈ past ++ [s], Above base m := by
        intro m hm
        rcases List.mem_append.1 hm with hm | hm
        · exact before m hm
        · rw [List.mem_singleton.1 hm]
          exact ⟨u, us, h⟩
      have next : s'.agenda = (new ++ us) ++ base := by rw [hnext, left, List.append_assoc]
      rcases above_or_reached next with above | there
      · exact .above before above
      · exact .reached before there
    | reached before now => exact .beyond rfl before now
    | @beyond during later b parts before there =>
      have parts : past ++ [s] = during ++ b :: (later ++ [s]) := by
        rw [parts, List.append_assoc]
        rfl
      exact .beyond parts before there

/-! ## Who hands a request over -/

/-- The books agree, and only those who follow the requests hand one over. -/
structure Attended (s : Session) : Prop where
  sound : s.view.Sound
  following : ∀ k, underWay (.follower k) s.agenda ≠ [] → (s.following? k).isSome

theorem attended_start (answer : Option UInt64) (persisted : Option Request)
    (route : Option Route) (hosts : Hosts) : (start answer persisted route hosts).Attended :=
  ⟨sound_start .., fun _ under => absurd rfl under⟩

theorem Attended.take {s : Session} (h : s.Attended) (rest : s.agenda = []) (a : Action) :
    (machine.take s a).Attended :=
  ⟨h.sound.take rest a, fun _ under => absurd rfl under⟩

theorem Attended.step {s s' : Session} (h : s.Attended) (taken : s.step = some s') :
    s'.Attended := by
  obtain ⟨t, ts, hagenda, change, sound⟩ := h.sound.step taken
  exact ⟨sound, fun k => change.following_of_underWay ((view_next hagenda).symm ▸ h.sound)⟩

theorem attended_of_run {answer : Option UInt64} {persisted : Option Request}
    {route : Option Route} {hosts : Hosts} {past : List Session} {s : Session}
    (run : machine.Run (start answer persisted route hosts) past s) :
    s.Attended ∧ ∀ m ∈ past, m.Attended :=
  run.invariant (attended_start ..) (fun _ a rest h => h.take rest a) fun _ _ h taken =>
    h.step taken

/-- A listing that has yet to follow the requests hands none over. -/
theorem Attended.underWay_of_follow {s : Session} (h : s.Attended) {k : Nat}
    (ahead : .follow k ∈ s.agenda) : underWay (.follower k) s.agenda = [] := by
  by_contra under
  have listed : k ∈ s.agenda.filterMap Task.follower? := List.mem_filterMap.2 ⟨_, ahead, rfl⟩
  have free : s.following? k = none := (h.sound.planned.ahead k listed).2
  have following := h.following k under
  rw [free] at following
  cases following

/-- Nor does one that is not there yet. -/
theorem Attended.underWay_of_unknown {s : Session} (h : s.Attended) {k : Nat}
    (unknown : s.listings.length ≤ k) : underWay (.follower k) s.agenda = [] := by
  by_contra under
  obtain ⟨id, held⟩ := Option.isSome_iff_exists.1 (h.following k under)
  exact absurd (h.sound.owned.listed k id held) (Nat.not_lt.2 unknown)

theorem handed_eq_nil {g : Giver} {past : List Session}
    (h : ∀ m ∈ past, m.Attended ∧ underWay g m.agenda = []) : handed g (history past) = [] := by
  induction past using List.reverseRecOn with
  | nil => rfl
  | append_singleton past m ih =>
    obtain ⟨attended, nothing⟩ := h m (by simp)
    rw [history_append, handed_append, attended.sound.handed_occurrence, nothing,
      ih fun m hm => h m (List.mem_append_left _ hm)]
    rfl

/-! ## A known route -/

open Guide

theorem occurrence?_of_started {s : Session} {k : Nat} {r : Option Route}
    (h : s.guidance? = some (.started k r)) : s.occurrence? = some (.activated k) := by
  obtain ⟨t, head, guides⟩ := Option.bind_eq_some_iff.1 h
  rw [occurrence?, head, Option.bind_some]
  unfold Session.guides at guides
  split at guides
  · cases guides
  · cases guides
    rfl
  · split at guides
    · split at guides <;> cases guides
    · split at guides <;> cases guides
    · cases guides
    · cases guides
  · obtain ⟨_, _, other⟩ := Option.map_eq_some_iff.1 guides
    cases other

/-- What an activation with a known route puts on the agenda. -/
theorem activated_of_started {s s' : Session} {k : Nat} {r : Route}
    (activates : s.guidance? = some (.started k (some r))) (taken : s.step = some s') :
    ∃ name rest, s.agenda = .act (.activate name) :: rest ∧ k = s.listings.length ∧
      s'.agenda = savings k (some r) ++ .follow k :: .ready name k :: rest := by
  obtain ⟨t, ts, hagenda, move⟩ := step_move taken
  rw [activates] at move
  generalize hg' : s'.guide = g' at move
  cases move with
  | @known name r present => exact ⟨name, ts, hagenda, rfl, congrArg Guide.agenda hg'⟩

/-- The listing that was activated at `m` begins to follow the persisted request at `b`, and has
saved the request for its route by then. Of all that came of that nothing is left to do. -/
structure Prepared (k : Nat) (r : Route) (past : List Session) (m : Session) (during : List Session)
    (b : Session) : Prop where
  worked : ∃ name rest, m.agenda = .act (.activate name) :: rest ∧
    b.agenda = .follow k :: .ready name k :: rest
  saved : saves k (past ++ m :: during) = [r.initialRequest]
  silent : handed (.follower k) (history (past ++ m :: (during ++ [b]))) = []
  /-- If a delivery of the persisted request began with it, that is over too. -/
  delivered : m.request.channel.delivering = false → b.request.channel.delivering = false

theorem Attended.underWay_of_above {s : Session} (h : s.Attended) {k : Nat} {ts : List Task}
    (above : Above (.follow k :: ts) s) : underWay (.follower k) s.agenda = [] := by
  obtain ⟨t, new, hagenda⟩ := above
  exact h.underWay_of_follow (hagenda ▸ List.mem_append_right _ List.mem_cons_self)

theorem underWay_of_head {s : Session} {t : Task} {ts : List Task} (h : s.agenda = t :: ts)
    (other : t.handover? = none) (g : Giver) : underWay g s.agenda = [] := by
  rw [h, underWay_cons other]

section
variable {answer : Option UInt64} {persisted : Option Request} {route : Option Route}
  {hosts : Hosts} {k : Nat} {past before after : List Session} {s m : Session} {r : Route}

/-- A listing hands nothing over before it begins to follow the persisted request. By then the tasks
that its activation has led to before are worked off. -/
theorem follows_before_handing
    (run : machine.Run (start answer persisted route hosts) past s)
    (parts : past = before ++ m :: after) (activates : m.guidance? = some (.started k (some r)))
    (runs : handed (.follower k) (history (past ++ [s])) ≠ []) :
    ∃ name rest during b later, after = during ++ b :: later ∧
      m.agenda = .act (.activate name) :: rest ∧ b.agenda = .follow k :: .ready name k :: rest ∧
      handed (.follower k) (history (before ++ m :: (during ++ [b]))) = [] := by
  obtain ⟨m', earlier, taken, later⟩ := run.split parts
  obtain ⟨name, rest, hagenda, hk, next⟩ := activated_of_started activates taken
  obtain ⟨now, attended⟩ := attended_of_run run
  have silent {during : List Session} {b : Session} (hd : ∀ n ∈ during, n ∈ after)
      (above : ∀ n ∈ during, Above (.follow k :: .ready name k :: rest) n) (atB : b.Attended)
      (silentB : underWay (.follower k) b.agenda = []) :
      handed (.follower k) (history (before ++ m :: (during ++ [b]))) = [] := by
    apply handed_eq_nil
    intro n hn
    simp only [List.mem_append, List.mem_cons, List.not_mem_nil, or_false] at hn
    rcases hn with hn | rfl | hn | rfl
    · have atN : n.Attended := attended n (by simp [parts, hn])
      exact ⟨atN, atN.underWay_of_unknown (hk ▸ count_le_of_run earlier n hn)⟩
    · exact ⟨attended n (by simp [parts]), underWay_of_head hagenda rfl _⟩
    · have atN : n.Attended := attended n (by simp [parts, hd n hn])
      exact ⟨atN, atN.underWay_of_above (above n hn)⟩
    · exact ⟨atB, silentB⟩
  have whole : past ++ [s] = before ++ m :: (after ++ [s]) := by simp [parts]
  cases progress_of_run next (by simp) later with
  | above above aboveS =>
    rw [whole, silent (fun _ hn => hn) above now (now.underWay_of_above aboveS)] at runs
    exact absurd rfl runs
  | reached above there =>
    rw [whole, silent (fun _ hn => hn) above now (underWay_of_head there rfl _)] at runs
    exact absurd rfl runs
  | @beyond during later b hafter above there =>
    have atB : b.Attended := attended b (by simp [parts, hafter])
    refine ⟨name, rest, during, b, later, hafter, hagenda, there, ?_⟩
    exact silent (fun n hn => by simp [hafter, hn]) above atB (underWay_of_head there rfl _)

theorem prepared_of_run (run : machine.Run (start answer persisted route hosts) past s)
    (clean : ∀ m ∈ past, ∀ r, m.guidance? = some (.started k r) →
      m.route.channel.delivering = false)
    (parts : past = before ++ m :: after) (activates : m.guidance? = some (.started k (some r)))
    (runs : handed (.follower k) (history (past ++ [s])) ≠ []) :
    ∃ during b later, after = during ++ b :: later ∧ Prepared k r before m during b := by
  obtain ⟨name, rest, during, b, later, hafter, hagenda, there, silent⟩ :=
    follows_before_handing run parts activates runs
  obtain ⟨_, attended⟩ := attended_of_run run
  refine ⟨during, b, later, hafter, ⟨name, rest, hagenda, there⟩, ?_, silent, ?_⟩
  · have shape : past = (before ++ m :: during) ++ b :: later := by simp [parts, hafter]
    obtain ⟨_, toB, _, _⟩ := run.split shape
    have takes := takes_of_run toB fun n hn =>
      clean n (shape ▸ List.mem_append_left _ hn)
    have seen : some r ∈ offers k (course (before ++ m :: during)) := by
      refine List.mem_filterMap.2 ⟨.started k (some r), ?_, by simp [Guidance.offered?]⟩
      exact List.mem_filterMap.2 ⟨m, by simp, activates⟩
    have saved := takes.saved
    rw [filterMap_of_dropLast takes.stage.absent_before,
      findSome?_of_dropLast takes.stage.absent_before seen, saves_append, saves_singleton, there]
        at saved
    simpa [nextSave?, Task.saving?] using saved
  · intro idle
    have planned := (attended m (by simp [parts])).sound.planned.delivery
    have planned' := (attended b (by simp [parts, hafter])).sound.planned
    refine planned'.idle ?_
    rw [show m.view.agenda = _ from hagenda, show m.view.request = m.request from rfl, idle]
      at planned
    rw [show b.view.agenda = _ from there]
    exact planned

end

/-! ## What is true at every moment -/

/-- How a listing takes a route. -/
structure TakesRouteOnce (k : Nat) (past : List Session) (s : Session) : Prop where
  /-- What it is shown are the route known when it was activated and those set later, in order. -/
  inOrder : offers k (course past) <+: prospects k (course past)
  /-- None is left out while it finds no present one and has not come to its end. -/
  complete : (∀ r ∈ offers k (course past), r = none) → .released k ∉ course past →
    s.route.channel.delivering = false → offers k (course past) = prospects k (course past)
  /-- After its end it is shown nothing. -/
  silent : Silent k (course past)
  /-- It saves one request for the first present route, and no other; the present moment counts,
  which may be the one of the save. -/
  saved : saves k (past ++ [s]) =
    ((offers k (course past)).findSome? id).toList.map Route.initialRequest
  derived : ∀ q ∈ saves k (past ++ [s]), ∃ r, some r ∈ offers k (course past) ∧ r.Narrows q
  /-- That route is the last one it is shown, and its entry in the registry is gone. -/
  consumed : ∀ r, some r ∈ offers k (course past) →
    (offers k (course past)).getLast? = some (some r) ∧
      ∀ e ∈ s.route.channel.entries, e.target ≠ .listing k
  /-- Where the route was present when it was activated, the save comes before all that it runs. -/
  first : ∀ before m after r, past = before ++ m :: after →
    m.guidance? = some (.started k (some r)) →
    handed (.follower k) (history (past ++ [s])) ≠ [] →
    ∃ during b later, after = during ++ b :: later ∧ Prepared k r before m during b

/-- Whatever happens in a session, a listing that is activated while no route is under delivery
saves a request for the first present route that it is shown, and for no other. -/
theorem takes_route_once {answer : Option UInt64} {persisted : Option Request}
    {route : Option Route} {hosts : Hosts} {k : Nat} {past : List Session} {s : Session}
    (run : machine.Run (start answer persisted route hosts) past s)
    (clean : ∀ m ∈ past, m.occurrence? = some (.activated k) →
      m.route.channel.delivering = false) : TakesRouteOnce k past s := by
  have undelivered (m : Session) (hm : m ∈ past) (r : Option Route)
      (started : m.guidance? = some (.started k r)) : m.route.channel.delivering = false :=
    clean m hm (occurrence?_of_started started)
  have h := takes_of_run run undelivered
  have absent := h.stage.absent_before
  have saved : saves k (past ++ [s]) =
      ((offers k (course past)).findSome? id).toList.map Route.initialRequest := by
    rw [h.saved, filterMap_of_dropLast absent]
  exact {
    inOrder := h.stage.prefix_prospects
    complete := h.stage.complete h.sound.waits.channel
    silent := h.stage.silent
    saved
    derived := by
      intro q hq
      rw [saved, List.mem_map] at hq
      obtain ⟨r, hr, rfl⟩ := hq
      obtain ⟨x, hx, present⟩ := List.exists_of_findSome?_eq_some (Option.mem_toList.1 hr)
      cases present
      exact ⟨r, hx, r.narrows_initialRequest⟩
    consumed := by
      intro r present
      refine ⟨getLast?_of_dropLast absent present, ?_⟩
      intro e he hk
      have held : s.guided? k = some e.id := (h.sound.waits.owned e he k).1 hk
      have ended := h.stage.consumed present e.id held
      have active := h.sound.waits.channel.mem_entries_isActive he
      exact absurd (ended.symm.trans active) (by simp)
    first := fun before m after r parts activates runs =>
      prepared_of_run run undelivered parts activates runs }

def componentRoute : Route := ⟨some "generate", some ""⟩

def flowFileRoute : Route := ⟨none, some "5f0c"⟩

/-- Sets three routes when the first query is run, the last two of them present. -/
def onFirstQueryNavigate : Rule (Option Request) Action :=
  ⟨fun _ _ => true, 1,
    [.navigate none, .navigate (some componentRoute), .navigate (some flowFileRoute)]⟩

/-- A listing that waits takes the first present one of the routes that are set while its first
query is run, and a later listing takes the last of them at once. -/
theorem takes_route_once_nested : ∃ (past : List Session) (s : Session),
    machine.Run (start none none none ⟨[onFirstQueryNavigate], [], []⟩) past s ∧
    (∀ m ∈ past, m.occurrence? = some (.activated 0) → m.route.channel.delivering = false) ∧
    (∀ m ∈ past, m.occurrence? = some (.activated 1) → m.route.channel.delivering = false) ∧
    prospects 0 (course past) = [none, none, some componentRoute, some flowFileRoute] ∧
    offers 0 (course past) = [none, none, some componentRoute] ∧
    saves 0 past = [componentRoute.initialRequest] ∧ saves 1 past = [flowFileRoute.initialRequest] ∧
    handed (.follower 1) (history past) = [flowFileRoute.initialRequest] ∧
    TakesRouteOnce 0 past s ∧ TakesRouteOnce 1 past s := by
  have begun : machine.Run (start none none none ⟨[onFirstQueryNavigate], [], []⟩) [] _ := .start
  have activated := (begun.input (.activate "events") rfl).steps 30
  have later := (activated.input (.activate "late") rfl).steps 20
  refine ⟨_, _, later, ?clean, ?cleanLater, ?_, ?_, ?_, ?_, ?_, takes_route_once later ?clean,
    takes_route_once later ?cleanLater⟩
  all_goals decide +kernel

end StandingQuery.Session
