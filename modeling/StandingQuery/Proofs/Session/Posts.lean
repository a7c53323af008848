import StandingQuery.Proofs.Session.Effect
import StandingQuery.Proofs.Session.Sound

/-! Whoever is called on one of the three lines holds a post there: a subscription that calls him.
Nobody holds a second one, nobody else is called for his, and those who carry out commands hold
none. So it can be told from what somebody does which subscription has been called. -/

namespace StandingQuery.Session

open View
open Channel (toldTo toldTo_append toldTo_eq_nil)

/-! ## Posts -/

/-- A post that is known by now, and will be given to nobody else. -/
structure Holds (p : Post) (s : Session) : Prop where
  known : s.Knows p
  watcher : ∀ i, p.role = .listener i → eventDialog < i
  /-- A listing that follows the requests is not to begin it again. -/
  begun : ∀ k, p.role = .following k → k ∉ s.agenda.filterMap Task.follower?
  /-- Nobody else is called for the subscription, and the one whom it calls is called for no
  other. -/
  alone : ∀ q ∈ s.posts, q.line = p.line ∧ q.id = p.id ∨ q.role = p.role → q = p

structure Manned (s : Session) : Prop where
  sound : s.view.Sound
  hosts : eventDialog < s.crew.length
  posts : ∀ p ∈ s.posts, Holds p s

theorem Manned.watching {s : Session} (h : s.Manned) :
    ∀ p ∈ s.posts, ∀ i, p.role = .listener i → s.Watching i :=
  fun p hp i role => ⟨(h.posts p hp).watcher i role, role ▸ (h.posts p hp).known.2⟩

/-- Who comes in with the next step. -/
def newcomer? (s : Session) : Option Post := s.agenda.head?.bind s.taskJoins?

/-- Who is told something in the next step, and what he makes of it. -/
def tells? (s : Session) : Option (Role × Option Request) := s.agenda.head?.bind s.taskTells?

/-- Comes in with the next step, if anyone does. -/
def Enters (s : Session) : Role → Prop
  | .listener i => i = s.crew.length
  | .guided k => k = s.listings.length
  | .following k => s.agenda.head? = some (.follow k)

theorem newcomer?_spec {s : Session} {p : Post} (new : s.newcomer? = some p) :
    p.id = s.nextId p.line ∧ s.Enters p.role := by
  obtain ⟨t, head, joins⟩ := Option.bind_eq_some_iff.1 new
  cases t with
  | act a =>
    cases a with
    | activate name =>
      obtain ⟨_, ⟨⟩⟩ := Option.ite_none_left_eq_some.1 joins
      exact ⟨rfl, rfl⟩
    | watchRoute name rules | watch name rules | watchResults name rules =>
      cases joins
      exact ⟨rfl, rfl⟩
    | tearDown | refresh | clearBy | openSearchBy | openEventBy | message | current | navigate
    | command | record | unwatch => cases joins
  | follow k =>
    cases joins
    exact ⟨rfl, head⟩
  | command | react | deliver | ready | keep | leave => cases joins

/-- Whoever holds a post is there already. -/
theorem Holds.not_enters {s : Session} {p : Post} (h : Holds p s) : ¬ s.Enters p.role := by
  intro enters
  have there := h.known.2
  have begun := h.begun
  cases role : p.role with
  | listener i | guided k =>
    rw [role] at enters there
    exact Nat.lt_irrefl _ (enters ▸ there)
  | following k =>
    rw [role] at enters
    exact begun k role (List.mem_filterMap.2 ⟨_, List.mem_of_head? enters, rfl⟩)

section
variable {s s' : Session} (manned : s.Manned) (taken : s.step = some s')
include manned taken

theorem Manned.not_follower {k : Nat} (known : k < s.listings.length)
    (rest : k ∉ s.agenda.tail.filterMap Task.follower?) :
    k ∉ s'.agenda.filterMap Task.follower? := by
  obtain ⟨t, ts, hagenda, change, _⟩ := manned.sound.step taken
  rw [hagenda] at rest
  exact change.not_follower known rest

theorem Manned.tells : Tells { s with agenda := s.agenda.tail } s' s.newcomer?.toList
    s.tells?.toList := by
  unfold step at taken
  split at taken
  · cases taken
  · next t ts hagenda =>
    obtain rfl := Option.some.inj taken
    rw [newcomer?, tells?, hagenda]
    refine tells_perform (s := { s with agenda := ts }) manned.hosts manned.watching
      fun k hk => (manned.sound.planned.ahead k (List.mem_filterMap.2 ⟨t, ?_, hk⟩)).1
    show t ∈ s.agenda
    rw [hagenda]
    exact List.mem_cons_self

theorem Holds.step {p : Post} (h : Holds p s) : Holds p s' := by
  have tells := manned.tells taken
  refine ⟨tells.knows h.known, h.watcher, fun k role => ?_, fun q hq same => ?_⟩
  · have there := h.known.2
    rw [role] at there
    refine manned.not_follower taken there fun rest => ?_
    obtain ⟨t, ht, hk⟩ := List.mem_filterMap.1 rest
    exact h.begun k role (List.mem_filterMap.2 ⟨t, List.mem_of_mem_tail ht, hk⟩)
  · rcases tells.posts q hq with old | new
    · exact h.alone q old same
    · obtain ⟨fresh, enters⟩ := newcomer?_spec (Option.mem_toList.1 new)
      rcases same with ⟨line, id⟩ | role
      · rw [line, id] at fresh
        exact absurd fresh (Nat.ne_of_lt h.known.1)
      · exact absurd (role ▸ enters) h.not_enters

/-- Whoever comes in gets a post of his own. -/
theorem Manned.new {p : Post} (new : s.newcomer? = some p) : Holds p s' := by
  have tells := manned.tells taken
  obtain ⟨fresh, enters⟩ := newcomer?_spec new
  refine ⟨tells.joined p (Option.mem_toList.2 new), fun i role => ?_, fun k role => ?_,
    fun q hq same => ?_⟩
  · rw [role] at enters
    exact enters ▸ manned.hosts
  · rw [role] at enters
    obtain ⟨ts, hagenda⟩ := List.head?_eq_some_iff.1 enters
    have planned := manned.sound.planned
    rw [show s.view.agenda = .follow k :: ts from hagenda] at planned
    refine manned.not_follower taken (planned.ahead k List.mem_cons_self).1 ?_
    rw [hagenda]
    exact (List.nodup_cons.1 planned.once).1
  · rcases tells.posts q hq with old | new'
    · have holds := manned.posts q old
      rcases same with ⟨line, id⟩ | role
      · rw [← line, ← id] at fresh
        exact absurd fresh (Nat.ne_of_lt holds.known.1)
      · exact absurd (role ▸ enters) holds.not_enters
    · exact Option.some.inj ((Option.mem_toList.1 new').symm.trans new)

theorem Manned.step : s'.Manned := by
  have tells := manned.tells taken
  obtain ⟨_, _, _, _, sound⟩ := manned.sound.step taken
  refine ⟨sound, Nat.lt_of_lt_of_le manned.hosts tells.crew.length_le, fun p hp => ?_⟩
  rcases tells.posts p hp with old | new
  · exact (manned.posts p old).step manned taken
  · exact manned.new taken (Option.mem_toList.1 new)

end

theorem manned_start (answer : Option UInt64) (persisted : Option Request) (route : Option Route)
    (hosts : Hosts) : (start answer persisted route hosts).Manned where
  sound := sound_start answer persisted route hosts
  hosts := Nat.lt_succ_self _
  posts := fun _ hp => absurd hp List.not_mem_nil

/-- What has been asked for from outside changes nothing yet. -/
theorem Holds.take {p : Post} {s : Session} (h : Holds p s) (a : Action) :
    Holds p (machine.take s a) :=
  ⟨h.known, h.watcher, fun _ _ => by simp [machine, Task.follower?], h.alone⟩

theorem Manned.take {s : Session} (h : s.Manned) (rest : s.agenda = []) (a : Action) :
    (machine.take s a).Manned :=
  ⟨h.sound.take rest a, h.hosts, fun p hp => (h.posts p hp).take a⟩

theorem manned_of_run {answer : Option UInt64} {persisted : Option Request}
    {route : Option Route} {hosts : Hosts} {past : List Session} {s : Session}
    (run : machine.Run (start answer persisted route hosts) past s) :
    s.Manned ∧ ∀ m ∈ past, m.Manned :=
  run.invariant (manned_start ..) (fun _ a rest h => h.take rest a) fun _ _ h taken => h.step taken

/-! ## What a step shows -/

theorem Announces.lt {crew : List String} (hosts : eventDialog < crew.length) {n : Note} {i : Nat}
    {v : Option Request} (h : Announces crew n (.listener i, v)) : i < crew.length := by
  cases h with
  | resubmitted q | searchOpened => exact Nat.lt_trans (by decide) hosts
  | eventOpened id => exact hosts
  | watched _ named _ _ | completed _ named _ _ => exact (List.getElem?_eq_some_iff.1 named).1

section
variable {s s' : Session} (manned : s.Manned) (taken : s.step = some s')
include manned taken

/-- **What a step does to those who are told something.** -/
theorem Manned.effect :
    s.answers = s.tells?.toList ∧ List.Forall₂ (Announces s'.crew) s.callNotes s.answers := by
  have tells := manned.tells taken
  obtain ⟨n, hn, announced⟩ := tells.noted
  obtain ⟨ts, hts, answered⟩ := tells.planned
  have notes : s.newNotes = n.reverse := congrArg List.reverse (Machine.added_eq taken hn)
  have tasks : s.newTasks = ts := Machine.added_eq taken hts
  have single : s.tells?.toList.reverse = s.tells?.toList := by cases s.tells? <;> rfl
  have answers : s.answers = s.tells?.toList := by rw [Session.answers, tasks, answered, single]
  exact ⟨answers, by rw [callNotes, notes, answers]; exact announced⟩

/-- A listener that is run is there by then. -/
theorem Manned.ran_known {i : Nat} {v : Option Request} (ran : (.listener i, v) ∈ s.answers) :
    i < s'.crew.length := by
  obtain ⟨answers, announced⟩ := manned.effect taken
  rw [answers, Option.mem_toList] at ran
  rw [answers, ran] at announced
  obtain ⟨n, _, announces, _, _⟩ := List.forall₂_cons_right_iff.1 announced
  exact announces.lt (Nat.lt_of_lt_of_le manned.hosts (manned.tells taken).crew.length_le)

end

/-- Why somebody is told something. -/
inductive Source (s : Session) : Role × Option Request → Prop
  | command {g : Giver} {c : Command} {a : Role × Option Request}
      (head : s.agenda.head? = some (.command g c)) (carried : c.tells? = some a) : Source s a
  /-- He comes in, and there is something to hear already. -/
  | enters {r : Role} {v : Option Request} (enters : s.Enters r) : Source s (r, v)
  | route {e : Entry (Option Route) Follower} {r : Option Route} {v : Option Request}
      (head : s.agenda.head? = some (.deliver .route))
      (turn : s.route.channel.advance.1 = .called e r) (hears : e.target.routeAnswer? r = some v) :
      Source s (e.target.onRoute, v)
  | request {e : Entry (Option Request) Follower} {q : Option Request}
      (head : s.agenda.head? = some (.deliver .request))
      (turn : s.request.channel.advance.1 = .called e q) :
      Source s (e.target.onRequest, e.target.requestAnswer q)
  | outcome {e : Entry Outcome Nat} {o : Outcome}
      (head : s.agenda.head? = some (.deliver .outcomes))
      (turn : s.outcomes.advance.1 = .called e o) : Source s (.listener e.target, some o.request)

theorem source_of_tells? {s : Session} {a : Role × Option Request} (told : s.tells? = some a) :
    Source s a := by
  obtain ⟨t, head, told⟩ := Option.bind_eq_some_iff.1 told
  cases t with
  | act act =>
    cases act with
    | activate name =>
      obtain ⟨r, _, rfl⟩ := Option.map_eq_some_iff.1 told
      exact .enters rfl
    | watchRoute name rules | watch name rules =>
      cases told
      exact .enters rfl
    | tearDown | refresh | clearBy | openSearchBy | openEventBy | message | current | navigate
    | command | record | watchResults | unwatch => cases told
  | command g c => exact .command head told
  | deliver l =>
    cases l with
    | route =>
      cases turn : s.route.channel.advance.1 with
      | called e r =>
        rw [taskTells?, turn] at told
        obtain ⟨v, hears, rfl⟩ := Option.map_eq_some_iff.1 told
        exact .route head turn hears
      | refused | moved | finished =>
        rw [taskTells?, turn] at told
        cases told
    | request =>
      cases turn : s.request.channel.advance.1 with
      | called e q =>
        rw [taskTells?, turn] at told
        cases told
        exact .request head turn
      | refused | moved | finished =>
        rw [taskTells?, turn] at told
        cases told
    | outcomes =>
      cases turn : s.outcomes.advance.1 with
      | called e o =>
        rw [taskTells?, turn] at told
        cases told
        exact .outcome head turn
      | refused | moved | finished =>
        rw [taskTells?, turn] at told
        cases told
  | follow k =>
    cases told
    exact .enters head
  | react | ready | keep | leave => cases told

theorem Command.tells?_role {c : Command} {a : Role × Option Request} (told : c.tells? = some a) :
    ∃ i, i ≤ eventDialog ∧ a.1 = .listener i := by
  cases c with
  | resubmit q | openSearch | openEvent id =>
    cases told
    exact ⟨_, by decide, rfl⟩
  | save q | clear => cases told

/-- Whoever is told something carries out a command, comes in, or holds the post whose turn it
is. -/
theorem Source.cases_role {s : Session} {a : Role × Option Request} (source : Source s a) :
    (∃ g c, s.agenda.head? = some (.command g c) ∧ c.tells? = some a) ∨ s.Enters a.1 ∨
      ∃ p ∈ s.posts, p.role = a.1 ∧ s.agenda.head? = some (.deliver p.line) := by
  cases source with
  | command head carried => exact .inl ⟨_, _, head, carried⟩
  | enters enters => exact .inr (.inl enters)
  | route head turn _ =>
    have turned := s.route.channel.advances
    rw [turn] at turned
    exact .inr (.inr ⟨_, route_post turned.listed_of_called, rfl, head⟩)
  | request head turn =>
    have turned := s.request.channel.advances
    rw [turn] at turned
    exact .inr (.inr ⟨_, request_post turned.listed_of_called, rfl, head⟩)
  | outcome head turn =>
    have turned := s.outcomes.advances
    rw [turn] at turned
    exact .inr (.inr ⟨_, outcome_post turned.listed_of_called, rfl, head⟩)

section
variable {s s' : Session} (manned : s.Manned) (taken : s.step = some s')
include manned taken

/-- Whoever holds a post does nothing in a step that is no turn of his line. -/
theorem Holds.silent {p : Post} (h : Holds p s)
    (other : s.agenda.head? ≠ some (.deliver p.line)) : toldTo p.role s.answers = [] := by
  rw [(manned.effect taken).1]
  refine toldTo_eq_nil fun a ha role => ?_
  rcases (source_of_tells? (Option.mem_toList.1 ha)).cases_role with ⟨_, _, _, carried⟩ |
    enters | ⟨q, hq, same, head⟩
  · obtain ⟨i, host, hi⟩ := Command.tells?_role carried
    exact Nat.not_lt.2 host (h.watcher i (role.symm.trans hi))
  · exact h.not_enters (role ▸ enters)
  · rw [h.alone q hq (.inr (same.trans role))] at head
    exact other head

end

/-- The executor is run for a request that is handed over to it. -/
theorem Manned.executor_spec {s : Session} (manned : s.Manned) {v : Option Request}
    (told : s.tells? = some (.listener executor, v)) :
    ∃ g q, s.agenda.head? = some (.command g (.resubmit q)) ∧ v = some q := by
  rcases (source_of_tells? told).cases_role with ⟨g, c, head, carried⟩ | enters | ⟨p, hp, role, _⟩
  · cases c with
    | resubmit q =>
      cases carried
      exact ⟨g, q, head, rfl⟩
    | save | clear | openSearch | openEvent => cases carried
  · have few : executor = s.crew.length := enters
    exact absurd manned.hosts (Nat.not_lt.2 (few ▸ Nat.zero_le _))
  · exact absurd ((manned.posts p hp).watcher executor role) (by decide)

/-! ## Over a run -/

/-- Listeners keep their numbers and names. -/
theorem Manned.later {s₀ s : Session} {past : List Session} (manned : s₀.Manned)
    (run : machine.Run s₀ past s) : s.Manned ∧ s₀.crew <+: s.crew := by
  induction run with
  | start => exact ⟨manned, List.prefix_refl _⟩
  | input a _ rest ih => exact ⟨ih.1.take rest a, ih.2⟩
  | step _ taken ih => exact ⟨ih.1.step taken, ih.2.trans (ih.1.tells taken).crew⟩

/-- Whenever somebody does something about what he is told it is noted, and nothing else is noted to
be told. -/
theorem announced_of_run {answer : Option UInt64} {persisted : Option Request}
    {route : Option Route} {hosts : Hosts} {past : List Session} {s : Session}
    (run : machine.Run (start answer persisted route hosts) past s) :
    ∀ n ∈ past, List.Forall₂ (Announces s.crew) n.callNotes n.answers := by
  intro n hn
  obtain ⟨front, back, parts⟩ := List.append_of_mem hn
  obtain ⟨n', first, taken, rest⟩ := run.split parts
  have manned := (manned_of_run first).1
  have more := ((manned.step taken).later rest).2
  exact (manned.effect taken).2.imp fun _ _ => .mono more

end StandingQuery.Session
