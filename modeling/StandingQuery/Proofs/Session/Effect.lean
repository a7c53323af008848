import StandingQuery.Proofs.Session.Telling

/-! Who comes in with a task of a session, and who is told something with it. Besides those who
carry out commands these are the targets of the turns, and whoever begins to follow a line on which
there is something to hear already. -/

namespace StandingQuery.Session

open Channel (narrows_apply mem_listed_subscribe)

/-! ## Parts in which somebody comes in -/

section
variable (s : Session)

theorem tells_addListener (name : String) (rules : List (Rule (Option Request) Action)) :
    Tells s (s.addListener name rules) [] [] :=
  { s.tells_refl with
    crew := by
      rw [crew, crew, addListener, List.map_append]
      exact List.prefix_append _ _
    joined := nofun
    noted := ⟨[], rfl, .nil⟩ }

theorem tells_subscribeRoute (mode : Mode (Option Route)) {f : Follower} (there : s.Has f.onRoute) :
    Tells s { s with route := s.route.subscribe mode f }
      [⟨.route, s.route.channel.nextId, f.onRoute⟩] [] :=
  { s.tells_refl with
    ids := fun l => match l with
      | .route => Nat.le_succ _
      | .request | .outcomes => Nat.le_refl _
    posts := by
      intro p hp
      rw [mem_posts] at hp
      rw [mem_posts, List.mem_singleton]
      rcases hp with ⟨e, he, rfl⟩ | others
      · exact (mem_listed_subscribe he).imp (fun he => .inl ⟨e, he, rfl⟩) fun new => by rw [new]
      · exact .inl (.inr others)
    joined := List.forall_mem_singleton.2 ⟨Nat.lt_succ_self _, there⟩ }

theorem tells_subscribeRequest (mode : Mode (Option Request)) {f : Follower}
    (there : s.Has f.onRequest) :
    Tells s { s with request := s.request.subscribe mode f }
      [⟨.request, s.request.channel.nextId, f.onRequest⟩] [] :=
  { s.tells_refl with
    ids := fun l => match l with
      | .request => Nat.le_succ _
      | .route | .outcomes => Nat.le_refl _
    posts := by
      intro p hp
      rw [mem_posts] at hp
      rw [mem_posts, List.mem_singleton]
      rcases hp with route | ⟨e, he, rfl⟩ | outcomes
      · exact .inl (.inl route)
      · exact (mem_listed_subscribe he).imp (fun he => .inr (.inl ⟨e, he, rfl⟩))
          fun new => by rw [new]
      · exact .inl (.inr (.inr outcomes))
    joined := List.forall_mem_singleton.2 ⟨Nat.lt_succ_self _, there⟩ }

theorem tells_subscribeOutcomes (mode : Mode Outcome) {i : Nat} (there : i < s.crew.length) :
    Tells s { s with outcomes := s.outcomes.subscribe mode i }
      [⟨.outcomes, s.outcomes.nextId, .listener i⟩] [] :=
  { s.tells_refl with
    ids := fun l => match l with
      | .outcomes => Nat.le_succ _
      | .route | .request => Nat.le_refl _
    posts := by
      intro p hp
      rw [mem_posts] at hp
      rw [mem_posts, List.mem_singleton]
      rcases hp with route | request | ⟨e, he, rfl⟩
      · exact .inl (.inl route)
      · exact .inl (.inr (.inl request))
      · exact (mem_listed_subscribe he).imp (fun he => .inr (.inr ⟨e, he, rfl⟩))
          fun new => by rw [new]
    joined := List.forall_mem_singleton.2 ⟨Nat.lt_succ_self _, there⟩ }

/-- The next listener is there when it has been added. -/
theorem lt_crew_addListener (name : String) (rules : List (Rule (Option Request) Action)) :
    s.crew.length < (s.addListener name rules).crew.length := by
  simp [crew, addListener]

end

/-! ## Parts in which somebody is told something -/

theorem Announces.isCall {crew : List String} {n : Note} {a : Role × Option Request}
    (h : Announces crew n a) : n.isCall = true := by
  cases h <;> rfl

theorem crew_hear (s : Session) (i : Nat) (v : Option Request) : (s.hear i v).crew = s.crew := by
  unfold hear
  split
  · rfl
  · next l there => exact Listener.map_name_set there rfl

section
variable (s : Session)

theorem tells_hear {i : Nat} {v : Option Request} {n : Note} (there : s.Has (.listener i))
    (announces : Announces s.crew n (.listener i, v)) :
    Tells s ((s.note n).hear i v) [] [(.listener i, v)] := by
  have same : ((s.note n).hear i v).crew = s.crew := crew_hear _ i v
  have known : (s.note n).listeners[i]? = some _ := List.getElem?_eq_getElem (s.length_crew ▸ there)
  simp only [hear, known] at same ⊢
  exact {
    s.tells_refl with
    crew := ⟨[], by rw [List.append_nil, same]⟩
    joined := nofun
    noted := ⟨[n], rfl, by
      rw [List.reverse_singleton, List.filter_cons_of_pos announces.isCall, same]
      exact .cons announces .nil⟩
    planned := ⟨[_], rfl, rfl⟩ }

section
variable {s} {i : Nat} (watching : s.Watching i)
include watching

theorem Watching.named : s.crew[i]? = some (s.nameOf i) := by
  obtain ⟨l, there⟩ : ∃ l, s.listeners[i]? = some l :=
    ⟨_, List.getElem?_eq_getElem (s.length_crew ▸ watching.2)⟩
  simp [crew, nameOf, there]

theorem tells_hearRoute (r : Option Route) :
    Tells s (s.hearRoute i r) [] [(.listener i, r.map Route.initialRequest)] :=
  s.tells_hear watching.2 (.watched watching.1 watching.named _ _)

theorem tells_hearRequest (q : Option Request) :
    Tells s (s.hearRequest i q) [] [(.listener i, q)] :=
  s.tells_hear watching.2 (.watched watching.1 watching.named _ _)

theorem tells_hearOutcome (o : Outcome) :
    Tells s (s.hearOutcome i o) [] [(.listener i, some o.request)] :=
  s.tells_hear watching.2 (.completed watching.1 watching.named _ _)

end

/-- A listing gives a command, and says so. -/
theorem tells_listing {a : Role × Option Request} {n : Note} {t : Task}
    (announces : Announces s.crew n a) (answer : t.answer? = some a) :
    Tells s ((s.note n).plan [t]) [] [a] :=
  { s.tells_refl with
    noted := ⟨[n], rfl, by
      rw [List.reverse_singleton, List.filter_cons_of_pos announces.isCall]
      exact .cons announces .nil⟩
    planned := ⟨[t], rfl, List.filterMap_cons_some answer⟩ }

theorem tells_takeRoute (k : Nat) (r : Route) :
    Tells s (s.takeRoute k r) [] [(.guided k, some r.initialRequest)] :=
  s.tells_listing (.derived k r.initialRequest) rfl

theorem tells_takeRequest (k : Nat) (q : Option Request) :
    Tells s (s.takeRequest k q) [] [(.following k, some (.effective q))] :=
  (s.tells_setListing k _).next (tells_listing _ (.resubmitting k (.effective q)) rfl)

/-- Whom a command is carried out by, and what with. -/
def Command.tells? : Command → Option (Role × Option Request)
  | .resubmit q => some (.listener executor, some q)
  | .openSearch => some (.listener searchDialog, none)
  | .openEvent _ => some (.listener eventDialog, none)
  | .save _ | .clear => none

theorem tells_carryOut (hosts : eventDialog < s.crew.length) (c : Command) :
    Tells s (s.carryOut c) [] c.tells?.toList := by
  cases c with
  | save q => exact s.tells_persist (some q)
  | clear => exact s.tells_persist none
  | resubmit q =>
    have heard := s.tells_hear (i := executor) (Nat.lt_trans (by decide) hosts) (.resubmitted q)
    simp only [carryOut, resubmit]
    split
    · exact heard.quietly (tells_record _ _)
    · exact heard
  | openSearch =>
    exact s.tells_hear (i := searchDialog) (Nat.lt_trans (by decide) hosts) .searchOpened
  | openEvent id => exact s.tells_hear hosts (.eventOpened id)

end

/-! ## All tasks -/

/-- What somebody makes of a route: nothing, if he is a listing and there is none. -/
def Follower.routeAnswer? : Follower → Option Route → Option (Option Request)
  | .watcher _, r => some (r.map Route.initialRequest)
  | .listing _, r => r.map fun r => some r.initialRequest

/-- What somebody makes of the persisted request. -/
def Follower.requestAnswer : Follower → Option Request → Option Request
  | .watcher _, q => q
  | .listing _, q => some (.effective q)

def routeTells? : Turn (Option Route) Follower → Option (Role × Option Request)
  | .called e r => (e.target.routeAnswer? r).map (e.target.onRoute, ·)
  | .refused _ _ | .moved | .finished => none

def requestTells? : Turn (Option Request) Follower → Option (Role × Option Request)
  | .called e q => some (e.target.onRequest, e.target.requestAnswer q)
  | .refused _ _ | .moved | .finished => none

def outcomeTells? : Turn Outcome Nat → Option (Role × Option Request)
  | .called e o => some (.listener e.target, some o.request)
  | .refused _ _ | .moved | .finished => none

/-- Who is told something with a task, and what he makes of it. -/
def taskTells? (s : Session) : Task → Option (Role × Option Request)
  | .act (.activate _) =>
    s.route.value.map fun r => (.guided s.listings.length, some r.initialRequest)
  | .act (.watchRoute _ _) =>
    some (.listener s.crew.length, s.route.value.map Route.initialRequest)
  | .act (.watch _ _) => some (.listener s.crew.length, s.request.value)
  | .command _ c => c.tells?
  | .deliver .route => routeTells? s.route.channel.advance.1
  | .deliver .request => requestTells? s.request.channel.advance.1
  | .deliver .outcomes => outcomeTells? s.outcomes.advance.1
  | .follow k => some (.following k, some (.effective s.request.value))
  | .act _ | .react _ _ _ _ | .ready _ _ | .keep _ _ | .leave _ => none

/-- Who comes in with a task. -/
def taskJoins? (s : Session) : Task → Option Post
  | .act (.activate _) =>
    if s.route.value.isSome then none
    else some ⟨.route, s.route.channel.nextId, .guided s.listings.length⟩
  | .act (.watchRoute _ _) => some ⟨.route, s.route.channel.nextId, .listener s.crew.length⟩
  | .act (.watch _ _) => some ⟨.request, s.request.channel.nextId, .listener s.crew.length⟩
  | .act (.watchResults _ _) => some ⟨.outcomes, s.outcomes.nextId, .listener s.crew.length⟩
  | .follow k => some ⟨.request, s.request.channel.nextId, .following k⟩
  | .act _ | .command _ _ | .deliver _ | .react _ _ _ _ | .ready _ _ | .keep _ _ | .leave _ => none

section
variable (s : Session)

theorem tells_activate (name : String) :
    Tells s (s.activate name) (s.taskJoins? (.act (.activate name))).toList
      (s.taskTells? (.act (.activate name))).toList := by
  have planned : Tells s
      (s.plan [.follow s.listings.length, .ready name s.listings.length]) [] [] :=
    s.tells_plan _ rfl
  have added (route : Option Nat) : Tells s
      ((s.plan [.follow s.listings.length, .ready name s.listings.length]).addListing
        (.following route)) [] [] :=
    planned.next (tells_addListing _ _)
  unfold activate
  dsimp only
  split
  · next r known =>
    have present : s.route.value = some r := known
    simp only [taskJoins?, taskTells?, present]
    exact (added none).next (tells_takeRoute _ _ r)
  · next unknown =>
    have absent : s.route.value = none := unknown
    simp only [taskJoins?, taskTells?, absent]
    refine (added (some s.route.channel.nextId)).next
      (tells_subscribeRoute _ (.first Option.isSome) (f := .listing s.listings.length) ?_)
    show s.listings.length < (s.listings ++ _).length
    simp

theorem tells_follow {k : Nat} (there : k < s.listings.length) : Tells s (s.follow k)
    (s.taskJoins? (.follow k)).toList (s.taskTells? (.follow k)).toList :=
  (s.tells_subscribeRequest .every (f := .listing k) there).trans
    ((tells_setListing _ k _).next (tells_takeRequest _ k s.request.value))

/-- A watcher comes in by the next number. -/
theorem watching_addListener (hosts : eventDialog < s.crew.length) (name : String)
    (rules : List (Rule (Option Request) Action)) :
    Watching (s.addListener name rules) s.crew.length :=
  ⟨hosts, s.lt_crew_addListener name rules⟩

theorem tells_watchRoute (hosts : eventDialog < s.crew.length) (name : String)
    (rules : List (Rule (Option Request) Action)) :
    Tells s (s.watchRoute name rules) (s.taskJoins? (.act (.watchRoute name rules))).toList
      (s.taskTells? (.act (.watchRoute name rules))).toList := by
  have new := s.watching_addListener hosts name rules
  have kept := (tells_subscribeRoute _ .every (f := .watcher s.crew.length) new.2).quietly
    (tells_plan _ [.keep name (.route s.route.channel.nextId)] rfl)
  have told := tells_hearRoute (kept.watching new) s.route.value
  rw [watchRoute, ← s.length_crew]
  exact ((s.tells_addListener name rules).next kept).trans told

theorem tells_watch (hosts : eventDialog < s.crew.length) (name : String)
    (rules : List (Rule (Option Request) Action)) :
    Tells s (s.watch name rules) (s.taskJoins? (.act (.watch name rules))).toList
      (s.taskTells? (.act (.watch name rules))).toList := by
  have new := s.watching_addListener hosts name rules
  have kept := (tells_subscribeRequest _ .every (f := .watcher s.crew.length) new.2).quietly
    (tells_plan _ [.keep name (.request s.request.channel.nextId)] rfl)
  have told := tells_hearRequest (kept.watching new) s.request.value
  rw [watch, ← s.length_crew]
  exact ((s.tells_addListener name rules).next kept).trans told

theorem tells_watchOutcomes (name : String) (rules : List (Rule (Option Request) Action)) :
    Tells s (s.watchOutcomes name rules)
      (s.taskJoins? (.act (.watchResults name rules))).toList [] := by
  have joined := (s.tells_addListener name rules).next
    (tells_subscribeOutcomes _ .every (s.lt_crew_addListener name rules))
  rw [watchOutcomes, ← s.length_crew]
  exact joined.quietly (tells_plan _ _ rfl)

end

section
variable {s : Session} (manned : ∀ p ∈ s.posts, ∀ i, p.role = .listener i → s.Watching i)
include manned

theorem tells_deliverRoute : Tells s s.deliverRoute [] (s.taskTells? (.deliver .route)).toList := by
  have turned := s.route.channel.advances
  have left : Tells s { s with route := s.route.advance.2 } [] [] :=
    s.tells_route (narrows_apply _ (o := .advance) nofun)
  have again := left.next (tells_plan _ [.deliver .route] rfl)
  simp only [deliverRoute, taskTells?, Cell.advance] at left again ⊢
  generalize s.route.channel.advance.1 = turn at turned
  generalize s.route.channel.advance.2 = c at turned left again
  cases turn with
  | finished => exact left
  | moved | refused e r => exact again
  | called e r =>
    cases target : e.target with
    | listing k =>
      cases r with
      | none =>
        simp only [routeTells?, target]
        exact again
      | some r =>
        simp only [routeTells?, target]
        exact again.next (tells_takeRoute _ k r)
    | watcher i =>
      have watching : s.Watching i :=
        manned _ (route_post turned.listed_of_called) i (by rw [target]; rfl)
      simp only [routeTells?, target]
      exact again.next (tells_hearRoute (again.watching watching) r)

theorem tells_deliverRequest :
    Tells s s.deliverRequest [] (s.taskTells? (.deliver .request)).toList := by
  have turned := s.request.channel.advances
  have left : Tells s { s with request := s.request.advance.2 } [] [] :=
    s.tells_request (narrows_apply _ (o := .advance) nofun)
  have again := left.next (tells_plan _ [.deliver .request] rfl)
  simp only [deliverRequest, taskTells?, Cell.advance] at left again ⊢
  generalize s.request.channel.advance.1 = turn at turned
  generalize s.request.channel.advance.2 = c at turned left again
  cases turn with
  | finished => exact left
  | moved | refused e q => exact again
  | called e q =>
    cases target : e.target with
    | listing k =>
      simp only [requestTells?, target]
      exact again.next (tells_takeRequest _ k q)
    | watcher i =>
      have watching : s.Watching i :=
        manned _ (request_post turned.listed_of_called) i (by rw [target]; rfl)
      simp only [requestTells?, target]
      exact again.next (tells_hearRequest (again.watching watching) q)

theorem tells_deliverOutcome :
    Tells s s.deliverOutcome [] (s.taskTells? (.deliver .outcomes)).toList := by
  have turned := s.outcomes.advances
  have left : Tells s { s with outcomes := s.outcomes.advance.2 } [] [] :=
    s.tells_outcomes (narrows_apply _ (o := .advance) nofun)
  have again := left.next (tells_plan _ [.deliver .outcomes] rfl)
  simp only [deliverOutcome, taskTells?] at left again ⊢
  generalize s.outcomes.advance.1 = turn at turned
  generalize s.outcomes.advance.2 = c at turned left again
  cases turn with
  | finished => exact left
  | moved | refused e o => exact again
  | called e o =>
    have watching : s.Watching e.target :=
      manned _ (outcome_post turned.listed_of_called) e.target rfl
    exact again.next (tells_hearOutcome (again.watching watching) o)

end

theorem tells_act (s : Session) (hosts : eventDialog < s.crew.length) (a : Action) :
    Tells s (s.act a) (s.taskJoins? (.act a)).toList (s.taskTells? (.act a)).toList := by
  cases a with
  | activate name => exact s.tells_activate name
  | tearDown name => exact s.tells_withListing name (s.tells_tearDown name)
  | refresh name => exact s.tells_withListing name s.tells_refresh
  | clearBy name =>
    exact s.tells_withListing name fun k _ => (s.tells_note rfl).next (tells_method _ k)
  | openSearchBy name | openEventBy name e =>
    exact s.tells_withListing name fun k _ => s.tells_method k
  | message name | current name => exact s.tells_withListing name fun _ _ => s.tells_note rfl
  | navigate r => exact s.tells_navigate r
  | command c => exact s.tells_plan _ rfl
  | record o => exact s.tells_record o
  | watch name rules => exact s.tells_watch hosts name rules
  | watchRoute name rules => exact s.tells_watchRoute hosts name rules
  | watchResults name rules => exact s.tells_watchOutcomes name rules
  | unwatch name =>
    rw [act]
    split
    · next w _ => exact (s.tells_watches (s.watches.erase name)).next (tells_unwatch _ w)
    · exact s.tells_note rfl

/-- Somebody comes in, and somebody is told something, in these ways and in no others. -/
theorem tells_perform {s : Session} (hosts : eventDialog < s.crew.length)
    (manned : ∀ p ∈ s.posts, ∀ i, p.role = .listener i → s.Watching i) {t : Task}
    (follows : ∀ k, t.follower? = some k → k < s.listings.length) :
    Tells s (s.perform t) (s.taskJoins? t).toList (s.taskTells? t).toList := by
  cases t with
  | act a => exact s.tells_act hosts a
  | command g c => exact s.tells_carryOut hosts c
  | react i before rule v => exact s.tells_react i before rule v
  | deliver l =>
    cases l with
    | route => exact tells_deliverRoute manned
    | request => exact tells_deliverRequest manned
    | outcomes => exact tells_deliverOutcome manned
  | follow k => exact s.tells_follow (follows k rfl)
  | ready name k => exact s.tells_ready name k
  | keep name w => exact s.tells_keep name w
  | leave k => exact s.tells_leave k

end StandingQuery.Session
