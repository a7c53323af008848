import StandingQuery.Proofs.Channel.First
import StandingQuery.Proofs.Session.View

/-! What a step of a session does to those who are told something. It shows in what the step notes
and in the tasks that it plans: a listener's rules are set to work on a request, a listing saves the
request that a route leads to, or has the one run that is to be run for the persisted one. One of
them at most answers in a step, and it is noted whenever one does. -/

namespace StandingQuery

namespace Channel

variable {α β : Type}

/-- Nobody is listed who was not, and no id is given a second time. -/
structure Narrows (c c' : Channel α β) : Prop where
  listed : ∀ e ∈ c'.listed, e ∈ c.listed
  nextId : c.nextId ≤ c'.nextId

theorem Narrows.refl (c : Channel α β) : Narrows c c := ⟨fun _ he => he, Nat.le_refl _⟩

/-- Whatever is done to a channel, if nobody is subscribed. -/
theorem narrows_apply (c : Channel α β) {o : Operation α β}
    (other : ∀ mode b, o ≠ .subscribe mode b) :
    Narrows c (c.apply o) where
  listed := fun _ he => (mem_listed_apply he).resolve_right fun ⟨mode, b, ho, _⟩ => other mode b ho
  nextId := c.nextId_le_apply o

theorem mem_listed_subscribe {c : Channel α β} {mode : Mode α} {b : β} {e : Entry α β}
    (h : e ∈ (c.subscribe mode b).listed) : e ∈ c.listed ∨ e = ⟨c.nextId, mode, b⟩ := by
  refine (mem_listed_apply (o := .subscribe mode b) h).imp_right ?_
  rintro ⟨_, _, ho, rfl⟩
  cases ho
  rfl

end Channel

namespace Session

open Channel (Narrows narrows_apply)

/-! ## What can be seen of a step -/

/-- What the next step notes, in order. -/
def newNotes (s : Session) : List Note := (machine.added (·.notes) (·.notes) s).reverse

/-- What the next step puts in front of the tasks that are left. -/
def newTasks (s : Session) : List Task := machine.added (·.agenda.tail) (·.agenda) s

/-- As what somebody is told something. -/
inductive Role where
  /-- One who carries out commands, or a watcher. -/
  | listener (i : Nat)
  /-- A listing that takes its request from the route. -/
  | guided (k : Nat)
  /-- A listing that has run what is persisted. -/
  | following (k : Nat)
deriving DecidableEq, Repr

/-- Who does something about what he is told, and the request that he is run with, saves or has run:
the rules of a listener are set to work, from the first one on; a listing gives a command. -/
def Task.answer? : Task → Option (Role × Option Request)
  | .react i _ 0 v => some (.listener i, v)
  | .command (.follower k) (.save q) => some (.guided k, some q)
  | .command (.follower k) (.resubmit q) => some (.following k, some q)
  | _ => none

/-- Those who do something in the next step about what they are told, and what. -/
def answers (s : Session) : List (Role × Option Request) := s.newTasks.filterMap Task.answer?

/-- About somebody who is told something. -/
def Note.isCall : Note → Bool
  | .resubmitted _ | .searchOpened | .eventOpened _ | .watched _ _ _ | .completed _ _ _ => true
  | .diagnostic (.derived _) | .diagnostic (.resubmitting _) => true
  | .diagnostic _ | .message _ | .current _ _ _ | .missing _ | .busy _ => false

def callNotes (s : Session) : List Note := s.newNotes.filter Note.isCall

/-- The names of the listeners, by their numbers. -/
def crew (s : Session) : List String := s.listeners.map (·.name)

theorem length_crew (s : Session) : s.crew.length = s.listeners.length := List.length_map _

/-- The note tells of just that answer. -/
inductive Announces (crew : List String) : Note → Role × Option Request → Prop
  | resubmitted (q : Request) : Announces crew (.resubmitted q) (.listener executor, some q)
  | searchOpened : Announces crew .searchOpened (.listener searchDialog, none)
  | eventOpened (id : String) : Announces crew (.eventOpened id) (.listener eventDialog, none)
  | watched {i : Nat} {name : String} (watcher : eventDialog < i) (named : crew[i]? = some name)
      (q : Option Request) (present : Bool) :
      Announces crew (.watched name q present) (.listener i, q)
  | completed {i : Nat} {name : String} (watcher : eventDialog < i) (named : crew[i]? = some name)
      (o : Outcome) (latest : Bool) :
      Announces crew (.completed name o latest) (.listener i, some o.request)
  | derived (k : Nat) (q : Request) :
      Announces crew (.diagnostic (.derived q.isScoped)) (.guided k, some q)
  | resubmitting (k : Nat) (q : Request) :
      Announces crew (.diagnostic (.resubmitting q.isScoped)) (.following k, some q)

theorem Announces.mono {crew crew' : List String} (more : crew <+: crew') {n : Note}
    {a : Role × Option Request} (h : Announces crew n a) : Announces crew' n a := by
  obtain ⟨rest, rfl⟩ := more
  have stays {i : Nat} {name : String} (named : crew[i]? = some name) :
      (crew ++ rest)[i]? = some name := by
    rw [List.getElem?_append_left (List.getElem?_eq_some_iff.1 named).1, named]
  cases h with
  | resubmitted q => exact .resubmitted q
  | searchOpened => exact .searchOpened
  | eventOpened id => exact .eventOpened id
  | watched watcher named q present => exact .watched watcher (stays named) q present
  | completed watcher named o latest => exact .completed watcher (stays named) o latest
  | derived k q => exact .derived k q
  | resubmitting k q => exact .resubmitting k q

/-! ## Those who may be told something -/

/-- A subscription that may still be called, and whom it calls. -/
structure Post where
  line : Line
  id : Nat
  role : Role
deriving DecidableEq, Repr

def Follower.onRoute : Follower → Role
  | .listing k => .guided k
  | .watcher i => .listener i

def Follower.onRequest : Follower → Role
  | .listing k => .following k
  | .watcher i => .listener i

def posts (s : Session) : List Post :=
  s.route.channel.listed.map (fun e => ⟨.route, e.id, e.target.onRoute⟩) ++
    (s.request.channel.listed.map (fun e => ⟨.request, e.id, e.target.onRequest⟩) ++
      s.outcomes.listed.map fun e => ⟨.outcomes, e.id, .listener e.target⟩)

def nextId (s : Session) : Line → Nat
  | .route => s.route.channel.nextId
  | .request => s.request.channel.nextId
  | .outcomes => s.outcomes.nextId

theorem mem_posts {s : Session} {p : Post} : p ∈ s.posts ↔
    (∃ e ∈ s.route.channel.listed, ⟨.route, e.id, e.target.onRoute⟩ = p) ∨
      (∃ e ∈ s.request.channel.listed, ⟨.request, e.id, e.target.onRequest⟩ = p) ∨
        ∃ e ∈ s.outcomes.listed, ⟨.outcomes, e.id, .listener e.target⟩ = p := by
  simp only [posts, List.mem_append, List.mem_map]

section
variable {s : Session}

theorem route_post {e : Entry (Option Route) Follower} (h : e ∈ s.route.channel.listed) :
    ⟨.route, e.id, e.target.onRoute⟩ ∈ s.posts :=
  mem_posts.2 (.inl ⟨e, h, rfl⟩)

theorem request_post {e : Entry (Option Request) Follower} (h : e ∈ s.request.channel.listed) :
    ⟨.request, e.id, e.target.onRequest⟩ ∈ s.posts :=
  mem_posts.2 (.inr (.inl ⟨e, h, rfl⟩))

theorem outcome_post {e : Entry Outcome Nat} (h : e ∈ s.outcomes.listed) :
    ⟨.outcomes, e.id, .listener e.target⟩ ∈ s.posts :=
  mem_posts.2 (.inr (.inr ⟨e, h, rfl⟩))

end

def Has (s : Session) : Role → Prop
  | .listener i => i < s.crew.length
  | .guided k | .following k => k < s.listings.length

/-- The watcher is there. -/
def Watching (s : Session) (i : Nat) : Prop := eventDialog < i ∧ s.Has (.listener i)

/-- The subscription has been made, and the one that it calls is there. -/
def Knows (s : Session) (p : Post) : Prop := p.id < s.nextId p.line ∧ s.Has p.role

/-! ## What the parts of a step tell -/

/-- Between two states: who comes in, and who is told something. -/
structure Tells (s s' : Session) (joins : List Post) (told : List (Role × Option Request)) :
    Prop where
  crew : s.crew <+: s'.crew
  listings : s.listings.length ≤ s'.listings.length
  ids : ∀ l, s.nextId l ≤ s'.nextId l
  posts : ∀ p ∈ s'.posts, p ∈ s.posts ∨ p ∈ joins
  joined : ∀ p ∈ joins, s'.Knows p
  noted : ∃ new, s'.notes = new ++ s.notes ∧
    List.Forall₂ (Announces s'.crew) (new.reverse.filter Note.isCall) told
  planned : ∃ new, s'.agenda = new ++ s.agenda ∧ new.filterMap Task.answer? = told.reverse

namespace Tells

variable {s c d : Session} {joins joins' : List Post} {told told' : List (Role × Option Request)}

theorem has (h : Tells s c joins told) {r : Role} (there : s.Has r) : c.Has r := by
  cases r with
  | listener i => exact Nat.lt_of_lt_of_le there h.crew.length_le
  | guided k | following k => exact Nat.lt_of_lt_of_le there h.listings

theorem knows (h : Tells s c joins told) {p : Post} (known : s.Knows p) : c.Knows p :=
  ⟨Nat.lt_of_lt_of_le known.1 (h.ids _), h.has known.2⟩

theorem watching (h : Tells s c joins told) {i : Nat} (there : s.Watching i) : c.Watching i :=
  ⟨there.1, h.has there.2⟩

theorem trans (h : Tells s c joins told) (h' : Tells c d joins' told') :
    Tells s d (joins ++ joins') (told ++ told') where
  crew := h.crew.trans h'.crew
  listings := Nat.le_trans h.listings h'.listings
  ids := fun l => Nat.le_trans (h.ids l) (h'.ids l)
  posts := by
    intro p hp
    rw [List.mem_append, ← or_assoc]
    exact (h'.posts p hp).imp_left (h.posts p)
  joined := by
    intro p hp
    rcases List.mem_append.1 hp with hp | hp
    · exact h'.knows (h.joined p hp)
    · exact h'.joined p hp
  noted := by
    obtain ⟨n, hn, announced⟩ := h.noted
    obtain ⟨n', hn', announced'⟩ := h'.noted
    refine ⟨n' ++ n, by rw [hn', hn, List.append_assoc], ?_⟩
    rw [List.reverse_append, List.filter_append]
    exact List.rel_append (announced.imp fun _ _ => .mono h'.crew) announced'
  planned := by
    obtain ⟨ts, hts, answered⟩ := h.planned
    obtain ⟨ts', hts', answered'⟩ := h'.planned
    refine ⟨ts' ++ ts, by rw [hts', hts, List.append_assoc], ?_⟩
    rw [List.filterMap_append, answered, answered', List.reverse_append]

/-- What is told next, when nothing has been so far. -/
theorem next (h : Tells s c [] []) (h' : Tells c d joins told) : Tells s d joins told := h.trans h'

/-- Nothing more is told. -/
theorem quietly (h : Tells s c joins told) (h' : Tells c d [] []) : Tells s d joins told := by
  simpa using h.trans h'

/-- Nobody is told anything where nothing is noted or planned. -/
theorem nothing (crew : c.crew = s.crew) (listings : s.listings.length ≤ c.listings.length)
    (route : Narrows s.route.channel c.route.channel)
    (request : Narrows s.request.channel c.request.channel)
    (outcomes : Narrows s.outcomes c.outcomes) (notes : c.notes = s.notes)
    (agenda : c.agenda = s.agenda) : Tells s c [] [] where
  crew := crew ▸ List.prefix_refl _
  listings := listings
  ids := fun l => match l with
    | .route => route.nextId
    | .request => request.nextId
    | .outcomes => outcomes.nextId
  posts := by
    intro p hp
    rw [mem_posts] at hp ⊢
    refine .inl (hp.imp ?_ (.imp ?_ ?_))
    · exact fun ⟨e, he, h⟩ => ⟨e, route.listed e he, h⟩
    · exact fun ⟨e, he, h⟩ => ⟨e, request.listed e he, h⟩
    · exact fun ⟨e, he, h⟩ => ⟨e, outcomes.listed e he, h⟩
  joined := nofun
  noted := ⟨[], notes, .nil⟩
  planned := ⟨[], agenda, rfl⟩

end Tells

section
variable (s : Session)

theorem tells_refl : Tells s s [] [] :=
  .nothing rfl (Nat.le_refl _) (.refl _) (.refl _) (.refl _) rfl rfl

theorem tells_plan (ts : List Task) (silent : ts.filterMap Task.answer? = []) :
    Tells s (s.plan ts) [] [] :=
  { s.tells_refl with planned := ⟨ts, rfl, silent⟩ }

theorem tells_note {n : Note} (silent : n.isCall = false) : Tells s (s.note n) [] [] :=
  { s.tells_refl with noted := ⟨[n], rfl, by simp [silent]⟩ }

theorem tells_setListing (k : Nat) (f : Listing → Listing) : Tells s (s.setListing k f) [] [] :=
  .nothing rfl (Nat.le_of_eq (List.length_modify ..).symm) (.refl _) (.refl _) (.refl _) rfl rfl

theorem tells_addListing (l : Listing) : Tells s (s.addListing l) [] [] := by
  refine .nothing rfl ?_ (.refl _) (.refl _) (.refl _) rfl rfl
  rw [addListing, List.length_append]
  exact Nat.le_add_right ..

theorem tells_route {c : Cell (Option Route) Follower} (h : Narrows s.route.channel c.channel) :
    Tells s { s with route := c } [] [] :=
  .nothing rfl (Nat.le_refl _) h (.refl _) (.refl _) rfl rfl

theorem tells_request {c : Cell (Option Request) Follower}
    (h : Narrows s.request.channel c.channel) :
    Tells s { s with request := c } [] [] :=
  .nothing rfl (Nat.le_refl _) (.refl _) h (.refl _) rfl rfl

theorem tells_outcomes {c : Channel Outcome Nat} (h : Narrows s.outcomes c) :
    Tells s { s with outcomes := c } [] [] :=
  .nothing rfl (Nat.le_refl _) (.refl _) (.refl _) h rfl rfl

end

/-! ## Parts in which nobody is told anything -/

section
variable (s : Session)

theorem tells_react (i before rule : Nat) (v : Option Request) :
    Tells s (s.react i before rule v) [] [] := by
  have again : Tells s (s.plan [.react i before (rule + 1) v]) [] [] := s.tells_plan _ rfl
  unfold react
  split
  · exact s.tells_refl
  · next l there =>
    split
    · dsimp only
      split
      · next acts l' fired =>
        have crew : (s.listeners.set i l').map (·.name) = s.crew :=
          Listener.map_name_set there (Listener.name_of_fire fired)
        have spent : Tells s { s.plan [.react i before (rule + 1) v] with
            listeners := s.listeners.set i l' } [] [] := { again with
          crew := crew ▸ List.prefix_refl _
          noted := ⟨[], rfl, .nil⟩
          joined := nofun }
        refine spent.next (tells_plan _ _ ?_)
        simp [Function.comp_def, Task.answer?]
      · exact again
    · exact s.tells_refl

theorem tells_navigate (r : Option Route) : Tells s (s.navigate r) [] [] := by
  have put : Tells s { s with route := s.route.put r } [] [] :=
    s.tells_route (narrows_apply _ (o := .emit r) nofun)
  refine put.next (tells_plan _ _ ?_)
  split <;> rfl

theorem tells_persist (q : Option Request) : Tells s (s.persist q) [] [] := by
  have put : Tells s { s with request := s.request.put q } [] [] :=
    s.tells_request (narrows_apply _ (o := .emit q) nofun)
  have noted : Tells s { s.diagnose (.changed q.isSome) with request := s.request.put q } [] [] :=
    put.next (tells_note _ rfl)
  unfold persist
  split
  · exact s.tells_refl
  · refine noted.next (tells_plan _ _ ?_)
    split <;> rfl

theorem tells_record (o : Outcome) : Tells s (s.record o) [] [] := by
  have put : Tells s { s with outcomes := s.outcomes.emit o, outcome := some o } [] [] :=
    .nothing rfl (Nat.le_refl _) (.refl _) (.refl _) (narrows_apply _ (o := .emit o) nofun) rfl rfl
  refine (put.next (tells_note _ (n := .diagnostic (.recorded o.results.total)) rfl)).next
    (tells_plan _ (if s.outcomes.delivering then [] else [.deliver .outcomes]) ?_)
  split <;> rfl

theorem tells_method (k : Nat) {c : Command} : Tells s (s.method k c) [] [] :=
  (s.tells_setListing k _).next (tells_plan _ _ rfl)

theorem tells_refresh (k : Nat) (l : Listing) : Tells s (s.refresh k l) [] [] := by
  unfold refresh
  split
  · exact s.tells_method k
  · exact ((s.tells_note rfl).next (tells_setListing _ k _)).next (tells_method _ k)

theorem tells_release (k : Nat) : Tells s (s.release k) [] [] := by
  have unfollowed {s₁ : Session} (h : Tells s s₁ [] []) (id : Nat) :
      Tells s ({ s₁ with request := s₁.request.detach id }.diagnose .tornDown) [] [] :=
    (h.next (s₁.tells_request (narrows_apply _ (o := .detach id) nofun))).next (tells_note _ rfl)
  unfold release
  split
  · exact s.tells_refl
  · next l _ =>
    refine Tells.next ?_ (tells_setListing _ k _)
    have unguided (id : Nat) : Tells s { s with route := s.route.detach id } [] [] :=
      s.tells_route (narrows_apply _ (o := .detach id) nofun)
    cases l.route with
    | none =>
      cases l.request with
      | none => exact s.tells_refl
      | some id => exact unfollowed s.tells_refl id
    | some guided =>
      cases l.request with
      | none => exact unguided guided
      | some id => exact unfollowed (unguided guided) id

theorem tells_abandon (k : Nat) : Tells s (s.abandon k) [] [] := by
  unfold abandon
  split
  · exact s.tells_refl
  · split
    · exact s.tells_release k
    · exact s.tells_setListing k _

theorem tells_names (names : Named Nat) : Tells s { s with names } [] [] :=
  .nothing rfl (Nat.le_refl _) (.refl _) (.refl _) (.refl _) rfl rfl

theorem tells_ready (name : String) (k : Nat) : Tells s (s.ready name k) [] [] := by
  have put : Tells s { s.diagnose .activated with names := s.names.put name k } [] [] :=
    (s.tells_note rfl).next (tells_names _ (s.names.put name k))
  unfold ready
  dsimp only
  split
  · exact put.next (tells_abandon _ _)
  · exact put

theorem tells_leave (k : Nat) : Tells s (s.leave k) [] [] := by
  have left := s.tells_setListing k fun l => { l with uses := l.uses - 1 }
  unfold leave
  dsimp only
  split
  · exact left
  · split
    · exact left.next (tells_release _ k)
    · exact left

theorem tells_tearDown (name : String) (k : Nat) (l : Listing) :
    Tells s (s.tearDown name k l) [] [] := by
  unfold tearDown
  split
  · exact (s.tells_names (s.names.erase name)).next (tells_release _ k)
  · exact s.tells_note rfl

theorem tells_withListing (name : String) {f : Nat → Listing → Session}
    (h : ∀ k l, Tells s (f k l) [] []) : Tells s (s.withListing name f) [] [] := by
  obtain ⟨k, l, _, _, does⟩ | ⟨_, does⟩ := s.withListing_cases name f <;> rw [does]
  · exact h k l
  · exact s.tells_note rfl

theorem tells_unwatch (w : Watch) : Tells s (s.unwatch w) [] [] := by
  cases w with
  | route id => exact s.tells_route (narrows_apply _ (o := .detach id) nofun)
  | request id => exact s.tells_request (narrows_apply _ (o := .detach id) nofun)
  | outcomes id => exact s.tells_outcomes (narrows_apply _ (o := .detach id) nofun)

theorem tells_watches (watches : Named Watch) : Tells s { s with watches } [] [] :=
  .nothing rfl (Nat.le_refl _) (.refl _) (.refl _) (.refl _) rfl rfl

theorem tells_keep (name : String) (w : Watch) : Tells s (s.keep name w) [] [] := by
  have put := s.tells_watches (s.watches.put name w)
  unfold keep
  dsimp only
  split
  · exact put.next (tells_unwatch _ _)
  · exact put

end

end Session
end StandingQuery
