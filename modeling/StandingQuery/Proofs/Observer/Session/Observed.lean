import StandingQuery.Proofs.Observer.Channel
import StandingQuery.Proofs.Observer.Session.Script

/-! Two sessions of which the first one has observers besides. Observers watch the three lines, so
those and the list of listeners are alike only; the listings and all that they do are the same, but
for the numbers of their subscriptions. -/

namespace StandingQuery.Session

variable (extra : String → Bool)

/-- The numbers of the subscriptions to the three lines and of the listeners, with and without the
observers. -/
structure Numbers where
  routes : Pairing
  ids : Pairing
  outs : Pairing
  people : Pairing

namespace Numbers

/-- A listener is added in both sessions, or in the first one only. -/
def meet (N : Numbers) : Numbers := { N with people := N.people.both }

def meetAlone (N : Numbers) : Numbers := { N with people := N.people.one }

/-- A subscription to the route. -/
def approach (N : Numbers) : Numbers := { N with routes := N.routes.both }

def approachAlone (N : Numbers) : Numbers := { N with routes := N.routes.one }

/-- A subscription to the persisted request. -/
def enroll (N : Numbers) : Numbers := { N with ids := N.ids.both }

def enrollAlone (N : Numbers) : Numbers := { N with ids := N.ids.one }

/-- A subscription to the outcomes. -/
def attend (N : Numbers) : Numbers := { N with outs := N.outs.both }

def attendAlone (N : Numbers) : Numbers := { N with outs := N.outs.one }

structure Grows (N N' : Numbers) : Prop where
  routes : N.routes.Grows N'.routes
  ids : N.ids.Grows N'.ids
  outs : N.outs.Grows N'.outs
  people : N.people.Grows N'.people

end Numbers

inductive FollowerAlike (people : Pairing) : Follower → Follower → Prop where
  | listing (k : Nat) : FollowerAlike people (.listing k) (.listing k)
  | watcher {i j : Nat} (h : people.same i j) : FollowerAlike people (.watcher i) (.watcher j)

inductive FollowerAlone (people : Pairing) : Follower → Prop where
  | watcher {i : Nat} (h : people.Alone i) : FollowerAlone people (.watcher i)

/-- The route or the persisted request, with its followers. -/
def CellAlike {α : Type} (ids people : Pairing) : Cell α Follower → Cell α Follower → Prop :=
  Cell.Alike ids (FollowerAlike people) (FollowerAlone people)

inductive WatchAlike (N : Numbers) : Watch → Watch → Prop where
  | route {i j : Nat} (h : N.routes.same i j) : WatchAlike N (.route i) (.route j)
  | request {i j : Nat} (h : N.ids.same i j) : WatchAlike N (.request i) (.request j)
  | outcomes {i j : Nat} (h : N.outs.same i j) : WatchAlike N (.outcomes i) (.outcomes j)

inductive WatchAlone (N : Numbers) : Watch → Prop where
  | route {i : Nat} (h : N.routes.Alone i) : WatchAlone N (.route i)
  | request {i : Nat} (h : N.ids.Alone i) : WatchAlone N (.request i)
  | outcomes {i : Nat} (h : N.outs.Alone i) : WatchAlone N (.outcomes i)

inductive TaskAlike (N : Numbers) : Task → Task → Prop where
  | act {a a' : Action} (h : a.without extra = some a') (passive : a.isPassive extra = true) :
      TaskAlike N (.act a) (.act a')
  | command (g : Giver) (c : Command) : TaskAlike N (.command g c) (.command g c)
  | react {i j : Nat} (h : N.people.same i j) (before rule : Nat) (v : Option Request) :
      TaskAlike N (.react i before rule v) (.react j before rule v)
  | deliver (l : Line) : TaskAlike N (.deliver l) (.deliver l)
  | follow (k : Nat) : TaskAlike N (.follow k) (.follow k)
  | ready (name : String) (k : Nat) : TaskAlike N (.ready name k) (.ready name k)
  | keep {name : String} {w w' : Watch} (other : extra name = false) (h : WatchAlike N w w') :
      TaskAlike N (.keep name w) (.keep name w')
  | leave (k : Nat) : TaskAlike N (.leave k) (.leave k)

inductive TaskAlone (N : Numbers) : Task → Prop where
  | act {a : Action} (h : a.without extra = none) (passive : a.isPassive extra = true) :
      TaskAlone N (.act a)
  | react {i : Nat} (h : N.people.Alone i) (before rule : Nat) (v : Option Request) :
      TaskAlone N (.react i before rule v)
  | keep {name : String} {w : Watch} (he : extra name = true) (h : WatchAlone N w) :
      TaskAlone N (.keep name w)

structure ListingAlike (N : Numbers) (l l' : Listing) : Prop where
  cache : l.cache = l'.cache
  route : N.routes.SameOrNone l.route l'.route
  request : N.ids.SameOrNone l.request l'.request
  uses : l.uses = l'.uses
  orphan : l.orphan = l'.orphan

structure ListingsAlike (N : Numbers) (ls ls' : List Listing) : Prop where
  count : ls.length = ls'.length
  each : ∀ (k : Nat) l l', ls[k]? = some l → ls'[k]? = some l' → ListingAlike N l l'

/-- Two sessions alike. `old` is what had been noted before the present action, the latest first,
with and without the observers. -/
structure Observed (old : List Note × List Note) (N : Numbers) (s t : Session) : Prop where
  answer : s.answer = t.answer
  route : CellAlike N.routes N.people s.route t.route
  request : CellAlike N.ids N.people s.request t.request
  outcomes : Channel.Alike N.outs N.people.same N.people.Alone s.outcomes t.outcomes
  outcome : s.outcome = t.outcome
  listeners : Tables N.people
    (Listener.Alike (actionsWithout extra) fun acts => actionsPassive extra acts = true)
    (Listener.Silent extra) s.listeners t.listeners
  /-- Those who carry out commands have the first three numbers. -/
  hosts : ∀ i, i < 3 → N.people.same i i
  listings : ListingsAlike N s.listings t.listings
  names : s.names = t.names
  watches : Named.Covers extra (WatchAlike N) (WatchAlone N) s.watches t.watches
  notes : (s.notes ++ old.1).filter (Note.isShown extra) =
    (t.notes ++ old.2).filter (Note.isShown extra)
  agenda : Woven (TaskAlike extra N) (TaskAlone extra N) s.agenda t.agenda

variable {extra}

/-! ## More numbers -/

section
variable {people people' : Pairing} (g : people.Grows people')
include g

theorem FollowerAlike.mono {f f' : Follower} (h : FollowerAlike people f f') :
    FollowerAlike people' f f' := by
  cases h with
  | listing k => exact .listing k
  | watcher h => exact .watcher (g.same _ _ h)

theorem FollowerAlone.mono {f : Follower} (h : FollowerAlone people f) :
    FollowerAlone people' f := by
  cases h with
  | watcher h => exact .watcher (g.alone _ h)

theorem CellAlike.mono {α : Type} {ids : Pairing} {c d : Cell α Follower}
    (h : CellAlike ids people c d) : CellAlike ids people' c d :=
  Cell.Alike.mono h (fun _ _ => .mono g) fun _ => .mono g

end

section
variable {N N' : Numbers} (g : N.Grows N')
include g

theorem WatchAlike.mono {w w' : Watch} (h : WatchAlike N w w') : WatchAlike N' w w' := by
  cases h with
  | route h => exact .route (g.routes.same _ _ h)
  | request h => exact .request (g.ids.same _ _ h)
  | outcomes h => exact .outcomes (g.outs.same _ _ h)

theorem WatchAlone.mono {w : Watch} (h : WatchAlone N w) : WatchAlone N' w := by
  cases h with
  | route h => exact .route (g.routes.alone _ h)
  | request h => exact .request (g.ids.alone _ h)
  | outcomes h => exact .outcomes (g.outs.alone _ h)

theorem TaskAlike.mono {t u : Task} (h : TaskAlike extra N t u) : TaskAlike extra N' t u := by
  cases h with
  | act h passive => exact .act h passive
  | command g c => exact .command g c
  | react h before rule v => exact .react (g.people.same _ _ h) before rule v
  | deliver l => exact .deliver l
  | follow k => exact .follow k
  | ready name k => exact .ready name k
  | keep other h => exact .keep other (h.mono g)
  | leave k => exact .leave k

theorem TaskAlone.mono {t : Task} (h : TaskAlone extra N t) : TaskAlone extra N' t := by
  cases h with
  | act h passive => exact .act h passive
  | react h before rule v => exact .react (g.people.alone _ h) before rule v
  | keep he h => exact .keep he (h.mono g)

end

namespace ListingsAlike

variable {N : Numbers} {ls ls' : List Listing}

theorem mono {N' : Numbers} (g : N.Grows N') (h : ListingsAlike N ls ls') :
    ListingsAlike N' ls ls' where
  count := h.count
  each := fun k l l' hl hl' =>
    have same := h.each k l l' hl hl'
    { same with route := same.route.mono g.routes, request := same.request.mono g.ids }

/-- A number is a listing's in both sessions or in neither. -/
theorem get? (h : ListingsAlike N ls ls') (k : Nat) :
    ls[k]? = none ∧ ls'[k]? = none ∨
      ∃ l l', ls[k]? = some l ∧ ls'[k]? = some l' ∧ ListingAlike N l l' := by
  rcases Nat.lt_or_ge k ls.length with hlt | hge
  · have hl := List.getElem?_eq_getElem hlt
    have hl' := List.getElem?_eq_getElem (h.count ▸ hlt)
    exact .inr ⟨_, _, hl, hl', h.each k _ _ hl hl'⟩
  · exact .inl ⟨List.getElem?_eq_none hge, List.getElem?_eq_none (h.count ▸ hge)⟩

theorem modify (h : ListingsAlike N ls ls') (k : Nat) {f f' : Listing → Listing}
    (hf : ∀ l l', ListingAlike N l l' → ListingAlike N (f l) (f' l')) :
    ListingsAlike N (ls.modify k f) (ls'.modify k f') where
  count := by rw [List.length_modify, List.length_modify, h.count]
  each := by
    intro j l l' hl hl'
    rw [List.getElem?_modify] at hl hl'
    obtain ⟨m, hm, rfl⟩ := Option.map_eq_some_iff.1 hl
    obtain ⟨m', hm', rfl⟩ := Option.map_eq_some_iff.1 hl'
    have same := h.each j m m' hm hm'
    split
    · exact hf m m' same
    · exact same

theorem add (h : ListingsAlike N ls ls') {l l' : Listing} (hl : ListingAlike N l l') :
    ListingsAlike N (ls ++ [l]) (ls' ++ [l']) where
  count := by simp [h.count]
  each := by
    intro k m m' hm hm'
    rcases Nat.lt_trichotomy k ls.length with hlt | rfl | hgt
    · rw [List.getElem?_append_left hlt] at hm
      rw [List.getElem?_append_left (h.count ▸ hlt)] at hm'
      exact h.each k m m' hm hm'
    · rw [List.getElem?_concat_length] at hm
      rw [h.count, List.getElem?_concat_length] at hm'
      cases hm
      cases hm'
      exact hl
    · rw [List.getElem?_eq_none (by simpa using Nat.succ_le_of_lt hgt)] at hm
      cases hm

end ListingsAlike

namespace Observed

variable {old : List Note × List Note} {N : Numbers} {s t : Session}

/-! ## Small parts of a step -/

theorem note (h : Observed extra old N s t) (n : Note) :
    Observed extra old N (s.note n) (t.note n) :=
  { h with notes := by simp only [Session.note, List.cons_append, List.filter_cons, h.notes] }

theorem noteAlone (h : Observed extra old N s t) {n : Note} (hidden : n.isShown extra = false) :
    Observed extra old N (s.note n) t :=
  { h with
    notes := by
      simp only [Session.note, List.cons_append, List.filter_cons, hidden, h.notes]
      rfl }

theorem diagnose (h : Observed extra old N s t) (d : Diagnostic) :
    Observed extra old N (s.diagnose d) (t.diagnose d) := h.note _

theorem plan (h : Observed extra old N s t) {ts us : List Task}
    (new : Woven (TaskAlike extra N) (TaskAlone extra N) ts us) :
    Observed extra old N (s.plan ts) (t.plan us) :=
  { h with agenda := new.append h.agenda }

theorem planAlone (h : Observed extra old N s t) {x : Task} (new : TaskAlone extra N x) :
    Observed extra old N (s.plan [x]) t :=
  { h with agenda := .extra new h.agenda }

/-- The delivery on a line is started, or goes on. -/
theorem start (h : Observed extra old N s t) (l : Line) (delivering : Bool) :
    Observed extra old N (s.plan (if delivering then [] else [.deliver l]))
      (t.plan (if delivering then [] else [.deliver l])) := by
  split
  · exact h.plan .nil
  · exact h.plan (.single (.deliver l))

theorem isWatching (h : Observed extra old N s t) {w w' : Watch} (hw : WatchAlike N w w') :
    s.isWatching w = t.isWatching w' := by
  cases hw with
  | route h' => exact h.route.channel.isActive h'
  | request h' => exact h.request.channel.isActive h'
  | outcomes h' => exact h.outcomes.isActive h'

theorem nameOf (h : Observed extra old N s t) {i j : Nat} (hs : N.people.same i j) :
    s.nameOf i = t.nameOf j := by
  obtain ⟨l, l', hl, hl', hll⟩ := h.listeners.same i j hs
  simp [Session.nameOf, hl, hl', hll.name]

theorem nameOfAlone (h : Observed extra old N s t) {i : Nat} (ha : N.people.Alone i) :
    extra (s.nameOf i) = true := by
  obtain ⟨l, hl, silent⟩ := h.listeners.alone i ha
  simpa [Session.nameOf, hl] using silent.name

theorem hear (h : Observed extra old N s t) {i j : Nat} (hs : N.people.same i j)
    (v : Option Request) :
    Observed extra old N (s.hear i v) (t.hear j v) := by
  obtain ⟨l, l', hl, hl', hll⟩ := h.listeners.same i j hs
  have heard : Observed extra old N
      { s with listeners := s.listeners.set i { l with heard := l.heard + 1 } }
      { t with listeners := t.listeners.set j { l' with heard := l'.heard + 1 } } :=
    { h with listeners := h.listeners.set hs (hll.hear 1) }
  have react : Task.react j l'.heard 0 v = Task.react j l.heard 0 v := by rw [hll.heard]
  simp only [Session.hear, hl, hl']
  rw [react]
  exact heard.plan (.single (.react hs ..))

theorem hearAlone (h : Observed extra old N s t) {i : Nat} (ha : N.people.Alone i)
    (v : Option Request) :
    Observed extra old N (s.hear i v) t := by
  obtain ⟨l, hl, silent⟩ := h.listeners.alone i ha
  have heard : Observed extra old N
      { s with listeners := s.listeners.set i { l with heard := l.heard + 1 } } t :=
    { h with listeners := h.listeners.setAlone ha ⟨silent.name, silent.rules⟩ }
  simp only [Session.hear, hl]
  exact heard.planAlone (.react ha ..)

theorem addListener (h : Observed extra old N s t) (name : String)
    {rules : List (Rule (Option Request) Action)} (passive : rulesPassive extra rules = true) :
    Observed extra old N.meet (s.addListener name rules)
      (t.addListener name (rulesWithout extra rules)) := by
  have g : N.Grows N.meet := ⟨.refl _, .refl _, .refl _, N.people.grows_both⟩
  have new := Listener.Alike.named (actionsWithout extra)
    (fun acts => actionsPassive extra acts = true) name ((rulesPassive_iff extra rules).1 passive)
  rw [← rulesWithout_eq] at new
  exact { h with
    route := h.route.mono g.people
    request := h.request.mono g.people
    outcomes := h.outcomes.mono g.people.same g.people.alone
    listeners := h.listeners.add new
    hosts := fun i hi => g.people.same i i (h.hosts i hi)
    listings := h.listings.mono g
    watches := h.watches.mono (fun _ _ => .mono g) fun _ => .mono g
    agenda := h.agenda.mono (fun _ _ => .mono g) fun _ => .mono g }

theorem addListenerAlone (h : Observed extra old N s t) {name : String} (he : extra name = true) :
    Observed extra old N.meetAlone (s.addListener name []) t := by
  have g : N.Grows N.meetAlone := ⟨.refl _, .refl _, .refl _, N.people.grows_one⟩
  exact { h with
    route := h.route.mono g.people
    request := h.request.mono g.people
    outcomes := h.outcomes.mono g.people.same g.people.alone
    listeners := h.listeners.addAlone ⟨he, rfl⟩
    hosts := fun i hi => g.people.same i i (h.hosts i hi)
    listings := h.listings.mono g
    watches := h.watches.mono (fun _ _ => .mono g) fun _ => .mono g
    agenda := h.agenda.mono (fun _ _ => .mono g) fun _ => .mono g }

/-- The listener added last has the next number in either session. -/
theorem newest (h : Observed extra old N s t) :
    N.meet.people.same s.listeners.length t.listeners.length := by
  rw [← h.listeners.here, ← h.listeners.there]
  exact N.people.same_both

theorem newestAlone (h : Observed extra old N s t) :
    N.meetAlone.people.Alone s.listeners.length := by
  rw [← h.listeners.here]
  exact N.people.alone_one

theorem setListing (h : Observed extra old N s t) (k : Nat) {f f' : Listing → Listing}
    (hf : ∀ l l', ListingAlike N l l' → ListingAlike N (f l) (f' l')) :
    Observed extra old N (s.setListing k f) (t.setListing k f') :=
  { h with listings := h.listings.modify k hf }

/-! ## The lines

Whoever joins a line, in both sessions or in the first one only, leaves the other two as they
are. -/

/-- A line is joined, which gives out another number there. -/
theorem join (h : Observed extra old N s t) (N' : Numbers) (g : N.Grows N')
    (people : N'.people = N.people) {route route' : Cell (Option Route) Follower}
    {request request' : Cell (Option Request) Follower} {outcomes outcomes' : Channel Outcome Nat}
    (routes : CellAlike N'.routes N.people route route')
    (requests : CellAlike N'.ids N.people request request')
    (outs : Channel.Alike N'.outs N.people.same N.people.Alone outcomes outcomes') :
    Observed extra old N' { s with route, request, outcomes }
      { t with route := route', request := request', outcomes := outcomes' } :=
  { h with
    route := people ▸ routes
    request := people ▸ requests
    outcomes := people ▸ outs
    listeners := people ▸ h.listeners
    hosts := people ▸ h.hosts
    listings := h.listings.mono g
    watches := h.watches.mono (fun _ _ => .mono g) fun _ => .mono g
    agenda := h.agenda.mono (fun _ _ => .mono g) fun _ => .mono g }

/-- Somebody follows the route in both sessions. -/
theorem approach (h : Observed extra old N s t) (mode : Mode (Option Route)) {f f' : Follower}
    (hf : FollowerAlike N.people f f') :
    Observed extra old N.approach { s with route := s.route.subscribe mode f }
      { t with route := t.route.subscribe mode f' } :=
  h.join N.approach ⟨N.routes.grows_both, .refl _, .refl _, .refl _⟩ rfl
    (h.route.subscribe mode hf) h.request h.outcomes

theorem approachAlone (h : Observed extra old N s t) {i : Nat} (ha : N.people.Alone i) :
    Observed extra old N.approachAlone
      { s with route := s.route.subscribe .every (.watcher i) } t :=
  h.join N.approachAlone ⟨N.routes.grows_one, .refl _, .refl _, .refl _⟩ rfl
    (h.route.subscribeAlone .every (.watcher ha)) h.request h.outcomes

/-- A subscription to the route has the next number. -/
theorem approached (h : Observed extra old N s t) :
    N.approach.routes.same s.route.channel.nextId t.route.channel.nextId := by
  rw [← h.route.channel.here, ← h.route.channel.there]
  exact N.routes.same_both

theorem approachedAlone (h : Observed extra old N s t) :
    N.approachAlone.routes.Alone s.route.channel.nextId := by
  rw [← h.route.channel.here]
  exact N.routes.alone_one

/-- Somebody follows the persisted request in both sessions. -/
theorem subscribe (h : Observed extra old N s t) {f f' : Follower}
    (hf : FollowerAlike N.people f f') :
    Observed extra old N.enroll { s with request := s.request.subscribe .every f }
      { t with request := t.request.subscribe .every f' } :=
  h.join N.enroll ⟨.refl _, N.ids.grows_both, .refl _, .refl _⟩ rfl h.route
    (h.request.subscribe .every hf) h.outcomes

theorem subscribeAlone (h : Observed extra old N s t) {i : Nat} (ha : N.people.Alone i) :
    Observed extra old N.enrollAlone { s with request := s.request.subscribe .every (.watcher i) }
      t :=
  h.join N.enrollAlone ⟨.refl _, N.ids.grows_one, .refl _, .refl _⟩ rfl h.route
    (h.request.subscribeAlone .every (.watcher ha)) h.outcomes

/-- A subscription to the persisted request has the next number. -/
theorem enrolled (h : Observed extra old N s t) :
    N.enroll.ids.same s.request.channel.nextId t.request.channel.nextId := by
  rw [← h.request.channel.here, ← h.request.channel.there]
  exact N.ids.same_both

theorem enrolledAlone (h : Observed extra old N s t) :
    N.enrollAlone.ids.Alone s.request.channel.nextId := by
  rw [← h.request.channel.here]
  exact N.ids.alone_one

theorem attend (h : Observed extra old N s t) {i j : Nat} (hs : N.people.same i j) :
    Observed extra old N.attend { s with outcomes := s.outcomes.subscribe .every i }
      { t with outcomes := t.outcomes.subscribe .every j } :=
  h.join N.attend ⟨.refl _, .refl _, N.outs.grows_both, .refl _⟩ rfl h.route h.request
    (h.outcomes.subscribe .every hs)

theorem attendAlone (h : Observed extra old N s t) {i : Nat} (ha : N.people.Alone i) :
    Observed extra old N.attendAlone { s with outcomes := s.outcomes.subscribe .every i } t :=
  h.join N.attendAlone ⟨.refl _, .refl _, N.outs.grows_one, .refl _⟩ rfl h.route h.request
    (h.outcomes.subscribeAlone .every ha)

theorem attending (h : Observed extra old N s t) :
    N.attend.outs.same s.outcomes.nextId t.outcomes.nextId := by
  rw [← h.outcomes.here, ← h.outcomes.there]
  exact N.outs.same_both

theorem attendingAlone (h : Observed extra old N s t) :
    N.attendAlone.outs.Alone s.outcomes.nextId := by
  rw [← h.outcomes.here]
  exact N.outs.alone_one

theorem unwatch (h : Observed extra old N s t) {w w' : Watch} (hw : WatchAlike N w w') :
    Observed extra old N (s.unwatch w) (t.unwatch w') := by
  cases hw with
  | route h' => exact { h with route := h.route.detach h' }
  | request h' => exact { h with request := h.request.detach h' }
  | outcomes h' => exact { h with outcomes := h.outcomes.detach h' }

theorem unwatchAlone (h : Observed extra old N s t) {w : Watch} (hw : WatchAlone N w) :
    Observed extra old N (s.unwatch w) t := by
  cases hw with
  | route h' => exact { h with route := h.route.detachAlone h' }
  | request h' => exact { h with request := h.request.detachAlone h' }
  | outcomes h' => exact { h with outcomes := h.outcomes.detachAlone h' }

end Observed
end StandingQuery.Session
