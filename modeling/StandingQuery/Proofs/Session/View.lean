import Mathlib.Logic.Function.Basic
import StandingQuery.Proofs.Run
import StandingQuery.Session.Step

/-! What of a session bears on its listings and on the persisted request. Each part of a step is
told here by what it does to that; the rest of the session it may change as it likes. -/

namespace StandingQuery.Session

/-- A session at rest takes an action. -/
def machine : Machine Session Action where
  step := step
  AtRest s := s.agenda = []
  take s a := { s with notes := [], agenda := [.act a] }

/-- The subscription of a listing to the persisted request. -/
def following? (s : Session) (k : Nat) : Option Nat := (s.listings[k]?).bind (·.request)

/-- The listing is to be released when its methods have come to their end. -/
def isOrphan (s : Session) (k : Nat) : Bool := (s.listings[k]?).elim false (·.orphan)

/-- A watcher's subscription is kept under some name. -/
def IsKept (s : Session) (w : Watch) : Prop := ∃ name, (name, w) ∈ s.watches

structure View where
  request : Cell (Option Request) Follower
  following : Nat → Option Nat
  cache : Nat → Option Request
  orphan : Nat → Bool
  /-- How many listings there are. -/
  count : Nat
  names : Named Nat
  kept : Nat → Prop
  agenda : List Task

def view (s : Session) : View where
  request := s.request
  following := s.following?
  cache := s.currentRequest
  orphan := s.isOrphan
  count := s.listings.length
  names := s.names
  kept := fun id => s.IsKept (.request id)
  agenda := s.agenda

/-! ## Tasks -/

/-- The listing that a command comes from. -/
def Giver.listing? : Giver → Option Nat
  | .outside => none
  | .method k | .follower k => some k

/-- Hands a request over to be run. -/
def Task.handover? : Task → Option (Giver × Request)
  | .command g (.resubmit q) => some (g, q)
  | _ => none

/-- The listing that begins to follow the persisted request. -/
def Task.follower? : Task → Option Nat
  | .follow k => some k
  | _ => none

/-- The listing that is put under a name. -/
def Task.ready? : Task → Option Nat
  | .ready _ k => some k
  | _ => none

/-- A watcher's subscription to the persisted request that is put under a name. -/
def Task.kept? : Task → Option Nat
  | .keep _ (.request id) => some id
  | _ => none

def Task.deliversRequest : Task → Bool
  | .deliver .request => true
  | _ => false

/-- Of no concern to listings, subscriptions and the delivery of requests, for now. -/
structure Task.Quiet (t : Task) : Prop where
  handover : ∀ g q, t.handover? = some (g, q) → g.listing? = none
  follower : t.follower? = none
  ready : t.ready? = none
  kept : t.kept? = none
  delivers : t.deliversRequest = false

theorem quiet_act (a : Action) : (Task.act a).Quiet :=
  ⟨by simp [Task.handover?], rfl, rfl, rfl, rfl⟩

theorem quiet_react (i before rule : Nat) (v : Option Request) :
    (Task.react i before rule v).Quiet :=
  ⟨by simp [Task.handover?], rfl, rfl, rfl, rfl⟩

theorem quiet_leave (k : Nat) : (Task.leave k).Quiet :=
  ⟨by simp [Task.handover?], rfl, rfl, rfl, rfl⟩

theorem quiet_keep (name : String) {w : Watch} (h : ∀ id, w ≠ .request id) :
    (Task.keep name w).Quiet := by
  cases w with
  | request id => exact absurd rfl (h id)
  | route id | outcomes id => exact ⟨by simp [Task.handover?], rfl, rfl, rfl, rfl⟩

theorem quiet_deliver {l : Line} (h : l ≠ .request) : (Task.deliver l).Quiet := by
  cases l with
  | request => exact absurd rfl h
  | route | outcomes => exact ⟨by simp [Task.handover?], rfl, rfl, rfl, rfl⟩

theorem quiet_outside (c : Command) : (Task.command .outside c).Quiet := by
  refine ⟨fun g q h => ?_, rfl, rfl, rfl, rfl⟩
  cases c <;> simp only [Task.handover?, Option.some.injEq, Prod.mk.injEq, reduceCtorEq] at h
  rw [← h.1]
  rfl

theorem quiet_command {c : Command} (g : Giver) (h : ∀ q, c ≠ .resubmit q) :
    (Task.command g c).Quiet := by
  refine ⟨?_, rfl, rfl, rfl, rfl⟩
  cases c with
  | resubmit q => exact absurd rfl (h q)
  | save _ | clear | openSearch | openEvent _ => simp [Task.handover?]

/-- Tasks that may stand anywhere in an agenda. -/
def Quiet (ts : List Task) : Prop := ∀ t ∈ ts, t.Quiet

theorem quiet_nil : Quiet [] := by simp [Quiet]

theorem quiet_cons {t : Task} {ts : List Task} (h : t.Quiet) (hs : Quiet ts) : Quiet (t :: ts) :=
  List.forall_mem_cons.2 ⟨h, hs⟩

theorem quiet_single {t : Task} (h : t.Quiet) : Quiet [t] := quiet_cons h quiet_nil

theorem quiet_append {ts us : List Task} (h : Quiet ts) (h' : Quiet us) : Quiet (ts ++ us) :=
  List.forall_mem_append.2 ⟨h, h'⟩

section
variable {ts : List Task} (h : Quiet ts)
include h

theorem Quiet.followers : ts.filterMap Task.follower? = [] :=
  List.filterMap_eq_nil_iff.2 fun t ht => (h t ht).follower

theorem Quiet.promised : ts.filterMap Task.ready? = [] :=
  List.filterMap_eq_nil_iff.2 fun t ht => (h t ht).ready

theorem Quiet.kept (others : List Task) :
    (ts ++ others).filterMap Task.kept? = others.filterMap Task.kept? := by
  have none : ts.filterMap Task.kept? = [] :=
    List.filterMap_eq_nil_iff.2 fun t ht => (h t ht).kept
  rw [List.filterMap_append, none, List.nil_append]

theorem Quiet.deliveries : ts.countP Task.deliversRequest = 0 :=
  List.countP_eq_zero.2 fun t ht => by simp [(h t ht).delivers]

end

/-- No listing hands a request over. -/
def Still (ts : List Task) : Prop :=
  ∀ t ∈ ts, ∀ g q, t.handover? = some (g, q) → g.listing? = none

theorem Quiet.still {ts : List Task} (h : Quiet ts) : Still ts := fun t ht => (h t ht).handover

theorem Still.append {ts us : List Task} (h : Still ts) (h' : Still us) : Still (ts ++ us) :=
  List.forall_mem_append.2 ⟨h, h'⟩

theorem Still.cons {t : Task} {ts : List Task} (h : t.handover? = none) (hs : Still ts) :
    Still (t :: ts) :=
  List.forall_mem_cons.2 ⟨by simp [h], hs⟩

theorem Still.tail {ts : List Task} (h : Still ts) : Still ts.tail :=
  fun t ht => h t (List.mem_of_mem_tail ht)

/-- The subscriptions of watchers to a line, those that are kept and those to come, are not the ones
that listings have. -/
def Apart (nextId : Nat) (own : Nat → Option Nat) (kept : Nat → Prop) (coming : List Nat) : Prop :=
  ∀ id, kept id ∨ id ∈ coming → id < nextId ∧ ∀ k, own k ≠ some id

namespace Apart

variable {nextId : Nat} {own : Nat → Option Nat} {kept : Nat → Prop} {coming : List Nat}

theorem subscribe (h : Apart nextId own kept coming) : Apart (nextId + 1) own kept coming :=
  fun id hid => (h id hid).imp_left Nat.lt_succ_of_lt

theorem update (h : Apart nextId own kept coming) (k : Nat) {x : Option Nat}
    (new : ∀ id < nextId, x ≠ some id) : Apart nextId (Function.update own k x) kept coming := by
  refine fun id hid => (h id hid).imp_right fun apart j => ?_
  by_cases hj : j = k
  · rw [hj, Function.update_self]
    exact new id (h id hid).1
  · rw [Function.update_of_ne hj]
    exact apart j

/-- A watcher's subscription is made. -/
theorem watch (h : Apart nextId own kept coming) (made : ∀ k id, own k = some id → id < nextId) :
    Apart (nextId + 1) own kept (nextId :: coming) := by
  intro id hid
  rcases hid with hid | hid
  · exact h.subscribe id (.inl hid)
  · rcases List.mem_cons.1 hid with rfl | hid
    · exact ⟨Nat.lt_succ_self _, fun k held => Nat.lt_irrefl _ (made k _ held)⟩
    · exact h.subscribe id (.inr hid)

end Apart

/-! ## One listing -/

section
variable {s : Session} {k : Nat} {l : Listing}

theorem following?_eq (h : s.listings[k]? = some l) : s.following? k = l.request := by
  simp [following?, h]

theorem currentRequest_eq (h : s.listings[k]? = some l) : s.currentRequest k = l.cache := by
  simp [currentRequest, h]

theorem isOrphan_eq (h : s.listings[k]? = some l) : s.isOrphan k = l.orphan := by
  simp [isOrphan, h]

/-- What is read off the listings changes at the one that is set. -/
theorem read_setListing {α : Type} (h : s.listings[k]? = some l) (f : Listing → Listing)
    (p : Option Listing → α) : (fun j => p (s.setListing k f).listings[j]?) =
      Function.update (fun j => p s.listings[j]?) k (p (some (f l))) := by
  funext j
  by_cases hj : j = k
  · subst hj
    simp [setListing, h]
  · simp [setListing, Ne.symm hj, hj]

theorem view_setListing (h : s.listings[k]? = some l) (f : Listing → Listing) :
    (s.setListing k f).view =
      { s.view with
        following := Function.update s.following? k (f l).request
        cache := Function.update s.currentRequest k (f l).cache
        orphan := Function.update s.isOrphan k (f l).orphan } := by
  have following : (s.setListing k f).following? = Function.update s.following? k (f l).request :=
    read_setListing h f fun o => o.bind (·.request)
  have cache : (s.setListing k f).currentRequest = Function.update s.currentRequest k (f l).cache :=
    read_setListing h f fun o => o.bind (·.cache)
  have orphan : (s.setListing k f).isOrphan = Function.update s.isOrphan k (f l).orphan :=
    read_setListing h f fun o => o.elim false (·.orphan)
  have count : (s.setListing k f).listings.length = s.listings.length := List.length_modify ..
  rw [view, following, cache, orphan, count]
  rfl

theorem view_setRequest (h : s.listings[k]? = some l) {f : Listing → Listing}
    (cache : (f l).cache = l.cache) (orphan : (f l).orphan = l.orphan) :
    (s.setListing k f).view =
      { s.view with following := Function.update s.following? k (f l).request } := by
  rw [view_setListing h, cache, orphan, ← currentRequest_eq h, ← isOrphan_eq h,
    Function.update_eq_self, Function.update_eq_self]
  rfl

theorem view_setCache (h : s.listings[k]? = some l) {f : Listing → Listing}
    (request : (f l).request = l.request) (orphan : (f l).orphan = l.orphan) :
    (s.setListing k f).view =
      { s.view with cache := Function.update s.currentRequest k (f l).cache } := by
  rw [view_setListing h, request, orphan, ← following?_eq h, ← isOrphan_eq h,
    Function.update_eq_self, Function.update_eq_self]
  rfl

theorem view_setOrphan (h : s.listings[k]? = some l) {f : Listing → Listing}
    (request : (f l).request = l.request) (cache : (f l).cache = l.cache) :
    (s.setListing k f).view =
      { s.view with orphan := Function.update s.isOrphan k (f l).orphan } := by
  rw [view_setListing h, request, cache, ← following?_eq h, ← currentRequest_eq h,
    Function.update_eq_self, Function.update_eq_self]
  rfl

/-- How many of the methods of a listing are under way is not seen. -/
theorem view_setUses (s : Session) (k : Nat) (f : Nat → Nat) :
    (s.setListing k fun l => { l with uses := f l.uses }).view = s.view := by
  cases h : s.listings[k]? with
  | none =>
    rw [setListing, List.modify_eq_self (List.getElem?_eq_none_iff.1 h)]
  | some l =>
    rw [view_setRequest h rfl rfl, ← following?_eq h, Function.update_eq_self]
    rfl

/-- Releasing a listing ends its subscription to the persisted request, if it has one. -/
theorem view_release (s : Session) (k : Nat) : (s.release k).view =
    match s.following? k with
    | some id =>
      { s.view with
        request := s.request.detach id, following := Function.update s.following? k none }
    | none => s.view := by
  cases h : s.listings[k]? with
  | none => simp [release, following?, h]
  | some l =>
    have hidden (s₁ : Session) (hl : s₁.listings[k]? = some l) :
        (s₁.setListing k ({ · with route := none, request := none })).view =
          { s₁.view with following := Function.update s₁.following? k none } :=
      view_setRequest hl rfl rfl
    have nothing (hq : l.request = none) :
        { s.view with following := Function.update s.following? k none } = s.view := by
      rw [← hq, ← following?_eq h, Function.update_eq_self]
      rfl
    rw [following?_eq h]
    cases hr : l.route with
    | none =>
      cases hq : l.request with
      | none =>
        simp only [release, h, hr, hq]
        exact (hidden _ h).trans (nothing hq)
      | some id =>
        simp only [release, h, hr, hq]
        exact hidden _ h
    | some r =>
      cases hq : l.request with
      | none =>
        simp only [release, h, hr, hq]
        exact (hidden _ h).trans (nothing hq)
      | some id =>
        simp only [release, h, hr, hq]
        exact hidden _ h

end

/-- Nothing is read off a new listing that was not read off none. -/
theorem read_addListing {α : Type} (s : Session) {l : Listing} {p : Option Listing → α}
    (h : p (some l) = p none) (j : Nat) : p (s.addListing l).listings[j]? = p s.listings[j]? := by
  rcases Nat.lt_trichotomy j s.listings.length with hlt | rfl | hgt
  · rw [addListing, List.getElem?_append_left hlt]
  · simpa [addListing] using h
  · simp [addListing, List.getElem?_append_right, Nat.le_of_lt hgt, Nat.sub_ne_zero_of_lt hgt]

theorem view_addListing (s : Session) (route : Option Nat) :
    (s.addListing (.following route)).view = { s.view with count := s.listings.length + 1 } := by
  have following : (s.addListing (.following route)).following? = s.following? :=
    funext (read_addListing s (p := fun o => o.bind (·.request)) rfl)
  have cache : (s.addListing (.following route)).currentRequest = s.currentRequest :=
    funext (read_addListing s (p := fun o => o.bind (·.cache)) rfl)
  have orphan : (s.addListing (.following route)).isOrphan = s.isOrphan :=
    funext (read_addListing s (p := fun o => o.elim false (·.orphan)) rfl)
  have count : (s.addListing (.following route)).listings.length = s.listings.length + 1 :=
    List.length_append
  rw [view, following, cache, orphan, count]
  rfl

/-! ## What only adds quiet tasks -/

/-- Nothing is seen to change, but for some quiet tasks in front of the agenda. -/
def Adds (s s' : Session) : Prop :=
  ∃ new, Quiet new ∧ s'.view = { s.view with agenda := new ++ s.agenda }

theorem Adds.of_view {s s' : Session} (h : s'.view = s.view) : Adds s s' :=
  ⟨[], quiet_nil, h⟩

theorem Adds.trans {s s' s'' : Session} (h : Adds s s') (h' : Adds s' s'') : Adds s s'' := by
  obtain ⟨new, quiet, hview⟩ := h
  obtain ⟨new', quiet', hview'⟩ := h'
  have agenda : s'.agenda = new ++ s.agenda := congrArg View.agenda hview
  refine ⟨new' ++ new, quiet_append quiet' quiet, ?_⟩
  rw [hview', hview, agenda, List.append_assoc]

theorem adds_plan (s : Session) {ts : List Task} (quiet : Quiet ts) : Adds s (s.plan ts) :=
  ⟨ts, quiet, rfl⟩

theorem adds_note (s : Session) (n : Note) : Adds s (s.note n) := .of_view rfl

theorem adds_hear (s : Session) (i : Nat) (v : Option Request) : Adds s (s.hear i v) := by
  unfold hear
  split
  · exact .of_view rfl
  · exact ⟨_, quiet_single (quiet_react ..), rfl⟩

theorem adds_record (s : Session) (o : Outcome) : Adds s (s.record o) := by
  refine ⟨if s.outcomes.delivering then [] else [.deliver .outcomes], ?_, rfl⟩
  split
  · exact quiet_nil
  · exact quiet_single (quiet_deliver (by decide))

theorem adds_navigate (s : Session) (r : Option Route) : Adds s (s.navigate r) := by
  refine ⟨if s.route.channel.delivering then [] else [.deliver .route], ?_, rfl⟩
  split
  · exact quiet_nil
  · exact quiet_single (quiet_deliver (by decide))

theorem adds_takeRoute (s : Session) (k : Nat) (r : Route) : Adds s (s.takeRoute k r) :=
  ⟨_, quiet_single (quiet_command _ (by simp)), rfl⟩

theorem adds_hearRequest (s : Session) (i : Nat) (q : Option Request) :
    Adds s (s.hearRequest i q) :=
  (adds_note s _).trans (adds_hear ..)

theorem adds_hearRoute (s : Session) (i : Nat) (r : Option Route) : Adds s (s.hearRoute i r) :=
  (adds_note s _).trans (adds_hear ..)

theorem adds_hearOutcome (s : Session) (i : Nat) (o : Outcome) : Adds s (s.hearOutcome i o) :=
  (adds_note s _).trans (adds_hear ..)

theorem adds_resubmit (s : Session) (q : Request) : Adds s (s.resubmit q) := by
  have heard : Adds s ((s.note (.resubmitted q)).hear executor (some q)) :=
    (adds_note s _).trans (adds_hear ..)
  unfold resubmit
  dsimp only
  split
  · exact heard.trans (adds_record ..)
  · exact heard

theorem view_method (s : Session) (k : Nat) (c : Command) : (s.method k c).view =
    { s.view with agenda := .command (.method k) c :: .leave k :: s.agenda } :=
  congrArg (fun v : View => { v with agenda := .command (.method k) c :: .leave k :: s.agenda })
    (view_setUses s k (· + 1))

theorem adds_method (s : Session) (k : Nat) {c : Command} (h : ∀ q, c ≠ .resubmit q) :
    Adds s (s.method k c) :=
  ⟨_, quiet_cons (quiet_command _ h) (quiet_single (quiet_leave k)), view_method s k c⟩

theorem adds_react (s : Session) (i before rule : Nat) (v : Option Request) :
    Adds s (s.react i before rule v) := by
  have next : Adds s (s.plan [.react i before (rule + 1) v]) :=
    adds_plan s (quiet_single (quiet_react ..))
  have acts (as : List Action) : Quiet (as.map .act) :=
    List.forall_mem_map.2 fun a _ => quiet_act a
  unfold react
  split
  · exact .of_view rfl
  · split
    · dsimp only
      split
      · exact next.trans ((Adds.of_view rfl).trans (adds_plan _ (acts _)))
      · exact next
    · exact .of_view rfl

/-- One turn of the delivery of routes. -/
theorem adds_deliverRoute (s : Session) : Adds s s.deliverRoute := by
  have again (s : Session) : Adds s (s.plan [.deliver .route]) :=
    adds_plan s (quiet_single (quiet_deliver (by decide)))
  unfold deliverRoute
  dsimp only
  split
  · exact .of_view rfl
  · exact (Adds.of_view rfl).trans (again _)
  · exact (Adds.of_view rfl).trans (again _)
  · split
    · exact (Adds.of_view rfl).trans ((again _).trans (adds_takeRoute ..))
    · exact (Adds.of_view rfl).trans (again _)
    · exact (Adds.of_view rfl).trans ((again _).trans (adds_hearRoute ..))

theorem adds_deliverOutcome (s : Session) : Adds s s.deliverOutcome := by
  have again (s : Session) : Adds s (s.plan [.deliver .outcomes]) :=
    adds_plan s (quiet_single (quiet_deliver (by decide)))
  unfold deliverOutcome
  dsimp only
  split
  · exact .of_view rfl
  · exact (Adds.of_view rfl).trans (again _)
  · exact (Adds.of_view rfl).trans (again _)
  · exact (Adds.of_view rfl).trans ((again _).trans (adds_hearOutcome ..))

theorem adds_watchRoute (s : Session) (name : String)
    (rules : List (Rule (Option Request) Action)) : Adds s (s.watchRoute name rules) := by
  have kept : Quiet [.keep name (.route s.route.channel.nextId)] :=
    quiet_single (quiet_keep name (by simp))
  have followed : Adds s
      (({ s with route := s.route.subscribe .every (.watcher s.listeners.length) } : Session)
        |>.addListener name rules |>.plan [.keep name (.route s.route.channel.nextId)]) :=
    ⟨_, kept, rfl⟩
  exact followed.trans (adds_hearRoute ..)

/-- Something is done with the listing of that name, or it is noted that there is none. -/
theorem withListing_cases (s : Session) (name : String) (f : Nat → Listing → Session) :
    (∃ k l, s.names.get? name = some k ∧ s.listings[k]? = some l ∧
      s.withListing name f = f k l) ∨
    ((∀ k, s.names.get? name = some k → s.listings[k]? = none) ∧
      s.withListing name f = s.note (.missing name)) := by
  unfold withListing
  cases hk : s.names.get? name with
  | none => exact .inr ⟨fun _ h => absurd h.symm (Option.some_ne_none _), rfl⟩
  | some k =>
    cases hl : s.listings[k]? with
    | none => exact .inr ⟨fun _ h => Option.some.inj h ▸ hl, by simp only [hl]⟩
    | some l => exact .inl ⟨k, l, rfl, hl, by simp only [hl]⟩

end StandingQuery.Session
