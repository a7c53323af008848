import StandingQuery.Proofs.Session.View

/-! What of a session bears on the route. Few tasks concern it: the route is changed, a turn of its
delivery comes, a watcher begins or ends to follow it, a listing is activated, or one that follows
the route is released. All others leave it alone, and have no listing save anything. -/

namespace StandingQuery.Session

/-! ## Tasks -/

/-- A listing saves a request because of the route. -/
def Task.saving? : Task → Option (Nat × Request)
  | .command (.follower k) (.save q) => some (k, q)
  | _ => none

/-- No listing is about to save anything. -/
def Unsaving (ts : List Task) : Prop := ∀ t ∈ ts, t.saving? = none

theorem unsaving_nil : Unsaving [] := by simp [Unsaving]

theorem unsaving_cons {t : Task} {ts : List Task} (h : t.saving? = none) (hs : Unsaving ts) :
    Unsaving (t :: ts) :=
  List.forall_mem_cons.2 ⟨h, hs⟩

theorem unsaving_append {ts us : List Task} (h : Unsaving ts) (h' : Unsaving us) :
    Unsaving (ts ++ us) :=
  List.forall_mem_append.2 ⟨h, h'⟩

theorem Unsaving.tail {ts : List Task} (h : Unsaving ts) : Unsaving ts.tail :=
  fun t ht => h t (List.mem_of_mem_tail ht)

/-- A watcher's subscription to the route that is put under a name. -/
def Task.keptRoute? : Task → Option Nat
  | .keep _ (.route id) => some id
  | _ => none

/-- Tasks that have nothing to do with the route, for now. -/
structure Aloof (ts : List Task) : Prop where
  unsaving : Unsaving ts
  unkeeping : ∀ t ∈ ts, t.keptRoute? = none

theorem aloof_nil : Aloof [] := ⟨unsaving_nil, by simp⟩

theorem aloof_cons {t : Task} {ts : List Task} (saving : t.saving? = none)
    (keeping : t.keptRoute? = none) (hs : Aloof ts) : Aloof (t :: ts) :=
  ⟨unsaving_cons saving hs.unsaving, List.forall_mem_cons.2 ⟨keeping, hs.unkeeping⟩⟩

theorem aloof_append {ts us : List Task} (h : Aloof ts) (h' : Aloof us) : Aloof (ts ++ us) :=
  ⟨unsaving_append h.unsaving h'.unsaving, List.forall_mem_append.2 ⟨h.unkeeping, h'.unkeeping⟩⟩

theorem aloof_acts (as : List Action) : Aloof (as.map .act) :=
  ⟨List.forall_mem_map.2 fun _ _ => rfl, List.forall_mem_map.2 fun _ _ => rfl⟩

theorem Aloof.kept {ts : List Task} (h : Aloof ts) (others : List Task) :
    (ts ++ others).filterMap Task.keptRoute? = others.filterMap Task.keptRoute? := by
  rw [List.filterMap_append, List.filterMap_eq_nil_iff.2 h.unkeeping, List.nil_append]

/-! ## The route and those who follow it -/

/-- The subscription of a listing to the route. -/
def guided? (s : Session) (k : Nat) : Option Nat := (s.listings[k]?).bind (·.route)

structure Guide where
  route : Cell (Option Route) Follower
  guided : Nat → Option Nat
  /-- How many listings there are. -/
  count : Nat
  /-- The subscriptions of watchers that are kept under names. -/
  kept : Nat → Prop
  agenda : List Task

def guide (s : Session) : Guide where
  route := s.route
  guided := s.guided?
  count := s.listings.length
  kept := fun id => s.IsKept (.route id)
  agenda := s.agenda

/-- The route is left alone, and no listing is to save anything because of it. -/
def Spares (s s' : Session) : Prop :=
  ∃ new, Aloof new ∧ s'.guide = { s.guide with agenda := new ++ s.agenda }

theorem Spares.of_guide {s s' : Session} (h : s'.guide = s.guide) : Spares s s' :=
  ⟨[], aloof_nil, h⟩

theorem Spares.trans {s s' s'' : Session} (h : Spares s s') (h' : Spares s' s'') :
    Spares s s'' := by
  obtain ⟨new, aloof, hguide⟩ := h
  obtain ⟨new', aloof', hguide'⟩ := h'
  have agenda : s'.agenda = new ++ s.agenda := congrArg Guide.agenda hguide
  refine ⟨new' ++ new, aloof_append aloof' aloof, ?_⟩
  rw [hguide', hguide, agenda, List.append_assoc]

theorem spares_plan (s : Session) {ts : List Task} (aloof : Aloof ts) : Spares s (s.plan ts) :=
  ⟨ts, aloof, rfl⟩

theorem spares_note (s : Session) (n : Note) : Spares s (s.note n) := .of_guide rfl

theorem spares_hear (s : Session) (i : Nat) (v : Option Request) : Spares s (s.hear i v) := by
  unfold hear
  split
  · exact .of_guide rfl
  · exact ⟨_, aloof_cons rfl rfl aloof_nil, rfl⟩

theorem spares_record (s : Session) (o : Outcome) : Spares s (s.record o) := by
  refine ⟨if s.outcomes.delivering then [] else [.deliver .outcomes], ?_, rfl⟩
  split
  · exact aloof_nil
  · exact aloof_cons rfl rfl aloof_nil

theorem spares_persist (s : Session) (q : Option Request) : Spares s (s.persist q) := by
  unfold persist
  split
  · exact .of_guide rfl
  · refine ⟨if s.request.channel.delivering then [] else [.deliver .request], ?_, rfl⟩
    split
    · exact aloof_nil
    · exact aloof_cons rfl rfl aloof_nil

theorem spares_resubmit (s : Session) (q : Request) : Spares s (s.resubmit q) := by
  have heard : Spares s ((s.note (.resubmitted q)).hear executor (some q)) :=
    (spares_note s _).trans (spares_hear ..)
  unfold resubmit
  dsimp only
  split
  · exact heard.trans (spares_record ..)
  · exact heard

theorem spares_carryOut (s : Session) (c : Command) : Spares s (s.carryOut c) := by
  cases c with
  | save q => exact spares_persist s (some q)
  | clear => exact spares_persist s none
  | resubmit q => exact spares_resubmit s q
  | openSearch | openEvent _ => exact (spares_note s _).trans (spares_hear ..)

theorem spares_hearRequest (s : Session) (i : Nat) (q : Option Request) :
    Spares s (s.hearRequest i q) :=
  (spares_note s _).trans (spares_hear ..)

theorem spares_hearRoute (s : Session) (i : Nat) (r : Option Route) : Spares s (s.hearRoute i r) :=
  (spares_note s _).trans (spares_hear ..)

theorem spares_hearOutcome (s : Session) (i : Nat) (o : Outcome) : Spares s (s.hearOutcome i o) :=
  (spares_note s _).trans (spares_hear ..)

theorem spares_react (s : Session) (i before rule : Nat) (v : Option Request) :
    Spares s (s.react i before rule v) := by
  have next : Spares s (s.plan [.react i before (rule + 1) v]) :=
    spares_plan s (aloof_cons rfl rfl aloof_nil)
  unfold react
  split
  · exact .of_guide rfl
  · split
    · dsimp only
      split
      · exact next.trans ((Spares.of_guide rfl).trans (spares_plan _ (aloof_acts _)))
      · exact next
    · exact .of_guide rfl

/-! ## One listing -/

theorem guide_setListing (s : Session) (k : Nat) {f : Listing → Listing}
    (same : ∀ l, (f l).route = l.route) : (s.setListing k f).guide = s.guide := by
  have guided : (s.setListing k f).guided? = s.guided? := by
    cases h : s.listings[k]? with
    | none => rw [setListing, List.modify_eq_self (List.getElem?_eq_none_iff.1 h)]
    | some l =>
      have read : (s.setListing k f).guided? = Function.update s.guided? k (f l).route :=
        read_setListing h f fun o => o.bind (·.route)
      have now : s.guided? k = l.route := by simp [guided?, h]
      rw [read, same, ← now, Function.update_eq_self]
  have count : (s.setListing k f).listings.length = s.listings.length := List.length_modify ..
  rw [guide, guided, count]
  rfl

theorem spares_takeRequest (s : Session) (k : Nat) (q : Option Request) :
    Spares s (s.takeRequest k q) := by
  have cached := s.guide_setListing k (f := ({ · with cache := some (.effective q) })) fun _ => rfl
  have told : Aloof [.command (.follower k) (.resubmit (.effective q))] :=
    aloof_cons rfl rfl aloof_nil
  exact (Spares.of_guide cached).trans ((spares_note _ _).trans (spares_plan _ told))

theorem spares_follow (s : Session) (k : Nat) : Spares s (s.follow k) := by
  have followed := guide_setListing
    { s with request := s.request.subscribe .every (.listing k) } k
    (f := ({ · with request := some s.request.channel.nextId })) fun _ => rfl
  exact (Spares.of_guide (s := s) followed).trans (spares_takeRequest _ k s.request.value)

theorem spares_method (s : Session) (k : Nat) (c : Command) : Spares s (s.method k c) := by
  have used := s.guide_setListing k (f := fun l => { l with uses := l.uses + 1 }) fun _ => rfl
  have told : Aloof [.command (.method k) c, .leave k] :=
    aloof_cons rfl rfl (aloof_cons rfl rfl aloof_nil)
  exact (Spares.of_guide used).trans (spares_plan _ told)

theorem spares_refresh (s : Session) (k : Nat) (l : Listing) : Spares s (s.refresh k l) := by
  unfold refresh
  split
  · exact spares_method ..
  · have seeded := (s.diagnose .unseeded).guide_setListing k
      (f := ({ · with cache := some .default })) fun _ => rfl
    exact (Spares.of_guide (s := s) seeded).trans (spares_method ..)

/-! ## The other two lines -/

theorem spares_deliverRequest (s : Session) : Spares s s.deliverRequest := by
  have again (s : Session) : Spares s (s.plan [.deliver .request]) :=
    spares_plan s (aloof_cons rfl rfl aloof_nil)
  have turned (s₁ : Session) (h : s₁.guide = s.guide) : Spares s (s₁.plan [.deliver .request]) :=
    (Spares.of_guide h).trans (again s₁)
  unfold deliverRequest
  dsimp only
  split
  · exact .of_guide rfl
  · exact turned _ rfl
  · exact turned _ rfl
  · split
    · exact (turned _ rfl).trans (spares_takeRequest ..)
    · exact (turned _ rfl).trans (spares_hearRequest ..)

theorem spares_deliverOutcome (s : Session) : Spares s s.deliverOutcome := by
  have again (s : Session) : Spares s (s.plan [.deliver .outcomes]) :=
    spares_plan s (aloof_cons rfl rfl aloof_nil)
  have turned (s₁ : Session) (h : s₁.guide = s.guide) : Spares s (s₁.plan [.deliver .outcomes]) :=
    (Spares.of_guide h).trans (again s₁)
  unfold deliverOutcome
  dsimp only
  split
  · exact .of_guide rfl
  · exact turned _ rfl
  · exact turned _ rfl
  · exact (turned _ rfl).trans (spares_hearOutcome ..)

theorem spares_watch (s : Session) (name : String) (rules : List (Rule (Option Request) Action)) :
    Spares s (s.watch name rules) := by
  have kept : Aloof [.keep name (.request s.request.channel.nextId)] :=
    aloof_cons rfl rfl aloof_nil
  have followed : Spares s
      (({ s with request := s.request.subscribe .every (.watcher s.listeners.length) } : Session)
        |>.addListener name rules |>.plan [.keep name (.request s.request.channel.nextId)]) :=
    ⟨_, kept, rfl⟩
  exact followed.trans (spares_hearRequest ..)

/-! ## Listings that come and go -/

theorem guide_addListing (s : Session) (route : Option Nat) :
    (s.addListing (.following route)).guide =
      { s.guide with
        guided := Function.update s.guided? s.listings.length route
        count := s.listings.length + 1 } := by
  have guided : (s.addListing (.following route)).guided? =
      Function.update s.guided? s.listings.length route := by
    funext j
    by_cases hj : j = s.listings.length
    · subst hj
      simp [guided?, addListing, Listing.following]
    · rw [Function.update_of_ne hj]
      rcases Nat.lt_or_gt_of_ne hj with hlt | hgt
      · simp [guided?, addListing, List.getElem?_append_left hlt]
      · simp [guided?, addListing, List.getElem?_append_right, Nat.le_of_lt hgt,
          Nat.sub_ne_zero_of_lt hgt]
  have count : (s.addListing (.following route)).listings.length = s.listings.length + 1 :=
    List.length_append
  rw [guide, guided, count]
  rfl

/-- Releasing a listing ends its subscription to the route, if it has one. -/
def Guide.release (g : Guide) (k : Nat) : Guide :=
  match g.guided k with
  | some id => { g with route := g.route.detach id, guided := Function.update g.guided k none }
  | none => g

theorem Guide.guided_release (g : Guide) (k : Nat) : (g.release k).guided k = none := by
  unfold release
  split
  · exact Function.update_self ..
  · next free => exact free

theorem Guide.count_release (g : Guide) (k : Nat) : (g.release k).count = g.count := by
  unfold release
  split <;> rfl

theorem Guide.agenda_release (g : Guide) (k : Nat) : (g.release k).agenda = g.agenda := by
  unfold release
  split <;> rfl

theorem guide_release (s : Session) (k : Nat) : (s.release k).guide = s.guide.release k := by
  have unfolded : s.guide.release k = match s.guided? k with
    | some id =>
      { s.guide with route := s.route.detach id, guided := Function.update s.guided? k none }
    | none => s.guide := rfl
  rw [unfolded]
  cases h : s.listings[k]? with
  | none => simp [Session.release, guided?, h]
  | some l =>
    have now : s.guided? k = l.route := by simp [guided?, h]
    have hidden (s₁ : Session) (hl : s₁.listings = s.listings) :
        (s₁.setListing k ({ · with route := none, request := none })).guide =
          { s₁.guide with guided := Function.update s.guided? k none } := by
      have read : (s₁.setListing k ({ · with route := none, request := none })).guided? =
          Function.update s₁.guided? k none :=
        read_setListing (hl ▸ h) _ fun o => o.bind (·.route)
      have same : s₁.guided? = s.guided? := by
        funext j
        rw [guided?, hl]
        rfl
      have count : (s₁.setListing k ({ · with route := none, request := none })).listings.length =
          s₁.listings.length :=
        List.length_modify ..
      rw [guide, read, same, count]
      rfl
    rw [now]
    cases hr : l.route with
    | none =>
      have nothing : Function.update s.guided? k none = s.guided? := by
        rw [← hr, ← now, Function.update_eq_self]
      cases hq : l.request with
      | none =>
        simp only [Session.release, h, hr, hq]
        rw [hidden s rfl, nothing]
        rfl
      | some id =>
        simp only [Session.release, h, hr, hq]
        refine (hidden _ rfl).trans ?_
        rw [nothing]
        rfl
    | some r =>
      cases hq : l.request with
      | none =>
        simp only [Session.release, h, hr, hq]
        exact hidden _ rfl
      | some id =>
        simp only [Session.release, h, hr, hq]
        exact hidden _ rfl

end StandingQuery.Session
