import StandingQuery.Proofs.Observer.Session.Observed

/-! What is done for listings, for those who carry out commands and for other watchers keeps two
sessions alike, and so does what is done for an observer, with nothing being done in the session
that lacks him. -/

namespace StandingQuery.Session

variable {extra : String → Bool} {old : List Note × List Note} {N : Numbers} {s t : Session}

namespace Observed

/-! ## Commands -/

theorem navigate (h : Observed extra old N s t) (r : Option Route) :
    Observed extra old N (s.navigate r) (t.navigate r) := by
  have put : Observed extra old N { s with route := s.route.put r }
      { t with route := t.route.put r } :=
    { h with route := h.route.put r }
  unfold Session.navigate
  rw [← h.route.channel.delivering]
  exact put.start .route _

theorem persist (h : Observed extra old N s t) (q : Option Request) :
    Observed extra old N (s.persist q) (t.persist q) := by
  have put : Observed extra old N { s.diagnose (.changed q.isSome) with request := s.request.put q }
      { t.diagnose (.changed q.isSome) with request := t.request.put q } :=
    { h.diagnose (.changed q.isSome) with request := h.request.put q }
  unfold Session.persist
  rw [← h.request.value, ← h.request.channel.delivering]
  split
  · exact h
  · exact put.start .request _

theorem record (h : Observed extra old N s t) (o : Outcome) :
    Observed extra old N (s.record o) (t.record o) := by
  have put : Observed extra old N
      { s.diagnose (.recorded o.results.total) with
        outcome := some o, outcomes := s.outcomes.emit o }
      { t.diagnose (.recorded o.results.total) with
        outcome := some o, outcomes := t.outcomes.emit o } :=
    { h.diagnose (.recorded o.results.total) with outcome := rfl, outcomes := h.outcomes.emit o }
  unfold Session.record
  rw [← h.outcomes.delivering]
  exact put.start .outcomes _

theorem carryOut (h : Observed extra old N s t) (c : Command) :
    Observed extra old N (s.carryOut c) (t.carryOut c) := by
  cases c with
  | save q => exact h.persist (some q)
  | clear => exact h.persist none
  | resubmit q =>
    have heard := (h.note (.resubmitted q)).hear (h.hosts executor (by decide)) (some q)
    simp only [Session.carryOut, Session.resubmit]
    rw [← heard.answer]
    split
    · exact heard.record _
    · exact heard
  | openSearch => exact (h.note _).hear (h.hosts searchDialog (by decide)) none
  | openEvent id => exact (h.note _).hear (h.hosts eventDialog (by decide)) none

/-! ## Listings -/

theorem takeRoute (h : Observed extra old N s t) (k : Nat) (r : Route) :
    Observed extra old N (s.takeRoute k r) (t.takeRoute k r) :=
  (h.diagnose _).plan (.single (.command _ _))

theorem takeRequest (h : Observed extra old N s t) (k : Nat) (q : Option Request) :
    Observed extra old N (s.takeRequest k q) (t.takeRequest k q) := by
  have taken : Observed extra old N (s.setListing k
    ({ · with cache := some (Request.effective q) }))
      (t.setListing k ({ · with cache := some (Request.effective q) })) :=
    h.setListing k fun _ _ hl => { hl with cache := rfl }
  exact (taken.diagnose _).plan (.single (.command _ _))

theorem addListing (h : Observed extra old N s t) {route route' : Option Nat}
    (hr : N.routes.SameOrNone route route') :
    Observed extra old N (s.addListing (.following route)) (t.addListing (.following route')) :=
  { h with listings := h.listings.add ⟨rfl, hr, .none, rfl, rfl⟩ }

theorem activate (h : Observed extra old N s t) (name : String) :
    ∃ N', Observed extra old N' (s.activate name) (t.activate name) := by
  have planned : Observed extra old N
      (s.plan [.follow s.listings.length, .ready name s.listings.length])
      (t.plan [.follow s.listings.length, .ready name s.listings.length]) :=
    h.plan (.both (.follow _) (.single (.ready name _)))
  have same : (t.plan [.follow s.listings.length, .ready name s.listings.length]).route.value =
      s.route.value := h.route.value.symm
  unfold Session.activate
  dsimp only
  rw [← h.listings.count, same]
  cases hr : s.route.value with
  | some r =>
    refine ⟨N, ?_⟩
    simpa only [Session.plan, hr] using (planned.addListing .none).takeRoute s.listings.length r
  | none =>
    have followed := planned.approach (.first Option.isSome) (.listing s.listings.length)
    refine ⟨N.approach, ?_⟩
    simpa only [Session.plan, hr] using followed.addListing (.some h.approached)

theorem follow (h : Observed extra old N s t) (k : Nat) :
    ∃ N', Observed extra old N' (s.follow k) (t.follow k) := by
  refine ⟨N.enroll, ?_⟩
  unfold Session.follow
  dsimp only
  rw [← h.request.value]
  have subscribed := h.subscribe (.listing k)
  have followed : Observed extra old N.enroll
      (Session.setListing { s with request := s.request.subscribe .every (.listing k) } k
        ({ · with request := some s.request.channel.nextId }))
      (Session.setListing { t with request := t.request.subscribe .every (.listing k) } k
        ({ · with request := some t.request.channel.nextId })) :=
    subscribed.setListing k fun _ _ hl => { hl with request := .some h.enrolled }
  exact followed.takeRequest k _

theorem release (h : Observed extra old N s t) (k : Nat) :
    Observed extra old N (s.release k) (t.release k) := by
  rcases h.listings.get? k with ⟨hs, ht⟩ | ⟨l, l', hs, ht, hl⟩
  · simp only [Session.release, hs, ht]
    exact h
  · have ended {s₁ t₁ : Session} (h₁ : Observed extra old N s₁ t₁) : Observed extra old N
        (s₁.setListing k ({ · with route := none, request := none }))
        (t₁.setListing k ({ · with route := none, request := none })) :=
      h₁.setListing k fun _ _ hl => { hl with route := .none, request := .none }
    have routes := hl.route
    have requests := hl.request
    simp only [Session.release, hs, ht]
    generalize l.route = r, l'.route = r' at routes ⊢
    generalize l.request = q, l'.request = q' at requests ⊢
    cases routes with
    | none =>
      cases requests with
      | none => exact ended h
      | some same => exact ended ((h.unwatch (.request same)).diagnose .tornDown)
    | some routed =>
      have left := h.unwatch (.route routed)
      cases requests with
      | none => exact ended left
      | some same => exact ended ((left.unwatch (.request same)).diagnose .tornDown)

theorem abandon (h : Observed extra old N s t) (k : Nat) :
    Observed extra old N (s.abandon k) (t.abandon k) := by
  rcases h.listings.get? k with ⟨hs, ht⟩ | ⟨l, l', hs, ht, hl⟩
  · simp only [Session.abandon, hs, ht]
    exact h
  · simp only [Session.abandon, hs, ht]
    rw [← hl.uses]
    split
    · exact h.release k
    · exact h.setListing k fun _ _ hl => { hl with orphan := rfl }

theorem ready (h : Observed extra old N s t) (name : String) (k : Nat) :
    Observed extra old N (s.ready name k) (t.ready name k) := by
  have put : Observed extra old N { s.diagnose .activated with names := s.names.put name k }
      { t.diagnose .activated with names := s.names.put name k } :=
    { h.diagnose .activated with names := rfl }
  unfold Session.ready
  dsimp only
  rw [← h.names]
  split
  · exact put.abandon _
  · exact put

theorem leave (h : Observed extra old N s t) (k : Nat) :
    Observed extra old N (s.leave k) (t.leave k) := by
  have left : Observed extra old N (s.setListing k fun l => { l with uses := l.uses - 1 })
      (t.setListing k fun l => { l with uses := l.uses - 1 }) :=
    h.setListing k fun _ _ hl => { hl with uses := congrArg (· - 1) hl.uses }
  unfold Session.leave
  dsimp only
  rcases left.listings.get? k with ⟨hs, ht⟩ | ⟨l, l', hs, ht, hl⟩
  · simp only [hs, ht]
    exact left
  · simp only [hs, ht]
    rw [← hl.uses, ← hl.orphan]
    split
    · exact left.release k
    · exact left

theorem method (h : Observed extra old N s t) (k : Nat) (c : Command) :
    Observed extra old N (s.method k c) (t.method k c) := by
  have entered : Observed extra old N (s.setListing k fun l => { l with uses := l.uses + 1 })
      (t.setListing k fun l => { l with uses := l.uses + 1 }) :=
    h.setListing k fun _ _ hl => { hl with uses := congrArg (· + 1) hl.uses }
  exact entered.plan (.both (.command (.method k) c) (.single (.leave k)))

theorem withListing (h : Observed extra old N s t) (name : String) {f g : Nat → Listing → Session}
    (done : ∀ k l l', ListingAlike N l l' → Observed extra old N (f k l) (g k l')) :
    Observed extra old N (s.withListing name f) (t.withListing name g) := by
  unfold Session.withListing
  rw [← h.names]
  cases s.names.get? name with
  | none => exact h.note _
  | some k =>
    rcases h.listings.get? k with ⟨hs, ht⟩ | ⟨l, l', hs, ht, hl⟩
    · simp only [hs, ht]
      exact h.note _
    · simp only [hs, ht]
      exact done k l l' hl

theorem refresh (h : Observed extra old N s t) (k : Nat) {l l' : Listing}
    (hl : ListingAlike N l l') :
    Observed extra old N (s.refresh k l) (t.refresh k l') := by
  have seeded : Observed extra old N
      ((s.diagnose .unseeded).setListing k ({ · with cache := some .default }))
      ((t.diagnose .unseeded).setListing k ({ · with cache := some .default })) :=
    (h.diagnose .unseeded).setListing k fun _ _ hl => { hl with cache := rfl }
  unfold Session.refresh
  rw [← hl.cache]
  split
  · exact h.method k _
  · exact seeded.method k _

theorem tearDown (h : Observed extra old N s t) (name : String) (k : Nat) {l l' : Listing}
    (hl : ListingAlike N l l') :
    Observed extra old N (s.tearDown name k l) (t.tearDown name k l') := by
  have erased : Observed extra old N { s with names := s.names.erase name }
      { t with names := t.names.erase name } := { h with names := congrArg (·.erase name) h.names }
  unfold Session.tearDown
  rw [← hl.uses]
  split
  · exact erased.release k
  · exact h.note _

/-! ## Watchers -/

theorem hearRoute (h : Observed extra old N s t) {i j : Nat} (hs : N.people.same i j)
    (r : Option Route) : Observed extra old N (s.hearRoute i r) (t.hearRoute j r) := by
  unfold Session.hearRoute
  rw [← h.nameOf hs, ← h.route.value]
  exact (h.note _).hear hs _

theorem hearRouteAlone (h : Observed extra old N s t) {i : Nat} (ha : N.people.Alone i)
    (r : Option Route) : Observed extra old N (s.hearRoute i r) t :=
  (h.noteAlone (by simp [Note.isShown, h.nameOfAlone ha])).hearAlone ha _

theorem hearRequest (h : Observed extra old N s t) {i j : Nat} (hs : N.people.same i j)
    (q : Option Request) : Observed extra old N (s.hearRequest i q) (t.hearRequest j q) := by
  unfold Session.hearRequest
  rw [← h.nameOf hs, ← h.request.value]
  exact (h.note _).hear hs q

theorem hearRequestAlone (h : Observed extra old N s t) {i : Nat} (ha : N.people.Alone i)
    (q : Option Request) : Observed extra old N (s.hearRequest i q) t :=
  (h.noteAlone (by simp [Note.isShown, h.nameOfAlone ha])).hearAlone ha q

theorem hearOutcome (h : Observed extra old N s t) {i j : Nat} (hs : N.people.same i j)
    (o : Outcome) :
    Observed extra old N (s.hearOutcome i o) (t.hearOutcome j o) := by
  unfold Session.hearOutcome
  rw [← h.nameOf hs, ← h.outcome]
  exact (h.note _).hear hs _

theorem hearOutcomeAlone (h : Observed extra old N s t) {i : Nat} (ha : N.people.Alone i)
    (o : Outcome) :
    Observed extra old N (s.hearOutcome i o) t :=
  (h.noteAlone (by simp [Note.isShown, h.nameOfAlone ha])).hearAlone ha _

theorem watchRoute (h : Observed extra old N s t) {name : String} (other : extra name = false)
    {rules : List (Rule (Option Request) Action)} (passive : rulesPassive extra rules = true) :
    ∃ N', Observed extra old N' (s.watchRoute name rules)
      (t.watchRoute name (rulesWithout extra rules)) := by
  have added := h.addListener name passive
  have subscribed := added.approach .every (.watcher h.newest)
  refine ⟨N.meet.approach, ?_⟩
  unfold Session.watchRoute
  dsimp only
  rw [← h.route.value]
  exact (subscribed.plan (.single (.keep other (.route added.approached)))).hearRoute h.newest _

theorem watchRouteAlone (h : Observed extra old N s t) {name : String} (he : extra name = true) :
    ∃ N', Observed extra old N' (s.watchRoute name []) t := by
  have added := h.addListenerAlone he
  have subscribed := added.approachAlone h.newestAlone
  refine ⟨N.meetAlone.approachAlone, ?_⟩
  exact (subscribed.planAlone (.keep he (.route added.approachedAlone))).hearRouteAlone
    h.newestAlone _

theorem watch (h : Observed extra old N s t) {name : String} (other : extra name = false)
    {rules : List (Rule (Option Request) Action)} (passive : rulesPassive extra rules = true) :
    ∃ N', Observed extra old N' (s.watch name rules) (t.watch name (rulesWithout extra rules)) := by
  have added := h.addListener name passive
  have subscribed := added.subscribe (.watcher h.newest)
  refine ⟨N.meet.enroll, ?_⟩
  unfold Session.watch
  dsimp only
  rw [← h.request.value]
  exact (subscribed.plan (.single (.keep other (.request added.enrolled)))).hearRequest h.newest _

theorem watchAlone (h : Observed extra old N s t) {name : String} (he : extra name = true) :
    ∃ N', Observed extra old N' (s.watch name []) t := by
  have added := h.addListenerAlone he
  have subscribed := added.subscribeAlone h.newestAlone
  refine ⟨N.meetAlone.enrollAlone, ?_⟩
  exact (subscribed.planAlone (.keep he (.request added.enrolledAlone))).hearRequestAlone
    h.newestAlone _

theorem watchOutcomes (h : Observed extra old N s t) {name : String} (other : extra name = false)
    {rules : List (Rule (Option Request) Action)} (passive : rulesPassive extra rules = true) :
    ∃ N', Observed extra old N' (s.watchOutcomes name rules)
      (t.watchOutcomes name (rulesWithout extra rules)) := by
  have added := h.addListener name passive
  have subscribed := added.attend h.newest
  exact ⟨N.meet.attend, subscribed.plan (.single (.keep other (.outcomes added.attending)))⟩

theorem watchOutcomesAlone (h : Observed extra old N s t) {name : String} (he : extra name = true) :
    ∃ N', Observed extra old N' (s.watchOutcomes name []) t := by
  have added := h.addListenerAlone he
  have subscribed := added.attendAlone h.newestAlone
  exact ⟨N.meetAlone.attendAlone, subscribed.planAlone (.keep he (.outcomes added.attendingAlone))⟩

theorem keep (h : Observed extra old N s t) {name : String} (other : extra name = false)
    {w w' : Watch}
    (hw : WatchAlike N w w') : Observed extra old N (s.keep name w) (t.keep name w') := by
  have put : Observed extra old N { s with watches := s.watches.put name w }
      { t with watches := t.watches.put name w' } := { h with watches := h.watches.put other hw }
  rcases h.watches.get? other with ⟨hs, ht⟩ | ⟨v, v', hs, ht, hv⟩
  · simp only [Session.keep, hs, ht]
    exact put
  · simp only [Session.keep, hs, ht]
    exact put.unwatch hv

theorem keepAlone (h : Observed extra old N s t) {name : String} (he : extra name = true)
    {w : Watch} (hw : WatchAlone N w) : Observed extra old N (s.keep name w) t := by
  have put : Observed extra old N { s with watches := s.watches.put name w } t :=
    { h with watches := h.watches.putExtra he hw }
  unfold Session.keep
  dsimp only
  split
  · next v found => exact put.unwatchAlone (h.watches.get?_extra he found)
  · exact put

/-! ## Actions -/

theorem act (h : Observed extra old N s t) {a a' : Action} (without : a.without extra = some a')
    (passive : a.isPassive extra = true) : ∃ N', Observed extra old N' (s.act a) (t.act a') := by
  cases a with
  | activate name =>
    cases without
    exact h.activate name
  | tearDown name =>
    cases without
    exact ⟨N, h.withListing name fun k _ _ hl => h.tearDown name k hl⟩
  | refresh name =>
    cases without
    exact ⟨N, h.withListing name fun k _ _ hl => h.refresh k hl⟩
  | clearBy name =>
    cases without
    exact ⟨N, h.withListing name fun k _ _ _ => (h.diagnose .clearing).method k .clear⟩
  | openSearchBy name =>
    cases without
    exact ⟨N, h.withListing name fun k _ _ _ => h.method k .openSearch⟩
  | openEventBy name e =>
    cases without
    exact ⟨N, h.withListing name fun k _ _ _ => h.method k (.openEvent e.id)⟩
  | message name =>
    cases without
    refine ⟨N, h.withListing name fun _ _ _ _ => ?_⟩
    rw [← h.outcome]
    exact h.note _
  | current name =>
    cases without
    refine ⟨N, h.withListing name fun _ l l' hl => ?_⟩
    have active : l.request.isSome = l'.request.isSome := by
      have requests := hl.request
      generalize l.request = r, l'.request = r' at requests
      cases requests <;> rfl
    rw [← hl.cache, ← active]
    exact h.note _
  | navigate r =>
    cases without
    exact ⟨N, h.navigate r⟩
  | command c =>
    cases without
    exact ⟨N, h.plan (.single (.command _ c))⟩
  | record o =>
    cases without
    exact ⟨N, h.record o⟩
  | watch name rules =>
    obtain ⟨other, rfl⟩ := eq_of_kept without
    simp only [Action.isPassive, other, Bool.false_eq_true, if_false] at passive
    exact h.watch other passive
  | watchRoute name rules =>
    obtain ⟨other, rfl⟩ := eq_of_kept without
    simp only [Action.isPassive, other, Bool.false_eq_true, if_false] at passive
    exact h.watchRoute other passive
  | watchResults name rules =>
    obtain ⟨other, rfl⟩ := eq_of_kept without
    simp only [Action.isPassive, other, Bool.false_eq_true, if_false] at passive
    exact h.watchOutcomes other passive
  | unwatch name =>
    obtain ⟨other, rfl⟩ := eq_of_kept without
    have erased : Observed extra old N { s with watches := s.watches.erase name }
        { t with watches := t.watches.erase name } := { h with watches := h.watches.erase name }
    refine ⟨N, ?_⟩
    rcases h.watches.get? other with ⟨hs, ht⟩ | ⟨w, w', hs, ht, hw⟩
    · simp only [Session.act, hs, ht]
      exact h.note _
    · simp only [Session.act, hs, ht]
      exact erased.unwatch hw

/-- What an observer does. -/
theorem actAlone (h : Observed extra old N s t) {a : Action} (without : a.without extra = none)
    (passive : a.isPassive extra = true) : ∃ N', Observed extra old N' (s.act a) t := by
  cases a with
  | watch name rules =>
    have he := extra_of_left_out without
    simp only [Action.isPassive, he, if_true, List.isEmpty_iff] at passive
    subst passive
    exact h.watchAlone he
  | watchRoute name rules =>
    have he := extra_of_left_out without
    simp only [Action.isPassive, he, if_true, List.isEmpty_iff] at passive
    subst passive
    exact h.watchRouteAlone he
  | watchResults name rules =>
    have he := extra_of_left_out without
    simp only [Action.isPassive, he, if_true, List.isEmpty_iff] at passive
    subst passive
    exact h.watchOutcomesAlone he
  | unwatch name =>
    have he := extra_of_left_out without
    refine ⟨N, ?_⟩
    rw [Session.act]
    split
    · next w found =>
      have erased : Observed extra old N { s with watches := s.watches.erase name } t :=
        { h with watches := h.watches.eraseExtra he }
      exact erased.unwatchAlone (h.watches.get?_extra he found)
    · exact h.noteAlone (by simp [Note.isShown, he])
  | activate _ | tearDown _ | refresh _ | clearBy _ | openSearchBy _ | openEventBy _ _ | message _
  | current _ | navigate _ | command _ | record _ => cases without

/-! ## Rules -/

theorem actions {acts : List Action} (passive : actionsPassive extra acts = true) :
    Woven (TaskAlike extra N) (TaskAlone extra N) (acts.map .act)
      ((actionsWithout extra acts).map .act) := by
  induction acts with
  | nil => exact .nil
  | cons a as ih =>
    rw [actionsPassive, Bool.and_eq_true] at passive
    have rest := ih passive.2
    rw [actionsWithout]
    cases without : a.without extra with
    | none => exact .extra (.act without passive.1) rest
    | some a' => exact .both (.act without passive.1) rest

theorem react (h : Observed extra old N s t) {i j : Nat} (hs : N.people.same i j)
    (before rule : Nat) (v : Option Request) :
    Observed extra old N (s.react i before rule v) (t.react j before rule v) := by
  obtain ⟨l, l', hl, hl', hll⟩ := h.listeners.same i j hs
  have next : Observed extra old N (s.plan [.react i before (rule + 1) v])
      (t.plan [.react j before (rule + 1) v]) := h.plan (.single (.react hs ..))
  simp only [Session.react, hl, hl', hll.length_rules]
  split
  · rcases hll.fire rule before v with ⟨hf, hf'⟩ | ⟨acts, k, k', hf, hf', passive, hk⟩
    · simp only [hf, hf']
      exact next
    · simp only [hf, hf']
      have spent : Observed extra old N
          { s.plan [.react i before (rule + 1) v] with listeners := s.listeners.set i k }
          { t.plan [.react j before (rule + 1) v] with listeners := t.listeners.set j k' } :=
        { next with listeners := h.listeners.set hs hk }
      exact spent.plan (actions passive)
  · exact h

theorem reactAlone (h : Observed extra old N s t) {i : Nat} (ha : N.people.Alone i)
    (before rule : Nat) (v : Option Request) : s.react i before rule v = s := by
  obtain ⟨l, hl, silent⟩ := h.listeners.alone i ha
  simp [Session.react, hl, silent.rules]

end Observed
end StandingQuery.Session
