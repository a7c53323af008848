import Mathlib.Algebra.GroupWithZero.Nat
import StandingQuery.Proofs.Observer.Session.Task
import StandingQuery.Proofs.Observer.Simulation
import StandingQuery.Proofs.Session.View

/-! A step of a session with observers is a step of the session without them, or a turn, a task or
an action of an observer, which leaves the other session as it is. -/

namespace StandingQuery.Session

variable {extra : String → Bool}

/-! ## What observers keep the session busy with -/

def Task.burden : Task → Nat
  | .act _ => 3
  | .react _ _ _ _ | .keep _ _ => 1
  | .command _ _ | .deliver _ | .follow _ | .ready _ _ | .leave _ => 0

/-- More than the steps that can be made in a row for observers only. -/
def burden (s : Session) : Nat :=
  2 * (s.route.channel.turns.length + s.request.channel.turns.length + s.outcomes.turns.length) +
    (s.agenda.map Task.burden).sum

theorem burden_plan (s : Session) (ts : List Task) :
    (s.plan ts).burden = (ts.map Task.burden).sum + s.burden := by
  simp only [burden, plan, List.map_append, List.sum_append]
  omega

theorem burden_deliver (s : Session) (l : Line) : (s.plan [.deliver l]).burden = s.burden := by
  rw [burden_plan]
  exact Nat.zero_add _

theorem burden_hear (s : Session) (i : Nat) (v : Option Request) :
    (s.hear i v).burden ≤ s.burden + 1 := by
  unfold hear
  split
  · exact Nat.le_succ _
  · rw [burden_plan, Nat.add_comm]
    exact Nat.le_refl _

theorem burden_hearRoute (s : Session) (i : Nat) (r : Option Route) :
    (s.hearRoute i r).burden ≤ s.burden + 1 := burden_hear (s.note _) i _

theorem burden_hearRequest (s : Session) (i : Nat) (q : Option Request) :
    (s.hearRequest i q).burden ≤ s.burden + 1 := burden_hear (s.note _) i q

theorem burden_hearOutcome (s : Session) (i : Nat) (o : Outcome) :
    (s.hearOutcome i o).burden ≤ s.burden + 1 := burden_hear (s.note _) i _

theorem burden_unwatch (s : Session) (w : Watch) : (s.unwatch w).burden = s.burden := by
  cases w <;> rfl

theorem burden_keep (s : Session) (name : String) (w : Watch) :
    (s.keep name w).burden = s.burden := by
  unfold keep
  dsimp only
  split
  · exact burden_unwatch ..
  · rfl

theorem burden_watchRoute (s : Session) (name : String)
    (rules : List (Rule (Option Request) Action)) :
    (s.watchRoute name rules).burden ≤ s.burden + 2 := by
  refine Nat.le_trans (burden_hearRoute ..) ?_
  rw [burden_plan, Nat.add_comm _ (burden _)]
  exact Nat.le_refl _

theorem burden_watch (s : Session) (name : String) (rules : List (Rule (Option Request) Action)) :
    (s.watch name rules).burden ≤ s.burden + 2 := by
  refine Nat.le_trans (burden_hearRequest ..) ?_
  rw [burden_plan, Nat.add_comm _ (burden _)]
  exact Nat.le_refl _

theorem burden_watchOutcomes (s : Session) (name : String)
    (rules : List (Rule (Option Request) Action)) :
    (s.watchOutcomes name rules).burden ≤ s.burden + 2 := by
  rw [watchOutcomes, burden_plan, Nat.add_comm]
  exact Nat.le_succ _

theorem burden_actAlone (s : Session) {a : Action} (without : a.without extra = none) :
    (s.act a).burden ≤ s.burden + 2 := by
  cases a with
  | watch name rules => exact burden_watch ..
  | watchRoute name rules => exact burden_watchRoute ..
  | watchResults name rules => exact burden_watchOutcomes ..
  | unwatch name =>
    rw [act]
    split
    · rw [burden_unwatch]
      exact Nat.le_add_right _ _
    · exact Nat.le_add_right _ _
  | activate _ | tearDown _ | refresh _ | clearBy _ | openSearchBy _ | openEventBy _ _ | message _
  | current _ | navigate _ | command _ | record _ => cases without

/-! ## One step -/

namespace Observed

variable {old : List Note × List Note} {N : Numbers} {s t : Session}

/-- The next turn of the delivery of routes in both sessions. -/
theorem deliverRoute (h : Observed extra old N s t)
    (turn : Channel.TurnAlike N.routes (FollowerAlike N.people) s.route.advance.1 t.route.advance.1)
    (next : CellAlike N.routes N.people s.route.advance.2 t.route.advance.2) :
    Observed extra old N s.deliverRoute t.deliverRoute := by
  have advanced : Observed extra old N { s with route := s.route.advance.2 }
      { t with route := t.route.advance.2 } := { h with route := next }
  have again := advanced.plan (.single (.deliver .route))
  unfold Session.deliverRoute
  dsimp only
  generalize s.route.advance.1 = x at turn
  generalize t.route.advance.1 = y at turn
  cases turn with
  | finished => exact advanced
  | moved => exact again
  | refused v hef => exact again
  | called v hef =>
    have target := hef.target
    dsimp only
    generalize Entry.target _ = f at target ⊢
    generalize Entry.target _ = f' at target ⊢
    cases target with
    | listing k =>
      cases v with
      | none => exact again
      | some r => exact again.takeRoute k r
    | watcher hs => exact again.hearRoute hs v

/-- The next turn of the delivery of routes is an observer's. -/
theorem deliverRouteAlone (h : Observed extra old N s t)
    (turn : Channel.TurnAlone (FollowerAlone N.people) s.route.advance.1)
    (next : CellAlike N.routes N.people s.route.advance.2 t.route)
    (less : s.route.advance.2.channel.turns.length + 1 = s.route.channel.turns.length) :
    Observed extra old N s.deliverRoute (t.plan [.deliver .route]) ∧
      s.deliverRoute.burden < s.burden := by
  have advanced : Observed extra old N { s with route := s.route.advance.2 } t :=
    { h with route := next }
  have again := advanced.plan (.single (.deliver .route))
  have lighter : burden { s with route := s.route.advance.2 } + 2 = s.burden := by
    simp only [burden]
    omega
  unfold Session.deliverRoute
  dsimp only
  generalize s.route.advance.1 = x at turn
  cases turn with
  | moved | refused _ _ =>
    refine ⟨again, ?_⟩
    rw [burden_deliver]
    omega
  | called v ha =>
    dsimp only
    generalize Entry.target _ = f at ha ⊢
    cases ha with
    | @watcher i ha =>
      refine ⟨again.hearRouteAlone ha v, Nat.lt_of_le_of_lt (burden_hearRoute ..) ?_⟩
      rw [burden_deliver]
      omega

/-- As for routes. -/
theorem deliverRequest (h : Observed extra old N s t)
    (turn : Channel.TurnAlike N.ids (FollowerAlike N.people) s.request.advance.1
      t.request.advance.1)
    (next : CellAlike N.ids N.people s.request.advance.2 t.request.advance.2) :
    Observed extra old N s.deliverRequest t.deliverRequest := by
  have advanced : Observed extra old N { s with request := s.request.advance.2 }
      { t with request := t.request.advance.2 } := { h with request := next }
  have again := advanced.plan (.single (.deliver .request))
  unfold Session.deliverRequest
  dsimp only
  generalize s.request.advance.1 = x at turn
  generalize t.request.advance.1 = y at turn
  cases turn with
  | finished => exact advanced
  | moved => exact again
  | refused v hef => exact again
  | called v hef =>
    have target := hef.target
    dsimp only
    generalize Entry.target _ = f at target ⊢
    generalize Entry.target _ = f' at target ⊢
    cases target with
    | listing k => exact again.takeRequest k v
    | watcher hs => exact again.hearRequest hs v

theorem deliverRequestAlone (h : Observed extra old N s t)
    (turn : Channel.TurnAlone (FollowerAlone N.people) s.request.advance.1)
    (next : CellAlike N.ids N.people s.request.advance.2 t.request)
    (less : s.request.advance.2.channel.turns.length + 1 = s.request.channel.turns.length) :
    Observed extra old N s.deliverRequest (t.plan [.deliver .request]) ∧
      s.deliverRequest.burden < s.burden := by
  have advanced : Observed extra old N { s with request := s.request.advance.2 } t :=
    { h with request := next }
  have again := advanced.plan (.single (.deliver .request))
  have lighter : burden { s with request := s.request.advance.2 } + 2 = s.burden := by
    simp only [burden]
    omega
  unfold Session.deliverRequest
  dsimp only
  generalize s.request.advance.1 = x at turn
  cases turn with
  | moved | refused _ _ =>
    refine ⟨again, ?_⟩
    rw [burden_deliver]
    omega
  | called v ha =>
    dsimp only
    generalize Entry.target _ = f at ha ⊢
    cases ha with
    | @watcher i ha =>
      refine ⟨again.hearRequestAlone ha v, Nat.lt_of_le_of_lt (burden_hearRequest ..) ?_⟩
      rw [burden_deliver]
      omega

theorem deliverOutcome (h : Observed extra old N s t)
    (turn : Channel.TurnAlike N.outs N.people.same s.outcomes.advance.1 t.outcomes.advance.1)
    (next : Channel.Alike N.outs N.people.same N.people.Alone s.outcomes.advance.2
      t.outcomes.advance.2) : Observed extra old N s.deliverOutcome t.deliverOutcome := by
  have advanced : Observed extra old N { s with outcomes := s.outcomes.advance.2 }
      { t with outcomes := t.outcomes.advance.2 } := { h with outcomes := next }
  have again := advanced.plan (.single (.deliver .outcomes))
  unfold Session.deliverOutcome
  dsimp only
  generalize s.outcomes.advance.1 = x at turn
  generalize t.outcomes.advance.1 = y at turn
  cases turn with
  | finished => exact advanced
  | moved => exact again
  | refused v hef => exact again
  | called v hef => exact again.hearOutcome hef.target v

theorem deliverOutcomeAlone (h : Observed extra old N s t)
    (turn : Channel.TurnAlone N.people.Alone s.outcomes.advance.1)
    (next : Channel.Alike N.outs N.people.same N.people.Alone s.outcomes.advance.2 t.outcomes)
    (less : s.outcomes.advance.2.turns.length + 1 = s.outcomes.turns.length) :
    Observed extra old N s.deliverOutcome (t.plan [.deliver .outcomes]) ∧
      s.deliverOutcome.burden < s.burden := by
  have advanced : Observed extra old N { s with outcomes := s.outcomes.advance.2 } t :=
    { h with outcomes := next }
  have again := advanced.plan (.single (.deliver .outcomes))
  have lighter : burden { s with outcomes := s.outcomes.advance.2 } + 2 = s.burden := by
    simp only [burden]
    omega
  unfold Session.deliverOutcome
  dsimp only
  generalize s.outcomes.advance.1 = x at turn
  cases turn with
  | moved | refused _ _ =>
    refine ⟨again, ?_⟩
    rw [burden_deliver]
    omega
  | called v ha =>
    refine ⟨again.hearOutcomeAlone ha v, Nat.lt_of_le_of_lt (burden_hearOutcome ..) ?_⟩
    rw [burden_deliver]
    omega

/-- A task that is there in both sessions. Only a delivery can be an observer's turn; then it stays
on the agenda of the session without him. -/
theorem perform (h : Observed extra old N s t) {x u : Task} (tasks : TaskAlike extra N x u) :
    (∃ N', Observed extra old N' (s.perform x) (t.perform u)) ∨
      Observed extra old N (s.perform x) (t.plan [u]) ∧ (s.perform x).burden < s.burden := by
  cases tasks with
  | act without passive => exact .inl (h.act without passive)
  | command g c => exact .inl ⟨N, h.carryOut c⟩
  | react same before rule v => exact .inl ⟨N, h.react same before rule v⟩
  | follow k => exact .inl (h.follow k)
  | ready name k => exact .inl ⟨N, h.ready name k⟩
  | keep other same => exact .inl ⟨N, h.keep other same⟩
  | leave k => exact .inl ⟨N, h.leave k⟩
  | deliver l =>
    cases l with
    | route =>
      rcases Cell.Alike.advance h.route with ⟨turn, next⟩ | ⟨turn, next, less⟩
      · exact .inl ⟨N, h.deliverRoute turn next⟩
      · exact .inr (h.deliverRouteAlone turn next less)
    | request =>
      rcases Cell.Alike.advance h.request with ⟨turn, next⟩ | ⟨turn, next, less⟩
      · exact .inl ⟨N, h.deliverRequest turn next⟩
      · exact .inr (h.deliverRequestAlone turn next less)
    | outcomes =>
      rcases h.outcomes.advance with ⟨turn, next⟩ | ⟨turn, next, less⟩
      · exact .inl ⟨N, h.deliverOutcome turn next⟩
      · exact .inr (h.deliverOutcomeAlone turn next less)

/-- A task of an observer. -/
theorem performAlone (h : Observed extra old N s t) {x : Task} (task : TaskAlone extra N x) :
    ∃ N', Observed extra old N' (s.perform x) t ∧
      (s.perform x).burden < x.burden + s.burden := by
  cases task with
  | act without passive =>
    obtain ⟨N', done⟩ := h.actAlone without passive
    refine ⟨N', done, Nat.lt_of_le_of_lt (burden_actAlone _ without) ?_⟩
    simp only [Task.burden]
    omega
  | react ha before rule v =>
    rw [Session.perform, h.reactAlone ha before rule v]
    exact ⟨N, h, Nat.lt_add_of_pos_left Nat.one_pos⟩
  | keep he ha =>
    refine ⟨N, h.keepAlone he ha, ?_⟩
    rw [Session.perform, burden_keep]
    exact Nat.lt_add_of_pos_left Nat.one_pos

/-- A step is one without the observers, or leads a bit closer to the next one that is. -/
theorem step (h : Observed extra old N s t) {s' : Session} (taken : s.step = some s') :
    (∃ t' N', t.step = some t' ∧ Observed extra old N' s' t') ∨
      ∃ N', Observed extra old N' s' t ∧ s'.burden < s.burden := by
  have agenda := h.agenda
  cases hs : s.agenda with
  | nil =>
    rw [Session.step, hs] at taken
    cases taken
  | cons x xs =>
    rw [Session.step, hs] at taken
    cases taken
    rw [hs] at agenda
    have weight : s.burden = x.burden + burden { s with agenda := xs } := by
      simp only [burden, hs, List.map_cons, List.sum_cons]
      omega
    generalize ht : t.agenda = us at agenda
    cases agenda with
    | @both _ u _ us task rest =>
      have left : Observed extra old N { s with agenda := xs } { t with agenda := us } :=
        { h with agenda := rest }
      rcases left.perform task with ⟨N', done⟩ | ⟨done, less⟩
      · exact .inl ⟨_, N', by rw [Session.step, ht], done⟩
      · have waits : Session.plan { t with agenda := us } [u] = t := by
          rw [Session.plan, List.singleton_append, ← ht]
        rw [waits] at done
        exact .inr ⟨N, done, weight ▸ Nat.lt_of_lt_of_le less (Nat.le_add_left _ _)⟩
    | extra task rest =>
      have left : Observed extra old N { s with agenda := xs } t := { h with agenda := ht ▸ rest }
      obtain ⟨N', done, less⟩ := left.performAlone task
      exact .inr ⟨N', done, weight ▸ less⟩

theorem agrees (h : Observed extra old N s t) : Agrees extra (old.1, s) (old.2, t) where
  route := h.route.value
  persisted := h.request.value
  outcome := h.outcome
  names := h.names
  cached := by
    intro k
    rcases h.listings.get? k with ⟨hs, ht⟩ | ⟨l, l', hs, ht, hl⟩
    · rw [currentRequest, currentRequest, hs, ht]
    · simp only [currentRequest, hs, ht, Option.bind_some, hl.cache]
  taking := by
    intro k
    rcases h.listings.get? k with ⟨hs, ht⟩ | ⟨l, l', hs, ht, hl⟩
    · simp only [taking, hs, ht, Option.any_none]
    · have routes :
          l.route.any s.route.channel.isActive = l'.route.any t.route.channel.isActive := by
        have same := hl.route
        generalize l.route = i, l'.route = j at same
        cases same with
        | none => rfl
        | some same => exact h.route.channel.isActive same
      have requests : l.request.any s.request.channel.isActive =
          l'.request.any t.request.channel.isActive := by
        have same := hl.request
        generalize l.request = i, l'.request = j at same
        cases same with
        | none => rfl
        | some same => exact h.request.channel.isActive same
      simp only [taking, hs, ht, Option.any_some, routes, requests]
  notes := h.notes
  activity := h.watches.listed fun _ _ => h.isWatching

/-- The next action is taken, with nothing noted about it yet. -/
theorem take (h : Observed extra old N s t) {ts us : List Task}
    (tasks : Woven (TaskAlike extra N) (TaskAlone extra N) ts us) :
    Observed extra (s.notes ++ old.1, t.notes ++ old.2) N { s with notes := [], agenda := ts }
      { t with notes := [], agenda := us } :=
  { h with agenda := tasks }

/-- The next action is an observer's. -/
theorem takeAlone (h : Observed extra old N s t) {x : Task} (new : TaskAlone extra N x)
    (rest : s.agenda = []) :
    Observed extra (s.notes ++ old.1, old.2) N { s with notes := [], agenda := [x] } t :=
  { h with agenda := .extra new (rest ▸ h.agenda) }

end Observed

/-! ## Whole scripts -/

/-- A session with all that has been noted in it. -/
def recorder : Machine (List Note × Session) Action := machine.telling Session.notes

theorem shadows : recorder.Shadows (Action.without extra) (fun a => a.isPassive extra = true)
    (fun s t => ∃ N, Observed extra (s.1, t.1) N s.2 t.2) (fun s => s.2.burden) where
  rest := by
    rintro ⟨old, s⟩
    cases hs : s.agenda <;> simp [recorder, Machine.telling, machine, Session.step, hs]
  step := by
    rintro ⟨old, s⟩ ⟨old', t⟩ _ ⟨N, h⟩ taken
    obtain ⟨s', made, rfl⟩ := Option.map_eq_some_iff.1 taken
    rcases h.step made with ⟨t', N', ahead, done⟩ | ⟨N', done, less⟩
    · exact .inl ⟨(old', t'), Option.map_eq_some_iff.2 ⟨t', ahead, rfl⟩, N', done⟩
    · exact .inr ⟨⟨N', done⟩, less⟩
  halt := by
    rintro ⟨old, s⟩ ⟨old', t⟩ ⟨N, h⟩ (rest : s.agenda = [])
    have agenda := h.agenda
    rw [rest] at agenda
    exact agenda.eq_nil
  same := by
    rintro a a' ⟨old, s⟩ ⟨old', t⟩ passive without ⟨N, h⟩ _
    exact ⟨N, h.take (.single (.act without passive))⟩
  extra := by
    rintro a ⟨old, s⟩ ⟨old', t⟩ passive without ⟨N, h⟩ rest
    exact ⟨N, h.takeAlone (.act without passive) rest⟩

/-- Those who carry out commands are there in both sessions. -/
def Numbers.start : Numbers := ⟨.empty, .empty, .empty, Pairing.empty.both.both.both⟩

theorem alike_start (extra : String → Bool) (answer : Option UInt64) (persisted : Option Request)
    (route : Option Route) {hosts : Hosts} (passive : hosts.isPassive extra = true) :
    Observed extra ([], []) .start (start answer persisted route hosts)
      (start answer persisted route (hosts.without extra)) := by
  have host {rules : List (Rule (Option Request) Action)}
      (passive : rulesPassive extra rules = true) :
      Listener.Alike (actionsWithout extra) (fun acts => actionsPassive extra acts = true)
        (.named "" rules) (.named "" (rulesWithout extra rules)) := by
    rw [rulesWithout_eq]
    exact .named _ _ "" ((rulesPassive_iff extra rules).1 passive)
  have nobody : Tables .empty
      (Listener.Alike (α := Option Request) (actionsWithout extra)
        fun acts => actionsPassive extra acts = true) (Listener.Silent extra) [] [] :=
    ⟨rfl, rfl, fun _ _ h => h.elim, fun _ h => absurd h.1 (Nat.not_lt_zero _)⟩
  simp only [Hosts.isPassive, Bool.and_eq_true] at passive
  exact {
    answer := rfl
    route := ⟨rfl, Channel.alike_empty _ _⟩
    request := ⟨rfl, Channel.alike_empty _ _⟩
    outcomes := Channel.alike_empty _ _
    outcome := rfl
    listeners := ((nobody.add (host passive.1.1)).add (host passive.1.2)).add (host passive.2)
    hosts := by
      intro i hi
      obtain rfl | rfl | rfl : i = 0 ∨ i = 1 ∨ i = 2 := by omega
      · exact .inl (.inl Pairing.empty.same_both)
      · exact .inl Pairing.empty.both.same_both
      · exact Pairing.empty.both.both.same_both
    listings := ⟨rfl, fun _ _ _ h => by cases h⟩
    names := rfl
    watches := .nil
    notes := rfl
    agenda := .nil }

/-- Observers change nothing for the others in a session. -/
theorem mirrors (extra : String → Bool) (answer : Option UInt64) (persisted : Option Request)
    (route : Option Route) {hosts : Hosts} (passiveHosts : hosts.isPassive extra = true)
    {script : List Action} (passive : ∀ a ∈ script, a.isPassive extra = true) :
    recorder.Mirrors (Action.without extra) (Agrees extra)
      ([], start answer persisted route hosts)
      ([], start answer persisted route (hosts.without extra)) script :=
  shadows.mirrors (fun _ _ ⟨_, h⟩ => h.agrees)
    ⟨.start, alike_start extra answer persisted route passiveHosts⟩ passive

end StandingQuery.Session
