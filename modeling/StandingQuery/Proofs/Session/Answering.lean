import StandingQuery.Proofs.Session.Refresh

/-! Sessions in which every query is answered at once, and in which nobody reacts to that. While
there is one listing alone, an action comes to rest in a few steps; the latest outcome is then that
of the request that is to be run for what is persisted. -/

namespace StandingQuery.Session

/-! ## Steps that lead to rest -/

/-- It takes so many steps from the one to the other. -/
inductive Leads : Nat → Session → Session → Prop
  | refl (s : Session) : Leads 0 s s
  | step {n : Nat} {s t u : Session} (taken : s.step = some t) (h : Leads n t u) :
      Leads (n + 1) s u

theorem Leads.trans {m n : Nat} {s t u : Session} (h : Leads m s t) (h' : Leads n t u) :
    Leads (n + m) s u := by
  induction h with
  | refl => exact h'
  | step taken _ ih => exact .step taken (ih h')

theorem Leads.run {m n : Nat} {s t : Session} (h : Leads m s t) (rest : t.agenda = [])
    (enough : m ≤ n) : run n s = t := by
  induction h generalizing n with
  | refl s =>
    cases n with
    | zero => rfl
    | succ n => simp only [Session.run, Session.step, rest]
  | step taken _ ih =>
    cases n with
    | zero => exact absurd enough (Nat.not_succ_le_zero _)
    | succ n =>
      rw [Session.run, taken]
      exact ih rest (Nat.le_of_succ_le_succ enough)

/-! ## Queries that are answered at once -/

/-- Every query is answered with the total, and nobody reacts to a query or an outcome. -/
structure Answers (s : Session) (total : UInt64) : Prop where
  answer : s.answer = some total
  executor : ∃ name heard others, s.listeners = ⟨name, [], heard⟩ :: others
  outcomes : s.outcomes = .empty

theorem Answers.transfer {s t : Session} {total : UInt64} (h : s.Answers total)
    (answer : t.answer = s.answer) (listeners : t.listeners = s.listeners)
    (outcomes : t.outcomes = s.outcomes) : t.Answers total :=
  ⟨answer.trans h.answer, listeners ▸ h.executor, outcomes.trans h.outcomes⟩

/-- What a query leaves behind. -/
def answered (s : Session) (total : UInt64) (q : Request) : Session :=
  { s with
    outcome := some ⟨q, ⟨total, []⟩⟩
    notes := .diagnostic (.recorded total) :: .resubmitted q :: s.notes
    listeners := heardOnce s.listeners executor }

theorem Answers.answered {s : Session} {total : UInt64} (h : s.Answers total) (q : Request) :
    (s.answered total q).Answers total where
  answer := h.answer
  executor := by
    obtain ⟨name, heard, others, hl⟩ := h.executor
    exact ⟨name, heard + 1, others, congrArg (heardOnce · Session.executor) hl⟩
  outcomes := h.outcomes

/-- The outcome is delivered to nobody before the executor has heard of the query. -/
theorem leads_resubmit {s : Session} {total : UInt64} (h : s.Answers total) (g : Giver)
    (q : Request) (ts : List Task) :
    Leads 4 { s with agenda := .command g (.resubmit q) :: ts }
      { s.answered total q with agenda := ts } := by
  obtain ⟨answer, route, request, outcomes, outcome, listeners, listings, names, watches, notes,
    agenda⟩ := s
  obtain ⟨rfl, ⟨name, heard, others, rfl⟩, rfl⟩ := h
  exact .step rfl <| .step rfl <| .step rfl <| .step rfl <| .refl _

/-- What it leaves behind that a listing hears of what is persisted. -/
def pursued (s : Session) (total : UInt64) (k : Nat) (persisted : Option Request) : Session :=
  let q := Request.effective persisted
  s.setListing k ({ · with cache := some q }) |>.diagnose (.resubmitting q.isScoped)
    |>.answered total q

theorem leads_takeRequest {s : Session} {total : UInt64} (h : s.Answers total) (k : Nat)
    (persisted : Option Request) (ts : List Task) :
    Leads 4 (takeRequest { s with agenda := ts } k persisted)
      { s.pursued total k persisted with agenda := ts } := by
  have answers : Answers (s.setListing k ({ · with cache := some (.effective persisted) })
      |>.diagnose (.resubmitting (Request.effective persisted).isScoped)) total :=
    h.transfer rfl rfl rfl
  exact leads_resubmit answers (.follower k) (.effective persisted) ts

/-! ## One listing -/

/-- The persisted request, and one listing that follows it. -/
def followed (persisted : Option Request) : Cell (Option Request) Follower :=
  (Cell.holding persisted).subscribe .every (.listing 0)

theorem leads_persist_unheard {s : Session} {p q : Option Request} (hs : s.request = .holding p)
    (changed : p ≠ q) (ts : List Task) :
    Leads 2 (persist { s with agenda := ts } q)
      { s.diagnose (.changed q.isSome) with request := .holding q, agenda := ts } := by
  have put : persist { s with agenda := ts } q =
      { s.diagnose (.changed q.isSome) with
        request := (Cell.holding p).put q, agenda := .deliver .request :: ts } := by
    simp only [persist, hs, Cell.holding, if_neg changed]
    rfl
  rw [put]
  exact .step rfl <| .step rfl <| .refl _

/-- The listing runs what is persisted now, all within the delivery of it. -/
theorem leads_persist {s : Session} {total : UInt64} (h : s.Answers total) {p q : Option Request}
    (hs : s.request = followed p) (changed : p ≠ q) (ts : List Task) :
    Leads 7 (persist { s with agenda := ts } q)
      { (s.diagnose (.changed q.isSome)).pursued total 0 q with
        request := followed q, agenda := ts } := by
  have put : persist { s with agenda := ts } q =
      { s.diagnose (.changed q.isSome) with
        request := (followed p).put q, agenda := .deliver .request :: ts } := by
    simp only [persist, hs, followed, Cell.subscribe, Cell.holding, if_neg changed]
    rfl
  rw [put]
  have pursues := leads_takeRequest
    (s := { s.diagnose (.changed q.isSome) with
      request := ⟨q, { (followed p).channel with delivering := true }⟩ })
    (h.transfer rfl rfl rfl) 0 q (.deliver .request :: ts)
  exact .step rfl <| .step rfl <| pursues.trans <| .step rfl <| .refl _

/-! ## Actions -/

/-- Nothing is under way, and all there is is the listing of that name, which runs what is
persisted and has done so. -/
structure Alone (name : String) (total : UInt64) (persisted : Option Request) (s : Session) :
    Prop where
  rest : s.agenda = []
  answers : s.Answers total
  request : s.request = followed persisted
  names : s.names = [(name, 0)]
  listings : s.listings = [⟨some (.effective persisted), none, some 0, 0, false⟩]
  outcome : s.outcome = some ⟨.effective persisted, ⟨total, []⟩⟩

/-- The query that was run, if the note says so. -/
def Note.query? : Note → Option Request
  | .resubmitted q => some q
  | _ => none

/-- The queries that were run during the last action. -/
def queries (s : Session) : List Request := s.log.filterMap Note.query?

/-- A listing that finds a route saves the request for it, and runs that. -/
theorem leads_activate (total : UInt64) (r : Route) (name : String) :
    ∃ t, Leads 10 (machine.take (start (some total) none (some r) .idle) (.activate name)) t ∧
      t.Alone name total (some r.initialRequest) ∧ t.queries = [r.initialRequest] := by
  let q := r.initialRequest
  have answers : (start (some total) none (some r) .idle).Answers total :=
    ⟨rfl, ⟨_, _, _, rfl⟩, rfl⟩
  -- Nobody follows the persisted request yet when it is saved.
  have saves := leads_persist_unheard
    (s := { start (some total) none (some r) .idle with
      listings := [.following none], notes := [.diagnostic (.derived q.isScoped)] })
    (p := none) (q := some q) rfl (Option.some_ne_none q).symm [.follow 0, .ready name 0]
  have pursues := leads_takeRequest
    (s := { start (some total) none (some r) .idle with
      request := followed (some q)
      listings := [⟨none, none, some 0, 0, false⟩]
      notes := [.diagnostic (.changed true), .diagnostic (.derived q.isScoped)] })
    (answers.transfer rfl rfl rfl) 0 (some q) [.ready name 0]
  refine ⟨_, .step rfl <| .step rfl <| saves.trans <| .step rfl <| pursues.trans <| .step rfl <|
    .refl _, ⟨rfl, ?_, rfl, rfl, rfl, rfl⟩, rfl⟩
  exact (answers.answered q).transfer rfl rfl rfl

theorem get?_named (name : String) (k : Nat) : Named.get? [(name, k)] name = some k := by
  simp [Named.get?]

/-- A listing that clears what is persisted runs the default request. -/
theorem Alone.leads_clear {name : String} {total : UInt64} {q : Request} {s : Session}
    (h : s.Alone name total (some q)) :
    ∃ t, Leads 10 (machine.take s (.clearBy name)) t ∧ t.Alone name total none ∧
      t.queries = [.default] := by
  have asked : act { s with notes := [], agenda := [] } (.clearBy name) =
      { s with
        notes := [.diagnostic .clearing]
        listings := [⟨some q, none, some 0, 1, false⟩]
        agenda := [.command (.method 0) .clear, .leave 0] } := by
    simp only [act, withListing, h.names, get?_named, h.listings]
    rfl
  have clears := leads_persist
    (s := { s with
      notes := [.diagnostic .clearing], listings := [⟨some q, none, some 0, 1, false⟩] })
    (q := none) (h.answers.transfer rfl rfl rfl) h.request
    (Option.some_ne_none q) [.leave 0]
  refine ⟨_, .step (congrArg some asked) <| .step rfl <| clears.trans <| .step rfl <| .refl _,
    ⟨rfl, ?_, rfl, h.names, rfl, rfl⟩, rfl⟩
  exact (h.answers.answered .default).transfer rfl rfl rfl

/-- A listing that is refreshed runs the same request again. -/
theorem Alone.leads_refresh {name : String} {total : UInt64} {persisted : Option Request}
    {s : Session} (h : s.Alone name total persisted) :
    ∃ t, Leads 6 (machine.take s (.refresh name)) t ∧ t.Alone name total persisted ∧
      t.queries = [.effective persisted] := by
  let q := Request.effective persisted
  have asked : act { s with notes := [], agenda := [] } (.refresh name) =
      { s with
        notes := []
        listings := [⟨some q, none, some 0, 1, false⟩]
        agenda := [.command (.method 0) (.resubmit q), .leave 0] } := by
    simp only [act, withListing, h.names, get?_named, h.listings]
    rfl
  have runs := leads_resubmit
    (s := { s with notes := [], listings := [⟨some q, none, some 0, 1, false⟩] })
    (h.answers.transfer rfl rfl rfl) (.method 0) q [.leave 0]
  refine ⟨_, .step (congrArg some asked) <| runs.trans <| .step rfl <| .refl _,
    ⟨rfl, ?_, h.request, h.names, rfl, rfl⟩, rfl⟩
  exact (h.answers.answered q).transfer rfl rfl rfl

/-- The steps that are allowed are more than enough. -/
theorem Leads.play {n : Nat} {s t : Session} {a : Action}
    (h : Leads n (machine.take s a) t) (rest : t.agenda = [])
    (few : n ≤ 10) (weight : Nat) : s.play weight a = t := by
  refine h.run rest ?_
  calc n ≤ 4 ^ 5 := by omega
    _ ≤ (weight + 4) ^ 5 := Nat.pow_le_pow_left (Nat.le_add_left 4 weight) 5

/-- What is persisted first, what is done then, the queries that are run for it, and what is
persisted in the end. -/
inductive Plays (name : String) :
    Option Request → List Action → List Request → Option Request → Prop
  | nil (p : Option Request) : Plays name p [] [] p
  | clear {q : Request} {as : List Action} {qs : List Request} {p : Option Request}
      (h : Plays name none as qs p) : Plays name (some q) (.clearBy name :: as) (.default :: qs) p
  | refresh {p p' : Option Request} {as : List Action} {qs : List Request}
      (h : Plays name p as qs p') : Plays name p (.refresh name :: as) (.effective p :: qs) p'

theorem Plays.states {name : String} {total : UInt64} {p p' : Option Request} {as : List Action}
    {qs : List Request} (h : Plays name p as qs p') {s : Session} (alone : s.Alone name total p)
    (weight : Nat) :
    (s.states weight as).flatMap queries = qs ∧
      ((s.states weight as).getLastD s).Alone name total p' := by
  induction h generalizing s with
  | nil p => exact ⟨rfl, alone⟩
  | clear _ ih =>
    obtain ⟨t, clears, alone, ran⟩ := alone.leads_clear
    obtain ⟨later, last⟩ := ih alone
    rw [Session.states, clears.play alone.rest (by decide), List.flatMap_cons, ran, later,
      List.getLastD_cons]
    exact ⟨rfl, last⟩
  | refresh _ ih =>
    obtain ⟨t, refreshes, alone, ran⟩ := alone.leads_refresh
    obtain ⟨later, last⟩ := ih alone
    rw [Session.states, refreshes.play alone.rest (by decide), List.flatMap_cons, ran, later,
      List.getLastD_cons]
    exact ⟨rfl, last⟩

end StandingQuery.Session
