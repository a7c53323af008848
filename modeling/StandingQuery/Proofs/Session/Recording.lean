import StandingQuery.Proofs.Session.Refresh

/-! What the latest outcome is about. Where queries are answered here, the step that runs a query
also records its outcome, and whoever is called because of that is called later. A listing that
changes the request it keeps runs that one in the very next step. So as long as nobody else runs a
query or reports an outcome, three requests are the same: the one that was run last, the one that
the listing keeps and the one that the latest outcome is about. They differ only between such a
change and the query, and no watcher is called there. -/

namespace StandingQuery.Session

open View

/-! ## What a step records -/

/-- How queries are answered, and the latest outcome. -/
def book (s : Session) : Option UInt64 × Option Outcome := (s.answer, s.outcome)

section
variable (s : Session)

@[simp] theorem book_note (n : Note) : (s.note n).book = s.book := rfl

@[simp] theorem book_setListing (k : Nat) (f : Listing → Listing) :
    (s.setListing k f).book = s.book := rfl

@[simp] theorem book_hear (i : Nat) (v : Option Request) : (s.hear i v).book = s.book := by
  unfold hear
  split <;> rfl

@[simp] theorem book_persist (q : Option Request) : (s.persist q).book = s.book := by
  unfold persist
  split <;> rfl

@[simp] theorem book_record (o : Outcome) : (s.record o).book = (s.answer, some o) := rfl

@[simp] theorem book_resubmit (q : Request) : (s.resubmit q).book =
    (s.answer, (s.answer.map fun total => Outcome.mk q ⟨total, []⟩).or s.outcome) := by
  have heard := (s.note (.resubmitted q)).book_hear executor (some q)
  have answer : ((s.note (.resubmitted q)).hear executor (some q)).answer = s.answer :=
    congrArg Prod.fst heard
  unfold resubmit
  dsimp only
  rw [answer]
  cases h : s.answer with
  | none => rw [heard, book_note, book, h]; rfl
  | some total => rw [book_record, answer, h]; rfl

@[simp] theorem book_release (k : Nat) : (s.release k).book = s.book := by
  unfold release
  split
  · rfl
  · next l _ => cases l.route <;> cases l.request <;> rfl

@[simp] theorem book_abandon (k : Nat) : (s.abandon k).book = s.book := by
  unfold abandon
  split
  · rfl
  · split <;> simp

@[simp] theorem book_activate (name : String) : (s.activate name).book = s.book := by
  unfold activate
  dsimp only
  split <;> rfl

@[simp] theorem book_ready (name : String) (k : Nat) : (s.ready name k).book = s.book := by
  unfold ready
  dsimp only
  split
  · exact book_abandon _ _
  · rfl

@[simp] theorem book_leave (k : Nat) : (s.leave k).book = s.book := by
  unfold leave
  dsimp only
  split
  · rfl
  · split <;> simp

@[simp] theorem book_refresh (k : Nat) (l : Listing) : (s.refresh k l).book = s.book := by
  unfold refresh
  split <;> rfl

@[simp] theorem book_tearDown (name : String) (k : Nat) (l : Listing) :
    (s.tearDown name k l).book = s.book := by
  unfold tearDown
  split
  · exact book_release _ _
  · rfl

@[simp] theorem book_unwatch (w : Watch) : (s.unwatch w).book = s.book := by
  cases w <;> rfl

@[simp] theorem book_keep (name : String) (w : Watch) : (s.keep name w).book = s.book := by
  unfold keep
  dsimp only
  split
  · exact book_unwatch _ _
  · rfl

@[simp] theorem book_hearRequest (i : Nat) (q : Option Request) :
    (s.hearRequest i q).book = s.book :=
  book_hear ..

@[simp] theorem book_hearRoute (i : Nat) (r : Option Route) : (s.hearRoute i r).book = s.book :=
  book_hear ..

@[simp] theorem book_hearOutcome (i : Nat) (o : Outcome) : (s.hearOutcome i o).book = s.book :=
  book_hear ..

@[simp] theorem book_deliverRoute : s.deliverRoute.book = s.book := by
  unfold deliverRoute
  dsimp only
  split
  · rfl
  · rfl
  · rfl
  · split
    · rfl
    · rfl
    · exact book_hearRoute ..

@[simp] theorem book_deliverRequest : s.deliverRequest.book = s.book := by
  unfold deliverRequest
  dsimp only
  split
  · rfl
  · rfl
  · rfl
  · split
    · rfl
    · exact book_hearRequest ..

@[simp] theorem book_deliverOutcome : s.deliverOutcome.book = s.book := by
  unfold deliverOutcome
  dsimp only
  split
  · rfl
  · rfl
  · rfl
  · exact book_hearOutcome ..

@[simp] theorem book_react (i before rule : Nat) (v : Option Request) :
    (s.react i before rule v).book = s.book := by
  unfold react
  split
  · rfl
  · split
    · dsimp only
      split <;> rfl
    · rfl

theorem book_withListing (name : String) {f : Nat → Listing → Session}
    (h : ∀ k l, (f k l).book = s.book) : (s.withListing name f).book = s.book := by
  obtain ⟨k, l, _, _, hw⟩ | ⟨_, hw⟩ := s.withListing_cases name f <;> rw [hw]
  · exact h k l
  · rfl

end

/-- An outcome that is reported by somebody else than whoever runs the queries here. -/
def Task.reported? : Task → Option Outcome
  | .act (.record o) => some o
  | _ => none

/-- The outcome of a query that the task has run. -/
def answered? (s : Session) (t : Task) : Option Outcome :=
  t.handover?.bind fun p => s.answer.map fun total => ⟨p.2, ⟨total, []⟩⟩

theorem book_perform (s : Session) (t : Task) :
    (s.perform t).book = (s.answer, (t.reported?.or (s.answered? t)).or s.outcome) := by
  cases t with
  | act a =>
    cases a with
    | record o => rfl
    | activate name => exact book_activate ..
    | tearDown name => exact book_withListing _ _ fun k l => book_tearDown ..
    | refresh name => exact book_withListing _ _ fun k l => book_refresh ..
    | clearBy name | openSearchBy name | openEventBy name _ | message name | current name =>
      exact book_withListing _ _ fun k l => rfl
    | navigate _ | command _ | watchResults _ _ => rfl
    | watch name rules => exact book_hearRequest ..
    | watchRoute name rules => exact book_hearRoute ..
    | unwatch name =>
      show (s.act (.unwatch name)).book = s.book
      unfold act
      dsimp only
      split
      · exact book_unwatch ..
      · rfl
  | command g c =>
    cases c with
    | save q => exact book_persist ..
    | clear => exact book_persist ..
    | resubmit q => exact book_resubmit ..
    | openSearch | openEvent _ => exact book_hear ..
  | react i before rule v => exact book_react ..
  | deliver l =>
    cases l with
    | route => exact book_deliverRoute s
    | request => exact book_deliverRequest s
    | outcomes => exact book_deliverOutcome s
  | follow k => rfl
  | ready name k => exact book_ready ..
  | keep name w => exact book_keep ..
  | leave k => exact book_leave ..

/-! ## What has been run -/

/-- The requests that were run, each with who has asked for that. -/
def handovers (h : List Occurrence) : List (Giver × Request) := h.filterMap (·.handover?)

theorem handovers_concat (past : List Session) (s : Session) :
    handovers (history (past ++ [s])) = handovers (history past) ++ s.handing?.toList := by
  rw [history_append, handovers, List.filterMap_append, ← s.handover?_occurrence?]
  cases s.occurrence? with
  | none => rfl
  | some o => cases h : o.handover? <;> simp [handovers, h]

/-! ## One step -/

/-- Where nothing is handed over next, no listing has changed what it keeps. -/
theorem View.Change.cache_kept {v v' : View} {t : Task} {o : Option Occurrence}
    (change : Change v t o v') (idle : v'.agenda.head?.bind Task.handover? = none) :
    v'.cache = v.cache := by
  cases change with
  | reached _ _ | began | refreshed _ _ => cases idle
  | aside _ _ _ | emitted _ _ _ | ended _ | passed _ _ _ _ | activated _ | watched _ _ _
  | unwatched _ _ _ _ | released _ _ _ _ => rfl

/-- Nor has one begun to follow the persisted request. -/
theorem View.Change.followed_before {v v' : View} {t : Task} {o : Option Occurrence}
    (change : Change v t o v') (idle : v'.agenda.head?.bind Task.handover? = none) {k : Nat}
    (active : (v'.following k).isSome) : (v.following k).isSome := by
  cases change with
  | reached _ _ | began | refreshed _ _ => cases idle
  | aside _ _ _ | emitted _ _ _ | ended _ | passed _ _ _ _ | activated _ | watched _ _ _
  | unwatched _ _ _ _ => exact active
  | @released _ j _ _ _ _ _ _ _ =>
    by_cases hj : k = j
    · subst hj
      simp at active
    · simpa [hj] using active

/-- An outcome that is reported by somebody else in the next step. -/
def reported? (s : Session) : Option Outcome := s.agenda.head?.bind Task.reported?

theorem answer_step {s s' : Session} (taken : s.step = some s') : s'.answer = s.answer := by
  unfold step at taken
  split at taken
  · cases taken
  · next t ts _ =>
    cases taken
    exact congrArg Prod.fst (book_perform { s with agenda := ts } t)

/-- The latest outcome is that of the query that a step has run. -/
theorem outcome_step {s s' : Session} (taken : s.step = some s') (unreported : s.reported? = none)
    {total : UInt64} (answer : s.answer = some total) : s'.outcome =
      (s.handing?.map fun p => Outcome.mk p.2 ⟨total, []⟩).or s.outcome := by
  unfold step at taken
  split at taken
  · cases taken
  · next t ts hagenda =>
    cases taken
    have other : t.reported? = none := by simpa [reported?, hagenda] using unreported
    have handing : s.handing? = t.handover? := by simp [handing?, hagenda]
    have outcome := congrArg Prod.snd (book_perform { s with agenda := ts } t)
    rw [handing]
    refine outcome.trans ?_
    rw [other, answered?]
    simp only [answer]
    cases t.handover? <;> rfl

/-! ## Since a listing was activated -/

/-- How a listing stands that has run all queries since then, while no other outcome was reported.
It runs one as soon as it follows the persisted request. -/
structure Current (k : Nat) (total : UInt64) (past : List Session) (s : Session) : Prop where
  answer : s.answer = some total
  shown : s.handing? = none → ∀ p, (handovers (history past)).getLast? = some p →
    s.currentRequest k = some p.2 ∧ s.outcome = some ⟨p.2, ⟨total, []⟩⟩
  begun : s.handing? = none → (s.following? k).isSome → handovers (history past) ≠ []

variable {k : Nat} {total : UInt64} {past : List Session} {s s' : Session}

theorem Current.step (h : Current k total past s) (consistent : s.Consistent)
    (taken : s.step = some s') (alone : ∀ p, s.handing? = some p → p.1.listing? = some k)
    (unreported : s.reported? = none) : Current k total (past ++ [s]) s' := by
  obtain ⟨t, ts, hagenda, change, _⟩ := consistent.sound.step taken
  have outcome := outcome_step taken unreported h.answer
  refine ⟨(answer_step taken).trans h.answer, fun idle p last => ?_, fun idle active => ?_⟩
  · have cache : s'.currentRequest k = s.currentRequest k := congrFun (change.cache_kept idle) k
    rw [handovers_concat] at last
    rw [cache, outcome]
    cases hands : s.handing? with
    | none =>
      rw [hands, Option.toList_none, List.append_nil] at last
      exact h.shown hands p last
    | some p' =>
      -- The query of this step is the listing's, which keeps its request.
      rw [hands, Option.toList_some, List.getLast?_concat] at last
      cases last
      obtain ⟨t', head, hand⟩ := Option.bind_eq_some_iff.1 hands
      exact ⟨consistent.cached.handover t' head p.1 p.2 hand k (alone p hands), rfl⟩
  · rw [handovers_concat]
    cases hands : s.handing? with
    | none =>
      rw [Option.toList_none, List.append_nil]
      exact h.begun hands (change.followed_before idle active)
    | some p => exact List.append_ne_nil_of_right_ne_nil _ (List.cons_ne_nil _ _)

theorem Current.take (h : Current k total past s) (rest : s.agenda = []) (a : Action) :
    Current k total past (machine.take s a) := by
  have idle : s.handing? = none := by rw [handing?, rest]; rfl
  exact ⟨h.answer, fun _ => h.shown idle, fun _ => h.begun idle⟩

/-- A listing that is activated is a new one. -/
theorem View.Change.activated_count {v v' : View} {t : Task} {o : Option Occurrence}
    (change : Change v t o v') (activates : o = some (.activated k)) : k = v.count := by
  cases change with
  | aside _ _ _ =>
    obtain ⟨p, _, hp⟩ := Option.map_eq_some_iff.1 activates
    cases hp
  | activated _ =>
    cases activates
    rfl
  | emitted _ _ _ | ended _ | passed _ _ _ _ | reached _ _ | began | refreshed _ _ | watched _ _ _
  | unwatched _ _ _ _ | released _ _ _ _ => cases activates

/-- It has run nothing before it begins to follow the persisted request. -/
theorem current_of_activated (sound : s.view.Sound) (answer : s.answer = some total)
    (activates : s.occurrence? = some (.activated k)) (taken : s.step = some s') :
    Current k total [] s' := by
  refine ⟨(answer_step taken).trans answer, fun _ p last => ?_, fun idle active => ?_⟩
  · cases last
  obtain ⟨t, ts, hagenda, change, _⟩ := sound.step taken
  obtain ⟨id, held⟩ := Option.isSome_iff_exists.1 (change.followed_before idle active)
  have known : k < s.listings.length := sound.owned.listed k id held
  exact absurd known (change.activated_count activates ▸ Nat.lt_irrefl _)

theorem current_of_run {s₀ : Session} (run : machine.Run s₀ past s) (first : Current k total [] s₀)
    (consistent : ∀ m ∈ past, m.Consistent)
    (alone : ∀ p ∈ handovers (history past), p.1.listing? = some k)
    (unreported : ∀ m ∈ past, m.reported? = none) : Current k total past s := by
  induction run with
  | start => exact first
  | input a _ rest ih => exact (ih consistent alone unreported).take rest a
  | @step past s s' _ taken ih =>
    rw [handovers_concat, List.forall_mem_append] at alone
    rw [List.forall_mem_append, List.forall_mem_singleton] at consistent unreported
    have before := ih consistent.1 alone.1 unreported.1
    refine before.step consistent.2 taken (fun p hands => alone.2 p ?_) unreported.2
    rw [hands]
    exact List.mem_singleton_self p

/-! ## At every moment -/

/-- The watcher that the next step calls. -/
def calls? (s : Session) : Option Nat :=
  match s.agenda with
  | .act (.watch _ _) :: _ | .act (.watchRoute _ _) :: _ => some s.listeners.length
  | .deliver .route :: _ =>
    match s.route.channel.advance.1 with
    | .called ⟨_, _, .watcher i⟩ _ => some i
    | _ => none
  | .deliver .request :: _ =>
    match s.request.channel.advance.1 with
    | .called ⟨_, _, .watcher i⟩ _ => some i
    | _ => none
  | .deliver .outcomes :: _ =>
    match s.outcomes.advance.1 with
    | .called e _ => some e.target
    | _ => none
  | _ => none

theorem handing?_of_calls? {i : Nat} (h : s.calls? = some i) : s.handing? = none := by
  unfold calls? at h
  unfold handing?
  split at h
  · next agenda => rw [agenda]; rfl
  · next agenda => rw [agenda]; rfl
  · next agenda => rw [agenda]; rfl
  · next agenda => rw [agenda]; rfl
  · next agenda => rw [agenda]; rfl
  · cases h

/-- The request that was run last is the one that the listing keeps and the one that the latest
outcome is about. -/
structure Shows (k : Nat) (total : UInt64) (q : Request) (past : List Session) (s : Session) :
    Prop where
  latest : (handovers (history past)).getLast?.map (·.2) = some q
  kept : s.currentRequest k = some q
  recorded : s.outcome = some ⟨q, ⟨total, []⟩⟩

/-- What the latest outcome is about, since a listing was activated. -/
structure ShowsWhatItRuns (k : Nat) (total : UInt64) (past after : List Session) (s : Session) :
    Prop where
  /-- Once the listing has run a request, whenever a watcher is called. -/
  called : s.calls?.isSome → (∃ p ∈ handovers (history after), p.1.listing? = some k) →
    ∃ q, Shows k total q past s
  /-- With nothing under way, the request is the one to be run for what is persisted. -/
  returned : s.agenda = [] → (s.following? k).isSome →
    Shows k total (.effective s.request.value) past s

theorem handovers_last (before after : List Session) (m : Session)
    (run : handovers (history after) ≠ []) :
    (handovers (history (before ++ m :: after))).getLast? =
      (handovers (history after)).getLast? := by
  have parts : handovers (history (before ++ m :: after)) =
      handovers (history (before ++ [m])) ++ handovers (history after) := by
    simp only [history, handovers, ← List.filterMap_append, List.append_assoc,
      List.singleton_append]
  rw [parts, List.getLast?_append_of_ne_nil _ run]

/-- Since then, at every moment at which nothing is handed over. -/
theorem Current.shows {before after : List Session} {m : Session} (h : Current k total after s)
    (idle : s.handing? = none) (run : handovers (history after) ≠ []) :
    ∃ q, Shows k total q (before ++ m :: after) s := by
  have last := List.getLast?_eq_some_getLast run
  obtain ⟨kept, recorded⟩ := h.shown idle _ last
  refine ⟨_, ?_, kept, recorded⟩
  rw [handovers_last _ _ _ run, last, Option.map_some]

/-- Where every query is answered at once and, since a listing was activated, it alone has run
queries and no other outcome has been reported, the latest outcome is about the request that was run
last, which is the one that the listing keeps. -/
theorem shows_what_it_runs {persisted : Option Request} {route : Option Route} {hosts : Hosts}
    {before after : List Session} {m : Session}
    (run : machine.Run (start (some total) persisted route hosts) past s)
    (parts : past = before ++ m :: after) (activates : m.occurrence? = some (.activated k))
    (alone : ∀ p ∈ handovers (history after), p.1.listing? = some k)
    (unreported : ∀ n ∈ after, n.reported? = none) : ShowsWhatItRuns k total past after s := by
  obtain ⟨now, consistent⟩ := consistent_of_run run
  obtain ⟨m', earlier, taken, later⟩ := run.split parts
  have answer : m.answer = some total :=
    (earlier.invariant (P := fun s => s.answer = some total) rfl (fun _ _ _ h => h)
      fun _ _ h taken => (answer_step taken).trans h).1
  have atM : m.Consistent := consistent m (by simp [parts])
  have current := current_of_run later (current_of_activated atM.sound answer activates taken)
    (fun n hn => consistent n (by simp [parts, hn])) alone unreported
  subst parts
  refine ⟨fun calls ⟨p, hp, _⟩ => ?_, fun rest active => ?_⟩
  · obtain ⟨i, hi⟩ := Option.isSome_iff_exists.1 calls
    exact current.shows (handing?_of_calls? hi) (List.ne_nil_of_mem hp)
  · have idle : s.handing? = none := by rw [handing?, rest]; rfl
    obtain ⟨q, shows⟩ := current.shows idle (current.begun idle active)
    have settled := now.cached.currentRequest_of_rest now.sound rest active
    obtain rfl : q = .effective s.request.value := Option.some.inj (shows.kept.symm.trans settled)
    exact shows

/-- Saves another request when the first one is persisted. -/
def onPlainPersisted : Rule (Option Request) Action :=
  ⟨fun _ q => q == some plainQuery, 1, [.command (.save freshQuery)]⟩

/-- Has the listing run its request again when the second outcome is recorded. -/
def onSecondOutcome : Rule (Option Request) Action :=
  ⟨fun before _ => before == 1, 1, [.refresh "events"]⟩

/-- While the first of two requests is delivered, with the second one persisted already, its outcome
has it run again: when the watcher hears of that, all is about the first request, and in the end
about the second. -/
theorem shows_what_it_runs_nested : ∃ (past after past' after' : List Session) (s s' : Session),
    machine.Run (start (some 7) none none .idle) past s ∧ s.calls? = some 4 ∧
    (handovers (history after)).map (·.2) = [.default, plainQuery, plainQuery] ∧
    s.request.value = some freshQuery ∧ ShowsWhatItRuns 0 7 past after s ∧
    machine.Run (start (some 7) none none .idle) past' s' ∧ s'.agenda = [] ∧
    (s'.following? 0).isSome ∧
    (handovers (history after')).map (·.2) = [.default, plainQuery, plainQuery, freshQuery] ∧
    ShowsWhatItRuns 0 7 past' after' s' := by
  have begun : machine.Run (start (some 7) none none .idle) [] _ := .start
  have watched := (begun.input (.watch "requests" [onPlainPersisted]) rfl).steps 4
  have heard := (watched.input (.watchResults "outcomes" [onSecondOutcome]) rfl).steps 2
  have activated := (heard.input (.activate "events") rfl).steps 10
  have saved := activated.input (.command (.save plainQuery)) rfl
  have amid := (saved.steps 19).at (n := 6) (by decide +kernel)
  have ended := (saved.steps 40).at (n := 6) (by decide +kernel)
  refine ⟨_, _, _, _, _, _, amid, ?_, ?_, ?_,
    shows_what_it_runs amid rfl ?_ ?_ ?_, ended, ?_, ?_, ?_, shows_what_it_runs ended rfl ?_ ?_ ?_⟩
  all_goals decide +kernel

end StandingQuery.Session
