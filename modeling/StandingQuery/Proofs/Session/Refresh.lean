import StandingQuery.Proofs.Session.Cache
import StandingQuery.Proofs.Session.Resubmission

/-! A refresh runs what the listing keeps, which at rest is what is to be run for the present
request, and leaves everything else alone. A listing that has a name is not to be released when the
method ends, since it becomes an orphan only when it loses its name. -/

namespace StandingQuery.Session

open View

/-! ## Names -/

/-- A listing has one name at most, given or promised, and is no orphan while it has. -/
structure Placed (names : Named Nat) (orphan : Nat → Bool) (count : Nat) (promised : List Nat) :
    Prop where
  once : (names.map (·.2) ++ promised).Nodup
  listed : ∀ k ∈ names.map (·.2) ++ promised, k < count
  orphans : ∀ k, orphan k = true → k < count ∧ k ∉ names.map (·.2) ++ promised

def View.promised (v : View) : List Nat := v.agenda.filterMap Task.ready?

theorem View.Filed.placed {v : View} {t : Task} {names : Named Nat} {orphan : Nat → Bool}
    {kept : Nat → Prop} {promised : List Nat} (filed : v.Filed t names orphan kept)
    (h : Placed v.names v.orphan v.count (t.ready?.toList ++ promised)) :
    Placed names orphan v.count promised := by
  obtain ⟨rest, hsub, hnames, horphan⟩ := filed.names
  have sub : (names.map (·.2) ++ promised).Sublist
      (v.names.map (·.2) ++ (t.ready?.toList ++ promised)) := by
    rw [hnames, List.append_assoc]
    exact (hsub.map _).append_right _
  refine ⟨h.once.sublist sub, fun k hk => h.listed k (sub.subset hk), fun k hk => ?_⟩
  rcases horphan k hk with hk | ⟨name, hname, rfl⟩
  · exact (h.orphans k hk).imp_right fun out hk => out (sub.subset hk)
  · have hmem : k ∈ v.names.map (·.2) := List.mem_map.2 ⟨(name, k), hname, rfl⟩
    refine ⟨h.listed k (List.mem_append_left _ hmem), fun hk => ?_⟩
    rw [hnames, List.append_assoc] at hk
    rcases List.mem_append.1 hk with hk | hk
    · -- The name that was lost was the only one.
      obtain ⟨p, hp, hpk⟩ := List.mem_map.1 hk
      obtain ⟨hp, hne⟩ := List.mem_filter.1 hp
      have := List.inj_on_of_nodup_map (List.nodup_append.1 h.once).1 hp hname hpk
      simp [this] at hne
    · exact (List.nodup_append.1 h.once).2.2 k hmem k hk rfl

theorem View.Change.placed {v v' : View} {t : Task} {o : Option Occurrence}
    (change : Change v t o v')
    (h : Placed v.names v.orphan v.count (t.ready?.toList ++ v.promised)) :
    Placed v'.names v'.orphan v'.count v'.promised := by
  have quietly {new : List Task} (quiet : Quiet new) (ts : List Task) :
      (new ++ ts).filterMap Task.ready? = ts.filterMap Task.ready? := by
    rw [List.filterMap_append, quiet.promised, List.nil_append]
  cases change with
  | aside inert quiet filed =>
    have placed := filed.placed h
    rwa [View.promised, ← quietly quiet] at placed
  | emitted q quiet other =>
    rw [quiet.ready] at h
    simp only [View.promised]
    split <;> exact h
  | ended turned | reached turned target | began | refreshed known cached => exact h
  | passed turned goesOn elsewhere quiet =>
    simp only [View.promised, quietly quiet]
    exact h
  | @activated name new quiet =>
    simp only [View.promised, quietly quiet]
    have perm : (v.names.map (·.2) ++ v.count :: v.promised).Perm
        (v.count :: (v.names.map (·.2) ++ v.promised)) := List.perm_middle
    have fresh : v.count ∉ v.names.map (·.2) ++ v.promised := fun hk =>
      Nat.lt_irrefl _ (h.listed _ hk)
    refine ⟨perm.nodup_iff.2 (List.nodup_cons.2 ⟨fresh, h.once⟩), fun k hk => ?_, fun k hk => ?_⟩
    · rcases List.mem_cons.1 (perm.subset hk) with rfl | hk
      · exact Nat.lt_succ_self _
      · exact Nat.lt_succ_of_lt (h.listed k hk)
    · obtain ⟨known, out⟩ := h.orphans k hk
      refine ⟨Nat.lt_succ_of_lt known, fun hk => ?_⟩
      rcases List.mem_cons.1 (perm.subset hk) with rfl | hk
      · exact Nat.lt_irrefl _ known
      · exact out hk
  | watched task other quiet =>
    rw [task.ready] at h
    simp only [View.promised, quietly quiet]
    exact h
  | unwatched inert other known filed => exact filed.placed h
  | released inert other held filed => exact filed.placed h

/-! ## A refresh -/

/-- The listener would not react to the value now. -/
def Idle (s : Session) (i : Nat) (v : Option Request) : Prop :=
  ∀ l, s.listeners[i]? = some l → ∀ rule, l.fire rule l.heard v = none

/-- A listener whose rules have all been used up does not react to anything. -/
theorem idle_of_spent {s : Session} {i : Nat} (h : (s.listeners[i]?).all fun l =>
    l.rules.all fun r => r.times == 0) (v : Option Request) : s.Idle i v := by
  intro l hl rule
  rw [hl, Option.all_some, List.all_eq_true] at h
  unfold Listener.fire
  split
  · next r hr =>
    have spent := h r (List.mem_of_getElem? hr)
    simp_all
  · rfl

/-- A listener that does not react goes through its rules, and that is all. -/
theorem react_idle {s₀ s : Session} {i before : Nat} {v : Option Request}
    (idle : ∀ l, s.listeners[i]? = some l → ∀ rule, l.fire rule before v = none)
    {ts : List Task} (n : Nat) {past : List Session} {rule : Nat}
    (bound : ∀ l, s.listeners[i]? = some l → l.rules.length ≤ rule + n)
    (run : machine.Run s₀ past { s with agenda := .react i before rule v :: ts }) :
    ∃ more, machine.Run s₀ (past ++ more) { s with agenda := ts } ∧ history more = [] := by
  have ends (h : react { s with agenda := ts } i before rule v = { s with agenda := ts }) :
      ∃ more, machine.Run s₀ (past ++ more) { s with agenda := ts } ∧ history more = [] :=
    ⟨[_], run.step (congrArg some h), rfl⟩
  cases hl : s.listeners[i]? with
  | none =>
    exact ends (by simp only [react, hl])
  | some l =>
    by_cases more : rule < l.rules.length
    · have next : react { s with agenda := ts } i before rule v =
          { s with agenda := .react i before (rule + 1) v :: ts } := by
        simp only [react, hl, if_pos more, idle l hl rule]
        rfl
      cases n with
      | zero => exact absurd (bound l hl) (Nat.not_le.2 more)
      | succ n =>
        obtain ⟨later, run', silent⟩ := react_idle idle n
          (fun l hl => by have := bound l hl; omega) (run.step (congrArg some next))
        exact ⟨_ :: later, by simpa using run', (List.filterMap_cons_none rfl).trans silent⟩
    · exact ends (by simp only [react, hl, if_neg more])

theorem fire_heard (l : Listener (Option Request) Action) (n rule before : Nat)
    (v : Option Request) :
    Listener.fire { l with heard := n } rule before v = none ↔ l.fire rule before v = none := by
  cases h : l.rules[rule]? <;> simp [Listener.fire, h]

/-- What is left of a value that was heard. -/
def heardOnce (ls : List (Listener (Option Request) Action)) (i : Nat) :
    List (Listener (Option Request) Action) :=
  ls.modify i fun l => { l with heard := l.heard + 1 }

theorem hear_eq (s : Session) {i : Nat} {l : Listener (Option Request) Action}
    (h : s.listeners[i]? = some l) (v : Option Request) : s.hear i v =
      { s with
        listeners := heardOnce s.listeners i, agenda := .react i l.heard 0 v :: s.agenda } := by
  have set : s.listeners.set i { l with heard := l.heard + 1 } = heardOnce s.listeners i := by
    refine List.ext_getElem? fun j => ?_
    by_cases hj : i = j
    · subst hj
      rw [heardOnce, List.getElem?_set_self (List.getElem?_eq_some_iff.1 h).1,
        List.getElem?_modify_eq, h]
      rfl
    · simp [heardOnce, hj]
  simp only [hear, h, plan, set]
  rfl

/-- A query that nobody reacts to is noted and heard of, and that is all. -/
theorem resubmit_idle {s₀ s : Session} {past : List Session} {g : Giver} {q : Request}
    {ts : List Task} (unanswered : s.answer = none) (idle : s.Idle executor (some q))
    (run : machine.Run s₀ past { s with agenda := .command g (.resubmit q) :: ts }) :
    ∃ more, machine.Run s₀ (past ++ more)
      { s with
        notes := .resubmitted q :: s.notes
        listeners := heardOnce s.listeners executor
        agenda := ts } ∧ history more = [.handed g q] := by
  cases he : s.listeners[executor]? with
  | none =>
    have same : heardOnce s.listeners executor = s.listeners :=
      List.modify_eq_self (List.getElem?_eq_none_iff.1 he)
    have noted : resubmit { s with agenda := ts } q =
        { s with
          notes := .resubmitted q :: s.notes
          listeners := heardOnce s.listeners executor
          agenda := ts } := by
      simp only [resubmit, hear, note, he, unanswered, same]
    exact ⟨[_], run.step (congrArg some noted), rfl⟩
  | some e =>
    have noted : resubmit { s with agenda := ts } q =
        { s with
          notes := .resubmitted q :: s.notes
          listeners := heardOnce s.listeners executor
          agenda := .react executor e.heard 0 (some q) :: ts } := by
      have hears := hear_eq (note { s with agenda := ts } (.resubmitted q)) he (some q)
      simp only [resubmit, hears]
      simp only [note, unanswered]
    have here : (heardOnce s.listeners executor)[executor]? =
        some { e with heard := e.heard + 1 } := by
      simp [heardOnce, he]
    have reacts : ∀ l, (heardOnce s.listeners executor)[executor]? = some l →
        l.rules.length ≤ 0 + e.rules.length ∧ ∀ rule, l.fire rule e.heard (some q) = none := by
      intro l hl
      cases here.symm.trans hl
      exact ⟨Nat.le_add_left .., fun rule => (fire_heard e _ rule _ _).2 (idle e he rule)⟩
    obtain ⟨more, gone, silent⟩ := react_idle
      (s := { s with
        notes := .resubmitted q :: s.notes, listeners := heardOnce s.listeners executor })
      (fun l hl => (reacts l hl).2) e.rules.length (fun l hl => (reacts l hl).1)
      (run.step (congrArg some noted))
    refine ⟨_ :: more, by simpa using gone, ?_⟩
    have first : occurrence? { s with agenda := .command g (.resubmit q) :: ts } =
        some (.handed g q) := rfl
    rw [history, List.filterMap_cons_some first]
    exact congrArg _ silent

/-- A method that ends leaves a listing that is no orphan as it was. -/
theorem leave_method {s : Session} {k : Nat} {l : Listing} (listed : s.listings[k]? = some l)
    (held : l.orphan = false) :
    (s.setListing k fun l => { l with uses := l.uses + 1 }).leave k = s := by
  have same : (s.listings.modify k fun l => { l with uses := l.uses + 1 }).modify k
      (fun l => { l with uses := l.uses - 1 }) = s.listings := by
    rw [List.modify_modify_eq]
    exact List.modify_id k s.listings
  simp only [leave, setListing, same, listed, held, Bool.and_false, Bool.false_eq_true, if_false]

/-- A listing at rest that has a request runs it again, and all else stays as it is. -/
theorem refresh_idle {s : Session} (rest : s.agenda = []) {name : String} {k : Nat} {l : Listing}
    {q : Request} (named : s.names.get? name = some k) (listed : s.listings[k]? = some l)
    (cached : l.cache = some q) (held : l.orphan = false) (unanswered : s.answer = none)
    (idle : s.Idle executor (some q)) :
    ∃ more, machine.Run s more
      { s with
        notes := [.resubmitted q], listeners := heardOnce s.listeners executor } ∧
      history more = [.refreshed k q, .handed (.method k) q] := by
  have asked : act { s with notes := [], agenda := [] } (.refresh name) =
      { (s.setListing k fun l => { l with uses := l.uses + 1 }) with
        notes := [], agenda := [.command (.method k) (.resubmit q), .leave k] } := by
    simp only [act, withListing, named, listed, refresh, cached]
    rfl
  have comes : occurrence? (machine.take s (.refresh name)) = some (.refreshed k q) := by
    simp [machine, occurrence?, comesTo, refreshed?, named, listed, cached]
  have asking : machine.Run s [] (machine.take s (.refresh name)) := .input _ .start rest
  obtain ⟨more, gone, hands⟩ := resubmit_idle
    (s := { (s.setListing k fun l => { l with uses := l.uses + 1 }) with notes := [] })
    unanswered idle (asking.step (congrArg some asked))
  have ended := leave_method
    (s := { s with
      notes := [.resubmitted q], listeners := heardOnce s.listeners executor }) listed held
  simp only [setListing, rest] at ended
  refine ⟨[machine.take s (.refresh name)] ++ more ++ [_],
    gone.step (congrArg some (ended.trans ?_)), ?_⟩
  · rw [rest]
  · rw [history_append]
    simp only [history, List.singleton_append] at hands ⊢
    rw [List.filterMap_cons_some comes, hands]
    rfl

/-! ## At every moment -/

/-- The books of a session agree with each other. -/
structure Consistent (s : Session) : Prop where
  sound : s.view.Sound
  cached : s.view.Cached
  placed : Placed s.names s.isOrphan s.listings.length s.view.promised

theorem consistent_start (answer : Option UInt64) (persisted : Option Request)
    (route : Option Route) (hosts : Hosts) :
    (start answer persisted route hosts).Consistent where
  sound := sound_start answer persisted route hosts
  cached := cached_start answer persisted route hosts
  placed := {
    once := List.nodup_nil
    listed := fun _ hk => absurd hk List.not_mem_nil
    orphans := by simp [isOrphan, start] }

theorem Consistent.take {s : Session} (h : s.Consistent) (rest : s.agenda = []) (a : Action) :
    (machine.take s a).Consistent where
  sound := h.sound.take rest a
  cached := h.cached.take a
  placed := by
    have none : s.view.promised = [] := congrArg (List.filterMap Task.ready?) rest
    have placed := h.placed
    rw [none] at placed
    exact placed

theorem Consistent.step {s s' : Session} (h : s.Consistent) (taken : s.step = some s') :
    s'.Consistent := by
  obtain ⟨t, ts, hagenda, change, sound⟩ := h.sound.step taken
  refine ⟨sound, h.cached.step h.sound taken, change.placed ?_⟩
  have placed := h.placed
  rw [View.promised, show s.view.agenda = t :: ts from hagenda, List.filterMap_cons] at placed
  cases hr : t.ready? with
  | none =>
    rw [hr] at placed
    exact placed
  | some k =>
    rw [hr] at placed
    exact placed

theorem consistent_of_run {answer : Option UInt64} {persisted : Option Request}
    {route : Option Route} {hosts : Hosts} {past : List Session} {s : Session}
    (run : machine.Run (start answer persisted route hosts) past s) :
    s.Consistent ∧ ∀ m ∈ past, m.Consistent :=
  run.invariant (consistent_start ..) (fun _ a rest h => h.take rest a) fun _ _ h taken =>
    h.step taken

/-- What a listing keeps, compared with what it runs and with what is persisted. -/
structure KeepsWhatItRuns (past : List Session) (s : Session) : Prop where
  /-- At every moment at which a listing hands a request over, that is the one it keeps. -/
  handed : ∀ m ∈ past ++ [s], ∀ g q k, m.occurrence? = some (.handed g q) → g.listing? = some k →
    m.currentRequest k = some q
  /-- With nothing under way, an active listing keeps what is to be run for the persisted
  request. -/
  settled : s.agenda = [] → ∀ k, (s.following? k).isSome →
    s.currentRequest k = some (.effective s.request.value)
  /-- To refresh it then runs just that, and nothing else is changed by it: whoever runs the queries
  has heard of one more, and the notes are those of the refresh. -/
  refreshed : s.agenda = [] → s.answer = none →
    s.Idle executor (some (.effective s.request.value)) →
    ∀ name k, s.names.get? name = some k → (s.following? k).isSome →
    ∃ more, machine.Run s more
      { s with
        notes := [.resubmitted (.effective s.request.value)]
        listeners := heardOnce s.listeners executor } ∧
      history more = [.refreshed k (.effective s.request.value),
        .handed (.method k) (.effective s.request.value)]

theorem keeps_what_it_runs {answer : Option UInt64} {persisted : Option Request}
    {route : Option Route} {hosts : Hosts} {past : List Session} {s : Session}
    (run : machine.Run (start answer persisted route hosts) past s) : KeepsWhatItRuns past s := by
  obtain ⟨now, before⟩ := consistent_of_run run
  refine ⟨fun m hm g q k hands hg => ?_, fun rest k active => ?_, ?_⟩
  · have consistent : m.Consistent := by
      rcases List.mem_append.1 hm with hm | hm
      · exact before m hm
      · exact List.mem_singleton.1 hm ▸ now
    exact consistent.cached.currentRequest consistent.sound hands hg
  · exact now.cached.currentRequest_of_rest now.sound rest active
  · intro rest unanswered idle name k named active
    have cached := now.cached.currentRequest_of_rest now.sound rest active
    obtain ⟨l, listed, cache⟩ := Option.bind_eq_some_iff.1 cached
    have held : l.orphan = false := by
      cases horphan : l.orphan with
      | false => rfl
      | true =>
        have out := (now.placed.orphans k ((isOrphan_eq listed).trans horphan)).2
        have named : k ∈ s.names.map (·.2) :=
          List.mem_map.2 ⟨(name, k), Named.mem_of_get? named, rfl⟩
        exact absurd (List.mem_append_left _ named) out
    exact refresh_idle rest named listed cache held unanswered idle

def narrowQuery : Request := { Request.default with pageSize := ⟨10, by decide⟩ }

def wideQuery : Request := { Request.default with pageSize := ⟨5000, by decide⟩ }

/-- Lets a second listing in when the second query is run, and persists another request. -/
def onSecondQuery : Rule (Option Request) Action :=
  ⟨fun before _ => before == 1, 1, [.activate "late", .command (.save wideQuery)]⟩

/-- A listing that comes in during a delivery agrees with the store afterwards like the other one,
and may be refreshed then. -/
theorem keeps_what_it_runs_late : ∃ (past : List Session) (s : Session),
    machine.Run (start none none none ⟨[onSecondQuery], [], []⟩) past s ∧
    handed (.follower 1) (history past) = [narrowQuery, wideQuery] ∧
    s.agenda = [] ∧ s.answer = none ∧ s.Idle executor (some wideQuery) ∧
    s.names.get? "late" = some 1 ∧ (s.following? 1).isSome ∧
    s.currentRequest 0 = some wideQuery ∧ s.currentRequest 1 = some wideQuery ∧
    KeepsWhatItRuns past s := by
  have begun : machine.Run (start none none none ⟨[onSecondQuery], [], []⟩) [] _ := .start
  have activated := (begun.input (.activate "events") rfl).steps 20
  have saved := (activated.input (.command (.save narrowQuery)) rfl).steps 60
  refine ⟨_, _, saved, ?_, ?_, ?_, idle_of_spent ?_ _, ?_, ?_, ?_, ?_, keeps_what_it_runs saved⟩
  all_goals decide +kernel

end StandingQuery.Session
