import Mathlib.Data.List.Destutter
import StandingQuery.Proofs.Session.Hearing

/-! Requests that are saved and cleared. Each is compared with the one that is persisted, which is
always the one that was asked for last, however many wait to be delivered; so what goes into line is
what was asked for, without those that repeat the one just before. A request that comes back while
another one is still to be delivered goes into line again. Whoever begins to follow the requests
when none is under delivery is told those that go into line from then on, so he never hears the same
one twice in a row. -/

namespace StandingQuery.Session

open Channel (Served toldTo)

/-! ## One step -/

def Task.asked? : Task → Option (Option Request)
  | .command _ (.save q) => some (some q)
  | .command _ .clear => some none
  | _ => none

/-- What the next step is asked to persist: a request, or that there is none. -/
def asks? (s : Session) : Option (Option Request) := s.agenda.head?.bind Task.asked?

/-- What the next step puts in line for those who follow the persisted request. -/
def emits? (s : Session) : Option (Option Request) :=
  s.step.bind fun s' =>
    if s.request.channel.pending.length < s'.request.channel.pending.length then
      s'.request.channel.pending.getLast?
    else none

theorem comesTo_asked? (s : Session) (t : Task) :
    (s.comesTo t).bind Occurrence.emitted? =
      t.asked?.bind fun q => if s.request.value = q then none else some q := by
  cases t with
  | act a =>
    cases a with
    | refresh name => exact s.refreshed?_bind name fun _ _ => rfl
    | _ => rfl
  | command g c =>
    cases c with
    | save q =>
      simp only [comesTo, Task.asked?, Option.bind_some]
      split <;> rfl
    | clear =>
      simp only [comesTo, Task.asked?, Option.bind_some]
      split <;> rfl
    | resubmit _ | openSearch | openEvent _ => rfl
  | react _ _ _ _ | deliver _ | follow _ | ready _ _ | keep _ _ | leave _ => rfl

section
variable {s s' : Session} (sound : s.view.Sound) (taken : s.step = some s')
include sound taken

theorem emits?_eq : s.emits? = s.occurrence?.bind Occurrence.emitted? := by
  rw [(request_operated sound taken).line, emits?, taken, Option.bind_some]

/-- What is asked for goes into line unless it is there already. -/
theorem emits?_of_asks? :
    s.emits? = s.asks?.bind fun q => if s.request.value = q then none else some q := by
  rw [emits?_eq sound taken, occurrence?, asks?, Option.bind_assoc, Option.bind_assoc]
  exact Option.bind_congr fun t _ => comesTo_asked? s t

/-- What is asked for is persisted at once. -/
theorem value_step : s'.request.value = s.asks?.getD s.request.value := by
  obtain ⟨t, ts, _, change, _⟩ := sound.step taken
  have value :
      s'.request.value = (s.occurrence?.bind Occurrence.emitted?).getD s.request.value := by
    refine change.value.trans ?_
    cases s.occurrence? with
    | none => rfl
    | some o => cases o <;> rfl
  rw [value, ← emits?_eq sound taken, emits?_of_asks? sound taken]
  cases s.asks? with
  | none => rfl
  | some q =>
    rw [Option.bind_some, Option.getD_some]
    split
    · next same => exact same
    · rfl

end

/-! ## Over a run -/

theorem destutter_concat {α : Type} [DecidableEq α] (a x : α) (l : List α) :
    (a :: (l ++ [x])).destutter (· ≠ ·) =
      (a :: l).destutter (· ≠ ·) ++ if l.getLastD a = x then [] else [x] := by
  simp only [List.destutter_cons']
  induction l generalizing a with
  | nil => by_cases h : a = x <;> simp [h]
  | cons b l ih =>
    rw [List.cons_append, List.getLastD_cons]
    by_cases h : a = b
    · subst h
      rw [List.destutter'_cons_neg _ (by simp), List.destutter'_cons_neg _ (by simp), ih]
    · rw [List.destutter'_cons_pos _ h, List.destutter'_cons_pos _ h, ih, List.cons_append]

/-- What goes into line over a stretch, and what is persisted after it. -/
theorem coalesced {s₀ s : Session} {past : List Session} (run : machine.Run s₀ past s)
    (sound : ∀ m ∈ past, m.view.Sound) :
    s.request.value = (past.filterMap asks?).getLastD s₀.request.value ∧
      s₀.request.value :: past.filterMap emits? =
        (s₀.request.value :: past.filterMap asks?).destutter (· ≠ ·) := by
  induction run with
  | start => exact ⟨rfl, rfl⟩
  | input _ _ _ ih => exact ih sound
  | @step past s s' _ taken ih =>
    obtain ⟨value, line⟩ := ih fun m hm => sound m (List.mem_append_left _ hm)
    have now := sound s (by simp)
    have emits := emits?_of_asks? now taken
    have next := value_step now taken
    cases asks : s.asks? with
    | none =>
      rw [asks] at emits next
      simp only [List.filterMap_append, List.filterMap_cons, List.filterMap_nil, asks, emits,
        Option.bind_none, List.append_nil]
      exact ⟨next.trans value, line⟩
    | some q =>
      rw [asks, Option.bind_some] at emits
      rw [asks, Option.getD_some] at next
      have new : [s].filterMap emits? =
          if (past.filterMap asks?).getLastD s₀.request.value = q then [] else [q] := by
        rw [← value]
        by_cases same : s.request.value = q <;> simp [emits, same]
      have asked : [s].filterMap asks? = [q] := by simp [asks]
      rw [List.filterMap_append, List.filterMap_append, asked, destutter_concat, ← line, new,
        Channel.getLastD_append]
      exact ⟨next, rfl⟩

/-! ## Whoever follows the requests -/

/-- The subscription to the persisted request that the next step makes. -/
def joins? (s : Session) : Option Nat :=
  match s.agenda with
  | .act (.watch _ _) :: _ | .follow _ :: _ => some s.request.channel.nextId
  | _ => none

/-- The subscription to the persisted request that is called in the next step, on being made or in a
turn of the delivery, and what it is told. -/
def informs? (s : Session) : Option (Nat × Option Request) :=
  (s.joins?.map fun id => (id, s.request.value)).or s.requestCall?

/-- What becomes of a step that lets somebody in. -/
structure LetIn (m m' : Session) (id : Nat) : Prop where
  next : id = m.request.channel.nextId
  subscribed : ∃ f, m'.request = m.request.subscribe .every f
  told : toldTo id ([m].filterMap informs?) = [m.request.value]

theorem request_hear (s : Session) (i : Nat) (v : Option Request) :
    (s.hear i v).request = s.request := by
  unfold hear
  split <;> rfl

theorem letIn {m m' : Session} {id : Nat} (taken : m.step = some m') (joins : m.joins? = some id) :
    LetIn m m' id := by
  have told (h : id = m.request.channel.nextId) :
      toldTo id ([m].filterMap informs?) = [m.request.value] := by
    rw [List.filterMap_cons, informs?, joins, Option.map_some, Option.some_or, h]
    exact List.filterMap_cons_some (if_pos rfl)
  unfold joins? at joins
  split at joins
  · next name rules ts agenda =>
    cases joins
    rw [step, agenda] at taken
    cases taken
    refine ⟨rfl, ⟨.watcher m.listeners.length, ?_⟩, told rfl⟩
    exact request_hear ..
  · next k ts agenda =>
    cases joins
    rw [step, agenda] at taken
    cases taken
    exact ⟨rfl, ⟨.listing k, rfl⟩, told rfl⟩
  · cases joins

theorem toldTo_informs? {m : Session} {id : Nat} (known : id < m.request.channel.nextId) :
    toldTo id m.informs?.toList = toldTo id m.requestCall?.toList := by
  cases joins : m.joins? with
  | none => rw [informs?, joins, Option.map_none, Option.none_or]
  | some i =>
    have next : i = m.request.channel.nextId := by
      unfold joins? at joins
      split at joins
      all_goals cases joins
      all_goals rfl
    have silent : m.requestCall? = none := by
      unfold joins? at joins
      unfold requestCall?
      split at joins
      · next agenda => rw [agenda]
      · next agenda => rw [agenda]
      · cases joins
    rw [informs?, joins, silent, next]
    exact Channel.toldTo_eq_nil (by simpa using Nat.ne_of_gt known)

/-- What somebody is told who begins to follow the requests at the moment `m`. -/
structure Told (m : Session) (later : List Session) (id : Nat) (s : Session)
    (told : List (Option Request)) : Prop where
  inOrder : told <+: (m.request.value :: later.filterMap asks?).destutter (· ≠ ·)
  changing : told.IsChain (· ≠ ·)
  complete : s.agenda = [] → s.request.channel.isActive id = true →
    told = (m.request.value :: later.filterMap asks?).destutter (· ≠ ·)

section
variable {s₀ s : Session} {past : List Session} (run : machine.Run s₀ past s)
  (sound : ∀ m ∈ past, m.view.Sound)
include run sound

theorem emits?_history : past.filterMap emits? = emissions (history past) := by
  rw [emissions_history]
  refine List.filterMap_congr fun m hm => ?_
  obtain ⟨_, taken⟩ := run.step_of_mem m hm
  exact emits?_eq (sound m hm) taken

/-- Whoever is still to come has been told nothing. -/
theorem toldTo_of_coming {id : Nat} (unknown : s.request.channel.nextId ≤ id) :
    toldTo id (past.filterMap informs?) = [] := by
  refine Channel.toldTo_of_unknown (fun s : Session => s.request.channel) (fun _ _ => rfl) run
    (fun m hm m' taken => ?_) unknown
  have operated := request_operated (sound m hm) taken
  refine ⟨operated.nextId_le, fun x hx => ?_⟩
  rcases Option.or_eq_some_iff.1 hx with joined | ⟨_, call⟩
  · obtain ⟨id, joins, rfl⟩ := Option.map_eq_some_iff.1 joined
    have entry := letIn taken joins
    obtain ⟨f, subscribed⟩ := entry.subscribed
    rw [subscribed, entry.next]
    exact Nat.lt_succ_self _
  · rw [call] at operated
    exact Nat.lt_of_lt_of_le operated.call_known operated.nextId_le

/-- Whoever is there already is told no more than in his turns. -/
theorem toldTo_turns {id : Nat} (known : id < s₀.request.channel.nextId) :
    toldTo id (past.filterMap informs?) = toldTo id (past.filterMap requestCall?) := by
  have stays := Channel.nextId_le_of_run (fun s : Session => s.request.channel) (fun _ _ => rfl) run
    fun m hm _ taken => (request_operated (sound m hm) taken).nextId_le
  refine Channel.toldTo_congr fun m hm => toldTo_informs? ?_
  exact Nat.lt_of_lt_of_le known (stays m (List.mem_append_left _ hm))

end

/-- What somebody is told who begins to follow the requests at the moment `m`: the one persisted
then, and what his turns bring him afterwards. -/
theorem toldTo_joined {s₀ m m' s : Session} {earlier later : List Session} {id : Nat}
    (first : machine.Run s₀ earlier m) (taken : m.step = some m') (rest : machine.Run m' later s)
    (sound : ∀ x ∈ earlier ++ m :: later, x.view.Sound) (joins : m.joins? = some id) :
    toldTo id ((earlier ++ m :: later).filterMap informs?) =
      m.request.value :: toldTo id (later.filterMap requestCall?) := by
  have entry := letIn taken joins
  obtain ⟨f, subscribed⟩ := entry.subscribed
  have known : id < m'.request.channel.nextId := by
    rw [subscribed, entry.next]
    exact Nat.lt_succ_self _
  obtain ⟨earlierSound, _, laterSound⟩ : (∀ x ∈ earlier, x.view.Sound) ∧ m.view.Sound ∧
      ∀ x ∈ later, x.view.Sound := by simpa [or_imp, forall_and] using sound
  rw [← List.singleton_append, List.filterMap_append, List.filterMap_append, Channel.toldTo_append,
    Channel.toldTo_append, toldTo_of_coming first earlierSound (Nat.le_of_eq entry.next.symm),
    entry.told, toldTo_turns rest laterSound known]
  rfl

theorem told_of_run {s₀ m s : Session} {earlier later : List Session} {id : Nat}
    (run : machine.Run s₀ (earlier ++ m :: later) s)
    (sound : ∀ x ∈ earlier ++ m :: later, x.view.Sound) (final : s.view.Sound)
    (joins : m.joins? = some id) (idle : m.request.channel.delivering = false) :
    Told m later id s (toldTo id ((earlier ++ m :: later).filterMap informs?)) := by
  obtain ⟨m', first, taken, rest⟩ := run.split rfl
  have here : m.view.Sound := sound m (by simp)
  have laterSound : ∀ x ∈ later, x.view.Sound := fun x hx => sound x (by simp [hx])
  have entry := letIn taken joins
  obtain ⟨f, subscribed⟩ := entry.subscribed
  have known : id < m'.request.channel.nextId := by
    rw [subscribed, entry.next]
    exact Nat.lt_succ_self _
  have told := toldTo_joined first taken rest sound joins
  have line : m.request.value :: emissions (history later) =
      (m.request.value :: later.filterMap asks?).destutter (· ≠ ·) := by
    have line := (coalesced rest laterSound).2
    rwa [emits?_history rest laterSound, subscribed] at line
  have served := request_served rest laterSound known
  have waits : m'.request.channel.waiting id = [] := by
    rw [subscribed]
    exact here.owned.channel.waiting_idle idle id
  have inOrder : toldTo id ((earlier ++ m :: later).filterMap informs?) <+:
      (m.request.value :: later.filterMap asks?).destutter (· ≠ ·) := by
    rw [told, ← line, List.prefix_cons_inj]
    simpa [waits] using served.inOrder
  refine ⟨inOrder, List.IsChain.prefix (List.isChain_destutter _ _) inOrder, ?_⟩
  intro rest active
  have ended : s.request.channel.delivering = false :=
    final.planned.idle (by rw [show s.view.agenda = [] from rest]; rfl)
  rw [told, ← line, served.complete final.owned.channel active ended, waits, List.nil_append]

/-! ## What those who follow do -/

/-- Whoever begins to follow the requests hears of the one persisted then. -/
theorem newcomer?_request {m : Session} {id : Nat} {f : Follower}
    (new : m.newcomer? = some ⟨.request, id, f.onRequest⟩) :
    m.joins? = some id ∧ m.tells? = some (f.onRequest, f.requestAnswer m.request.value) := by
  obtain ⟨t, head, joins⟩ := Option.bind_eq_some_iff.1 new
  obtain ⟨ts, hagenda⟩ := List.head?_eq_some_iff.1 head
  rw [joins?, tells?, head, hagenda]
  cases t with
  | act a =>
    cases a with
    | activate name => cases (Option.ite_none_left_eq_some.1 joins).2
    | watch name rules =>
      cases f with
      | watcher i =>
        cases joins
        exact ⟨rfl, rfl⟩
      | listing k => cases joins
    | watchRoute | watchResults | tearDown | refresh | clearBy | openSearchBy | openEventBy
    | message
    | current | navigate | command | record | unwatch => cases joins
  | follow k =>
    cases f with
    | listing j =>
      cases joins
      exact ⟨rfl, rfl⟩
    | watcher i => cases joins
  | command | react | deliver | ready | keep | leave => cases joins

/-- Whoever begins to follow the requests does something whenever he is told of one. -/
theorem heard_of_run {s₀ m s : Session} {earlier later : List Session} {id : Nat} {f : Follower}
    (run : machine.Run s₀ (earlier ++ m :: later) s) (manned : s₀.Manned)
    (sound : ∀ x ∈ earlier ++ m :: later, x.view.Sound)
    (new : m.newcomer? = some ⟨.request, id, f.onRequest⟩) :
    toldTo f.onRequest ((earlier ++ m :: later).flatMap answers) =
      (toldTo id ((earlier ++ m :: later).filterMap informs?)).map f.requestAnswer := by
  obtain ⟨m', first, taken, rest⟩ := run.split rfl
  obtain ⟨joins, tells⟩ := newcomer?_request new
  have here := (manned.later first).1
  have now : toldTo f.onRequest m.answers = [f.requestAnswer m.request.value] := by
    rw [(here.effect taken).1, tells]
    simp [toldTo]
  have afterwards := (here.new taken new).answers_request (here.step taken) rest
  rw [toldTo_joined first taken rest sound joins, List.flatMap_append, List.flatMap_cons,
    Channel.toldTo_append, Channel.toldTo_append, now, afterwards,
    toldTo_of_entering manned first (newcomer?_spec new).2]
  rfl

/-! ## The law -/

/-- What a session in which `persisted` was there at first makes of what it is asked to persist. -/
structure Coalesces (persisted : Option Request) (past : List Session) (s : Session) : Prop where
  /-- It puts in line what it is asked for, without what repeats the one just before. -/
  emitted : persisted :: past.filterMap emits? =
    (persisted :: past.filterMap asks?).destutter (· ≠ ·)
  /-- What it has been asked for last is persisted. -/
  value : s.request.value = (past.filterMap asks?).getLastD persisted
  /-- Whoever begins to follow when nothing is under delivery hears each change once. -/
  followed : ∀ earlier m later id (f : Follower), past = earlier ++ m :: later →
    m.newcomer? = some ⟨.request, id, f.onRequest⟩ → m.request.channel.delivering = false →
    Told m later id s (toldTo id (past.filterMap informs?))
  /-- Whoever begins to follow does something with all that he hears, and at no other time: a
  watcher is run with the request, a listing has the one run that is to be run for it. -/
  heard : ∀ m ∈ past, ∀ id (f : Follower), m.newcomer? = some ⟨.request, id, f.onRequest⟩ →
    toldTo f.onRequest (past.flatMap answers) =
      (toldTo id (past.filterMap informs?)).map f.requestAnswer
  /-- What watchers and all others are run with is what is noted. -/
  noted : ∀ m ∈ past, List.Forall₂ (Announces s.crew) m.callNotes m.answers
  /-- To have no terms is not to have an empty map of them. -/
  terms : ∀ q : Request, { q with terms := none } ≠ { q with terms := some .empty }

theorem coalesces {answer : Option UInt64} {persisted : Option Request} {route : Option Route}
    {hosts : Hosts} {past : List Session} {s : Session}
    (run : machine.Run (start answer persisted route hosts) past s) :
    Coalesces persisted past s := by
  obtain ⟨final, sound⟩ := sound_of_run run
  obtain ⟨value, emitted⟩ := coalesced run sound
  refine ⟨emitted, value, ?_, ?_, announced_of_run run, ?_⟩
  · rintro earlier m later id f rfl new idle
    exact told_of_run run sound final (newcomer?_request new).1 idle
  · intro m hm id f new
    obtain ⟨earlier, later, rfl⟩ := List.append_of_mem hm
    exact heard_of_run run (manned_start ..) sound new
  · intro q h
    cases congrArg Request.terms h

/-- Asks for another request and then for the same one again. -/
def onPlainQuery : Rule (Option Request) Action :=
  ⟨fun _ q => q == some plainQuery, 1, [.command (.save freshQuery), .command (.save plainQuery)]⟩

/-- A watcher has the request changed and changed back while he hears of it: he hears of all three,
and not of the one that is saved once more. The next watcher hears of what is persisted then, and of
the end of it. -/
theorem coalesces_rewritten : ∃ (past : List Session) (s : Session),
    machine.Run (start none none none .idle) past s ∧ s.agenda = [] ∧
    past.filterMap asks? =
      [some plainQuery, some freshQuery, some plainQuery, some plainQuery, none] ∧
    past.filterMap emits? = [some plainQuery, some freshQuery, some plainQuery, none] ∧
    toldTo 0 (past.filterMap informs?) =
      [none, some plainQuery, some freshQuery, some plainQuery, none] ∧
    toldTo 1 (past.filterMap informs?) = [some plainQuery, none] ∧
    toldTo (.listener 3) (past.flatMap answers) =
      [none, some plainQuery, some freshQuery, some plainQuery, none] ∧
    toldTo (.listener 4) (past.flatMap answers) = [some plainQuery, none] ∧
    Coalesces none past s := by
  have begun : machine.Run (start none none none .idle) [] _ := .start
  have watched := (begun.input (.watch "first" [onPlainQuery]) rfl).steps 10
  have saved := (watched.input (.command (.save plainQuery)) rfl).steps 40
  have again := (saved.input (.command (.save plainQuery)) rfl).steps 10
  have late := (again.input (.watch "late" []) rfl).steps 10
  have cleared := (late.input (.command .clear) rfl).steps 20
  refine ⟨_, _, cleared, ?_, ?_, ?_, ?_, ?_, ?_, ?_, coalesces cleared⟩
  all_goals decide +kernel

end StandingQuery.Session
