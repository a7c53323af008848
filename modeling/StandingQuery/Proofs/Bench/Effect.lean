import StandingQuery.Proofs.Bench.Run
import StandingQuery.Proofs.Channel.First

/-! What a step of a bench does to the listeners. It shows in what the step notes and in the tasks
that it plans: a listener is run with a value when his rules are set to work on it. Whoever is told
a value in his turn, or as the value held, is asked about it if he waits for the first accepted one;
if he takes it, it is noted that he hears it and he is run, and so is nobody else. -/

namespace StandingQuery

/-- The value is one to run the target with. -/
def Mode.takes {α : Type} : Mode α → α → Bool
  | .every, _ => true
  | .first accept, v => accept v

namespace Bench

open Channel (Operation Moment toldTo)

variable {α : Type}

/-! ## What can be seen of a step -/

/-- What the next step notes, in order. -/
def newNotes (b : Bench α) : List (Note α) := (machine.added (·.notes) (·.notes) b).reverse

/-- What the next step puts in front of the tasks that are left. -/
def newTasks (b : Bench α) : List (Task α) := machine.added (·.agenda.tail) (·.agenda) b

/-- A listener is run with a value when his rules are set to work, from the first one on. -/
def Task.runs? : Task α → Option (Nat × α)
  | .react i _ 0 v => some (i, v)
  | .react _ _ (_ + 1) _ | .act _ | .deliver | .keep _ _ => none

/-- Those whom the next step runs, by the numbers of the listeners, and what with. -/
def runs (b : Bench α) : List (Nat × α) := b.newTasks.filterMap Task.runs?

def Note.isHeard : Note α → Bool
  | .heard _ _ _ => true
  | .asked _ _ _ | .released _ _ _ | .inspected _ _ | .counted _ | .missing _ | .noHandle _ => false

/-- About a listener who is told a value: that he was asked, or that he heard it. -/
def Note.isTold : Note α → Bool
  | .heard _ _ _ | .asked _ _ _ => true
  | .released _ _ _ | .inspected _ _ | .counted _ | .missing _ | .noHandle _ => false

def toldNotes (b : Bench α) : List (Note α) := b.newNotes.filter Note.isTold

/-- What is noted of a listener who is told a value while `held` is the value held. -/
def notesOf (mode : Mode α) (name : String) (held : Option α) (v : α) : List (Note α) :=
  match mode with
  | .every => [.heard name v held]
  | .first accept => .asked name v (accept v) :: if accept v then [.heard name v held] else []

theorem notesOf_heard (mode : Mode α) (name : String) (held : Option α) (v : α) :
    (notesOf mode name held v).filter Note.isHeard =
      if mode.takes v then [.heard name v held] else [] := by
  cases mode with
  | every => rfl
  | first accept => cases hv : accept v <;> simp [notesOf, Mode.takes, hv, Note.isHeard]

/-! ## Who is told something, and who comes in -/

/-- Somebody is told a value, which he takes as his mode says. -/
structure Telling (α : Type) where
  listener : Nat
  mode : Mode α
  value : α

/-- The listener that hears it. -/
def Telling.reaches? (t : Telling α) : Option (Nat × α) :=
  if t.mode.takes t.value then some (t.listener, t.value) else none

/-- Whom a turn tells a value. -/
def turnTells? : Turn α Nat → Option (Telling α)
  | .called e v | .refused e v => some ⟨e.target, e.mode, v⟩
  | .finished | .moved => none

/-- Whom a task tells a value, be it in a turn of the delivery or because it is the value held. -/
def taskTells? (b : Bench α) : Task α → Option (Telling α)
  | .deliver => turnTells? b.subject.advance.1
  | .act (.subscribe h _ _) =>
    if b.hasHandle h then b.subject.held.map (⟨b.listeners.length, .every, ·⟩) else none
  | .act (.subscribeFirst h _ accept _) =>
    if b.hasHandle h then b.subject.held.map (⟨b.listeners.length, .first accept, ·⟩) else none
  | .act _ | .react _ _ _ _ | .keep _ _ => none

def tells? (b : Bench α) : Option (Telling α) := b.agenda.head?.bind b.taskTells?

/-- The listener that hears a value in the next step. -/
def reaches? (b : Bench α) : Option (Nat × α) := b.tells?.bind Telling.reaches?

/-- The name of the listener that a task adds. -/
def taskAdds? (b : Bench α) : Task α → Option String
  | .act (.subscribe h name _) | .act (.subscribeFirst h name _ _) =>
    if b.hasHandle h then some name else none
  | _ => none

def names (b : Bench α) : List String := b.listeners.map (·.name)

theorem length_names (b : Bench α) : b.names.length = b.listeners.length := List.length_map _

theorem nameOf_eq (b : Bench α) (i : Nat) : b.nameOf i = (b.names[i]?).getD "" := by
  rw [nameOf, names, List.getElem?_map]

theorem names_hear (b : Bench α) (i : Nat) (v : α) : (b.hear i v).names = b.names := by
  unfold hear
  split
  · rfl
  · next l there => exact Listener.map_name_set there rfl

/-! ## What the parts of a step show -/

/-- Between two states, what is noted of those who are told a value, and who is run. -/
structure Shows (b b' : Bench α) (notes : List (Note α)) (run : List (Nat × α)) : Prop where
  noted : ∃ new, b'.notes = new ++ b.notes ∧ new.reverse.filter Note.isTold = notes
  ran : ∃ new, b'.agenda = new ++ b.agenda ∧ new.filterMap Task.runs? = run

namespace Shows

variable {b c d : Bench α} {notes notes' : List (Note α)} {run run' : List (Nat × α)}

theorem of_eq (notes : c.notes = b.notes) (agenda : c.agenda = b.agenda) : Shows b c [] [] :=
  ⟨⟨[], notes, rfl⟩, ⟨[], agenda, rfl⟩⟩

theorem trans (h : Shows b c notes run) (h' : Shows c d notes' run') :
    Shows b d (notes ++ notes') (run' ++ run) := by
  obtain ⟨⟨n, hn, rfl⟩, ⟨t, ht, rfl⟩⟩ := h
  obtain ⟨⟨n', hn', rfl⟩, ⟨t', ht', rfl⟩⟩ := h'
  exact ⟨⟨n' ++ n, by simp [hn, hn'], by simp⟩, ⟨t' ++ t, by simp [ht, ht'], by simp⟩⟩

theorem note (h : Shows b c notes run) (n : Note α) :
    Shows b (c.note n) (notes ++ [n].filter Note.isTold) run := by
  have noted : Shows c (c.note n) ([n].filter Note.isTold) [] := ⟨⟨[n], rfl, rfl⟩, ⟨[], rfl, rfl⟩⟩
  exact h.trans noted

/-- Tasks that are planned run nobody unless they are a listener's rules. -/
theorem plan (h : Shows b c notes run) (ts : List (Task α)) (quiet : ts.filterMap Task.runs? = []) :
    Shows b (c.plan ts) notes run := by
  have planned : Shows c (c.plan ts) [] [] := ⟨⟨[], rfl, rfl⟩, ⟨ts, rfl, quiet⟩⟩
  simpa using h.trans planned

theorem hear (h : Shows b c notes run) {i : Nat} {v : α} (known : i < c.listeners.length) :
    Shows b (c.hear i v) (notes ++ [.heard (c.nameOf i) v c.value?]) ((i, v) :: run) := by
  have there := List.getElem?_eq_getElem known
  have heard : Shows c (c.hear i v) [.heard (c.nameOf i) v c.value?] [(i, v)] := by
    rw [nameOf, there]
    simp only [Bench.hear, there]
    exact ⟨⟨[_], rfl, rfl⟩, ⟨[_], rfl, rfl⟩⟩
  exact h.trans heard

end Shows

/-- A listener is added or not, and one is told something or none is. Whoever is told something has
to be known by then. -/
structure Tells (b b' : Bench α) (newcomer : Option String) (told : Option (Telling α)) : Prop where
  named : b'.names = b.names ++ newcomer.toList
  shown : (∀ t ∈ told, t.listener < b'.listeners.length) →
    Shows b b' (told.elim [] fun t => notesOf t.mode (b'.nameOf t.listener) b.value? t.value)
      (told.bind Telling.reaches?).toList

theorem Tells.nothing {b b' : Bench α} (named : b'.names = b.names) (shown : Shows b b' [] []) :
    Tells b b' none none :=
  ⟨by simpa using named, fun _ => shown⟩

/-- Somebody hears a value after what shows at most that he was asked about it. -/
theorem Tells.hear {b c : Bench α} {newcomer : Option String} {asked : List (Note α)}
    {t : Telling α} (shown : Shows b c asked []) (named : c.names = b.names ++ newcomer.toList)
    (held : c.value? = b.value?) (takes : t.mode.takes t.value = true)
    (notes : notesOf t.mode (c.nameOf t.listener) b.value? t.value =
      asked ++ [.heard (c.nameOf t.listener) t.value b.value?]) :
    Tells b (c.hear t.listener t.value) newcomer (some t) where
  named := (c.names_hear t.listener t.value).trans named
  shown := fun known => by
    have there : t.listener < c.listeners.length := by
      rw [← length_names, ← names_hear c t.listener t.value, length_names]
      exact known t rfl
    have same : (c.hear t.listener t.value).nameOf t.listener = c.nameOf t.listener := by
      rw [nameOf_eq, names_hear, nameOf_eq]
    have heard := shown.hear (v := t.value) there
    rw [held, ← notes, ← same] at heard
    simpa [Telling.reaches?, takes] using heard

theorem tells_react (b : Bench α) (i before rule : Nat) (v : α) :
    Tells b (b.react i before rule v) none none := by
  unfold react
  split
  · exact .nothing rfl (.of_eq rfl rfl)
  · next l there =>
    split
    · have again : Shows b (b.plan [.react i before (rule + 1) v]) [] [] :=
        (Shows.of_eq rfl rfl).plan _ rfl
      dsimp only
      split
      · next acts l' fired =>
        have spent : Shows b { b.plan [.react i before (rule + 1) v] with
            listeners := b.listeners.set i l' } [] [] := ⟨again.noted, again.ran⟩
        refine .nothing (Listener.map_name_set there (Listener.name_of_fire fired))
          (spent.plan _ ?_)
        simp [Function.comp_def, Task.runs?]
      · exact .nothing rfl again
    · exact .nothing rfl (.of_eq rfl rfl)

theorem tells_keep (b : Bench α) (name : String) (id : Option Nat) :
    Tells b (b.keep name id) none none := by
  unfold keep
  dsimp only
  split
  · next older _ => cases older <;> exact .nothing rfl (.of_eq rfl rfl)
  · exact .nothing rfl (.of_eq rfl rfl)

theorem tells_deliver (b : Bench α) : Tells b b.deliver none (turnTells? b.subject.advance.1) := by
  have left : Shows b { b with subject := b.subject.advance.2 } [] [] := .of_eq rfl rfl
  have same : b.names = b.names ++ (none : Option String).toList := (List.append_nil _).symm
  have held : ({ b with subject := b.subject.advance.2 } : Bench α).value? = b.value? := by
    rw [value?, Subject.held_advance]
    rfl
  have turn := b.channel.advances
  rw [← b.subject.turn_advance] at turn
  unfold deliver
  dsimp only
  generalize b.subject.advance.1 = t at turn
  generalize b.channel.advance.2 = c at turn
  cases turn with
  | finished => exact .nothing rfl left
  | passed | begun => exact .nothing rfl (left.plan _ rfl)
  | @refused e v _ accept _ _ mode rejected =>
    refine ⟨same, fun _ => ?_⟩
    have asked := (left.note (.asked (b.nameOf e.target) v false)).plan [.deliver] rfl
    have notes : notesOf e.mode (b.nameOf e.target) b.value? v =
        [.asked (b.nameOf e.target) v false] := by simp [mode, notesOf, rejected]
    have nobody : Telling.reaches? ⟨e.target, e.mode, v⟩ = none := by
      simp [Telling.reaches?, mode, Mode.takes, rejected]
    show Shows b _ (notesOf e.mode (b.nameOf e.target) b.value? v)
      (Telling.reaches? ⟨_, _, _⟩).toList
    rw [notes, nobody]
    exact asked
  | @heard e v _ _ _ mode =>
    simp only [turnTells?, mode]
    exact .hear (t := ⟨e.target, .every, v⟩) (left.plan [.deliver] rfl) same held rfl rfl
  | @taken e v _ accept _ _ mode accepted =>
    simp only [turnTells?, mode]
    have asked := (left.note (.asked (b.nameOf e.target) v true)).plan [.deliver] rfl
    refine .hear (t := ⟨e.target, .first accept, v⟩) asked same held accepted ?_
    show notesOf (.first accept) (b.nameOf e.target) b.value? v = _
    simp [notesOf, accepted]
    rfl

theorem tells_subscribe (b : Bench α) (name : String) (rules : List (Rule α (Action α))) :
    Tells b (b.subscribe name rules) (some name)
      (b.subject.held.map (⟨b.listeners.length, .every, ·⟩)) := by
  have named : ((b.addListener name rules).register name .every b.listeners.length).names =
      b.names ++ [name] := by
    simp [names, register, plan, addListener, Listener.named]
  have registered : Shows b ((b.addListener name rules).register name .every b.listeners.length)
      [] [] := ⟨⟨[], rfl, rfl⟩, ⟨[_], rfl, rfl⟩⟩
  have held : ((b.addListener name rules).register name .every b.listeners.length).subject.held =
      b.subject.held := b.subject.held_subscribe _ _
  have value : ((b.addListener name rules).register name .every b.listeners.length).value? =
      b.value? := by
    rw [value?, held]
    rfl
  unfold subscribe
  dsimp only
  rw [held]
  cases b.subject.held with
  | none => exact ⟨named, fun _ => registered⟩
  | some v => exact .hear (t := ⟨_, .every, v⟩) registered named value rfl rfl

theorem tells_subscribeFirst (b : Bench α) (name : String) (accept : α → Bool)
    (rules : List (Rule α (Action α))) :
    Tells b (b.subscribeFirst name accept rules) (some name)
      (b.subject.held.map (⟨b.listeners.length, .first accept, ·⟩)) := by
  have named : (b.addListener name rules).names = b.names ++ [name] := by
    simp [names, addListener, Listener.named]
  have newest : (b.addListener name rules).nameOf b.listeners.length = name := by
    rw [nameOf_eq, named, ← length_names, List.getElem?_concat_length]
    rfl
  have added : Shows b (b.addListener name rules) [] [] := .of_eq rfl rfl
  have held : (b.addListener name rules).subject.held = b.subject.held := rfl
  unfold subscribeFirst
  dsimp only
  rw [held]
  cases b.subject.held with
  | none => exact ⟨named, fun _ => ⟨⟨[], rfl, rfl⟩, ⟨[_], rfl, rfl⟩⟩⟩
  | some v =>
    have asked := added.note (.asked name v (accept v))
    dsimp only
    cases hv : accept v with
    | true =>
      rw [hv] at asked
      refine .hear (t := ⟨_, .first accept, v⟩) (asked.plan [.keep name none] rfl) named rfl hv ?_
      show notesOf (.first accept) ((b.addListener name rules).nameOf _) b.value? v =
        _ ++ [.heard ((b.addListener name rules).nameOf _) v b.value?]
      rw [newest]
      simp [notesOf, hv]
      rfl
    | false =>
      rw [hv] at asked
      refine ⟨named, fun _ => ?_⟩
      have notes : notesOf (.first accept) name b.value? v = [.asked name v false] := by
        simp [notesOf, hv]
      have nobody : Telling.reaches? ⟨b.listeners.length, .first accept, v⟩ = none := by
        simp [Telling.reaches?, Mode.takes, hv]
      show Shows b _ (notesOf (.first accept) ((b.addListener name rules).nameOf _) b.value? v)
        (Telling.reaches? ⟨_, _, _⟩).toList
      rw [newest, notes, nobody]
      exact ⟨asked.noted, ⟨[_], rfl, rfl⟩⟩

theorem tells_act (b : Bench α) (a : Action α) :
    Tells b (b.act a) (b.taskAdds? (.act a)) (b.taskTells? (.act a)) := by
  have aside {h : Nat} {f : Bench α → Bench α} (hf : Tells b (f b) none none) :
      Tells b (b.withHandle h f) none none := by
    unfold withHandle
    split
    · exact hf
    · exact .nothing rfl ((Shows.of_eq rfl rfl).note _)
  have noted {c : Bench α} (n : Note α) (quiet : n.isTold = false) (named : c.names = b.names)
      (notes : c.notes = b.notes) (agenda : c.agenda = b.agenda) :
      Tells b (c.note n) none none := by
    have shown := (Shows.of_eq notes agenda).note n
    rw [List.filter_cons_of_neg (by simp [quiet])] at shown
    exact .nothing named shown
  cases a with
  | emit h v =>
    refine aside (f := (·.emit v)) (.nothing rfl ?_)
    unfold emit
    split
    · exact .of_eq rfl rfl
    · exact ⟨⟨[], rfl, rfl⟩, ⟨[.deliver], rfl, rfl⟩⟩
  | subscribe h name rules =>
    simp only [act, withHandle, taskAdds?, taskTells?]
    cases b.hasHandle h with
    | true => exact b.tells_subscribe name rules
    | false => exact noted _ rfl rfl rfl rfl
  | subscribeFirst h name accept rules =>
    simp only [act, withHandle, taskAdds?, taskTells?]
    cases b.hasHandle h with
    | true => exact b.tells_subscribeFirst name accept rules
    | false => exact noted _ rfl rfl rfl rfl
  | release how name =>
    rw [act]
    split
    · next id _ =>
      have released := noted (c := { b with kept := b.kept.erase name })
        (.released how name (b.isActive id)) rfl rfl rfl rfl
      cases id <;> exact ⟨released.named, fun known => ⟨(released.shown known).noted,
        (released.shown known).ran⟩⟩
    · exact noted _ rfl rfl rfl rfl
  | inspect name =>
    rw [act]
    split <;> exact noted _ rfl rfl rfl rfl
  | count h => exact aside (f := fun b => b.note _) (noted _ rfl rfl rfl rfl)
  | clone h =>
    exact aside (f := fun b => { b with handles := b.handles ++ [true] })
      (.nothing rfl (.of_eq rfl rfl))
  | dropHandle h => exact .nothing rfl (.of_eq rfl rfl)

/-- **Values are heard in these ways and in no others.** -/
theorem tells_step {b b' : Bench α} (taken : b.step = some b') :
    Tells { b with agenda := b.agenda.tail } b' (b.agenda.head?.bind b.taskAdds?) b.tells? := by
  unfold step at taken
  split at taken
  · cases taken
  · next t ts agenda =>
    obtain rfl := Option.some.inj taken
    rw [tells?, agenda]
    show Tells { b with agenda := ts } (({ b with agenda := ts } : Bench α).perform t)
      (b.taskAdds? t) (b.taskTells? t)
    cases t with
    | act a => exact tells_act { b with agenda := ts } a
    | react i before rule v => exact tells_react { b with agenda := ts } i before rule v
    | deliver => exact tells_deliver { b with agenda := ts }
    | keep name id => exact tells_keep { b with agenda := ts } name id

/-! ## Listeners that are known -/

theorem listeners_le {b b' : Bench α} (taken : b.step = some b') :
    b.listeners.length ≤ b'.listeners.length := by
  rw [← length_names, ← length_names, (tells_step taken).named, List.length_append]
  exact Nat.le_add_right _ _

/-- Every subscription is made for a new listener. -/
theorem subscribe_spec {b b' : Bench α} (taken : b.step = some b') {mode : Mode α} {i : Nat}
    (operation : b.operation? = some (.subscribe mode i)) :
    i = b.listeners.length ∧ i < b'.listeners.length := by
  have added : i = b.listeners.length ∧ ∃ name, b.agenda.head?.bind b.taskAdds? = some name := by
    obtain ⟨t, ht, ho⟩ := Option.bind_eq_some_iff.1 operation
    rw [ht, Option.bind_some]
    have release (name : String) : b.releaseOperation? name ≠ some (.subscribe mode i) := by
      intro hr
      obtain ⟨id, _, hid⟩ := Option.map_eq_some_iff.1 hr
      cases hid
    cases t with
    | act a =>
      cases a with
      | subscribe h name rules =>
        simp only [taskOperation?, actOperation?, Option.ite_none_right_eq_some] at ho
        obtain ⟨handle, ⟨⟩⟩ := ho
        exact ⟨rfl, name, if_pos handle⟩
      | subscribeFirst h name accept rules =>
        simp only [taskOperation?, actOperation?, Option.ite_none_right_eq_some,
          Option.ite_none_left_eq_some] at ho
        obtain ⟨handle, _, ⟨⟩⟩ := ho
        exact ⟨rfl, name, if_pos handle⟩
      | emit h v => simp [taskOperation?, actOperation?] at ho
      | release how name => exact absurd ho (release name)
      | inspect | count | clone | dropHandle => cases ho
    | keep name id => exact absurd ho (release name)
    | deliver | react _ _ _ _ => cases ho
  obtain ⟨rfl, name, adds⟩ := added
  refine ⟨rfl, ?_⟩
  rw [← b'.length_names, (tells_step taken).named, adds, List.length_append, length_names]
  exact Nat.lt_succ_self _

/-- An entry that is listed after a step has been listed before, or is that of a new listener. -/
theorem listed_of_step {b b' : Bench α} (taken : b.step = some b') {e : Entry α Nat}
    (he : e ∈ b'.channel.listed) : e ∈ b.channel.listed ∨
      b.operation? = some (.subscribe e.mode b.listeners.length) ∧
        e = ⟨b.channel.nextId, e.mode, b.listeners.length⟩ := by
  obtain ⟨t, ts, new, stepped⟩ := step_spec taken
  rw [stepped.channel, ← stepped.operation] at he
  cases operation : b.operation? with
  | none =>
    rw [operation] at he
    exact .inl he
  | some o =>
    rw [operation] at he
    rcases Channel.mem_listed_apply he with he | ⟨mode, i, rfl, rfl⟩
    · exact .inl he
    · obtain rfl := (subscribe_spec taken operation).1
      exact .inr ⟨rfl, rfl⟩

/-- Every entry leads to a listener. -/
def Manned (b : Bench α) : Prop := ∀ e ∈ b.channel.listed, e.target < b.listeners.length

theorem Manned.step {b b' : Bench α} (h : b.Manned) (taken : b.step = some b') : b'.Manned := by
  intro e he
  rcases listed_of_step taken he with he | ⟨operation, new⟩
  · exact Nat.lt_of_lt_of_le (h e he) (listeners_le taken)
  · rw [new]
    exact (subscribe_spec taken operation).2

theorem manned_of_run {s : Subject α} (hs : s.channel = .empty) {past : List (Bench α)}
    {b : Bench α} (run : machine.Run (start s) past b) : b.Manned ∧ ∀ m ∈ past, m.Manned := by
  refine run.invariant (P := Manned) ?_ (fun _ _ _ h => h) fun _ _ h => h.step
  intro e he
  rw [start, channel, hs] at he
  cases he

/-! ## What a step shows -/

/-- It is a turn, or a listener that comes in. -/
theorem tells?_spec {b : Bench α} {t : Telling α} (told : b.tells? = some t) :
    b.operation? = some .advance ∧ turnTells? b.channel.advance.1 = some t ∨
      b.subject.held = some t.value ∧ t.listener = b.listeners.length ∧
        ∃ name, b.agenda.head?.bind b.taskAdds? = some name := by
  obtain ⟨u, hu, told⟩ := Option.bind_eq_some_iff.1 told
  rw [operation?, hu, Option.bind_some, Option.bind_some]
  cases u with
  | deliver => exact .inl ⟨rfl, b.subject.turn_advance ▸ told⟩
  | act a =>
    cases a with
    | subscribe h name rules | subscribeFirst h name accept rules =>
      obtain ⟨handle, told⟩ := Option.ite_none_right_eq_some.1 told
      obtain ⟨v, held, rfl⟩ := Option.map_eq_some_iff.1 told
      exact .inr ⟨held, rfl, name, if_pos handle⟩
    | emit | release | inspect | count | clone | dropHandle => cases told
  | react | keep => cases told

/-- A turn tells the target of an entry whose turn it is. -/
theorem turnTells?_spec {c c' : Channel α Nat} {t : Turn α Nat} (ha : Channel.Advances c t c')
    {x : Telling α} (told : turnTells? t = some x) :
    ∃ e v, (e, v) ∈ c.turns ∧ c.isActive e.id = true ∧ x = ⟨e.target, e.mode, v⟩ ∧
      t.call? = some (e.id, v) := by
  cases ha with
  | heard turns active _ | taken turns active _ _ | refused turns active _ _ =>
    cases told
    exact ⟨_, _, turns ▸ List.mem_cons_self, active, rfl, rfl⟩
  | passed _ _ | begun _ _ | finished _ _ => cases told

/-- Whoever is told something is known by then. -/
theorem Manned.told_known {b b' : Bench α} (h : b.Manned) (taken : b.step = some b') :
    ∀ t ∈ b.tells?, t.listener < b'.listeners.length := by
  intro t told
  rcases tells?_spec told with ⟨_, turn⟩ | ⟨_, new, name, adds⟩
  · obtain ⟨e, v, turns, _, rfl, _⟩ := turnTells?_spec b.channel.advances turn
    exact Nat.lt_of_lt_of_le (h e (Channel.listed_of_turn turns)) (listeners_le taken)
  · rw [new, ← b'.length_names, (tells_step taken).named, adds, List.length_append]
    exact (b.length_names).symm ▸ Nat.lt_succ_self _

/-- **What a step does to the listeners.** -/
theorem Manned.effect {b b' : Bench α} (h : b.Manned) (taken : b.step = some b') :
    b.toldNotes = (b.tells?.elim [] fun t =>
      notesOf t.mode (b'.nameOf t.listener) b.value? t.value) ∧
    b.runs = b.reaches?.toList := by
  obtain ⟨⟨n, hn, noted⟩, ⟨ts, hts, ran⟩⟩ := (tells_step taken).shown (h.told_known taken)
  have notes : b.newNotes = n.reverse := congrArg List.reverse (Machine.added_eq taken hn)
  have tasks : b.newTasks = ts := Machine.added_eq taken hts
  exact ⟨by rw [toldNotes, notes, noted]; rfl, by rw [runs, tasks, ran, reaches?]⟩

def heardNotes (b : Bench α) : List (Note α) := b.newNotes.filter Note.isHeard

/-- Whoever is run is noted to hear the value, and nobody else is. -/
theorem Manned.heardNotes_eq {b b' : Bench α} (h : b.Manned) (taken : b.step = some b') :
    b.heardNotes = b.runs.map fun (i, v) => .heard (b'.nameOf i) v b.value? := by
  obtain ⟨noted, ran⟩ := h.effect taken
  have both : b.heardNotes = b.toldNotes.filter Note.isHeard := by
    rw [heardNotes, toldNotes, List.filter_filter]
    refine List.filter_congr fun n _ => ?_
    cases n <;> rfl
  rw [both, noted, ran, reaches?]
  cases b.tells? with
  | none => rfl
  | some t =>
    simp only [Option.elim_some, notesOf_heard, Option.bind_some, Telling.reaches?]
    split <;> rfl

/-! ## Over a run -/

/-- Listeners keep their names. -/
theorem names_prefix {s b : Bench α} {past : List (Bench α)} (run : machine.Run s past b) :
    s.names <+: b.names := by
  induction run with
  | start => exact List.prefix_refl _
  | input a _ _ ih => exact ih
  | step _ taken ih => exact ih.trans ((tells_step taken).named ▸ List.prefix_append _ _)

theorem nameOf_later {s b : Bench α} {past : List (Bench α)} (run : machine.Run s past b) {i : Nat}
    (known : i < s.listeners.length) : b.nameOf i = s.nameOf i := by
  obtain ⟨more, names⟩ := names_prefix run
  rw [nameOf_eq, nameOf_eq, ← names, List.getElem?_append_left (by rwa [length_names])]

/-- Whoever is run is known by then. -/
theorem Manned.runs_known {b b' : Bench α} (h : b.Manned) (taken : b.step = some b') :
    ∀ x ∈ b.runs, x.1 < b'.listeners.length := by
  intro x hx
  rw [(h.effect taken).2, Option.mem_toList] at hx
  obtain ⟨t, told, reached⟩ := Option.bind_eq_some_iff.1 hx
  obtain ⟨_, ⟨⟩⟩ := Option.ite_none_right_eq_some.1 reached
  exact h.told_known taken t told

/-- Whenever a listener is run with a value, it is noted that he hears it, and nothing else is noted
to be heard. -/
theorem heardNotes_of_run {s : Subject α} (hs : s.channel = .empty) {past : List (Bench α)}
    {b : Bench α} (run : machine.Run (start s) past b) :
    ∀ n ∈ past, n.heardNotes = n.runs.map fun (i, v) => .heard (b.nameOf i) v n.value? := by
  intro n hn
  obtain ⟨front, back, parts⟩ := List.append_of_mem hn
  obtain ⟨n', first, taken, rest⟩ := run.split parts
  have manned := (manned_of_run hs first).1
  rw [manned.heardNotes_eq taken]
  refine List.map_congr_left fun (i, v) hx => ?_
  show Note.heard (n'.nameOf i) v n.value? = .heard (b.nameOf i) v n.value?
  rw [nameOf_later rest (manned.runs_known taken _ hx)]

end Bench
end StandingQuery
