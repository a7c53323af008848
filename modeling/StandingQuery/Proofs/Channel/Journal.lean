import StandingQuery.Proofs.Channel.Registry

/-! What a channel has done, read off the operations on it: which values were emitted, which of them
have come under delivery and who was subscribed then, whose turn it was, and whom that reached. The
turns of a delivery go to its audience, each subscription once and in order, and one delivery comes
after the other; the calls are the turns of those that were still active. -/

namespace StandingQuery

/-- The subscription whose callback is run, and the value it is run with. One for the first accepted
value is run to be asked about the value. -/
def Turn.call? {α β : Type} : Turn α β → Option (Nat × α)
  | .called e v | .refused e v => some (e.id, v)
  | .finished | .moved => none

namespace Channel

variable {α β γ : Type}

/-- A channel just before an operation on it. -/
structure Moment (α β : Type) where
  channel : Channel α β
  operation : Operation α β

namespace Moment

def subscribed? (m : Moment α β) : Option Nat :=
  match m.operation with
  | .subscribe _ _ => some m.channel.nextId
  | .emit _ | .detach _ | .advance => none

/-- How the subscription that is made takes values. -/
def mode? (m : Moment α β) : Option (Mode α) :=
  match m.operation with
  | .subscribe mode _ => some mode
  | .emit _ | .detach _ | .advance => none

def emitted? (m : Moment α β) : Option α :=
  match m.operation with
  | .emit v => some v
  | .subscribe _ _ | .detach _ | .advance => none

/-- A delivery begins, of this value and to those who are subscribed now. -/
def begun? (m : Moment α β) : Option (α × List Nat) :=
  match m.operation, m.channel.turns, m.channel.pending with
  | .advance, [], v :: _ => some (v, m.channel.active)
  | _, _, _ => none

/-- The subscription whose turn it is, and whether it is active. -/
def turn? (m : Moment α β) : Option (Nat × Bool) :=
  match m.operation, m.channel.turns with
  | .advance, (e, _) :: _ => some (e.id, m.channel.isActive e.id)
  | _, _ => none

def called? (m : Moment α β) : Option (Nat × α) :=
  match m.operation with
  | .advance => m.channel.advance.1.call?
  | .emit _ | .subscribe _ _ | .detach _ => none

end Moment

/-- The operations that lead from a new channel to this one. -/
inductive Journal : List (Moment α β) → Channel α β → Prop where
  | empty : Journal [] .empty
  | next {past : List (Moment α β)} {c : Channel α β} {o : Operation α β} : Journal past c →
      o.Valid c → Journal (past ++ [⟨c, o⟩]) (c.apply o)

/-- The ids given, in the order of the subscribing calls. -/
def subscriptions (past : List (Moment α β)) : List Nat := past.filterMap Moment.subscribed?

/-- How the subscriptions take values, in the same order. -/
def modes (past : List (Moment α β)) : List (Mode α) := past.filterMap Moment.mode?

/-- The values, in the order of the emitting calls. -/
def emissions (past : List (Moment α β)) : List α := past.filterMap Moment.emitted?

/-- The deliveries that have begun, each with its value and its audience. -/
def deliveries (past : List (Moment α β)) : List (α × List Nat) := past.filterMap Moment.begun?

/-- What `f` finds, each with the number of the delivery it belongs to; `n` deliveries have begun
before. -/
def numbered (f : Moment α β → Option γ) : Nat → List (Moment α β) → List (Nat × γ)
  | _, [] => []
  | n, m :: ms => ((f m).map (n - 1, ·)).toList ++ numbered f (n + m.begun?.toList.length) ms

/-- The turns that have come: number of the delivery, subscription, whether it was active. -/
def turnsTaken (past : List (Moment α β)) : List (Nat × Nat × Bool) := numbered Moment.turn? 0 past

/-- The callbacks run: number of the delivery, subscription, value. -/
def calls (past : List (Moment α β)) : List (Nat × Nat × α) := numbered Moment.called? 0 past

/-- For each delivery in order, its number with each of its audience in order. -/
def schedule (ds : List (α × List Nat)) : List (Nat × Nat) :=
  ds.zipIdx.flatMap fun (d, k) => d.2.map (k, ·)

/-- What is last of two lists, or else `a`. -/
theorem getLastD_append (l l' : List γ) (a : γ) :
    (l ++ l').getLastD a = l'.getLastD (l.getLastD a) := by
  induction l generalizing a with
  | nil => rfl
  | cons b l ih => rw [List.cons_append, List.getLastD_cons, List.getLastD_cons, ih]

/-! ## One operation more -/

theorem numbered_append (f : Moment α β → Option γ) (n : Nat) (past : List (Moment α β))
    (m : Moment α β) : numbered f n (past ++ [m]) =
      numbered f n past ++ ((f m).map (n + (deliveries past).length - 1, ·)).toList := by
  induction past generalizing n with
  | nil => simp [numbered, deliveries]
  | cons d ds ih =>
    have hlen :
        (deliveries (d :: ds)).length = d.begun?.toList.length + (deliveries ds).length := by
      cases h : d.begun? <;> simp [deliveries, h, Nat.add_comm]
    simp only [List.cons_append, numbered, ih, List.append_assoc, hlen, Nat.add_assoc]

theorem schedule_append (ds : List (α × List Nat)) (d : α × List Nat) :
    schedule (ds ++ [d]) = schedule ds ++ d.2.map (ds.length, ·) := by
  simp [schedule, List.zipIdx_append]

theorem schedule_ascending {ds : List (α × List Nat)} (h : ∀ d ∈ ds, d.2.Pairwise (· < ·)) :
    (schedule ds).Pairwise (Prod.Lex (· < ·) (· < ·)) := by
  rw [schedule, List.pairwise_flatMap]
  constructor
  · intro (d, k) hd
    have hd := h d (List.fst_mem_of_mem_zipIdx hd)
    exact hd.map _ fun a b hab => Prod.Lex.right k hab
  · have hk : (ds.zipIdx.map Prod.snd).Pairwise (· < ·) := by
      rw [List.zipIdx_map_snd]
      exact List.pairwise_lt_range'
    refine (List.pairwise_map.1 hk).imp fun hij x hx y hy => ?_
    obtain ⟨a, _, rfl⟩ := List.mem_map.1 hx
    obtain ⟨b, _, rfl⟩ := List.mem_map.1 hy
    exact Prod.Lex.left a b hij

theorem subscriptions_append (past : List (Moment α β)) (m : Moment α β) :
    subscriptions (past ++ [m]) = subscriptions past ++ m.subscribed?.toList := by
  cases h : m.subscribed? <;> simp [subscriptions, h]

theorem modes_append (past later : List (Moment α β)) :
    modes (past ++ later) = modes past ++ modes later := List.filterMap_append

theorem length_modes (past : List (Moment α β)) :
    (modes past).length = (subscriptions past).length := by
  induction past with
  | nil => rfl
  | cons m ms ih =>
    obtain ⟨c, o⟩ := m
    cases o with
    | subscribe mode target => exact congrArg (· + 1) ih
    | emit _ | detach _ | advance => exact ih

theorem emissions_append (past : List (Moment α β)) (m : Moment α β) :
    emissions (past ++ [m]) = emissions past ++ m.emitted?.toList := by
  cases h : m.emitted? <;> simp [emissions, h]

theorem deliveries_append (past : List (Moment α β)) (m : Moment α β) :
    deliveries (past ++ [m]) = deliveries past ++ m.begun?.toList := by
  cases h : m.begun? <;> simp [deliveries, h]

theorem turnsTaken_append (past : List (Moment α β)) (m : Moment α β) :
    turnsTaken (past ++ [m]) =
      turnsTaken past ++ (m.turn?.map ((deliveries past).length - 1, ·)).toList := by
  rw [turnsTaken, numbered_append, Nat.zero_add]
  rfl

theorem calls_append (past : List (Moment α β)) (m : Moment α β) :
    calls (past ++ [m]) =
      calls past ++ (m.called?.map ((deliveries past).length - 1, ·)).toList := by
  rw [calls, numbered_append, Nat.zero_add]
  rfl

/-- The calls without the numbers of the deliveries. -/
theorem calls_snd (past : List (Moment α β)) :
    (calls past).map (·.2) = past.filterMap Moment.called? := by
  have general (n : Nat) : (numbered Moment.called? n past).map (·.2) =
      past.filterMap Moment.called? := by
    induction past generalizing n with
    | nil => rfl
    | cons m ms ih =>
      rw [numbered, List.map_append, ih]
      cases h : m.called? <;> simp [h]
  exact general 0

/-- A turn: it is that of the first entry left, and reaches it if it is active. -/
theorem moment_turn {c : Channel α β} {e : Entry α β} {v : α} {rest : List (Entry α β × α)}
    (h : c.turns = (e, v) :: rest) :
    (Moment.mk c .advance).begun? = none ∧
    (Moment.mk c .advance).turn? = some (e.id, c.isActive e.id) ∧
    (Moment.mk c .advance).called? = (if c.isActive e.id then some (e.id, v) else none) := by
  refine ⟨by simp [Moment.begun?, h], by simp [Moment.turn?, h], ?_⟩
  rw [Moment.called?, advance_cons h]
  cases c.isActive e.id with
  | false => rfl
  | true => cases e.mode with
    | every => rfl
    | first accept => cases haccept : accept v <;> simp [haccept, Turn.call?]

/-- What a turn leaves of the channel. -/
theorem apply_turn {c : Channel α β} {e : Entry α β} {v : α} {rest : List (Entry α β × α)}
    (h : c.turns = (e, v) :: rest) :
    (c.apply .advance).turns = rest ∧ (c.apply .advance).pending = c.pending ∧
    (c.apply .advance).nextId = c.nextId := by
  have ha := c.advances
  rw [apply]
  generalize c.advance.1 = t at ha
  generalize c.advance.2 = c' at ha
  cases ha with
  | passed turns _ | heard turns _ _ | taken turns _ _ _ | refused turns _ _ _ =>
    rw [turns] at h
    exact ⟨(List.cons.inj h).2, rfl, rfl⟩
  | begun turns _ | finished turns _ => simp [turns] at h

/-- A subscription that has ended stays so. -/
theorem mem_ended_apply {c : Channel α β} {id : Nat} (h : id ∈ c.ended) (o : Operation α β) :
    id ∈ (c.apply o).ended := by
  cases o with
  | emit v => exact h
  | subscribe mode target => exact h
  | detach i => exact List.mem_cons_of_mem _ h
  | advance =>
    have ha := c.advances
    rw [apply]
    generalize c.advance.1 = t at ha
    generalize c.advance.2 = c' at ha
    cases ha with
    | passed _ _ | heard _ _ _ | refused _ _ _ _ | begun _ _ | finished _ _ => exact h
    | taken _ _ _ _ => exact List.mem_cons_of_mem _ h

theorem not_isActive_of_mem_ended {c : Channel α β} {id : Nat} (h : id ∈ c.ended) :
    c.isActive id = false := by
  simp [isActive, h]

/-! ## The law -/

/-- What ties a channel to what has happened on it. -/
structure Law (past : List (Moment α β)) (c : Channel α β) : Prop where
  wellFormed : c.WellFormed
  /-- The ids are the numbers of the subscribing calls. -/
  ids : subscriptions past = List.range c.nextId
  /-- The values come under delivery in the order in which they were emitted. -/
  values : (deliveries past).map (·.1) ++ c.pending = emissions past
  audiences : ∀ d ∈ deliveries past, d.2.Pairwise (· < ·)
  /-- The turns that are left belong to the latest delivery. -/
  current : ∀ t ∈ c.turns, ∃ d, (deliveries past).getLast? = some d ∧ d.1 = t.2
  turns_eq : (turnsTaken past).map (fun t => (t.1, t.2.1)) ++
    c.turns.map (fun t => ((deliveries past).length - 1, t.1.id)) = schedule (deliveries past)
  /-- The calls are the turns of active subscriptions. -/
  calls_eq : (calls past).map (fun x => (x.1, x.2.1)) =
    ((turnsTaken past).filter (·.2.2)).map fun t => (t.1, t.2.1)
  /-- A call is given the value of its delivery. -/
  call_values : ∀ x ∈ calls past, (emissions past)[x.1]? = some x.2.2
  /-- A turn is missed for good. -/
  ended : ∀ t ∈ turnsTaken past, t.2.2 = false → t.2.1 ∈ c.ended

theorem law_empty : Law ([] : List (Moment α β)) .empty where
  wellFormed := wellFormed_empty
  ids := rfl
  values := rfl
  audiences := by simp [deliveries]
  current := by simp [empty]
  turns_eq := rfl
  calls_eq := rfl
  call_values := by simp [calls, numbered]
  ended := by simp [turnsTaken, numbered]

/-- What neither begins a delivery nor is a turn keeps the law, if it says what it puts in line and
gives the next id to a new subscription. -/
theorem Law.aside {past : List (Moment α β)} {c : Channel α β} {o : Operation α β}
    (law : Law past c) (valid : o.Valid c)
    (begun : (Moment.mk c o).begun? = none) (turn : (Moment.mk c o).turn? = none)
    (called : (Moment.mk c o).called? = none) (turns : (c.apply o).turns = c.turns)
    (pending : (c.apply o).pending = c.pending ++ (Moment.mk c o).emitted?.toList)
    (nextId : List.range (c.apply o).nextId =
      List.range c.nextId ++ (Moment.mk c o).subscribed?.toList) :
    Law (past ++ [⟨c, o⟩]) (c.apply o) := by
  have hd : deliveries (past ++ [⟨c, o⟩]) = deliveries past := by simp [deliveries_append, begun]
  have ht : turnsTaken (past ++ [⟨c, o⟩]) = turnsTaken past := by simp [turnsTaken_append, turn]
  have hc : calls (past ++ [⟨c, o⟩]) = calls past := by simp [calls_append, called]
  exact {
    wellFormed := law.wellFormed.apply valid
    ids := by rw [subscriptions_append, law.ids, nextId]
    values := by rw [hd, pending, emissions_append, ← law.values, List.append_assoc]
    audiences := hd ▸ law.audiences
    current := by rw [hd, turns]; exact law.current
    turns_eq := by rw [hd, ht, turns]; exact law.turns_eq
    calls_eq := by rw [hc, ht]; exact law.calls_eq
    call_values := fun x hx => by
      rw [hc] at hx
      have := law.call_values x hx
      rw [emissions_append, List.getElem?_append_left (List.getElem?_eq_some_iff.1 this).1, this]
    ended := fun t hm hf => mem_ended_apply (law.ended t (ht ▸ hm) hf) o }

theorem Law.turn {past : List (Moment α β)} {c : Channel α β} {e : Entry α β} {v : α}
    {rest : List (Entry α β × α)} (law : Law past c) (h : c.turns = (e, v) :: rest) :
    Law (past ++ [⟨c, .advance⟩]) (c.apply .advance) := by
  obtain ⟨begun, turn, called⟩ := moment_turn h
  obtain ⟨turns, pending, nextId⟩ := apply_turn h
  have hd : deliveries (past ++ [⟨c, .advance⟩]) = deliveries past := by
    simp [deliveries_append, begun]
  have he : emissions (past ++ [⟨c, .advance⟩]) = emissions past := by
    simp [emissions_append, Moment.emitted?]
  have ht := turnsTaken_append past ⟨c, .advance⟩
  have hc := calls_append past ⟨c, .advance⟩
  rw [turn, Option.map_some, Option.toList_some] at ht
  rw [called] at hc
  exact {
    wellFormed := law.wellFormed.apply trivial
    ids := by
      rw [subscriptions_append, law.ids, nextId]
      simp [Moment.subscribed?]
    values := by rw [hd, pending, he, law.values]
    audiences := hd ▸ law.audiences
    current := fun t hm => by
      rw [turns] at hm
      rw [hd]
      exact law.current t (h ▸ List.mem_cons_of_mem _ hm)
    turns_eq := by
      rw [hd, ht, turns, ← law.turns_eq, h]
      simp
    calls_eq := by
      rw [hc, ht, List.map_append, law.calls_eq, List.filter_append, List.map_append]
      cases c.isActive e.id <;> rfl
    call_values := fun x hx => by
      rw [he]
      rw [hc, List.mem_append] at hx
      rcases hx with hx | hx
      · exact law.call_values x hx
      · -- the value under delivery is the one last taken out of the line
        obtain ⟨d, hlast, hv⟩ := law.current (e, v) (h ▸ List.mem_cons_self)
        have hx : x = ((deliveries past).length - 1, e.id, v) := by
          cases hactive : c.isActive e.id <;> simp [hactive] at hx
          exact hx
        rw [List.getLast?_eq_getElem?] at hlast
        have hlt := (List.getElem?_eq_some_iff.1 hlast).1
        rw [hx, ← law.values, List.getElem?_append_left (by simpa using hlt), List.getElem?_map,
          hlast]
        exact congrArg some hv
    ended := fun t hm hf => by
      rw [ht, List.mem_append, List.mem_singleton] at hm
      rcases hm with hm | rfl
      · exact mem_ended_apply (law.ended t hm hf) _
      · have hlt := law.wellFormed.turns_known (e, v) (h ▸ List.mem_cons_self)
        simp only [isActive, Bool.and_eq_false_iff, decide_eq_false_iff_not, Bool.not_eq_false',
          List.contains_iff_mem] at hf
        exact mem_ended_apply (hf.resolve_left (fun hn => hn hlt)) _ }

theorem Law.begin {past : List (Moment α β)} {c : Channel α β} {v : α} {vs : List α}
    (law : Law past c) (turns : c.turns = []) (pending : c.pending = v :: vs) :
    Law (past ++ [⟨c, .advance⟩]) (c.apply .advance) := by
  have hbegun : (Moment.mk c .advance).begun? = some (v, c.active) := by
    simp [Moment.begun?, turns, pending]
  have happly : c.apply .advance = { c with pending := vs, turns := c.entries.map (·, v) } := by
    simp [apply, advance, turns, pending]
  have hd : deliveries (past ++ [⟨c, .advance⟩]) = deliveries past ++ [(v, c.active)] := by
    rw [deliveries_append, hbegun, Option.toList_some]
  have he : emissions (past ++ [⟨c, .advance⟩]) = emissions past := by
    simp [emissions_append, Moment.emitted?]
  have ht : turnsTaken (past ++ [⟨c, .advance⟩]) = turnsTaken past := by
    simp [turnsTaken_append, Moment.turn?, turns]
  have hc : calls (past ++ [⟨c, .advance⟩]) = calls past := by
    simp [calls_append, Moment.called?, advance, turns, pending, Turn.call?]
  exact {
    wellFormed := law.wellFormed.apply trivial
    ids := by
      rw [subscriptions_append, law.ids, happly]
      simp [Moment.subscribed?]
    values := by
      rw [hd, he, happly, ← law.values, pending]
      simp
    audiences := fun d hm => by
      rw [hd, List.mem_append, List.mem_singleton] at hm
      rcases hm with hm | rfl
      · exact law.audiences d hm
      · exact c.active_ascending
    current := fun t hm => by
      rw [happly] at hm
      obtain ⟨e, _, rfl⟩ := List.mem_map.1 hm
      exact ⟨(v, c.active), by rw [hd, List.getLast?_concat], rfl⟩
    turns_eq := by
      rw [hd, ht, happly, schedule_append, ← law.turns_eq, turns, ← law.wellFormed.registry]
      simp
    calls_eq := by rw [hc, ht]; exact law.calls_eq
    call_values := by rw [hc, he]; exact law.call_values
    ended := fun t hm hf => mem_ended_apply (law.ended t (ht ▸ hm) hf) _ }

/-- **The law holds of every journal**, whatever the operations are and however they are mixed. -/
theorem Journal.law {past : List (Moment α β)} {c : Channel α β} (h : Journal past c) :
    Law past c := by
  induction h with
  | empty => exact law_empty
  | @next past c o _ valid law =>
    cases o with
    | emit v => exact law.aside valid rfl rfl rfl rfl rfl (by simp [Moment.subscribed?]; rfl)
    | subscribe mode target =>
      exact law.aside valid rfl rfl rfl rfl (by simp [Moment.emitted?]; rfl) (List.range_succ ..)
    | detach id =>
      exact law.aside valid rfl rfl rfl rfl (by simp [Moment.emitted?]; rfl)
        (by simp [Moment.subscribed?]; rfl)
    | advance =>
      cases turns : c.turns with
      | cons t rest => exact law.turn turns
      | nil => cases pending : c.pending with
        | cons v vs => exact law.begin turns pending
        | nil =>
          have happly : c.apply .advance = { c with delivering := false } := by
            simp [apply, advance, turns, pending]
          exact law.aside valid (by simp [Moment.begun?, turns, pending])
            (by simp [Moment.turn?, turns])
            (by simp [Moment.called?, advance, turns, pending, Turn.call?]) (by rw [happly])
            (by simp [happly, Moment.emitted?]) (by simp [happly, Moment.subscribed?])

end Channel
end StandingQuery
