import StandingQuery.Proofs.Channel.Reception

/-! What becomes of a subscription for the first value that is accepted. It is told one value after
the other like any other subscription; those that it does not accept leave it as it is, and with the
one that it accepts it ends, before its target is reached. -/

namespace StandingQuery

/-- The target that a turn reaches, and the value it is reached with. -/
def Turn.reaches? {α β : Type} : Turn α β → Option (β × α)
  | .called e v => some (e.target, v)
  | .refused _ _ | .finished | .moved => none

namespace Channel

variable {α β : Type}

namespace Moment

def reached? (m : Moment α β) : Option (β × α) :=
  match m.operation with
  | .advance => m.channel.advance.1.reaches?
  | .emit _ | .subscribe _ _ | .detach _ => none

/-- The subscription that is given up. -/
def released? (m : Moment α β) : Option Nat :=
  match m.operation with
  | .detach id => some id
  | .emit _ | .subscribe _ _ | .advance => none

end Moment

/-- The subscriptions that have been given up, in the order of the detaching calls. -/
def releases (past : List (Moment α β)) : List Nat := past.filterMap Moment.released?

theorem releases_append (past : List (Moment α β)) (m : Moment α β) :
    releases (past ++ [m]) = releases past ++ m.released?.toList := by
  cases h : m.released? <;> simp [releases, h]

/-- The entries whose turn may come: those in the registry and those left of a delivery. -/
def listed (c : Channel α β) : List (Entry α β) := c.entries ++ c.turns.map (·.1)

theorem mem_listed {c : Channel α β} {e : Entry α β} :
    e ∈ c.listed ↔ e ∈ c.entries ∨ ∃ v, (e, v) ∈ c.turns := by
  simp [listed]

theorem listed_of_entry {c : Channel α β} {e : Entry α β} (h : e ∈ c.entries) : e ∈ c.listed :=
  mem_listed.2 (.inl h)

theorem listed_of_turn {c : Channel α β} {e : Entry α β} {v : α} (h : (e, v) ∈ c.turns) :
    e ∈ c.listed :=
  mem_listed.2 (.inr ⟨v, h⟩)

theorem Advances.listed_of_called {c c' : Channel α β} {e : Entry α β} {v : α}
    (ha : Advances c (.called e v) c') : e ∈ c.listed :=
  listed_of_turn ha.mem_turns

/-- A target is reached in a turn of its entry. -/
theorem Advances.reaches_spec {c c' : Channel α β} {t : Turn α β} (ha : Advances c t c') {b : β}
    {v : α} (h : t.reaches? = some (b, v)) : ∃ e, (e, v) ∈ c.turns ∧ e.target = b := by
  cases t with
  | called e w =>
    cases h
    exact ⟨e, ha.mem_turns, rfl⟩
  | refused _ _ | finished | moved => cases h

/-- A turn lists no entry that was not listed before. -/
theorem Advances.mem_listed {c c' : Channel α β} {t : Turn α β} (ha : Advances c t c')
    {e : Entry α β} (h : e ∈ c'.listed) : e ∈ c.listed := by
  rw [Channel.mem_listed] at h ⊢
  cases ha with
  | passed turns _ | heard turns _ _ | refused turns _ _ _ =>
    exact h.imp_right fun ⟨v, hv⟩ => ⟨v, turns ▸ List.mem_cons_of_mem _ hv⟩
  | taken turns _ _ _ =>
    rcases h with h | ⟨v, hv⟩
    · exact .inl (List.mem_filter.1 h).1
    · exact .inr ⟨v, turns ▸ List.mem_cons_of_mem _ hv⟩
  | begun _ _ =>
    rcases h with h | ⟨v, hv⟩
    · exact .inl h
    · obtain ⟨d, hd, he⟩ := List.mem_map.1 hv
      exact .inl ((Prod.mk.inj he).1 ▸ hd)
  | finished _ _ => exact h

/-- No entry is listed that has not been, unless it is new. -/
theorem mem_listed_apply {c : Channel α β} {o : Operation α β} {e : Entry α β}
    (h : e ∈ (c.apply o).listed) :
    e ∈ c.listed ∨ ∃ mode target, o = .subscribe mode target ∧ e = ⟨c.nextId, mode, target⟩ := by
  cases o with
  | emit v => exact .inl h
  | subscribe mode target =>
    rw [mem_listed] at h ⊢
    rcases h with h | h
    · rcases List.mem_append.1 h with h | h
      · exact .inl (.inl h)
      · exact .inr ⟨mode, target, rfl, List.mem_singleton.1 h⟩
    · exact .inl (.inr h)
  | detach id =>
    rw [mem_listed] at h ⊢
    exact .inl (h.imp_left fun he => (List.mem_filter.1 he).1)
  | advance => exact .inl (c.advances.mem_listed h)

/-- Nobody is listed but under an id that has been given. -/
theorem WellFormed.listed_known {c : Channel α β} (h : c.WellFormed) {e : Entry α β}
    (he : e ∈ c.listed) : e.id < c.nextId := by
  rcases mem_listed.1 he with he | ⟨v, hv⟩
  · exact lt_of_isActive (h.mem_entries_isActive he)
  · exact h.turns_known _ hv

/-! ## What a subscription for the first accepted value comes to -/

/-- How the subscription `id` stands, after its entry has been told some values and its target been
reached with some. -/
structure Awaited (id : Nat) (accept : α → Bool) (target : Nat) (told reached : List α)
    (released : List Nat) (c : Channel α Nat) : Prop where
  own : ∀ e ∈ c.listed, e.id = id ∨ e.target = target → e = ⟨id, .first accept, target⟩
  made : id < c.nextId
  /-- The target is reached with the first value that is accepted, and no other. -/
  reached : reached = (told.find? accept).toList
  /-- Nothing is told after that. -/
  last : ∀ v ∈ told.dropLast, accept v = false
  /-- The subscription goes on until a value is accepted, unless it is given up before. -/
  active : c.isActive id = true ↔ (∀ v ∈ told, accept v = false) ∧ id ∉ released

namespace Awaited

variable {id : Nat} {accept : α → Bool} {target : Nat} {told reached : List α} {released : List Nat}
  {c : Channel α Nat}

theorem subscribed (h : c.WellFormed) (accept : α → Bool)
    (new : ∀ e ∈ c.listed, e.target ≠ target) :
    Awaited c.nextId accept target [] [] [] (c.subscribe (.first accept) target) where
  own := fun e he hown => by
    rcases mem_listed_apply (o := .subscribe (.first accept) target) he with he | ⟨_, _, ho, rfl⟩
    · rcases hown with hid | ht
      · exact absurd (h.listed_known he) (hid ▸ Nat.lt_irrefl _)
      · exact absurd ht (new e he)
    · cases ho
      rfl
  made := Nat.lt_succ_self _
  reached := rfl
  last := by simp
  active := by simp [isActive_subscribe h]

/-- What leaves the subscription as it is. -/
theorem aside {c' : Channel α Nat} (a : Awaited id accept target told reached released c)
    (listed : ∀ e ∈ c'.listed, e.id = id ∨ e.target = target → e ∈ c.listed)
    (known : c.nextId ≤ c'.nextId) (active : c'.isActive id = c.isActive id) :
    Awaited id accept target told reached released c' where
  own := fun e he hown => a.own e (listed e he hown) hown
  made := Nat.lt_of_lt_of_le a.made known
  reached := a.reached
  last := a.last
  active := active ▸ a.active

/-- The entry of a turn is that of the subscription, or has nothing to do with it. -/
theorem own_or_other (a : Awaited id accept target told reached released c) {e : Entry α Nat}
    {v : α} (turn : (e, v) ∈ c.turns) :
    e = ⟨id, .first accept, target⟩ ∨ e.id ≠ id ∧ e.target ≠ target := by
  have listed : e ∈ c.listed := listed_of_turn turn
  by_cases hid : e.id = id
  · exact .inl (a.own e listed (.inl hid))
  · by_cases ht : e.target = target
    · exact .inl (a.own e listed (.inr ht))
    · exact .inr ⟨hid, ht⟩

/-- One value more, told while the subscription goes on. -/
theorem tell {c' : Channel α Nat} (a : Awaited id accept target told reached released c)
    (active : c.isActive id = true) {v : α}
    (listed : ∀ e ∈ c'.listed, e.id = id ∨ e.target = target → e ∈ c.listed)
    (known : c.nextId ≤ c'.nextId) (stays : c'.isActive id = true ↔ accept v = false) :
    Awaited id accept target (told ++ [v]) (reached ++ if accept v then [v] else [])
      released c' := by
  obtain ⟨rejected, kept⟩ := a.active.1 active
  have none : told.find? accept = none := List.find?_eq_none.2 fun w hw => by simp [rejected w hw]
  exact {
    own := fun e he hown => a.own e (listed e he hown) hown
    made := Nat.lt_of_lt_of_le a.made known
    reached := by
      rw [a.reached, List.find?_append, none, List.find?_singleton]
      cases accept v <;> rfl
    last := by rwa [List.dropLast_concat]
    active := by
      rw [stays, List.forall_mem_append, List.forall_mem_singleton]
      exact ⟨fun h => ⟨⟨rejected, h⟩, kept⟩, fun h => h.1.2⟩ }

theorem turn {c' : Channel α Nat} {t : Turn α Nat}
    (a : Awaited id accept target told reached released c) (ha : Advances c t c') :
    Awaited id accept target (told ++ toldTo id t.call?.toList)
      (reached ++ toldTo target t.reaches?.toList) released c' := by
  have listed : ∀ e ∈ c'.listed, e.id = id ∨ e.target = target → e ∈ c.listed :=
    fun e he _ => ha.mem_listed he
  have known : c.nextId ≤ c'.nextId := Nat.le_of_eq ha.nextId_eq.symm
  have none (i : Nat) : toldTo i ([] : List (Nat × α)) = [] := rfl
  have other {i j : Nat} {v : α} (h : j ≠ i) : toldTo i [(j, v)] = [] := toldTo_eq_nil (by simpa)
  have own (i : Nat) (v : α) : toldTo i [(i, v)] = [v] := by simp [toldTo]
  cases ha with
  | passed _ _ | begun _ _ | finished _ _ =>
    simpa [Turn.call?, Turn.reaches?, none] using a.aside listed known rfl
  | @heard e v rest turns active mode =>
    rcases a.own_or_other (turns ▸ List.mem_cons_self) with rfl | ⟨hid, ht⟩
    · cases mode
    · simpa [Turn.call?, Turn.reaches?, other hid, other ht] using a.aside listed known rfl
  | @refused e v rest accept' turns active mode rejected =>
    rcases a.own_or_other (turns ▸ List.mem_cons_self) with rfl | ⟨hid, ht⟩
    · cases mode
      have more := a.tell active listed known (v := v) ⟨fun _ => rejected, fun _ => active⟩
      simpa [Turn.call?, Turn.reaches?, none, own, rejected] using more
    · simpa [Turn.call?, Turn.reaches?, none, other hid] using a.aside listed known rfl
  | @taken e v rest accept' turns active mode accepted =>
    rcases a.own_or_other (turns ▸ List.mem_cons_self) with rfl | ⟨hid, ht⟩
    · cases mode
      have more := a.tell active listed known (v := v) (by simp [accepted])
      simpa [Turn.call?, Turn.reaches?, own, accepted] using more
    · have stays : (({ c with turns := rest } : Channel α Nat).detach e.id).isActive id =
          c.isActive id := by
        rw [isActive_detach, bne_iff_ne.2 hid.symm, Bool.and_true]
        rfl
      simpa [Turn.call?, Turn.reaches?, other hid, other ht] using a.aside listed known stays

/-- An operation tells it the next value, gives it up, or leaves it alone. -/
theorem next (a : Awaited id accept target told reached released c) (h : c.WellFormed)
    (o : Operation α Nat) (other : ∀ mode, o ≠ .subscribe mode target) :
    Awaited id accept target (told ++ toldTo id (Moment.mk c o).called?.toList)
      (reached ++ toldTo target (Moment.mk c o).reached?.toList)
      (released ++ (Moment.mk c o).released?.toList) (c.apply o) := by
  have none (i : Nat) : toldTo i ([] : List (Nat × α)) = [] := rfl
  have listed : ∀ e ∈ (c.apply o).listed, e.id = id ∨ e.target = target → e ∈ c.listed := by
    intro e he hown
    rcases mem_listed_apply he with he | ⟨mode, j, rfl, rfl⟩
    · exact he
    · rcases hown with hid | ht
      · exact absurd a.made (hid ▸ Nat.lt_irrefl _)
      · exact absurd (congrArg (Operation.subscribe mode) ht) (other mode)
  have known := c.nextId_le_apply o
  cases o with
  | emit v =>
    simpa [Moment.called?, Moment.reached?, Moment.released?, none] using a.aside listed known rfl
  | subscribe mode j =>
    have stays : (c.subscribe mode j).isActive id = c.isActive id := by
      rw [isActive_subscribe h, beq_eq_false_iff_ne.2 (Nat.ne_of_lt a.made), Bool.or_false]
    simpa [Moment.called?, Moment.reached?, Moment.released?, none] using a.aside listed known stays
  | detach i =>
    have ends : (c.detach i).isActive id = true ↔
        (∀ v ∈ told, accept v = false) ∧ id ∉ released ++ [i] := by
      rw [isActive_detach, Bool.and_eq_true, a.active, bne_iff_ne, List.mem_append,
        List.mem_singleton, not_or, and_assoc]
    have more : Awaited id accept target told reached (released ++ [i]) (c.apply (.detach i)) :=
      ⟨fun e he hown => a.own e (listed e he hown) hown, a.made, a.reached, a.last, ends⟩
    simpa [Moment.called?, Moment.reached?, Moment.released?, none] using more
  | advance =>
    have more : Awaited id accept target (told ++ toldTo id c.advance.1.call?.toList)
      (reached ++ toldTo target c.advance.1.reaches?.toList) released (c.apply .advance) :=
      a.turn c.advances
    simpa [Moment.called?, Moment.reached?, Moment.released?] using more

end Awaited

end Channel
end StandingQuery
