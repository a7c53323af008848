import StandingQuery.Proofs.Channel.Reception

/-! Which subscription an operation ends, and which it makes. Whatever ends it, from outside or with
the value that it takes, its entry goes and its flag falls; all other entries stay as they are, in
their order, and no flag rises again. -/

namespace StandingQuery

/-- The subscription that ends with a turn: one for the first accepted value, when it takes it. -/
def Turn.ends? {α β : Type} : Turn α β → Option Nat
  | .called ⟨id, .first _, _⟩ _ => some id
  | .called ⟨_, .every, _⟩ _ | .refused _ _ | .finished | .moved => none

namespace Channel

variable {α β : Type}

/-- The subscription that an operation ends, unless it has ended before. -/
def Operation.ends? (c : Channel α β) : Operation α β → Option Nat
  | .detach id => some id
  | .advance => c.advance.1.ends?
  | .emit _ | .subscribe _ _ => none

/-- The entry that an operation makes. -/
def Operation.enters? (c : Channel α β) : Operation α β → Option (Entry α β)
  | .subscribe mode target => some ⟨c.nextId, mode, target⟩
  | .emit _ | .detach _ | .advance => none

theorem filter_unended (es : List (Entry α β)) : es.filter (some ·.id != none) = es :=
  List.filter_eq_self.2 fun _ _ => rfl

theorem Advances.entries_eq {c c' : Channel α β} {t : Turn α β} (h : Advances c t c') :
    c'.entries = c.entries.filter (some ·.id != t.ends?) := by
  cases h with
  | @taken e _ _ accept _ _ mode _ =>
    obtain ⟨id, _, _⟩ := e
    obtain rfl := mode
    rfl
  | @heard e _ _ _ _ mode =>
    obtain ⟨id, _, _⟩ := e
    obtain rfl := mode
    exact (filter_unended _).symm
  | passed _ _ | refused _ _ _ _ | begun _ _ | finished _ _ => exact (filter_unended _).symm

theorem Advances.isActive_eq {c c' : Channel α β} {t : Turn α β} (h : Advances c t c') (id : Nat) :
    c'.isActive id = (c.isActive id && some id != t.ends?) := by
  cases h with
  | @taken e _ _ accept _ _ mode _ =>
    obtain ⟨i, _, _⟩ := e
    obtain rfl := mode
    exact isActive_detach ..
  | @heard e _ _ _ _ mode =>
    obtain ⟨i, _, _⟩ := e
    obtain rfl := mode
    exact (Bool.and_true _).symm
  | passed _ _ | refused _ _ _ _ | begun _ _ | finished _ _ => exact (Bool.and_true _).symm

/-- Where an operation ends a subscription, its entry is taken out; where it makes one, the new
entry comes last. -/
theorem entries_apply (c : Channel α β) (o : Operation α β) :
    (c.apply o).entries =
      c.entries.filter (some ·.id != o.ends? c) ++ (o.enters? c).toList := by
  cases o with
  | emit v => exact ((List.append_nil _).trans (filter_unended _)).symm
  | subscribe mode target => exact congrArg (· ++ [_]) (filter_unended _).symm
  | detach id => exact (List.append_nil _).symm
  | advance => exact c.advances.entries_eq.trans (List.append_nil _).symm

/-- The flag of a subscription that has been made falls when an operation ends it, and else stays as
it is. -/
theorem WellFormed.isActive_apply {c : Channel α β} (h : c.WellFormed) (o : Operation α β)
    {id : Nat} (known : id < c.nextId) :
    (c.apply o).isActive id = (c.isActive id && some id != o.ends? c) := by
  cases o with
  | emit v => exact (Bool.and_true _).symm
  | subscribe mode target =>
    refine (isActive_subscribe h mode target id).trans ?_
    rw [beq_eq_false_iff_ne.2 (Nat.ne_of_lt known), Bool.or_false]
    exact (Bool.and_true _).symm
  | detach i => exact isActive_detach ..
  | advance => exact c.advances.isActive_eq id

/-- What is active after an operation was so before, or has been made by it. -/
theorem WellFormed.isActive_of_apply {c : Channel α β} (h : c.WellFormed) {o : Operation α β}
    {id : Nat} (active : (c.apply o).isActive id = true) :
    c.isActive id = true ∨ ∃ mode target, o = .subscribe mode target ∧ id = c.nextId := by
  cases o with
  | emit v => exact .inl active
  | subscribe mode target =>
    rcases Bool.or_eq_true_iff.1 (isActive_subscribe h mode target id ▸ active) with active | new
    · exact .inl active
    · exact .inr ⟨mode, target, rfl, beq_iff_eq.1 new⟩
  | detach i => exact .inl (Bool.and_eq_true_iff.1 (isActive_detach c i id ▸ active)).1
  | advance => exact .inl (Bool.and_eq_true_iff.1 (c.advances.isActive_eq id ▸ active)).1

theorem id_of_enters? {c : Channel α β} {o : Operation α β} {e : Entry α β}
    (h : o.enters? c = some e) : e.id = c.nextId := by
  cases o with
  | subscribe mode target =>
    cases h
    rfl
  | emit _ | detach _ | advance => cases h

/-! ## A stretch of operations -/

/-- What has become of the subscriptions of `c₀`: the registry lists those that are still active, in
the order in which they stood there, before all that were made since. -/
structure Continues (c₀ c : Channel α β) : Prop where
  nextId_le : c₀.nextId ≤ c.nextId
  entries : ∃ new, c.entries = c₀.entries.filter (c.isActive ·.id) ++ new ∧
    ∀ e ∈ new, c₀.nextId ≤ e.id
  ended : ∀ id < c₀.nextId, c₀.isActive id = false → c.isActive id = false

theorem WellFormed.continues {c : Channel α β} (h : c.WellFormed) : Continues c c where
  nextId_le := Nat.le_refl _
  entries := by
    refine ⟨[], ?_, by simp⟩
    rw [List.append_nil]
    exact (List.filter_eq_self.2 fun e he => h.mem_entries_isActive he).symm
  ended := fun _ _ inactive => inactive

theorem Continues.next {c₀ c : Channel α β} (h : Continues c₀ c) (wellFormed₀ : c₀.WellFormed)
    (wellFormed : c.WellFormed) (o : Operation α β) : Continues c₀ (c.apply o) where
  nextId_le := Nat.le_trans h.nextId_le (c.nextId_le_apply o)
  entries := by
    obtain ⟨new, entries, later⟩ := h.entries
    refine ⟨new.filter (some ·.id != o.ends? c) ++ (o.enters? c).toList, ?_, ?_⟩
    · rw [entries_apply, entries, List.filter_append, List.filter_filter, List.append_assoc]
      refine congrArg (· ++ _) (List.filter_congr fun e he => ?_)
      have known : e.id < c₀.nextId := lt_of_isActive (wellFormed₀.mem_entries_isActive he)
      rw [wellFormed.isActive_apply o (Nat.lt_of_lt_of_le known h.nextId_le), Bool.and_comm]
    · intro e he
      rcases List.mem_append.1 he with he | he
      · exact later e (List.mem_filter.1 he).1
      · rw [id_of_enters? (Option.mem_toList.1 he)]
        exact h.nextId_le
  ended := fun id known inactive =>
    not_isActive_apply (Nat.lt_of_lt_of_le known h.nextId_le) (h.ended id known inactive) o

end Channel
end StandingQuery
