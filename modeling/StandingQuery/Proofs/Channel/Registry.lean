import Mathlib.Data.List.Nodup
import StandingQuery.Channel.Basic

/-! What is always true of a channel, whatever is done with it in whatever order. The registry lists
exactly the active subscriptions, in the order in which they were made; the turns that are left of a
delivery go to different subscriptions, in the same order, and an entry among them that is still
active still stands in the registry. Where nothing is under delivery, nothing waits. -/

namespace StandingQuery.Channel

variable {α β : Type}

/-- Everything that can be done with a channel. -/
inductive Operation (α β : Type) where
  | emit (v : α)
  | subscribe (mode : Mode α) (target : β)
  | detach (id : Nat)
  | advance

/-- Only a subscription that was made can be ended. -/
def Operation.Valid (c : Channel α β) : Operation α β → Prop
  | .detach id => id < c.nextId
  | .emit _ | .subscribe _ _ | .advance => True

def apply (c : Channel α β) : Operation α β → Channel α β
  | .emit v => c.emit v
  | .subscribe mode target => c.subscribe mode target
  | .detach id => c.detach id
  | .advance => c.advance.2

/-- The subscriptions that have been made and have not ended. -/
def active (c : Channel α β) : List Nat := (List.range c.nextId).filter c.isActive

structure WellFormed (c : Channel α β) : Prop where
  registry : c.entries.map (·.id) = c.active
  ended_known : ∀ id ∈ c.ended, id < c.nextId
  turns_ascending : (c.turns.map (·.1.id)).Pairwise (· < ·)
  turns_known : ∀ t ∈ c.turns, t.1.id < c.nextId
  turns_registered : ∀ t ∈ c.turns, c.isActive t.1.id = true → t.1 ∈ c.entries
  idle : c.delivering = false → c.turns = [] ∧ c.pending = []

/-! ## Active subscriptions -/

theorem lt_of_isActive {c : Channel α β} {id : Nat} (h : c.isActive id = true) : id < c.nextId := by
  simp only [isActive, Bool.and_eq_true, decide_eq_true_eq] at h
  exact h.1

theorem mem_active {c : Channel α β} {id : Nat} : id ∈ c.active ↔ c.isActive id = true := by
  simp only [active, List.mem_filter, List.mem_range, and_iff_right_iff_imp]
  exact lt_of_isActive

theorem active_ascending (c : Channel α β) : c.active.Pairwise (· < ·) :=
  List.pairwise_lt_range.filter _

@[simp] theorem isActive_emit (c : Channel α β) (v : α) (id : Nat) :
    (c.emit v).isActive id = c.isActive id := rfl

theorem isActive_subscribe {c : Channel α β} (h : c.WellFormed) (mode : Mode α) (target : β)
    (id : Nat) : (c.subscribe mode target).isActive id = (c.isActive id || id == c.nextId) := by
  have hn : c.nextId ∉ c.ended := fun hm => Nat.lt_irrefl _ (h.ended_known _ hm)
  rcases Nat.lt_trichotomy id c.nextId with hlt | rfl | hgt
  · simp [isActive, subscribe, hlt, Nat.lt_succ_of_lt hlt, Nat.ne_of_lt hlt]
  · simp [isActive, subscribe, hn]
  · have h1 : ¬ id < c.nextId := by omega
    have h2 : ¬ id < c.nextId + 1 := by omega
    simp [isActive, subscribe, h1, h2, Nat.ne_of_gt hgt]

@[simp] theorem isActive_detach (c : Channel α β) (i id : Nat) :
    (c.detach i).isActive id = (c.isActive id && id != i) := by
  change (decide (id < c.nextId) && !(i :: c.ended).contains id) = _
  rw [List.contains_cons, Bool.not_or, isActive, bne, Bool.and_assoc, Bool.and_comm (!(id == i))]

theorem WellFormed.mem_entries_isActive {c : Channel α β} (h : c.WellFormed) {e : Entry α β}
    (he : e ∈ c.entries) : c.isActive e.id = true := by
  rw [← mem_active, ← h.registry]
  exact List.mem_map_of_mem he

theorem WellFormed.exists_entry {c : Channel α β} (h : c.WellFormed) {id : Nat}
    (ha : c.isActive id = true) : ∃ e ∈ c.entries, e.id = id := by
  rw [← mem_active, ← h.registry, List.mem_map] at ha
  exact ha

/-- No two entries have the same id. -/
theorem WellFormed.entry_unique {c : Channel α β} (h : c.WellFormed) {d e : Entry α β}
    (hd : d ∈ c.entries) (he : e ∈ c.entries) (hid : d.id = e.id) : d = e := by
  have hn : (c.entries.map (·.id)).Nodup := by
    rw [h.registry]
    exact c.active_ascending.imp Nat.ne_of_lt
  exact List.inj_on_of_nodup_map hn hd he hid

theorem WellFormed.count_eq {c : Channel α β} (h : c.WellFormed) :
    c.count = c.active.length := by
  rw [← h.registry, List.length_map]
  rfl

/-! ## One turn -/

/-- All that a turn can come to. -/
inductive Advances (c : Channel α β) : Turn α β → Channel α β → Prop where
  /-- The subscription has ended since the delivery began. -/
  | passed {e : Entry α β} {v : α} {rest : List (Entry α β × α)} (turns : c.turns = (e, v) :: rest)
      (ended : c.isActive e.id = false) : Advances c .moved { c with turns := rest }
  | heard {e : Entry α β} {v : α} {rest : List (Entry α β × α)} (turns : c.turns = (e, v) :: rest)
      (active : c.isActive e.id = true) (mode : e.mode = .every) :
      Advances c (.called e v) { c with turns := rest }
  | taken {e : Entry α β} {v : α} {rest : List (Entry α β × α)} {accept : α → Bool}
      (turns : c.turns = (e, v) :: rest) (active : c.isActive e.id = true)
      (mode : e.mode = .first accept) (accepted : accept v = true) :
      Advances c (.called e v) ({ c with turns := rest }.detach e.id)
  | refused {e : Entry α β} {v : α} {rest : List (Entry α β × α)} {accept : α → Bool}
      (turns : c.turns = (e, v) :: rest) (active : c.isActive e.id = true)
      (mode : e.mode = .first accept) (rejected : accept v = false) :
      Advances c (.refused e v) { c with turns := rest }
  | begun {v : α} {vs : List α} (turns : c.turns = []) (pending : c.pending = v :: vs) :
      Advances c .moved { c with pending := vs, turns := c.entries.map (·, v) }
  | finished (turns : c.turns = []) (pending : c.pending = []) :
      Advances c .finished { c with delivering := false }

theorem advance_cons {c : Channel α β} {e : Entry α β} {v : α} {rest : List (Entry α β × α)}
    (h : c.turns = (e, v) :: rest) : c.advance =
      if c.isActive e.id = true then
        match e.mode with
        | .every => (.called e v, { c with turns := rest })
        | .first accept =>
          if accept v = true then (.called e v, { c with turns := rest }.detach e.id)
          else (.refused e v, { c with turns := rest })
      else (.moved, { c with turns := rest }) := by
  simp only [advance, h]
  rfl

theorem advances (c : Channel α β) : Advances c c.advance.1 c.advance.2 := by
  cases hturns : c.turns with
  | nil =>
    cases hpending : c.pending with
    | nil => simpa [advance, hturns, hpending] using Advances.finished hturns hpending
    | cons v vs => simpa [advance, hturns, hpending] using Advances.begun hturns hpending
  | cons t rest =>
    obtain ⟨e, v⟩ := t
    rw [advance_cons hturns]
    cases hactive : c.isActive e.id with
    | false => exact .passed hturns hactive
    | true =>
      cases hmode : e.mode with
      | every => exact .heard hturns hactive hmode
      | first accept =>
        cases haccept : accept v with
        | true => simpa [haccept] using Advances.taken hturns hactive hmode haccept
        | false => simpa [haccept] using Advances.refused hturns hactive hmode haccept

/-- A turn can come to one thing only. -/
theorem Advances.eq {c c' : Channel α β} {t : Turn α β} (h : Advances c t c') :
    c.advance = (t, c') := by
  cases h with
  | passed turns ended => simp [advance_cons turns, ended]
  | heard turns active mode => simp [advance_cons turns, active, mode]
  | taken turns active mode accepted => simp [advance_cons turns, active, mode, accepted]
  | refused turns active mode rejected => simp [advance_cons turns, active, mode, rejected]
  | begun turns pending => simp [advance, turns, pending]
  | finished turns pending => simp [advance, turns, pending]

theorem Advances.mem_turns {c c' : Channel α β} {e : Entry α β} {v : α}
    (h : Advances c (.called e v) c') : (e, v) ∈ c.turns := by
  cases h with
  | heard turns _ _ | taken turns _ _ _ =>
    rw [turns]
    exact List.mem_cons_self

theorem Advances.nextId_eq {c c' : Channel α β} {t : Turn α β} (h : Advances c t c') :
    c'.nextId = c.nextId := by
  cases h <;> rfl

/-- A delivery lasts until no value is left. -/
theorem Advances.delivering_eq {c c' : Channel α β} {t : Turn α β} (h : Advances c t c')
    (goesOn : t ≠ .finished) : c'.delivering = c.delivering := by
  cases h with
  | passed _ _ | heard _ _ _ | taken _ _ _ _ | refused _ _ _ _ | begun _ _ => rfl
  | finished _ _ => exact absurd rfl goesOn

theorem Advances.not_delivering {c c' : Channel α β} (h : Advances c .finished c') :
    c'.delivering = false := by
  cases h
  rfl

theorem nextId_le_apply (c : Channel α β) (o : Operation α β) :
    c.nextId ≤ (c.apply o).nextId := by
  cases o with
  | emit v => exact Nat.le_refl _
  | subscribe mode target => exact Nat.le_succ _
  | detach id => exact Nat.le_refl _
  | advance =>
    have ha := c.advances
    rw [apply]
    generalize c.advance.1 = t at ha
    generalize c.advance.2 = c' at ha
    cases ha <;> exact Nat.le_refl _

/-! ## Well-formedness is kept -/

theorem wellFormed_empty : (empty : Channel α β).WellFormed where
  registry := rfl
  ended_known := by simp [empty]
  turns_ascending := by simp [empty]
  turns_known := by simp [empty]
  turns_registered := by simp [empty]
  idle := fun _ => ⟨rfl, rfl⟩

theorem WellFormed.emit {c : Channel α β} (h : c.WellFormed) (v : α) : (c.emit v).WellFormed where
  registry := h.registry
  ended_known := h.ended_known
  turns_ascending := h.turns_ascending
  turns_known := h.turns_known
  turns_registered := h.turns_registered
  idle := by simp [Channel.emit]

theorem active_subscribe {c : Channel α β} (h : c.WellFormed) (mode : Mode α) (target : β) :
    (c.subscribe mode target).active = c.active ++ [c.nextId] := by
  have hlast : (c.subscribe mode target).isActive c.nextId = true := by
    simp [isActive_subscribe h]
  have hrest : (List.range c.nextId).filter (c.subscribe mode target).isActive = c.active := by
    refine List.filter_congr fun id hid => ?_
    simp [isActive_subscribe h, Nat.ne_of_lt (List.mem_range.1 hid)]
  rw [active, show (c.subscribe mode target).nextId = c.nextId + 1 from rfl, List.range_succ,
    List.filter_append, hrest, List.filter_cons_of_pos hlast, List.filter_nil]

theorem WellFormed.subscribe {c : Channel α β} (h : c.WellFormed) (mode : Mode α) (target : β) :
    (c.subscribe mode target).WellFormed where
  registry := by
    rw [active_subscribe h, ← h.registry]
    simp [Channel.subscribe]
  ended_known := fun id hid => Nat.lt_succ_of_lt (h.ended_known id hid)
  turns_ascending := h.turns_ascending
  turns_known := fun t ht => Nat.lt_succ_of_lt (h.turns_known t ht)
  turns_registered := fun t ht ha => by
    have hne : t.1.id ≠ c.nextId := Nat.ne_of_lt (h.turns_known t ht)
    rw [isActive_subscribe h] at ha
    exact List.mem_append_left _ (h.turns_registered t ht (by simpa [hne] using ha))
  idle := h.idle

theorem active_detach (c : Channel α β) (i : Nat) :
    (c.detach i).active = c.active.filter (· != i) := by
  simp only [active, List.filter_filter]
  exact List.filter_congr fun id _ => by rw [isActive_detach, Bool.and_comm]

theorem WellFormed.detach {c : Channel α β} (h : c.WellFormed) {i : Nat} (hi : i < c.nextId) :
    (c.detach i).WellFormed where
  registry := by
    rw [active_detach, ← h.registry, List.filter_map]
    rfl
  ended_known := fun id hid => by
    rcases List.mem_cons.1 hid with rfl | hid
    · exact hi
    · exact h.ended_known id hid
  turns_ascending := h.turns_ascending
  turns_known := h.turns_known
  turns_registered := fun t ht ha => by
    simp only [isActive_detach, Bool.and_eq_true] at ha
    exact List.mem_filter.2 ⟨h.turns_registered t ht ha.1, ha.2⟩
  idle := h.idle

/-- One subscriber less, if he was still there. -/
theorem WellFormed.count_detach {c : Channel α β} (h : c.WellFormed) {id : Nat}
    (active : c.isActive id = true) : (c.detach id).count + 1 = c.count := by
  have nodup : c.active.Nodup := c.active_ascending.imp Nat.ne_of_lt
  have there : id ∈ c.active := mem_active.2 active
  rw [(h.detach (lt_of_isActive active)).count_eq, h.count_eq, active_detach,
    ← nodup.erase_eq_filter, List.length_erase_of_mem there]
  exact Nat.sub_add_cancel (List.length_pos_of_mem there)

/-- A delivery goes on with some of the turns that were left, or ends. -/
theorem WellFormed.withTurns {c : Channel α β} (h : c.WellFormed) {rest : List (Entry α β × α)}
    (hsub : rest.Sublist c.turns) : ({ c with turns := rest } : Channel α β).WellFormed where
  registry := h.registry
  ended_known := h.ended_known
  turns_ascending := h.turns_ascending.sublist (hsub.map _)
  turns_known := fun t ht => h.turns_known t (hsub.subset ht)
  turns_registered := fun t ht => h.turns_registered t (hsub.subset ht)
  idle := fun hd => by
    obtain ⟨hturns, hpending⟩ := h.idle hd
    rw [hturns, List.sublist_nil] at hsub
    exact ⟨hsub, hpending⟩

theorem WellFormed.advance {c c' : Channel α β} {t : Turn α β} (h : c.WellFormed)
    (ha : Advances c t c') : c'.WellFormed := by
  cases ha with
  | passed turns _ | heard turns _ _ | refused turns _ _ _ =>
    exact h.withTurns (turns ▸ List.sublist_cons_self _ _)
  | taken turns active _ _ =>
    have := h.withTurns (turns ▸ List.sublist_cons_self _ _)
    exact this.detach (lt_of_isActive active)
  | @begun v vs turns pending =>
    exact {
      registry := h.registry
      ended_known := h.ended_known
      turns_ascending := by
        have : (c.entries.map (·, v)).map (·.1.id) = c.entries.map (·.id) := by simp
        rw [this, h.registry]
        exact c.active_ascending
      turns_known := fun t ht => by
        obtain ⟨e, he, rfl⟩ := List.mem_map.1 ht
        exact lt_of_isActive (h.mem_entries_isActive he)
      turns_registered := fun t ht _ => by
        obtain ⟨e, he, rfl⟩ := List.mem_map.1 ht
        exact he
      idle := fun hd => by simp [(h.idle hd).2] at pending }
  | finished turns pending =>
    exact { h with idle := fun _ => ⟨turns, pending⟩ }

theorem WellFormed.apply {c : Channel α β} (h : c.WellFormed) {o : Operation α β}
    (valid : o.Valid c) : (c.apply o).WellFormed := by
  cases o with
  | emit v => exact h.emit v
  | subscribe mode target => exact h.subscribe mode target
  | detach id => exact h.detach valid
  | advance => exact h.advance c.advances

/-! ## A target that leaves -/

/-- The entries of a target are gone, and their subscriptions have ended. All else is as it was, a
delivery that is under way and the values that wait among it. -/
structure Drops [DecidableEq β] (b : β) (c c' : Channel α β) : Prop where
  entries : c'.entries = c.entries.filter (·.target != b)
  count : c'.count + c.entries.countP (·.target == b) = c.count
  others : ∀ e ∈ c.entries, e.target ≠ b → c'.isActive e.id = true
  turns : c'.turns = c.turns
  pending : c'.pending = c.pending
  delivering : c'.delivering = c.delivering

section
variable [DecidableEq β] {b : β} {c : Channel α β}

theorem length_filter_ne_add (es : List (Entry α β)) (b : β) :
    (es.filter (·.target != b)).length + es.countP (·.target == b) = es.length := by
  have both := es.length_eq_countP_add_countP (·.target == b)
  rw [both, ← List.countP_eq_length_filter, Nat.add_comm]
  congr 1
  exact List.countP_congr fun e _ => by simp

theorem WellFormed.drops_detach (h : c.WellFormed) {id : Nat}
    (own : ∀ e ∈ c.entries, e.target = b ↔ e.id = id) : Drops b c (c.detach id) := by
  have same : (c.detach id).entries = c.entries.filter (·.target != b) := by
    refine List.filter_congr fun e he => ?_
    rw [Bool.eq_iff_iff, bne_iff_ne, bne_iff_ne, not_iff_not, own e he]
  refine ⟨same, ?_, fun e he hb => ?_, rfl, rfl, rfl⟩
  · rw [count, same]
    exact length_filter_ne_add c.entries b
  · have other : e.id ≠ id := fun hid => hb ((own e he).2 hid)
    simp [h.mem_entries_isActive he, other]

theorem WellFormed.drops_nothing (h : c.WellFormed) (absent : ∀ e ∈ c.entries, e.target ≠ b) :
    Drops b c c := by
  have same : c.entries = c.entries.filter (·.target != b) :=
    (List.filter_eq_self.2 fun e he => bne_iff_ne.2 (absent e he)).symm
  refine ⟨same, ?_, fun e he _ => h.mem_entries_isActive he, rfl, rfl, rfl⟩
  have none : c.entries.countP (·.target == b) = 0 :=
    List.countP_eq_zero.2 fun e he => by simpa using absent e he
  rw [none, Nat.add_zero]

end

end StandingQuery.Channel
