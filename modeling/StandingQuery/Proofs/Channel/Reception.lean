import StandingQuery.Proofs.Channel.Delivery
import StandingQuery.Proofs.Channel.Waiting
import StandingQuery.Proofs.Run

/-! What one subscriber is told over a stretch of time. Each operation gives him the first of what
he has to hear or puts one value more in line for him, so what he has been told and what he has
still to hear make up what waited for him at first and what was emitted since. That ends with his
subscription: from then on he is told nothing. -/

namespace StandingQuery.Channel

variable {α β : Type}

section
variable {ι : Type} [DecidableEq ι] {id : ι}

/-- Of the callbacks run, the values that one subscription or one target is given. -/
def toldTo (id : ι) (calls : List (ι × α)) : List α :=
  calls.filterMap fun (i, v) => if i = id then some v else none

theorem toldTo_append (id : ι) (calls calls' : List (ι × α)) :
    toldTo id (calls ++ calls') = toldTo id calls ++ toldTo id calls' :=
  List.filterMap_append

theorem toldTo_eq_nil {calls : List (ι × α)} (h : ∀ x ∈ calls, x.1 ≠ id) : toldTo id calls = [] :=
  List.filterMap_eq_nil_iff.2 fun x hx => if_neg (h x hx)

theorem filterMap_cons_toList {σ γ : Type} (f : σ → Option γ) (m : σ) (ms : List σ) :
    (m :: ms).filterMap f = (f m).toList ++ ms.filterMap f := by
  rw [List.filterMap_cons]
  cases f m <;> rfl

theorem toldTo_congr {σ : Type} {f g : σ → Option (ι × α)} {past : List σ}
    (h : ∀ m ∈ past, toldTo id (f m).toList = toldTo id (g m).toList) :
    toldTo id (past.filterMap f) = toldTo id (past.filterMap g) := by
  induction past with
  | nil => rfl
  | cons m ms ih =>
    obtain ⟨first, rest⟩ := List.forall_mem_cons.1 h
    rw [filterMap_cons_toList, filterMap_cons_toList, toldTo_append, toldTo_append, first, ih rest]

theorem toldTo_flatMap {κ σ γ : Type} [DecidableEq κ] {r : κ} {f : σ → List (κ × γ)}
    {g : σ → Option (ι × α)} {a : α → Option γ} {past : List σ}
    (h : ∀ m ∈ past, toldTo r (f m) = (toldTo id (g m).toList).filterMap a) :
    toldTo r (past.flatMap f) = (toldTo id (past.filterMap g)).filterMap a := by
  induction past with
  | nil => rfl
  | cons m ms ih =>
    obtain ⟨first, rest⟩ := List.forall_mem_cons.1 h
    rw [List.flatMap_cons, filterMap_cons_toList, toldTo_append, toldTo_append,
      List.filterMap_append, first, ih rest]

end

theorem toldTo_call? (id : Nat) (t : Turn α β) : toldTo id t.call?.toList = t.gives id := by
  cases t with
  | called e v | refused e v =>
    by_cases he : e.id = id <;> simp [toldTo, Turn.call?, Turn.gives, he]
  | finished | moved => rfl

/-! ## One operation -/

/-- Whoever is called is active. -/
theorem Advances.isActive_of_call? {c c' : Channel α β} {t : Turn α β} (h : Advances c t c')
    {id : Nat} {v : α} (call : t.call? = some (id, v)) : c.isActive id = true := by
  cases h with
  | heard _ active _ | taken _ active _ _ | refused _ active _ _ =>
    cases call
    exact active
  | passed _ _ | begun _ _ | finished _ _ => cases call

theorem Moment.isActive_of_called? {c : Channel α β} {o : Operation α β} {id : Nat} {v : α}
    (call : (Moment.mk c o).called? = some (id, v)) : c.isActive id = true := by
  cases o with
  | advance => exact c.advances.isActive_of_call? call
  | emit _ | subscribe _ _ | detach _ => cases call

/-- A subscription that has ended does not come back. -/
theorem not_isActive_apply {c : Channel α β} {id : Nat} (known : id < c.nextId)
    (ended : c.isActive id = false) (o : Operation α β) : (c.apply o).isActive id = false := by
  refine not_isActive_of_mem_ended (mem_ended_apply ?_ o)
  simpa [isActive, known] using ended

/-- An operation gives an active subscriber the first of what he has to hear, or adds to that. -/
theorem WellFormed.told_apply {c : Channel α β} (h : c.WellFormed) {id : Nat}
    (active : c.isActive id = true) (o : Operation α β) :
    toldTo id (Moment.mk c o).called?.toList ++ (c.apply o).waiting id =
      c.waiting id ++ (Moment.mk c o).emitted?.toList := by
  cases o with
  | emit v => exact c.waiting_emit v id
  | subscribe mode target => exact (List.append_nil _).symm
  | detach i => exact (List.append_nil _).symm
  | advance =>
    show toldTo id c.advance.1.call?.toList ++ c.advance.2.waiting id = c.waiting id ++ []
    rw [toldTo_call?, List.append_nil]
    exact (h.waiting_advance c.advances active).symm

/-! ## A stretch of operations -/

/-- What a subscriber has been told since the channel was `c₀`, when `emitted` has been emitted
since. -/
structure Served (c₀ c : Channel α β) (id : Nat) (told emitted : List α) : Prop where
  inOrder : told <+: c₀.waiting id ++ emitted
  /-- Nothing is left out as long as he stays. -/
  exact : c.isActive id = true → told ++ c.waiting id = c₀.waiting id ++ emitted

theorem Served.nothing (c : Channel α β) (id : Nat) : Served c c id [] [] where
  inOrder := List.nil_prefix
  exact := fun _ => (List.append_nil _).symm

theorem Served.next {c₀ c : Channel α β} {id : Nat} {told emitted : List α}
    (served : Served c₀ c id told emitted) (h : c.WellFormed) (known : id < c.nextId)
    (o : Operation α β) :
    Served c₀ (c.apply o) id (told ++ toldTo id (Moment.mk c o).called?.toList)
      (emitted ++ (Moment.mk c o).emitted?.toList) := by
  cases active : c.isActive id with
  | true =>
    have all : told ++ toldTo id (Moment.mk c o).called?.toList ++ (c.apply o).waiting id =
        c₀.waiting id ++ (emitted ++ (Moment.mk c o).emitted?.toList) := by
      rw [List.append_assoc, h.told_apply active, ← List.append_assoc, served.exact active,
        List.append_assoc]
    exact ⟨all ▸ List.prefix_append _ _, fun _ => all⟩
  | false =>
    have silent : toldTo id (Moment.mk c o).called?.toList = [] := by
      refine toldTo_eq_nil fun x hx hid => ?_
      have called := Moment.isActive_of_called? (Option.mem_toList.1 hx)
      rw [hid, active] at called
      cases called
    rw [silent, List.append_nil]
    constructor
    · rw [← List.append_assoc]
      exact served.inOrder.trans (List.prefix_append _ _)
    · intro stays
      rw [not_isActive_apply known active o] at stays
      cases stays

/-- When nothing is under delivery, a subscriber who has stayed has been told everything. -/
theorem Served.complete {c₀ c : Channel α β} {id : Nat} {told emitted : List α}
    (served : Served c₀ c id told emitted) (h : c.WellFormed) (active : c.isActive id = true)
    (idle : c.delivering = false) : told = c₀.waiting id ++ emitted := by
  have all := served.exact active
  rwa [h.waiting_idle idle, List.append_nil] at all

/-! ## A channel as part of a machine -/

/-- What becomes of a channel in one step of what runs it, with the callback that is run and the
value that is emitted: nothing happens to it, or one operation. -/
inductive Operated (c : Channel α β) : Channel α β → Option (Nat × α) → Option α → Prop where
  | still : Operated c c none none
  | one (o : Operation α β) (valid : o.Valid c) :
      Operated c (c.apply o) (Moment.mk c o).called? (Moment.mk c o).emitted?

/-- A turn runs one callback at most, and emits nothing. -/
theorem Advances.operated {c c' : Channel α β} {t : Turn α β} (h : Advances c t c') :
    Operated c c' c.advance.1.call? none := by
  have applied : c.apply .advance = c' := congrArg Prod.snd h.eq
  exact applied ▸ .one .advance trivial

theorem Operated.nextId_le {c c' : Channel α β} {call : Option (Nat × α)} {emit : Option α}
    (h : Operated c c' call emit) : c.nextId ≤ c'.nextId := by
  cases h with
  | still => exact Nat.le_refl _
  | one o _ => exact c.nextId_le_apply o

/-- Whoever is called has been subscribed. -/
theorem Operated.call_known {c c' : Channel α β} {id : Nat} {v : α} {emit : Option α}
    (h : Operated c c' (some (id, v)) emit) : id < c.nextId := by
  generalize hcall : some (id, v) = call at h
  cases h with
  | still => cases hcall
  | one o _ => exact lt_of_isActive (Moment.isActive_of_called? hcall.symm)

/-- What is emitted is what is put in line, and nothing else is. -/
theorem Operated.line {c c' : Channel α β} {call : Option (Nat × α)} {emit : Option α}
    (h : Operated c c' call emit) :
    emit = if c.pending.length < c'.pending.length then c'.pending.getLast? else none := by
  cases h with
  | still => rw [if_neg (Nat.lt_irrefl _)]
  | one o _ =>
    cases o with
    | emit v => simp [apply, Channel.emit, Moment.emitted?]
    | subscribe mode target => exact (if_neg (Nat.lt_irrefl _)).symm
    | detach id => exact (if_neg (Nat.lt_irrefl _)).symm
    | advance =>
      have ha := c.advances
      rw [apply]
      generalize c.advance.1 = t at ha
      generalize c.advance.2 = c' at ha
      refine (if_neg (Nat.not_lt.2 ?_)).symm
      cases ha with
      | passed _ _ | heard _ _ _ | taken _ _ _ _ | refused _ _ _ _ | finished _ _ =>
        exact Nat.le_refl _
      | begun _ pending =>
        rw [pending]
        exact Nat.le_succ _

theorem Served.operated {c₀ c c' : Channel α β} {id : Nat} {told emitted : List α}
    {call : Option (Nat × α)} {emit : Option α} (served : Served c₀ c id told emitted)
    (h : c.WellFormed) (known : id < c.nextId) (operated : Operated c c' call emit) :
    Served c₀ c' id (told ++ toldTo id call.toList) (emitted ++ emit.toList) := by
  cases operated with
  | still => simpa [toldTo] using served
  | one o _ => exact served.next h known o

section
variable {σ ι : Type} {M : Machine σ ι} (channel : σ → Channel α β) {call : σ → Option (Nat × α)}
  {emit : σ → Option α} {s₀ s : σ} {past : List σ}

/-- In a machine that does no more than one operation in a step, and none when it takes an input,
everybody is served for as long as he is subscribed. -/
theorem served_of_operated (inputs : ∀ s i, channel (M.take s i) = channel s)
    (run : M.Run s₀ past s)
    (steps : ∀ m ∈ past, (channel m).WellFormed ∧
      ∀ m', M.step m = some m' → Operated (channel m) (channel m') (call m) (emit m))
    {id : Nat} (known : id < (channel s₀).nextId) :
    id < (channel s).nextId ∧
      Served (channel s₀) (channel s) id (toldTo id (past.filterMap call))
        (past.filterMap emit) := by
  induction run with
  | start => exact ⟨known, .nothing _ _⟩
  | input i _ _ ih =>
    rw [inputs]
    exact ih steps
  | @step past s s' _ taken ih =>
    obtain ⟨there, served⟩ := ih fun m hm => steps m (List.mem_append_left _ hm)
    obtain ⟨wellFormed, operated⟩ := steps s (by simp)
    have next := served.operated wellFormed there (operated s' taken)
    refine ⟨Nat.lt_of_lt_of_le there (operated s' taken).nextId_le, ?_⟩
    rw [List.filterMap_append, List.filterMap_append, toldTo_append]
    cases hc : call s <;> cases he : emit s <;> simpa [hc, he] using next

/-- Whoever is still to be subscribed has been told nothing, not even on being subscribed. -/
theorem toldTo_of_unknown {hears : σ → Option (Nat × α)}
    (inputs : ∀ s i, channel (M.take s i) = channel s) (run : M.Run s₀ past s)
    (steps : ∀ m ∈ past, ∀ m', M.step m = some m' → (channel m).nextId ≤ (channel m').nextId ∧
      ∀ x ∈ hears m, x.1 < (channel m').nextId)
    {id : Nat} (unknown : (channel s).nextId ≤ id) : toldTo id (past.filterMap hears) = [] := by
  induction run with
  | start => rfl
  | input i _ _ ih =>
    rw [inputs] at unknown
    exact ih steps unknown
  | @step past s s' _ taken ih =>
    obtain ⟨grows, heard⟩ := steps s (by simp) s' taken
    refine toldTo_eq_nil fun x hx hid => ?_
    rw [List.filterMap_append, List.mem_append] at hx
    rcases hx with hx | hx
    · have before := ih (fun m hm => steps m (List.mem_append_left _ hm))
        (Nat.le_trans grows unknown)
      have told : x.2 ∈ toldTo id (past.filterMap hears) :=
        List.mem_filterMap.2 ⟨x, hx, if_pos hid⟩
      rw [before] at told
      cases told
    · obtain ⟨m, hm, hx⟩ := List.mem_filterMap.1 hx
      rw [List.mem_singleton.1 hm] at hx
      have := heard x hx
      omega

/-- Whoever is subscribed stays known. -/
theorem nextId_le_of_run (inputs : ∀ s i, channel (M.take s i) = channel s) (run : M.Run s₀ past s)
    (steps : ∀ m ∈ past, ∀ m', M.step m = some m' → (channel m).nextId ≤ (channel m').nextId) :
    ∀ m ∈ past ++ [s], (channel s₀).nextId ≤ (channel m).nextId := by
  induction run with
  | start => simp
  | input i _ _ ih =>
    intro m hm
    rcases List.mem_append.1 hm with hm | hm
    · exact ih steps m (List.mem_append_left _ hm)
    · rw [List.mem_singleton.1 hm, inputs]
      exact ih steps _ (by simp)
  | @step past s s' _ taken ih =>
    have earlier := ih fun m hm => steps m (List.mem_append_left _ hm)
    intro m hm
    rcases List.mem_append.1 hm with hm | hm
    · exact earlier m hm
    · rw [List.mem_singleton.1 hm]
      exact Nat.le_trans (earlier s (by simp)) (steps s (by simp) s' taken)

end

/-! ## The deliveries that a subscription has its part in -/

theorem Journal.audience_known {past : List (Moment α β)} {c : Channel α β} (h : Journal past c) :
    ∀ d ∈ deliveries past, ∀ id ∈ d.2, id < c.nextId := by
  induction h with
  | empty => simp [deliveries]
  | @next past c o _ _ ih =>
    intro d hd id hid
    refine Nat.lt_of_lt_of_le ?_ (c.nextId_le_apply o)
    rw [deliveries_append, List.mem_append, Option.mem_toList] at hd
    rcases hd with hd | hd
    · exact ih d hd id hid
    · unfold Moment.begun? at hd
      split at hd
      · cases hd
        exact lt_of_isActive (mem_active.1 hid)
      · cases hd

/-- A subscription is called for no delivery that had begun when it was made. -/
theorem Journal.le_of_called {before after : List (Moment α β)} {m : Moment α β} {c : Channel α β}
    (h : Journal (before ++ m :: after) c) (first : Journal before m.channel) {k : Nat} {v : α}
    (called : (k, m.channel.nextId, v) ∈ calls (before ++ m :: after)) :
    (deliveries before).length ≤ k := by
  obtain ⟨⟨d, hd, hid⟩, _⟩ := (h.law.called_iff k m.channel.nextId).1 ⟨v, called⟩
  by_contra early
  have early : k < (deliveries before).length := Nat.not_le.1 early
  have earlier : deliveries (before ++ m :: after) = deliveries before ++ deliveries (m :: after) :=
    List.filterMap_append
  rw [earlier, List.getElem?_append_left early] at hd
  exact Nat.lt_irrefl _ (first.audience_known d (List.mem_of_getElem? hd) _ hid)

end StandingQuery.Channel
