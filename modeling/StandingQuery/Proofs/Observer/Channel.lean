import StandingQuery.Channel.Cell
import StandingQuery.Proofs.Channel.Registry
import StandingQuery.Proofs.Observer.Woven

/-! A channel with subscribers that another one lacks. The two have the same values in line, and the
subscribers that both have stand in the same order in both registries and have the same turns left.
A turn of the other subscribers is no turn there; all else that is done comes to the same in
both. -/

namespace StandingQuery

variable {α β γ : Type}

namespace Channel

/-! ## Channels alike -/

structure EntryAlike (ids : Pairing) (R : β → γ → Prop) (e : Entry α β) (f : Entry α γ) : Prop where
  id : ids.same e.id f.id
  mode : e.mode = f.mode
  target : R e.target f.target

structure EntryAlone (ids : Pairing) (X : β → Prop) (e : Entry α β) : Prop where
  id : ids.Alone e.id
  target : X e.target

/-- The first channel is the second one with more subscribers. -/
structure Alike (ids : Pairing) (R : β → γ → Prop) (X : β → Prop) (c : Channel α β)
    (d : Channel α γ) : Prop where
  here : ids.here = c.nextId
  there : ids.there = d.nextId
  ended : ∀ i j, ids.same i j → (i ∈ c.ended ↔ j ∈ d.ended)
  ended_here : ∀ i ∈ c.ended, i < c.nextId
  ended_there : ∀ j ∈ d.ended, j < d.nextId
  entries : Woven (EntryAlike ids R) (EntryAlone ids X) c.entries d.entries
  turns : Woven (fun t u => EntryAlike ids R t.1 u.1 ∧ t.2 = u.2) (fun t => EntryAlone ids X t.1)
    c.turns d.turns
  pending : c.pending = d.pending
  delivering : c.delivering = d.delivering

/-- What a turn comes to in both channels. -/
inductive TurnAlike (ids : Pairing) (R : β → γ → Prop) : Turn α β → Turn α γ → Prop where
  | finished : TurnAlike ids R .finished .finished
  | moved : TurnAlike ids R .moved .moved
  | refused {e : Entry α β} {f : Entry α γ} (v : α) (h : EntryAlike ids R e f) :
      TurnAlike ids R (.refused e v) (.refused f v)
  | called {e : Entry α β} {f : Entry α γ} (v : α) (h : EntryAlike ids R e f) :
      TurnAlike ids R (.called e v) (.called f v)

/-- What a turn comes to that only the first channel has. -/
inductive TurnAlone (X : β → Prop) : Turn α β → Prop where
  | moved : TurnAlone X .moved
  | refused {e : Entry α β} (v : α) (h : X e.target) : TurnAlone X (.refused e v)
  | called {e : Entry α β} (v : α) (h : X e.target) : TurnAlone X (.called e v)

theorem alike_empty (R : β → γ → Prop) (X : β → Prop) :
    Alike .empty R X (empty : Channel α β) (empty : Channel α γ) where
  here := rfl
  there := rfl
  ended := fun _ _ h => h.elim
  ended_here := fun _ h => absurd h List.not_mem_nil
  ended_there := fun _ h => absurd h List.not_mem_nil
  entries := .nil
  turns := .nil
  pending := rfl
  delivering := rfl

theorem EntryAlike.mono {ids ids' : Pairing} {R R' : β → γ → Prop} (grows : ids.Grows ids')
    (hR : ∀ b c, R b c → R' b c) {e : Entry α β} {f : Entry α γ} (h : EntryAlike ids R e f) :
    EntryAlike ids' R' e f :=
  ⟨grows.same _ _ h.id, h.mode, hR _ _ h.target⟩

theorem EntryAlone.mono {ids ids' : Pairing} {X X' : β → Prop} (grows : ids.Grows ids')
    (hX : ∀ b, X b → X' b) {e : Entry α β} (h : EntryAlone ids X e) : EntryAlone ids' X' e :=
  ⟨grows.alone _ h.id, hX _ h.target⟩

namespace Alike

variable {ids : Pairing} {R : β → γ → Prop} {X : β → Prop} {c : Channel α β} {d : Channel α γ}

/-- More may be known of whom the entries lead to. -/
theorem mono {R' : β → γ → Prop} {X' : β → Prop} (h : Alike ids R X c d)
    (hR : ∀ a b, R a b → R' a b) (hX : ∀ a, X a → X' a) : Alike ids R' X' c d :=
  { h with
    entries := h.entries.mono (fun _ _ => .mono (.refl _) hR) fun _ => .mono (.refl _) hX
    turns := h.turns.mono (fun _ _ ht => ⟨ht.1.mono (.refl _) hR, ht.2⟩)
      fun _ => .mono (.refl _) hX }

theorem isActive (h : Alike ids R X c d) {i j : Nat} (hs : ids.same i j) :
    c.isActive i = d.isActive j := by
  have here : i < c.nextId := h.here ▸ ids.here_lt i j hs
  have there : j < d.nextId := h.there ▸ ids.there_lt i j hs
  have ended := h.ended i j hs
  rw [Channel.isActive, Channel.isActive, decide_eq_true here, decide_eq_true there]
  by_cases hi : i ∈ c.ended
  · simp [hi, ended.1 hi]
  · simp [hi, mt ended.2 hi]

/-! ### What is done to both -/

theorem emit (h : Alike ids R X c d) (v : α) : Alike ids R X (c.emit v) (d.emit v) :=
  { h with pending := congrArg (· ++ [v]) h.pending, delivering := rfl }

theorem subscribe (h : Alike ids R X c d) (mode : Mode α) {b : β} {b' : γ} (hR : R b b') :
    Alike ids.both R X (c.subscribe mode b) (d.subscribe mode b') where
  here := congrArg (· + 1) h.here
  there := congrArg (· + 1) h.there
  ended := by
    rintro i j (hs | ⟨rfl, rfl⟩)
    · exact h.ended i j hs
    · have here : ids.here ∉ c.ended := fun hi => Nat.lt_irrefl _ (h.here ▸ h.ended_here _ hi)
      have there : ids.there ∉ d.ended := fun hj => Nat.lt_irrefl _ (h.there ▸ h.ended_there _ hj)
      exact ⟨fun hi => absurd hi here, fun hj => absurd hj there⟩
  ended_here := fun i hi => Nat.lt_succ_of_lt (h.ended_here i hi)
  ended_there := fun j hj => Nat.lt_succ_of_lt (h.ended_there j hj)
  entries := by
    refine (h.entries.mono (fun _ _ => .mono ids.grows_both fun _ _ => id) fun _ =>
      .mono ids.grows_both fun _ => id).append (.single ⟨?_, rfl, hR⟩)
    rw [← h.here, ← h.there]
    exact ids.same_both
  turns := h.turns.mono (fun _ _ ht => ⟨ht.1.mono ids.grows_both fun _ _ => id, ht.2⟩) fun _ =>
    .mono ids.grows_both fun _ => id
  pending := h.pending
  delivering := h.delivering

theorem detach (h : Alike ids R X c d) {i j : Nat} (hs : ids.same i j) :
    Alike ids R X (c.detach i) (d.detach j) :=
  { h with
    ended := by
      intro i' j' hs'
      have new : i' = i ↔ j' = j := by
        constructor
        · rintro rfl
          exact ids.functional _ _ _ hs' hs
        · rintro rfl
          exact ids.injective _ _ _ hs' hs
      simp only [Channel.detach, List.mem_cons, new, h.ended i' j' hs']
    ended_here := by
      intro i' hi
      rcases List.mem_cons.1 hi with rfl | hi
      · exact h.here ▸ ids.here_lt _ _ hs
      · exact h.ended_here i' hi
    ended_there := by
      intro j' hj
      rcases List.mem_cons.1 hj with rfl | hj
      · exact h.there ▸ ids.there_lt _ _ hs
      · exact h.ended_there j' hj
    entries := by
      refine h.entries.filter fun e f hef => ?_
      rw [Bool.eq_iff_iff, bne_iff_ne, bne_iff_ne, not_iff_not]
      constructor
      · intro he
        exact ids.functional _ _ _ hef.id (he ▸ hs)
      · intro hf
        exact ids.injective _ _ _ hef.id (hf ▸ hs) }

/-! ### What is done to the first one only -/

theorem subscribeAlone (h : Alike ids R X c d) (mode : Mode α) {b : β} (hX : X b) :
    Alike ids.one R X (c.subscribe mode b) d :=
  { h with
    here := congrArg (· + 1) h.here
    ended_here := fun i hi => Nat.lt_succ_of_lt (h.ended_here i hi)
    entries := by
      refine Woven.append_extra (h.entries.mono (fun _ _ => .mono ids.grows_one fun _ _ => id)
        fun _ => .mono ids.grows_one fun _ => id) ⟨?_, hX⟩
      rw [← h.here]
      exact ids.alone_one
    turns := h.turns.mono (fun _ _ ht => ⟨ht.1.mono ids.grows_one fun _ _ => id, ht.2⟩) fun _ =>
      .mono ids.grows_one fun _ => id }

theorem detachAlone (h : Alike ids R X c d) {i : Nat} (ha : ids.Alone i) :
    Alike ids R X (c.detach i) d :=
  { h with
    ended := by
      intro i' j' hs
      rw [← h.ended i' j' hs]
      simp only [Channel.detach, List.mem_cons, ha.not_same hs, false_or]
    ended_here := by
      intro i' hi
      rcases List.mem_cons.1 hi with rfl | hi
      · exact h.here ▸ ha.1
      · exact h.ended_here i' hi
    entries := by
      refine h.entries.filter_extra fun e f hef => ?_
      rw [bne_iff_ne]
      exact ha.not_same hef.id }

/-! ### Turns -/

theorem turnsLeft (h : Alike ids R X c d) {rest : List (Entry α β × α)}
    {rest' : List (Entry α γ × α)}
    (left : Woven (fun t u => EntryAlike ids R t.1 u.1 ∧ t.2 = u.2) (fun t => EntryAlone ids X t.1)
      rest rest') : Alike ids R X { c with turns := rest } { d with turns := rest' } :=
  { h with turns := left }

/-- A turn of somebody that both channels know. -/
theorem advance_turn (h : Alike ids R X c d) {e : Entry α β} {f : Entry α γ} {v : α}
    {rest : List (Entry α β × α)} {rest' : List (Entry α γ × α)} (turns : c.turns = (e, v) :: rest)
    (turns' : d.turns = (f, v) :: rest') (hef : EntryAlike ids R e f)
    (left : Woven (fun t u => EntryAlike ids R t.1 u.1 ∧ t.2 = u.2) (fun t => EntryAlone ids X t.1)
      rest rest') :
    TurnAlike ids R c.advance.1 d.advance.1 ∧ Alike ids R X c.advance.2 d.advance.2 := by
  have next := h.turnsLeft left
  rw [advance_cons turns, advance_cons turns', ← h.isActive hef.id, ← hef.mode]
  split
  · cases e.mode with
    | every => exact ⟨.called v hef, next⟩
    | first accept =>
      dsimp only
      split
      · exact ⟨.called v hef, next.detach hef.id⟩
      · exact ⟨.refused v hef, next⟩
  · exact ⟨.moved, next⟩

/-- A turn of somebody that only the first channel knows. -/
theorem advance_alone (h : Alike ids R X c d) {e : Entry α β} {v : α} {rest : List (Entry α β × α)}
    (turns : c.turns = (e, v) :: rest) (he : EntryAlone ids X e)
    (left : Woven (fun t u => EntryAlike ids R t.1 u.1 ∧ t.2 = u.2) (fun t => EntryAlone ids X t.1)
      rest d.turns) :
    TurnAlone X c.advance.1 ∧ Alike ids R X c.advance.2 d ∧ c.advance.2.turns = rest := by
  have next : Alike ids R X { c with turns := rest } d := h.turnsLeft left
  rw [advance_cons turns]
  split
  · cases e.mode with
    | every => exact ⟨.called v he.target, next, rfl⟩
    | first accept =>
      dsimp only
      split
      · exact ⟨.called v he.target, next.detachAlone he.id, rfl⟩
      · exact ⟨.refused v he.target, next, rfl⟩
  · exact ⟨.moved, next, rfl⟩

/-- The next turn belongs to both channels or to the first one only. -/
theorem advance (h : Alike ids R X c d) :
    (TurnAlike ids R c.advance.1 d.advance.1 ∧ Alike ids R X c.advance.2 d.advance.2) ∨
    (TurnAlone X c.advance.1 ∧ Alike ids R X c.advance.2 d ∧
      c.advance.2.turns.length + 1 = c.turns.length) := by
  have turns := h.turns
  cases hturns : c.turns with
  | nil =>
    rw [hturns] at turns
    have hturns' := turns.eq_nil
    left
    cases hpending : c.pending with
    | nil =>
      have hpending' : d.pending = [] := h.pending ▸ hpending
      simp only [Channel.advance, hturns, hturns', hpending, hpending']
      exact ⟨.finished, { h with turns := .nil, pending := rfl, delivering := rfl }⟩
    | cons v vs =>
      have hpending' : d.pending = v :: vs := h.pending ▸ hpending
      simp only [Channel.advance, hturns, hturns', hpending, hpending']
      refine ⟨.moved, { h with pending := rfl, turns := ?_ }⟩
      exact h.entries.map (fun _ _ hef => ⟨hef, rfl⟩) fun _ he => he
  | cons t rest =>
    obtain ⟨e, v⟩ := t
    rw [hturns] at turns
    generalize hturns' : d.turns = turns' at turns
    cases turns with
    | @both _ u _ rest' hu left =>
      obtain ⟨f, w⟩ := u
      obtain ⟨hef, rfl⟩ := hu
      exact .inl (h.advance_turn hturns hturns' hef left)
    | extra he left =>
      obtain ⟨alone, next, same⟩ := h.advance_alone hturns he (hturns'.symm ▸ left)
      exact .inr ⟨alone, next, by rw [same]; rfl⟩

end Alike
end Channel

/-! ## Cells alike -/

namespace Cell

/-- The cells hold the same value, and the first one has more subscribers. -/
structure Alike (ids : Pairing) (R : β → γ → Prop) (X : β → Prop) (c : Cell α β) (d : Cell α γ) :
    Prop where
  value : c.value = d.value
  channel : Channel.Alike ids R X c.channel d.channel

namespace Alike

variable {ids : Pairing} {R : β → γ → Prop} {X : β → Prop} {c : Cell α β} {d : Cell α γ}

theorem mono {R' : β → γ → Prop} {X' : β → Prop} (h : Alike ids R X c d)
    (hR : ∀ a b, R a b → R' a b) (hX : ∀ a, X a → X' a) : Alike ids R' X' c d :=
  ⟨h.value, h.channel.mono hR hX⟩

theorem put (h : Alike ids R X c d) (v : α) : Alike ids R X (c.put v) (d.put v) :=
  ⟨rfl, h.channel.emit v⟩

theorem subscribe (h : Alike ids R X c d) (mode : Mode α) {b : β} {b' : γ} (hR : R b b') :
    Alike ids.both R X (c.subscribe mode b) (d.subscribe mode b') :=
  ⟨h.value, h.channel.subscribe mode hR⟩

theorem subscribeAlone (h : Alike ids R X c d) (mode : Mode α) {b : β} (hX : X b) :
    Alike ids.one R X (c.subscribe mode b) d := ⟨h.value, h.channel.subscribeAlone mode hX⟩

theorem detach (h : Alike ids R X c d) {i j : Nat} (hs : ids.same i j) :
    Alike ids R X (c.detach i) (d.detach j) := ⟨h.value, h.channel.detach hs⟩

theorem detachAlone (h : Alike ids R X c d) {i : Nat} (ha : ids.Alone i) :
    Alike ids R X (c.detach i) d := ⟨h.value, h.channel.detachAlone ha⟩

theorem advance (h : Alike ids R X c d) :
    (Channel.TurnAlike ids R c.advance.1 d.advance.1 ∧ Alike ids R X c.advance.2 d.advance.2) ∨
    (Channel.TurnAlone X c.advance.1 ∧ Alike ids R X c.advance.2 d ∧
      c.advance.2.channel.turns.length + 1 = c.channel.turns.length) :=
  h.channel.advance.imp (fun ⟨turn, next⟩ => ⟨turn, h.value, next⟩)
    fun ⟨turn, next, less⟩ => ⟨turn, ⟨h.value, next⟩, less⟩

end Alike
end Cell
end StandingQuery
