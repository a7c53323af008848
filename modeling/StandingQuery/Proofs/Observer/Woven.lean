import StandingQuery.Named

/-! Lists that differ by extra elements only, and numbers that are given out in two places at once.
Of two systems, one of which has some members more than the other, the lists that they keep are told
apart by the elements of those members, which stand anywhere between the others; and where members
are numbered in the order in which they come, a member has one number here and another one there. -/

namespace StandingQuery

/-- The first list is the second one with extra elements between its own. -/
inductive Woven {α β : Type} (R : α → β → Prop) (X : α → Prop) : List α → List β → Prop where
  | nil : Woven R X [] []
  | both {a : α} {b : β} {l : List α} {m : List β} (h : R a b) (rest : Woven R X l m) :
      Woven R X (a :: l) (b :: m)
  | extra {a : α} {l : List α} {m : List β} (h : X a) (rest : Woven R X l m) : Woven R X (a :: l) m

namespace Woven

variable {α β : Type} {R : α → β → Prop} {X : α → Prop} {l l₁ l₂ : List α} {m m₁ m₂ : List β}

theorem mono {R' : α → β → Prop} {X' : α → Prop} (h : Woven R X l m) (hR : ∀ a b, R a b → R' a b)
    (hX : ∀ a, X a → X' a) : Woven R' X' l m := by
  induction h with
  | nil => exact .nil
  | both h _ ih => exact .both (hR _ _ h) ih
  | extra h _ ih => exact .extra (hX _ h) ih

theorem append (h : Woven R X l₁ m₁) (h' : Woven R X l₂ m₂) : Woven R X (l₁ ++ l₂) (m₁ ++ m₂) := by
  induction h with
  | nil => exact h'
  | both h _ ih => exact .both h ih
  | extra h _ ih => exact .extra h ih

theorem single {a : α} {b : β} (h : R a b) : Woven R X [a] [b] := .both h .nil

/-- What is added at the end may be extra. -/
theorem append_extra {a : α} (h : Woven R X l m) (hX : X a) : Woven R X (l ++ [a]) m := by
  have added := h.append (.extra hX .nil)
  rwa [List.append_nil] at added

/-- Nothing is woven into what has elements left. -/
theorem eq_nil (h : Woven R X [] m) : m = [] := by
  cases h
  rfl

theorem mem {a : α} (h : Woven R X l m) (ha : a ∈ l) : X a ∨ ∃ b ∈ m, R a b := by
  induction h with
  | nil => cases ha
  | both h _ ih =>
    rcases List.mem_cons.1 ha with rfl | ha
    · exact .inr ⟨_, List.mem_cons_self, h⟩
    · exact (ih ha).imp id fun ⟨b, hb, hab⟩ => ⟨b, List.mem_cons_of_mem _ hb, hab⟩
  | extra h _ ih =>
    rcases List.mem_cons.1 ha with rfl | ha
    · exact .inl h
    · exact ih ha

theorem map {γ δ : Type} {R' : γ → δ → Prop} {X' : γ → Prop} {f : α → γ} {g : β → δ}
    (h : Woven R X l m) (hR : ∀ a b, R a b → R' (f a) (g b)) (hX : ∀ a, X a → X' (f a)) :
    Woven R' X' (l.map f) (m.map g) := by
  induction h with
  | nil => exact .nil
  | both h _ ih => exact .both (hR _ _ h) ih
  | extra h _ ih => exact .extra (hX _ h) ih

theorem filter {p : α → Bool} {q : β → Bool} (h : Woven R X l m) (hR : ∀ a b, R a b → p a = q b) :
    Woven R X (l.filter p) (m.filter q) := by
  induction h with
  | nil => exact .nil
  | @both a b l m h _ ih =>
    have same := hR a b h
    rw [List.filter_cons, List.filter_cons, ← same]
    split
    · exact .both h ih
    · exact ih
  | extra h _ ih =>
    rw [List.filter_cons]
    split
    · exact .extra h ih
    · exact ih

/-- Extra elements may be left out. -/
theorem filter_extra {p : α → Bool} (h : Woven R X l m) (hR : ∀ a b, R a b → p a = true) :
    Woven R X (l.filter p) m := by
  have kept := h.filter (q := fun _ => true) hR
  rwa [List.filter_eq_self.2 fun _ _ => rfl] at kept

theorem find? {p : α → Bool} {q : β → Bool} (h : Woven R X l m) (hR : ∀ a b, R a b → p a = q b)
    (hX : ∀ a, X a → p a = false) :
    l.find? p = none ∧ m.find? q = none ∨
      ∃ a b, l.find? p = some a ∧ m.find? q = some b ∧ R a b := by
  induction h with
  | nil => exact .inl ⟨rfl, rfl⟩
  | @both a b l m h _ ih =>
    have same := hR a b h
    rw [List.find?_cons, List.find?_cons, ← same]
    cases p a with
    | true => exact .inr ⟨a, b, rfl, rfl, h⟩
    | false => exact ih
  | @extra a l m h _ ih =>
    rw [List.find?_cons, hX a h]
    exact ih

end Woven

/-! ## Numbers -/

/-- Numbers given out in two places: how many here, how many there, and which of those here belongs
to which of those there. -/
structure Pairing where
  here : Nat
  there : Nat
  same : Nat → Nat → Prop
  here_lt : ∀ i j, same i j → i < here
  there_lt : ∀ i j, same i j → j < there
  functional : ∀ i j j', same i j → same i j' → j = j'
  injective : ∀ i i' j, same i j → same i' j → i = i'

namespace Pairing

/-- A number that was given out here only. -/
def Alone (p : Pairing) (i : Nat) : Prop := i < p.here ∧ ∀ j, ¬ p.same i j

def empty : Pairing where
  here := 0
  there := 0
  same _ _ := False
  here_lt := fun _ _ h => h.elim
  there_lt := fun _ _ h => h.elim
  functional := fun _ _ _ h => h.elim
  injective := fun _ _ _ h => h.elim

/-- The next number is given out in both places. -/
def both (p : Pairing) : Pairing where
  here := p.here + 1
  there := p.there + 1
  same i j := p.same i j ∨ i = p.here ∧ j = p.there
  here_lt := by
    rintro i j (h | ⟨rfl, -⟩)
    · exact Nat.lt_succ_of_lt (p.here_lt i j h)
    · exact Nat.lt_succ_self _
  there_lt := by
    rintro i j (h | ⟨-, rfl⟩)
    · exact Nat.lt_succ_of_lt (p.there_lt i j h)
    · exact Nat.lt_succ_self _
  functional := by
    rintro i j j' (h | ⟨rfl, rfl⟩) (h' | ⟨h', rfl⟩)
    · exact p.functional i j j' h h'
    · exact absurd (p.here_lt i j h) (h' ▸ Nat.lt_irrefl _)
    · exact absurd (p.here_lt _ j' h') (Nat.lt_irrefl _)
    · rfl
  injective := by
    rintro i i' j (h | ⟨rfl, rfl⟩) (h' | ⟨rfl, h'⟩)
    · exact p.injective i i' j h h'
    · exact absurd (p.there_lt i j h) (h' ▸ Nat.lt_irrefl _)
    · exact absurd (p.there_lt i' _ h') (Nat.lt_irrefl _)
    · rfl

/-- The next number is given out here only. -/
def one (p : Pairing) : Pairing :=
  { p with here := p.here + 1, here_lt := fun i j h => Nat.lt_succ_of_lt (p.here_lt i j h) }

/-- What has been given out stays as it is. -/
structure Grows (p q : Pairing) : Prop where
  same : ∀ i j, p.same i j → q.same i j
  alone : ∀ i, p.Alone i → q.Alone i

theorem Grows.refl (p : Pairing) : Grows p p := ⟨fun _ _ h => h, fun _ h => h⟩

theorem grows_both (p : Pairing) : Grows p p.both where
  same := fun _ _ h => .inl h
  alone := by
    rintro i ⟨known, none⟩
    refine ⟨Nat.lt_succ_of_lt known, ?_⟩
    rintro j (h | ⟨rfl, -⟩)
    · exact none j h
    · exact Nat.lt_irrefl _ known

theorem grows_one (p : Pairing) : Grows p p.one where
  same := fun _ _ h => h
  alone := fun _ h => ⟨Nat.lt_succ_of_lt h.1, h.2⟩

theorem same_both (p : Pairing) : p.both.same p.here p.there := .inr ⟨rfl, rfl⟩

theorem alone_one (p : Pairing) : p.one.Alone p.here :=
  ⟨Nat.lt_succ_self _, fun j h => Nat.lt_irrefl _ (p.here_lt _ j h)⟩

/-- The same number, or none in either place. -/
inductive SameOrNone (p : Pairing) : Option Nat → Option Nat → Prop where
  | none : SameOrNone p none none
  | some {i j : Nat} (h : p.same i j) : SameOrNone p (some i) (some j)

def AloneOrNone (p : Pairing) (i : Option Nat) : Prop := ∀ k ∈ i, p.Alone k

theorem SameOrNone.mono {p q : Pairing} (g : p.Grows q) {i j : Option Nat} (h : p.SameOrNone i j) :
    q.SameOrNone i j := by
  cases h with
  | none => exact .none
  | some h => exact .some (g.same _ _ h)

theorem AloneOrNone.mono {p q : Pairing} (g : p.Grows q) {i : Option Nat} (h : p.AloneOrNone i) :
    q.AloneOrNone i := fun k hk => g.alone k (h k hk)

theorem aloneOrNone_none (p : Pairing) : p.AloneOrNone none := by simp [AloneOrNone]

theorem aloneOrNone_some {p : Pairing} {i : Nat} (h : p.Alone i) : p.AloneOrNone (some i) := by
  intro k hk
  cases hk
  exact h

theorem Alone.not_same {p : Pairing} {i i' j : Nat} (h : p.Alone i) (h' : p.same i' j) :
    i' ≠ i := by
  rintro rfl
  exact h.2 j h'

end Pairing

/-! ## Tables -/

section
variable {α β : Type}

/-- Two tables whose entries are numbered by a pairing. -/
structure Tables (p : Pairing) (R : α → β → Prop) (X : α → Prop) (l : List α) (m : List β) :
    Prop where
  here : p.here = l.length
  there : p.there = m.length
  same : ∀ i j, p.same i j → ∃ a b, l[i]? = some a ∧ m[j]? = some b ∧ R a b
  alone : ∀ i, p.Alone i → ∃ a, l[i]? = some a ∧ X a

namespace Tables

variable {p : Pairing} {R : α → β → Prop} {X : α → Prop} {l : List α} {m : List β}

theorem add (h : Tables p R X l m) {a : α} {b : β} (hR : R a b) :
    Tables p.both R X (l ++ [a]) (m ++ [b]) where
  here := by rw [List.length_append, ← h.here]; rfl
  there := by rw [List.length_append, ← h.there]; rfl
  same := by
    rintro i j (hs | ⟨rfl, rfl⟩)
    · obtain ⟨a', b', ha, hb, hab⟩ := h.same i j hs
      refine ⟨a', b', ?_, ?_, hab⟩
      · rw [List.getElem?_append_left (h.here ▸ p.here_lt i j hs), ha]
      · rw [List.getElem?_append_left (h.there ▸ p.there_lt i j hs), hb]
    · exact ⟨a, b, by rw [h.here, List.getElem?_concat_length],
        by rw [h.there, List.getElem?_concat_length], hR⟩
  alone := by
    rintro i ⟨known, none⟩
    rcases Nat.lt_succ_iff_lt_or_eq.1 known with known | rfl
    · obtain ⟨a', ha, hX⟩ := h.alone i ⟨known, fun j hj => none j (.inl hj)⟩
      exact ⟨a', by rw [List.getElem?_append_left (h.here ▸ known), ha], hX⟩
    · exact absurd p.same_both (none _)

theorem addAlone (h : Tables p R X l m) {a : α} (hX : X a) : Tables p.one R X (l ++ [a]) m where
  here := by rw [List.length_append, ← h.here]; rfl
  there := h.there
  same := by
    intro i j hs
    obtain ⟨a', b', ha, hb, hab⟩ := h.same i j hs
    exact ⟨a', b', by rw [List.getElem?_append_left (h.here ▸ p.here_lt i j hs), ha], hb, hab⟩
  alone := by
    rintro i ⟨known, none⟩
    rcases Nat.lt_succ_iff_lt_or_eq.1 known with known | rfl
    · obtain ⟨a', ha, hX⟩ := h.alone i ⟨known, none⟩
      exact ⟨a', by rw [List.getElem?_append_left (h.here ▸ known), ha], hX⟩
    · exact ⟨a, by rw [h.here, List.getElem?_concat_length], hX⟩

theorem set (h : Tables p R X l m) {i j : Nat} (hs : p.same i j) {a : α} {b : β} (hR : R a b) :
    Tables p R X (l.set i a) (m.set j b) where
  here := by rw [List.length_set, h.here]
  there := by rw [List.length_set, h.there]
  same := by
    intro i' j' hs'
    obtain ⟨a', b', ha, hb, hab⟩ := h.same i' j' hs'
    by_cases hi : i' = i
    · subst hi
      obtain rfl := p.functional _ _ _ hs hs'
      exact ⟨a, b, List.getElem?_set_self (h.here ▸ p.here_lt _ _ hs),
        List.getElem?_set_self (h.there ▸ p.there_lt _ _ hs), hR⟩
    · have hj : j' ≠ j := fun hj => hi (p.injective _ _ _ hs' (hj ▸ hs))
      exact ⟨a', b', by rw [List.getElem?_set_ne (Ne.symm hi), ha],
        by rw [List.getElem?_set_ne (Ne.symm hj), hb], hab⟩
  alone := by
    intro i' ha
    obtain ⟨a', hget, hX⟩ := h.alone i' ha
    exact ⟨a', by rw [List.getElem?_set_ne (ha.not_same hs), hget], hX⟩

theorem setAlone (h : Tables p R X l m) {i : Nat} (ha : p.Alone i) {a : α} (hX : X a) :
    Tables p R X (l.set i a) m where
  here := by rw [List.length_set, h.here]
  there := h.there
  same := by
    intro i' j' hs
    obtain ⟨a', b', hget, hb, hab⟩ := h.same i' j' hs
    exact ⟨a', b', by rw [List.getElem?_set_ne (Ne.symm (ha.not_same hs)), hget], hb, hab⟩
  alone := by
    intro i' ha'
    obtain ⟨a', hget, hX'⟩ := h.alone i' ha'
    by_cases hi : i' = i
    · subst hi
      exact ⟨a, List.getElem?_set_self (h.here ▸ ha.1), hX⟩
    · exact ⟨a', by rw [List.getElem?_set_ne (Ne.symm hi), hget], hX'⟩

end Tables
end

/-! ## Things kept under names -/

namespace Named

variable {α β : Type} {extra : String → Bool} {R : α → β → Prop} {X : α → Prop} {t : Named α}
  {u : Named β} {name : String}

/-- The first table has all that the second one has, and things under extra names. -/
def Covers (extra : String → Bool) (R : α → β → Prop) (X : α → Prop) (t : Named α) (u : Named β) :
    Prop :=
  Woven (fun p q => p.1 = q.1 ∧ extra p.1 = false ∧ R p.2 q.2)
    (fun p => extra p.1 = true ∧ X p.2) t u

theorem Covers.mono {R' : α → β → Prop} {X' : α → Prop} (h : Covers extra R X t u)
    (hR : ∀ a b, R a b → R' a b) (hX : ∀ a, X a → X' a) : Covers extra R' X' t u :=
  Woven.mono h (fun _ _ hab => ⟨hab.1, hab.2.1, hR _ _ hab.2.2⟩) fun _ ha => ⟨ha.1, hX _ ha.2⟩

/-- What is found under a name that is not extra. -/
theorem Covers.get? (h : Covers extra R X t u) (other : extra name = false) :
    t.get? name = none ∧ u.get? name = none ∨
      ∃ a b, t.get? name = some a ∧ u.get? name = some b ∧ R a b := by
  have found := Woven.find? h (p := (·.1 == name)) (q := (·.1 == name))
    (fun a b hab => by rw [hab.1]) fun a ha => by
      rw [beq_eq_false_iff_ne]
      rintro rfl
      rw [other] at ha
      cases ha.1
  rcases found with ⟨ht, hu⟩ | ⟨a, b, ht, hu, hab⟩
  · exact .inl ⟨by rw [Named.get?, ht]; rfl, by rw [Named.get?, hu]; rfl⟩
  · exact .inr ⟨a.2, b.2, by rw [Named.get?, ht]; rfl, by rw [Named.get?, hu]; rfl, hab.2.2⟩

theorem Covers.get?_extra (h : Covers extra R X t u) (he : extra name = true) {a : α}
    (found : t.get? name = some a) : X a := by
  rcases Woven.mem h (mem_of_get? found) with hX | ⟨b, _, hab⟩
  · exact hX.2
  · rw [he] at hab
    cases hab.2.1

theorem Covers.erase (h : Covers extra R X t u) (name : String) :
    Covers extra R X (t.erase name) (u.erase name) :=
  Woven.filter h fun a b hab => by rw [hab.1]

theorem Covers.put (h : Covers extra R X t u) (other : extra name = false) {a : α} {b : β}
    (hR : R a b) : Covers extra R X (t.put name a) (u.put name b) :=
  Woven.append (h.erase name) (.single ⟨rfl, other, hR⟩)

theorem Covers.eraseExtra (h : Covers extra R X t u) (he : extra name = true) :
    Covers extra R X (t.erase name) u := by
  refine Woven.filter_extra h fun a b hab => ?_
  rw [bne_iff_ne]
  rintro rfl
  rw [he] at hab
  cases hab.2.1

theorem Covers.putExtra (h : Covers extra R X t u) (he : extra name = true) {a : α} (hX : X a) :
    Covers extra R X (t.put name a) u :=
  Woven.append_extra (h.eraseExtra he) ⟨he, hX⟩

/-- The list of what is kept, without the extra names. -/
theorem Covers.listed {γ : Type} {f : α → γ} {g : β → γ} (h : Covers extra R X t u)
    (hR : ∀ a b, R a b → f a = g b) :
    (t.map fun (name, a) => (name, f a)).filter (fun p => !extra p.1) =
      u.map fun (name, b) => (name, g b) := by
  induction h with
  | nil => rfl
  | @both p q t u h _ ih =>
    obtain ⟨same, other, hab⟩ := h
    rw [List.map_cons, List.map_cons, List.filter_cons_of_pos (by simp [other]), ih]
    simp only [same, hR _ _ hab]
  | extra h _ ih => rw [List.map_cons, List.filter_cons_of_neg (by simp [h.1]), ih]

end Named
end StandingQuery
