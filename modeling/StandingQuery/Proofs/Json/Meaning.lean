import StandingQuery.Proofs.Json.Grammar

/-! What values mean. A record is described by its slots, each with the values that mean a content
of it; what an object means is then a matter of which members there are, and not of where they
stand. -/

namespace StandingQuery.Json

variable {α β σ : Type}

/-! ## Single values -/

def Value.IsBoolean (v : Value) (b : Bool) : Prop := v = .boolean b

def Value.IsText (v : Value) (s : String) : Prop := v = .text (some s)

def Value.IsInteger (v : Value) (n : Int) : Prop :=
  ∃ l : NumberLiteral, v = .number l ∧ l.IsInteger n

/-- Null stands for nothing. -/
inductive OrNull (means : Value → α → Prop) : Value → Option α → Prop
  | null : OrNull means .null none
  | value {v : Value} {a : α} (h : means v a) : OrNull means v (some a)

inductive MeansList (means : Value → α → Prop) : Value → List α → Prop
  | array {vs : List Value} {as : List α} (h : List.Forall₂ means vs as) :
      MeansList means (.array vs) as

@[simp] theorem Value.not_isBoolean_null (b : Bool) : ¬ Value.IsBoolean .null b := nofun

@[simp] theorem Value.not_isText_null (s : String) : ¬ Value.IsText .null s := nofun

@[simp] theorem Value.not_isInteger_null (n : Int) : ¬ Value.IsInteger .null n := nofun

@[simp] theorem not_meansList_null (means : Value → α → Prop) (as : List α) :
    ¬ MeansList means .null as := nofun

/-- What means nothing else than a value is nothing when it is null. -/
@[simp] theorem orNull_null {means : Value → α → Prop} (nonnull : ∀ a, ¬ means .null a)
    (o : Option α) : OrNull means .null o ↔ o = none := by
  constructor
  · rintro (_ | h)
    · rfl
    · exact absurd h (nonnull _)
  · rintro rfl
    exact .null

/-! ## Objects -/

/-- The members of an object in the order of the text, the names as they are meant. -/
abbrev Members := List (String × Value)

namespace Members

def names (ms : Members) : List String := ms.map Prod.fst

/-- As members of an object, where a name might be no string. -/
def keyed (ms : Members) : List (Option String × Value) := ms.map fun m => (some m.1, m.2)

end Members

/-- Any names, and a content for each. -/
inductive MeansMap (means : Value → α → Prop) : Value → List (String × α) → Prop
  | object {ms : Members} {pairs : List (String × α)}
      (h : List.Forall₂ (fun m p => m.1 = p.1 ∧ means m.2 p.2) ms pairs) :
      MeansMap means (.object ms.keyed) pairs

/-! ## Records -/

/-- A part of the record `σ`. -/
structure Slot (σ : Type) where
  name : String
  Content : Type
  Means : Value → Content → Prop
  get : σ → Content
  set : Content → σ → σ
  /-- The content where nothing is said, unless something has to be. -/
  absent : Option Content

/-- No part is named twice. -/
def Once (slots : List (Slot σ)) (names : List String) : Prop :=
  ∀ s ∈ slots, names.count s.name ≤ 1

/-- Every member that names a part has a value that means something there. -/
def Valid (slots : List (Slot σ)) (ms : Members) : Prop :=
  ∀ s ∈ slots, ∀ v, (s.name, v) ∈ ms → ∃ c, s.Means v c

/-- The record is what the members say, and what it is without them where they say nothing. -/
structure Given (slots : List (Slot σ)) (ms : Members) (a : σ) : Prop where
  said : ∀ s ∈ slots, ∀ v, (s.name, v) ∈ ms → s.Means v (s.get a)
  left : ∀ s ∈ slots, s.name ∉ ms.names → s.absent = some (s.get a)

/-- The record is what the values say of its parts in order; the last ones may be left out. -/
def Listed (a : σ) : List (Slot σ) → List Value → Prop
  | slots, [] => ∀ s ∈ slots, s.absent = some (s.get a)
  | s :: slots, v :: vs => s.Means v (s.get a) ∧ Listed a slots vs
  | [], _ :: _ => False

/-- A record may be an object, or an array of its parts. -/
inductive MeansRecord (slots : List (Slot σ)) : Value → σ → Prop
  | object {ms : Members} {a : σ} (once : Once slots ms.names) (h : Given slots ms a) :
      MeansRecord slots (.object ms.keyed) a
  | array {vs : List Value} {a : σ} (h : Listed a slots vs) : MeansRecord slots (.array vs) a

@[simp] theorem not_meansRecord_null (slots : List (Slot σ)) (a : σ) :
    ¬ MeansRecord slots .null a := nofun

/-- The slots are different parts of the record, and all of them. -/
structure Lawful (slots : List (Slot σ)) : Prop where
  names : (slots.map Slot.name).Nodup
  get_set : ∀ s ∈ slots, ∀ c a, s.get (s.set c a) = c
  apart : slots.Pairwise fun s t =>
    (∀ c a, s.get (t.set c a) = s.get a) ∧ ∀ c a, t.get (s.set c a) = t.get a
  ext : ∀ a b, (∀ s ∈ slots, s.get a = s.get b) → a = b
  /-- To say null, where that means something, is to say nothing. -/
  null : ∀ s ∈ slots, ∀ c, s.Means .null c → s.absent = some c

/-- An object with these members, and nothing else but blanks. -/
inductive ObjectText (ms : Members) : String → Prop
  | mk {w t u : List Char} (hw : Blanks w) (ht : Written (.object ms.keyed) t) (hu : Blanks u) :
      ObjectText ms (String.ofList (w ++ (t ++ u)))

/-! ## What goes without texts -/

/-- To set one part leaves the others as they are. -/
theorem Lawful.get_set_ne {slots : List (Slot σ)} (h : Lawful slots) {s t : Slot σ} (hs : s ∈ slots)
    (ht : t ∈ slots) (hne : s.name ≠ t.name) (c : t.Content) (a : σ) :
    s.get (t.set c a) = s.get a := by
  have symmetric : Std.Symm fun s t : Slot σ =>
      (∀ c a, s.get (t.set c a) = s.get a) ∧ ∀ c a, t.get (s.set c a) = t.get a :=
    ⟨fun _ _ hp => hp.symm⟩
  have hst := h.apart.forall hs ht fun he => hne (congrArg Slot.name he)
  exact hst.1 c a

theorem Lawful.eq_of_name {slots : List (Slot σ)} (h : Lawful slots) {s t : Slot σ} (hs : s ∈ slots)
    (ht : t ∈ slots) (hn : s.name = t.name) : s = t :=
  List.inj_on_of_nodup_map h.names hs ht hn

theorem Given.complete {slots : List (Slot σ)} {ms : Members} {a : σ} (h : Given slots ms a) :
    ∀ s ∈ slots, s.absent = none → s.name ∈ ms.names := by
  intro s hs habsent
  by_contra hn
  rw [h.left s hs hn] at habsent
  cases habsent

theorem Given.valid {slots : List (Slot σ)} {ms : Members} {a : σ} (h : Given slots ms a) :
    Valid slots ms :=
  fun s hs v hv => ⟨s.get a, h.said s hs v hv⟩

theorem map_eq_map_of_forall₂ {ι κ γ : Type*} {R : ι → κ → Prop} {f : ι → γ} {g : κ → γ}
    {as : List ι} {bs : List κ} (h : List.Forall₂ R as bs) (same : ∀ a b, R a b → f a = g b) :
    as.map f = bs.map g := by
  rw [← List.forall₂_eq_eq_eq]
  exact List.rel_map (fun a b hab => same a b hab) h

/-- Whether a record is listed depends on the parts that the slots tell of, and on nothing else. -/
theorem Listed.of_get_eq {slots : List (Slot σ)} {vs : List Value} {a b : σ}
    (same : ∀ s ∈ slots, s.get a = s.get b) (h : Listed a slots vs) : Listed b slots vs := by
  induction slots generalizing vs with
  | nil =>
    cases vs with
    | nil => exact nofun
    | cons v vs => exact h
  | cons s slots ih =>
    cases vs with
    | nil => exact fun t ht => same t ht ▸ h t ht
    | cons v vs =>
      obtain ⟨first, rest⟩ := List.forall_mem_cons.1 same
      obtain ⟨hv, h⟩ := h
      exact ⟨first ▸ hv, ih rest h⟩

/-- Where parts are named twice, there is one whose second naming comes first. -/
theorem exists_repeated {slots : List (Slot σ)} {names : List String} (h : ¬ Once slots names) :
    ∃ before after, ∃ s ∈ slots, names = before ++ s.name :: after ∧ Once slots before ∧
      s.name ∈ before := by
  induction names using List.reverseRecOn with
  | nil => exact absurd (fun s _ => Nat.zero_le 1) h
  | append_singleton names k ih =>
    by_cases once : Once slots names
    · obtain ⟨s, hs, hcount⟩ : ∃ s ∈ slots, ¬ (names ++ [k]).count s.name ≤ 1 := by
        simpa only [Once, not_forall, exists_prop] using h
      have hold := once s hs
      rw [List.count_append, List.count_singleton] at hcount
      obtain rfl : k = s.name := by
        by_contra hk
        rw [if_neg fun hb => hk (beq_iff_eq.1 hb)] at hcount
        omega
      rw [if_pos (beq_self_eq_true _)] at hcount
      exact ⟨names, [], s, hs, rfl, once, List.count_pos_iff.1 (by omega)⟩
    · obtain ⟨before, after, s, hs, rfl, hbefore, hmem⟩ := ih once
      exact ⟨before, after ++ [k], s, hs, by simp, hbefore, hmem⟩

/-- Where something required is missing, there is the first of it. -/
theorem exists_missing {slots : List (Slot σ)} {names : List String}
    (h : ¬ ∀ s ∈ slots, s.absent = none → s.name ∈ names) :
    ∃ earlier s later, slots = earlier ++ s :: later ∧ s.absent = none ∧ s.name ∉ names ∧
      ∀ t ∈ earlier, t.absent = none → t.name ∈ names := by
  induction slots with
  | nil => exact absurd (fun s hs => absurd hs List.not_mem_nil) h
  | cons s slots ih =>
    by_cases hs : s.absent = none → s.name ∈ names
    · obtain ⟨earlier, t, later, rfl, ht, hn, hearlier⟩ :=
        ih fun hslots => h (List.forall_mem_cons.2 ⟨hs, hslots⟩)
      exact ⟨s :: earlier, t, later, rfl, ht, hn, List.forall_mem_cons.2 ⟨hs, hearlier⟩⟩
    · obtain ⟨habsent, hn⟩ := Classical.not_imp.1 hs
      exact ⟨[], s, slots, rfl, habsent, hn, fun t ht => absurd ht List.not_mem_nil⟩

/-- A new name may be added anywhere. -/
theorem Once.insert {slots : List (Slot σ)} {before after : Members}
    (h : Once slots (Members.names (before ++ after))) {k : String}
    (hk : k ∉ Members.names (before ++ after)) (v : Value) :
    Once slots (Members.names (before ++ (k, v) :: after)) := by
  intro s hs
  have hcount := h s hs
  simp only [Members.names, List.map_append, List.map_cons, List.count_append, List.count_cons]
    at hcount hk ⊢
  by_cases he : s.name = k
  · rw [← he, ← List.count_eq_zero, List.count_append] at hk
    rw [if_pos (beq_iff_eq.2 he.symm)]
    omega
  · rw [if_neg fun hb => he (beq_iff_eq.1 hb).symm]
    exact hcount

/-- A null that means something can be left out. -/
theorem given_null {slots : List (Slot σ)} (lawful : Lawful slots) {s : Slot σ} (hs : s ∈ slots)
    {c : s.Content} (hc : s.Means .null c) {before after : Members}
    (hn : s.name ∉ Members.names (before ++ after)) (a : σ) :
    Given slots (before ++ (s.name, .null) :: after) a ↔ Given slots (before ++ after) a := by
  have hnames (k : String) : k ∈ Members.names (before ++ (s.name, .null) :: after) ↔
      k = s.name ∨ k ∈ Members.names (before ++ after) := by
    simp only [Members.names, List.map_append, List.map_cons, List.mem_append, List.mem_cons]
    tauto
  have hmembers (m : String × Value) : m ∈ before ++ (s.name, .null) :: after ↔
      m = (s.name, .null) ∨ m ∈ before ++ after := by
    simp only [List.mem_append, List.mem_cons]
    tauto
  constructor
  · intro h
    refine ⟨fun t ht v hv => h.said t ht v ((hmembers _).2 (.inr hv)), fun t ht htn => ?_⟩
    by_cases he : t.name = s.name
    · obtain rfl := lawful.eq_of_name ht hs he
      exact lawful.null t ht _ (h.said t ht _ ((hmembers _).2 (.inl rfl)))
    · exact h.left t ht fun hm => ((hnames _).1 hm).elim he htn
  · intro h
    refine ⟨fun t ht v hv => ?_, fun t ht htn => h.left t ht fun hm => htn ((hnames _).2 (.inr hm))⟩
    rcases (hmembers _).1 hv with he | hv
    · obtain ⟨hname, rfl⟩ := Prod.mk.inj he
      obtain rfl := lawful.eq_of_name ht hs hname
      have habsent := (lawful.null t ht c hc).symm.trans (h.left t ht hn)
      rwa [← Option.some.inj habsent]
    · exact h.said t ht v hv

end StandingQuery.Json
