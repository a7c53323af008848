import StandingQuery.Proofs.Json.Compact

/-! The two forms of a record. As an object it names its parts; as an array it has them in order,
and may end before parts that need not be said. In either form the text means the record. -/

namespace StandingQuery.Json

variable {σ : Type} {slots : List (Slot σ)} {a : σ}

/-- A part of a record, written. -/
structure Part where
  name : String
  text : List Char
  /-- The record is the same if nothing is said of the part. -/
  needless : Bool

inductive Form where
  /-- By name. A needless part may be left out. -/
  | object (leftOut : String → Bool)
  /-- In order. Of the needless parts at the end `omitted` are left out, or all if there are not as
  many. -/
  | array (omitted : Nat)

namespace Form

/-- How many parts at the end are needless. -/
def spare (parts : List Part) : Nat := (parts.reverse.takeWhile Part.needless).length

def print (parts : List Part) : Form → List Char
  | .object leftOut =>
    let said := parts.filter fun p => !(p.needless && leftOut p.name)
    printObject (said.map fun p => (p.name, p.text))
  | .array omitted =>
    let said := parts.take (parts.length - min omitted (spare parts))
    printArray (said.map Part.text)

theorem needless_of_mem_drop {parts : List Part} {n : Nat} (h : n ≤ spare parts) {p : Part}
    (hp : p ∈ parts.drop (parts.length - n)) : p.needless = true := by
  have hlast : p ∈ parts.reverse.take n := by
    rw [List.take_reverse]
    exact List.mem_reverse.2 hp
  have htake : parts.reverse.take n = (parts.reverse.takeWhile Part.needless).take n := by
    have := List.takeWhile_prefix Part.needless (l := parts.reverse)
    rw [List.prefix_iff_eq_take.1 this, List.take_take, ← spare, Nat.min_eq_left h]
  rw [htake] at hlast
  exact List.mem_takeWhile_imp (List.mem_of_mem_take hlast)

end Form

/-- The part is what the record holds in the slot. -/
structure Part.Tells (a : σ) (p : Part) (s : Slot σ) : Prop where
  name : p.name = s.name
  text : Conveys s.Means p.text (s.get a)
  needless : p.needless = true → s.absent = some (s.get a)

/-- A part that has to be said. -/
theorem Part.Tells.of_text {s : Slot σ} {text : List Char} (h : Conveys s.Means text (s.get a)) :
    Part.Tells a ⟨s.name, text, false⟩ s :=
  ⟨rfl, h, nofun⟩

theorem Part.Tells.names {parts : List Part} (h : List.Forall₂ (Part.Tells a) parts slots) :
    parts.map Part.name = slots.map Slot.name :=
  map_eq_map_of_forall₂ h fun _ _ h => h.name

/-! ## As an object -/

/-- A slot more, which is told. -/
theorem Given.cons {s : Slot σ} {v : Value} {ms : Members} (h : Given slots ms a)
    (hv : s.Means v (s.get a)) (apart : s.name ∉ slots.map Slot.name)
    (known : ∀ k ∈ ms.names, k ∈ slots.map Slot.name) :
    Given (s :: slots) ((s.name, v) :: ms) a := by
  have hne {t : Slot σ} (ht : t ∈ slots) : t.name ≠ s.name := fun he =>
    apart (he ▸ List.mem_map_of_mem ht)
  constructor
  · intro t ht u hu
    rcases List.mem_cons.1 ht with rfl | ht
    · rcases List.mem_cons.1 hu with he | hu
      · rw [(Prod.mk.inj he).2]
        exact hv
      · exact absurd (known _ (List.mem_map_of_mem hu)) apart
    · rcases List.mem_cons.1 hu with he | hu
      · exact absurd (Prod.mk.inj he).1 (hne ht)
      · exact h.said t ht u hu
  · intro t ht hn
    rcases List.mem_cons.1 ht with rfl | ht
    · exact absurd List.mem_cons_self hn
    · exact h.left t ht fun hm => hn (List.mem_cons_of_mem _ hm)

/-- A slot more, of which nothing is said. -/
theorem Given.skip {s : Slot σ} {ms : Members} (h : Given slots ms a)
    (hs : s.absent = some (s.get a)) (apart : s.name ∉ slots.map Slot.name)
    (known : ∀ k ∈ ms.names, k ∈ slots.map Slot.name) : Given (s :: slots) ms a := by
  constructor
  · intro t ht u hu
    rcases List.mem_cons.1 ht with rfl | ht
    · exact absurd (known _ (List.mem_map_of_mem hu)) apart
    · exact h.said t ht u hu
  · intro t ht hn
    rcases List.mem_cons.1 ht with rfl | ht
    · exact hs
    · exact h.left t ht hn

theorem PrintedMember.names {ms : Members} {parts : List Part}
    (h : List.Forall₂ (fun m p => PrintedMember m (p.name, p.text)) ms parts) :
    ms.names = parts.map Part.name :=
  map_eq_map_of_forall₂ h fun _ _ h => h.1

/-- The parts that are kept, at least those that are not needless, are members of an object that
gives the record. -/
theorem exists_given {parts : List Part} (h : List.Forall₂ (Part.Tells a) parts slots)
    (distinct : (slots.map Slot.name).Nodup) (keep : Part → Bool)
    (kept : ∀ p, keep p = false → p.needless = true) :
    ∃ ms : Members, List.Forall₂ (fun m p => PrintedMember m (p.name, p.text)) ms
        (parts.filter keep) ∧ Given slots ms a := by
  induction h with
  | nil => exact ⟨[], .nil, nofun, nofun⟩
  | @cons p s parts slots hp tells ih =>
    obtain ⟨apart, distinct⟩ := List.nodup_cons.1 distinct
    obtain ⟨ms, printed, given⟩ := ih distinct
    have known : ∀ k ∈ ms.names, k ∈ slots.map Slot.name := by
      rw [PrintedMember.names printed, ← Part.Tells.names tells]
      exact fun k hk => (List.filter_sublist.map _).subset hk
    cases hkeep : keep p with
    | true =>
      obtain ⟨v, hv, ht⟩ := hp.text
      rw [List.filter_cons_of_pos hkeep]
      exact ⟨(s.name, v) :: ms, .cons ⟨hp.name.symm, ht⟩ printed, given.cons hv apart known⟩
    | false =>
      rw [List.filter_cons_of_neg (Bool.not_eq_true _ ▸ hkeep)]
      exact ⟨ms, printed, given.skip (hp.needless (kept p hkeep)) apart known⟩

theorem conveys_object {parts : List Part} (h : List.Forall₂ (Part.Tells a) parts slots)
    (distinct : (slots.map Slot.name).Nodup) (leftOut : String → Bool) :
    Conveys (MeansRecord slots) (Form.print parts (.object leftOut)) a := by
  obtain ⟨ms, printed, given⟩ := exists_given h distinct
    (fun p => !(p.needless && leftOut p.name)) (by simp +contextual)
  have once : Once slots ms.names := by
    have hnames : ms.names.Nodup := by
      rw [PrintedMember.names printed]
      exact (Part.Tells.names h ▸ distinct).sublist (List.filter_sublist.map _)
    exact fun s _ => List.nodup_iff_count_le_one.1 hnames s.name
  exact ⟨_, .object once given, written_printObject (List.forall₂_map_right_iff.2 printed)⟩

/-! ## As an array -/

theorem listed_nil : Listed a slots [] ↔ ∀ s ∈ slots, s.absent = some (s.get a) := by
  rw [Listed]

/-- The first parts, if all others are needless, list the record. -/
theorem exists_listed {parts : List Part} (h : List.Forall₂ (Part.Tells a) parts slots) {n : Nat}
    (rest : ∀ p ∈ parts.drop n, p.needless = true) :
    ∃ vs, List.Forall₂ Written vs ((parts.take n).map Part.text) ∧ Listed a slots vs := by
  induction h generalizing n with
  | nil => exact ⟨[], by simp, nofun⟩
  | @cons p s parts slots hp tells ih =>
    cases n with
    | zero =>
      obtain ⟨hneedless, rest⟩ := List.forall_mem_cons.1 rest
      obtain ⟨vs, written, listed⟩ := ih (n := 0) rest
      cases written
      refine ⟨[], .nil, listed_nil.2 (List.forall_mem_cons.2 ⟨hp.needless hneedless, ?_⟩)⟩
      exact listed_nil.1 listed
    | succ n =>
      obtain ⟨v, hv, ht⟩ := hp.text
      obtain ⟨vs, written, listed⟩ := ih rest
      exact ⟨v :: vs, .cons ht written, hv, listed⟩

theorem conveys_array {parts : List Part} (h : List.Forall₂ (Part.Tells a) parts slots)
    (omitted : Nat) : Conveys (MeansRecord slots) (Form.print parts (.array omitted)) a := by
  obtain ⟨vs, written, listed⟩ := exists_listed h
    (fun p hp => Form.needless_of_mem_drop (Nat.min_le_right omitted (Form.spare parts)) hp)
  exact ⟨_, .array listed, written_printArray written⟩

/-- A record is conveyed in every form. -/
theorem conveys_record {parts : List Part} (h : List.Forall₂ (Part.Tells a) parts slots)
    (distinct : (slots.map Slot.name).Nodup) (f : Form) :
    Conveys (MeansRecord slots) (f.print parts) a := by
  cases f with
  | object leftOut => exact conveys_object h distinct leftOut
  | array omitted => exact conveys_array h omitted

end StandingQuery.Json
