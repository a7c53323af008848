import Mathlib.Data.List.Induction
import StandingQuery.Proofs.Query.Narrowing
import StandingQuery.Query.Printer

/-! Requests that are built step by step. Each step writes one slot: the term of a field, or one of
the two dates. Of the steps that write a slot the last one counts, and steps that write different
slots may change places, down to the text that is written of the request. -/

namespace StandingQuery

open Json

namespace TermMap

theorem mem_entries {m : TermMap} {k : String} {t : Term} :
    (k, t) ∈ m.entries ↔ m.get? k = some t := by
  obtain ⟨es, ascending⟩ := m
  rw [get?]
  induction es with
  | nil => simp
  | cons e es ih =>
    obtain ⟨first, ascending⟩ := List.pairwise_cons.1 ascending
    have later (h : (k, t) ∈ es) : e.1 ≠ k := String.ne_of_lt (first (k, t) h)
    by_cases he : e.1 = k
    · have hfind : (e :: es).find? (·.1 == k) = some e := by simp [he]
      rw [hfind, Option.map_some, Option.some.injEq, List.mem_cons]
      constructor
      · rintro (h | h)
        · rw [← h]
        · exact absurd he (later h)
      · rintro rfl
        exact .inl (by rw [← he])
    · have hfind : (e :: es).find? (·.1 == k) = es.find? (·.1 == k) := by
        rw [List.find?_cons, beq_eq_false_iff_ne.2 he]
      rw [hfind, ← ih ascending, List.mem_cons]
      constructor
      · rintro (h | h)
        · exact absurd (h ▸ rfl) he
        · exact h
      · exact .inr

theorem nodup_entries (m : TermMap) : m.entries.Nodup :=
  m.ascending.imp fun h he => String.ne_of_lt h (congrArg Prod.fst he)

/-- A map is known by what is found in it. -/
theorem ext_get? {m n : TermMap} (h : ∀ k, m.get? k = n.get? k) : m = n := by
  have same : m.entries.Perm n.entries := by
    refine (List.perm_ext_iff_of_nodup m.nodup_entries n.nodup_entries).2 ?_
    rintro ⟨k, t⟩
    rw [mem_entries, mem_entries, h]
  have hentries := same.eq_of_pairwise
    (fun a b _ _ hab hba => absurd hba (String.lt_asymm hab)) m.ascending n.ascending
  obtain ⟨_, _⟩ := m
  obtain ⟨_, _⟩ := n
  cases hentries
  rfl

theorem isEmpty_insert (m : TermMap) (k : String) (t : Term) : (m.insert k t).isEmpty = false := by
  have found := mem_entries.2 ((m.get?_insert k t k).trans (if_pos rfl))
  rw [isEmpty, List.isEmpty_eq_false_iff]
  exact List.ne_nil_of_mem found

end TermMap

/-! ## Code points -/

def codePoints (s : String) : List Nat := s.toList.map Char.toNat

theorem codePoints_lt {s t : String} (h : s < t) : codePoints s < codePoints t := by
  have h : s.toList < t.toList := h
  unfold codePoints
  generalize s.toList = cs at h
  generalize t.toList = ds at h
  induction h with
  | nil => exact .nil
  | cons _ ih => exact .cons ih
  | rel h => exact .rel (UInt32.lt_iff_toNat_lt.1 h)

namespace Request

/-! ## Steps -/

inductive Step where
  | term (field : String) (t : Term)
  | start (t : Instant)
  | stop (t : Instant)
deriving DecidableEq, Repr

namespace Step

def apply (q : Request) : Step → Request
  | .term field t => q.withTerm field t
  | .start t => q.withStart t
  | .stop t => q.withStop t

/-- What the step writes for the field. -/
def term? (field : String) : Step → Option Term
  | .term f t => if f = field then some t else none
  | .start _ | .stop _ => none

def start? : Step → Option Instant
  | .start t => some t
  | .term _ _ | .stop _ => none

def stop? : Step → Option Instant
  | .stop t => some t
  | .term _ _ | .start _ => none

end Step

/-- The last that any of the steps writes. -/
def lastWrite {α : Type} (writes : Step → Option α) (steps : List Step) : Option α :=
  steps.reverse.findSome? writes

def build (q : Request) (steps : List Step) : Request := steps.foldl Step.apply q

/-- Both sequences write the same slots, and the same to each of them in the end. -/
structure SameLastWrites (steps steps' : List Step) : Prop where
  term : ∀ field, lastWrite (Step.term? field) steps = lastWrite (Step.term? field) steps'
  start : lastWrite Step.start? steps = lastWrite Step.start? steps'
  stop : lastWrite Step.stop? steps = lastWrite Step.stop? steps'

/-- `r` is `q` with the last of the steps in each slot, and with nothing else changed. -/
structure Holds (q : Request) (steps : List Step) (r : Request) : Prop where
  term : ∀ field, r.term? field = (lastWrite (Step.term? field) steps).or (q.term? field)
  start : r.start = (lastWrite Step.start? steps).or q.start
  stop : r.stop = (lastWrite Step.stop? steps).or q.stop
  incremental : r.incremental = q.incremental
  pageSize : r.pageSize = q.pageSize
  summarize : r.summarize = q.summarize
  scope : r.isScoped = true ↔ q.isScoped = true ∨ steps ≠ []

/-- The text has the terms of the request, each of them once, with the fields ascending by the code
points of their names. -/
def WritesTermsInOrder (q : Request) (text : String) : Prop :=
  ∃ members, text = String.ofList (printObject members) ∧ (members.map Prod.fst).Nodup ∧
    ("searchTerms" ∈ members.map Prod.fst ↔ q.terms ≠ none) ∧
    ∀ terms, ("searchTerms", terms) ∈ members → ∃ entries : List (String × Term),
      terms = printObject (entries.map fun e => (e.1, e.2.json)) ∧
      (entries.map Prod.fst).Nodup ∧
      (entries.map Prod.fst).Pairwise (codePoints · < codePoints ·) ∧
      ∀ field t, (field, t) ∈ entries ↔ q.term? field = some t

/-! ## One step -/

theorem lastWrite_append {α : Type} (writes : Step → Option α) (steps : List Step) (s : Step) :
    lastWrite writes (steps ++ [s]) = (writes s).or (lastWrite writes steps) := by
  rw [lastWrite, List.reverse_append, List.reverse_singleton, List.singleton_append,
    List.findSome?_cons]
  cases writes s <;> rfl

theorem build_append (q : Request) (steps : List Step) (s : Step) :
    q.build (steps ++ [s]) = s.apply (q.build steps) := by
  rw [build, List.foldl_append]
  rfl

theorem isScoped_apply (q : Request) (s : Step) : (s.apply q).isScoped = true := by
  cases s with
  | term field t => simp [Step.apply, withTerm, isScoped, TermMap.isEmpty_insert]
  | start t => simp [Step.apply, withStart, isScoped]
  | stop t => simp [Step.apply, withStop, isScoped]

namespace Step

variable (s : Step) (q : Request)

theorem term?_apply (field : String) :
    (s.apply q).term? field = (s.term? field).or (q.term? field) := by
  cases s with
  | term f t =>
    rw [apply, term?_withTerm, term?]
    split <;> rfl
  | start t => rfl
  | stop t => rfl

theorem start_apply : (s.apply q).start = s.start?.or q.start := by cases s <;> rfl

theorem stop_apply : (s.apply q).stop = s.stop?.or q.stop := by cases s <;> rfl

theorem incremental_apply : (s.apply q).incremental = q.incremental := by cases s <;> rfl

theorem pageSize_apply : (s.apply q).pageSize = q.pageSize := by cases s <;> rfl

theorem summarize_apply : (s.apply q).summarize = q.summarize := by cases s <;> rfl

end Step

/-- A step more. -/
theorem Holds.append {q r : Request} {steps : List Step} (h : Holds q steps r) (s : Step) :
    Holds q (steps ++ [s]) (s.apply r) where
  term field := by rw [lastWrite_append, s.term?_apply, h.term, Option.or_assoc]
  start := by rw [lastWrite_append, s.start_apply, h.start, Option.or_assoc]
  stop := by rw [lastWrite_append, s.stop_apply, h.stop, Option.or_assoc]
  incremental := (s.incremental_apply r).trans h.incremental
  pageSize := (s.pageSize_apply r).trans h.pageSize
  summarize := (s.summarize_apply r).trans h.summarize
  scope := iff_of_true (isScoped_apply r s) (.inr (by simp))

theorem holds_build (q : Request) (steps : List Step) : Holds q steps (q.build steps) := by
  induction steps using List.reverseRecOn with
  | nil => exact ⟨fun _ => rfl, rfl, rfl, rfl, rfl, rfl, by simp [build]⟩
  | append_singleton steps s ih => exact build_append q steps s ▸ ih.append s

/-! ## The map of terms -/

/-- There is a map of terms if there was one, or if any step writes a term. -/
theorem terms_build_eq_none {q : Request} {steps : List Step} :
    (q.build steps).terms = none ↔
      q.terms = none ∧ ∀ field, lastWrite (Step.term? field) steps = none := by
  induction steps using List.reverseRecOn with
  | nil => simp [build, lastWrite]
  | append_singleton steps s ih =>
    rw [build_append]
    simp only [lastWrite_append]
    cases s with
    | term field t =>
      refine iff_of_false nofun ?_
      intro h
      have := h.2 field
      simp [Step.term?] at this
    | start t => exact ih
    | stop t => exact ih

/-- Two maps are there or neither, and in both the same terms are found. -/
theorem terms_build_eq (q : Request) {steps steps' : List Step} (h : SameLastWrites steps steps') :
    (q.build steps).terms = (q.build steps').terms := by
  have hnone : (q.build steps).terms = none ↔ (q.build steps').terms = none := by
    rw [terms_build_eq_none, terms_build_eq_none]
    simp only [h.term]
  have hfound (f : String) : (q.build steps).term? f = (q.build steps').term? f := by
    rw [(holds_build q steps).term, (holds_build q steps').term, h.term]
  simp only [term?] at hfound
  cases hm : (q.build steps).terms with
  | none => rw [hnone.1 hm]
  | some m =>
    cases hn : (q.build steps').terms with
    | none =>
      rw [hnone.2 hn] at hm
      cases hm
    | some n =>
      rw [hm, hn] at hfound
      rw [TermMap.ext_get? hfound]

attribute [ext] Request

/-- With the same last writes the same request is built. -/
theorem build_eq_build (q : Request) {steps steps' : List Step} (h : SameLastWrites steps steps') :
    q.build steps = q.build steps' := by
  have one := holds_build q steps
  have other := holds_build q steps'
  ext1
  · exact one.incremental.trans other.incremental.symm
  · exact one.pageSize.trans other.pageSize.symm
  · exact one.summarize.trans other.summarize.symm
  · exact terms_build_eq q h
  · rw [one.start, other.start, h.start]
  · rw [one.stop, other.stop, h.stop]

/-! ## The text -/

theorem mem_memberIf {α : Type} {key : String} {value : Option α} {print : α → List Char}
    {k : String} {text : List Char} :
    (k, text) ∈ memberIf key value print ↔ k = key ∧ ∃ a, value = some a ∧ print a = text := by
  cases value <;> simp [memberIf, eq_comm]

theorem writesTermsInOrder (q : Request) : WritesTermsInOrder q q.toText := by
  refine ⟨_, rfl, ?_, ?_, ?_⟩
  · cases q.terms <;> cases q.start <;> cases q.stop <;> simp [memberIf]
  · cases q.terms <;> cases q.start <;> cases q.stop <;> simp [memberIf]
  · intro terms h
    simp only [List.mem_append, mem_memberIf, List.mem_cons, Prod.mk.injEq] at h
    obtain ⟨m, hm, rfl⟩ : ∃ m, q.terms = some m ∧ m.json = terms := by simpa using h
    have ascending : (m.entries.map Prod.fst).Pairwise (· < ·) := List.pairwise_map.2 m.ascending
    refine ⟨m.entries, rfl, ?_, ?_, ?_⟩
    · exact ascending.imp fun h => String.ne_of_lt h
    · exact ascending.imp fun h => codePoints_lt h
    · intro field t
      rw [TermMap.mem_entries, term?, hm]
      rfl

/-- A request that is built holds what was written last to each slot, and is known by that, to the
last character of its text. -/
theorem builds_last_writes (q : Request) (steps : List Step) :
    Holds q steps (q.build steps) ∧
    WritesTermsInOrder (q.build steps) (q.build steps).toText ∧
    ∀ steps', SameLastWrites steps steps' →
      q.build steps = q.build steps' ∧ (q.build steps).toText = (q.build steps').toText := by
  refine ⟨holds_build q steps, writesTermsInOrder _, ?_⟩
  intro steps' h
  have same := build_eq_build q h
  exact ⟨same, congrArg toText same⟩

/-- A term written twice, and the others in another order. -/
theorem builds_last_writes_reordered :
    let once := [Step.stop ⟨60, 0, by decide⟩, .term "b" ⟨"y", true⟩, .term "a" (.matching "z")]
    let twice := [Step.term "b" (.matching "x"), .term "a" (.matching "z"),
      .stop ⟨60, 0, by decide⟩, .term "b" ⟨"y", true⟩]
    SameLastWrites once twice ∧ default.build once = default.build twice ∧
      (default.build once).toText = (default.build twice).toText := by
  intro once twice
  have same : SameLastWrites once twice := by
    refine ⟨?_, rfl, rfl⟩
    intro field
    by_cases hb : "b" = field
    · simp [once, twice, lastWrite, Step.term?, ← hb]
    · by_cases ha : "a" = field <;>
        simp [once, twice, lastWrite, List.findSome?, Step.term?, ha, hb]
  exact ⟨same, (builds_last_writes default once).2.2 twice same⟩

example : (default.build [.term "b" ⟨"y", true⟩, .term "a" (.matching "z")]).toText =
    "\x7b\"incrementalResults\":false,\"maxResults\":1000,\"summarize\":true," ++
      "\"searchTerms\":\x7b\"a\":\x7b\"value\":\"z\",\"inverse\":false\x7d," ++
      "\"b\":\x7b\"value\":\"y\",\"inverse\":true\x7d\x7d\x7d" := by
  decide +kernel

end Request
end StandingQuery
