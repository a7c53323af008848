import StandingQuery.Query.Route

/-! The request that a route leads to is the default one, but for one term for each thing that the
route names. -/

namespace StandingQuery

namespace TermMap

theorem find?_insertEntry (k : String) (t : Term) (es : List (String × Term)) (f : String) :
    (insertEntry k t es).find? (·.1 == f) = if k = f then some (k, t) else es.find? (·.1 == f) := by
  induction es with
  | nil => by_cases hf : k = f <;> simp [insertEntry, hf]
  | cons e es ih =>
    by_cases before : k < e.1
    · rw [insertEntry, if_pos before]
      by_cases hf : k = f <;> simp [hf]
    · by_cases later : e.1 < k
      · rw [insertEntry, if_neg before, if_pos later]
        by_cases he : e.1 = f
        · have hf : k ≠ f := fun hf => String.lt_irrefl f (by rwa [he, hf] at later)
          simp [he, hf]
        · simp only [List.find?_cons, beq_eq_false_iff_ne.2 he, ih]
      · have same : k = e.1 := String.le_antisymm (String.not_lt.1 later) (String.not_lt.1 before)
        rw [insertEntry, if_neg before, if_neg later]
        by_cases hf : k = f
        · simp [hf]
        · have he : e.1 ≠ f := same ▸ hf
          simp [hf, he]

/-- A term that is put in is found, and the others as before. -/
theorem get?_insert (m : TermMap) (k : String) (t : Term) (f : String) :
    (m.insert k t).get? f = if k = f then some t else m.get? f := by
  rw [get?, insert, find?_insertEntry]
  by_cases hf : k = f <;> simp [hf, get?]

end TermMap

theorem Request.term?_withTerm (q : Request) (k : String) (t : Term) (f : String) :
    (q.withTerm k t).term? f = if k = f then some t else q.term? f := by
  rw [term?, withTerm, Option.bind_some, TermMap.get?_insert, term?]
  cases q.terms with
  | none => rfl
  | some m => rfl

namespace Route

theorem term?_addTerm (field : String) (value : Option String) (q : Request) (f : String) :
    (addTerm field value q).term? f =
      if field = f then (value.map .matching).or (q.term? f) else q.term? f := by
  cases value with
  | none => simp [addTerm]
  | some v => by_cases hf : field = f <;> simp [addTerm, Request.term?_withTerm, hf]

/-- A request that asks for nothing but the component and the flow file of the route. -/
structure Narrows (r : Route) (q : Request) : Prop where
  component : ∀ t, q.term? componentField = some t ↔
    ∃ id, r.componentId = some id ∧ id ≠ "" ∧ t = ⟨id, false⟩
  flowFile : ∀ t, q.term? flowFileField = some t ↔
    ∃ uuid, r.flowFileUuid = some uuid ∧ uuid ≠ "" ∧ t = ⟨uuid, false⟩
  only : ∀ field, field ≠ componentField → field ≠ flowFileField → q.term? field = none
  /-- Where there is nothing to ask for, there is no map of terms either. -/
  unscoped : q.terms = none ↔ (∀ id ∈ r.componentId, id = "") ∧ ∀ uuid ∈ r.flowFileUuid, uuid = ""
  plain : { q with terms := none } = .default

theorem filter_nonempty_eq_some {o : Option String} {t : Term} :
    ((o.filter (!·.isEmpty)).map Term.matching) = some t ↔
      ∃ v, o = some v ∧ v ≠ "" ∧ t = ⟨v, false⟩ := by
  cases o with
  | none => simp
  | some v =>
    by_cases hv : v = ""
    · simp [hv]
    · have kept : (some v).filter (!·.isEmpty) = some v := by simp [hv]
      rw [kept, Option.map_some, Option.some.injEq]
      constructor
      · intro ht
        exact ⟨v, rfl, hv, ht.symm⟩
      · rintro ⟨_, same, _, rfl⟩
        cases same
        rfl

theorem filter_nonempty_eq_none {o : Option String} :
    o.filter (!·.isEmpty) = none ↔ ∀ v ∈ o, v = "" := by
  simp [Option.filter_eq_none_iff]

theorem narrows_initialRequest (r : Route) : Narrows r r.initialRequest where
  component := by
    intro t
    rw [initialRequest, term?_addTerm, if_neg (by decide), term?_addTerm, if_pos rfl,
      ← filter_nonempty_eq_some, component?]
    simp [Request.term?, Request.default]
  flowFile := by
    intro t
    rw [initialRequest, term?_addTerm, if_pos rfl, term?_addTerm, if_neg (by decide),
      ← filter_nonempty_eq_some, flowFile?]
    simp [Request.term?, Request.default]
  only := by
    intro field notComponent notFlowFile
    rw [initialRequest, term?_addTerm, if_neg notFlowFile.symm, term?_addTerm,
      if_neg notComponent.symm]
    rfl
  unscoped := by
    rw [← filter_nonempty_eq_none, ← filter_nonempty_eq_none]
    change _ ↔ r.component? = none ∧ r.flowFile? = none
    cases hc : r.component? <;> cases hf : r.flowFile? <;>
      simp [initialRequest, addTerm, hc, hf, Request.withTerm, Request.default]
  plain := by
    unfold initialRequest addTerm
    cases r.component? <;> cases r.flowFile? <;> rfl

end Route
end StandingQuery
