import Mathlib.Data.List.Induction
import StandingQuery.Proofs.Channel.Journal

/-! What the law of a channel says to those who listen: the calls come in the order of the values
and then of the subscriptions, a subscription is called exactly if it is still active when its turn
comes, and in a delivery that is over everyone in its audience has had one turn. -/

namespace StandingQuery.Channel

variable {α β : Type} {past : List (Moment α β)} {c : Channel α β}

theorem Law.turns_prefix (law : Law past c) :
    ((turnsTaken past).map fun t => (t.1, t.2.1)) <+: schedule (deliveries past) :=
  law.turns_eq ▸ List.prefix_append _ _

theorem Law.calls_ascending (law : Law past c) :
    ((calls past).map fun x => (x.1, x.2.1)).Pairwise (Prod.Lex (· < ·) (· < ·)) := by
  rw [law.calls_eq]
  have hsub : ((turnsTaken past).filter (·.2.2)).map (fun t => (t.1, t.2.1)) |>.Sublist
      ((turnsTaken past).map fun t => (t.1, t.2.1)) := List.filter_sublist.map _
  exact (schedule_ascending law.audiences).sublist (hsub.trans law.turns_prefix.sublist)

theorem mem_schedule {ds : List (α × List Nat)} {k id : Nat} :
    (k, id) ∈ schedule ds ↔ ∃ d, ds[k]? = some d ∧ id ∈ d.2 := by
  simp only [schedule, List.mem_flatMap, List.mem_map, Prod.exists, List.mem_zipIdx_iff_getElem?]
  constructor
  · rintro ⟨v, ids, j, hd, i, hi, hk⟩
    obtain ⟨rfl, rfl⟩ := Prod.mk.inj hk
    exact ⟨v, ids, hd, hi⟩
  · rintro ⟨v, ids, hd, hi⟩
    exact ⟨v, ids, k, hd, id, hi, rfl⟩

/-- A subscription is called with a value exactly if it was there when the delivery began and is
still active when its turn comes. -/
theorem Law.called_iff (law : Law past c) (k id : Nat) :
    (∃ v, (k, id, v) ∈ calls past) ↔
      (∃ d, (deliveries past)[k]? = some d ∧ id ∈ d.2) ∧ (k, id, true) ∈ turnsTaken past := by
  have hcalls : (∃ v, (k, id, v) ∈ calls past) ↔ (k, id, true) ∈ turnsTaken past := by
    have : (k, id) ∈ (calls past).map (fun x => (x.1, x.2.1)) ↔
        (k, id) ∈ ((turnsTaken past).filter (·.2.2)).map fun t => (t.1, t.2.1) := by
      rw [law.calls_eq]
    simpa [List.mem_map, List.mem_filter] using this
  rw [hcalls, iff_and_self]
  intro ht
  have : (k, id) ∈ (turnsTaken past).map fun t => (t.1, t.2.1) := List.mem_map.2 ⟨_, ht, rfl⟩
  exact mem_schedule.1 (law.turns_prefix.subset this)

theorem filter_schedule {ds : List (α × List Nat)} {k : Nat} {d : α × List Nat}
    (h : ds[k]? = some d) : (schedule ds).filter (·.1 == k) = d.2.map (k, ·) := by
  induction ds using List.reverseRecOn with
  | nil => simp at h
  | append_singleton ds e ih =>
    rw [schedule_append, List.filter_append]
    have hlast : (e.2.map (ds.length, ·)).filter (·.1 == k) =
        if ds.length = k then e.2.map (ds.length, ·) else [] := by
      by_cases hk : ds.length = k <;> simp [List.filter_map, Function.comp_def, hk]
    rw [hlast]
    rcases Nat.lt_or_ge k ds.length with hlt | hge
    · rw [List.getElem?_append_left hlt] at h
      rw [ih h, if_neg (Nat.ne_of_gt hlt), List.append_nil]
    · have hk : k = ds.length := by
        have := (List.getElem?_eq_some_iff.1 h).1
        simp at this
        omega
      subst hk
      rw [List.getElem?_concat_length, Option.some.injEq] at h
      have hnone : (schedule ds).filter (·.1 == ds.length) = [] := by
        rw [List.filter_eq_nil_iff]
        intro (j, id) hj
        obtain ⟨d, hd, _⟩ := mem_schedule.1 hj
        have := (List.getElem?_eq_some_iff.1 hd).1
        simp only [beq_iff_eq]
        omega
      rw [hnone, if_pos rfl, h, List.nil_append]

/-- In a delivery that is over, everyone in the audience has had one turn, in order. -/
theorem Law.turns_of_over (law : Law past c) {k : Nat} {d : α × List Nat}
    (hd : (deliveries past)[k]? = some d)
    (ended : k + 1 < (deliveries past).length ∨ c.turns = []) :
    ((turnsTaken past).filter (·.1 == k)).map (·.2.1) = d.2 := by
  have hleft : (c.turns.map fun t => ((deliveries past).length - 1, t.1.id)).filter (·.1 == k) =
      [] := by
    rcases ended with hlt | hnil
    · rw [List.filter_eq_nil_iff]
      intro x hx
      obtain ⟨t, _, rfl⟩ := List.mem_map.1 hx
      simp only [beq_iff_eq]
      omega
    · simp [hnil]
  have h := filter_schedule hd
  rw [← law.turns_eq, List.filter_append, hleft, List.append_nil, List.filter_map] at h
  have h2 := congrArg (List.map Prod.snd) h
  simpa [List.map_map, Function.comp_def] using h2

/-- Nobody who is still active has missed a value. -/
theorem Law.called_of_active (law : Law past c) {k id : Nat} {d : α × List Nat}
    (hd : (deliveries past)[k]? = some d)
    (ended : k + 1 < (deliveries past).length ∨ c.turns = []) (hid : id ∈ d.2)
    (active : c.isActive id = true) : ∃ v, (k, id, v) ∈ calls past := by
  rw [law.called_iff]
  refine ⟨⟨d, hd, hid⟩, ?_⟩
  rw [← law.turns_of_over hd ended, List.mem_map] at hid
  obtain ⟨⟨j, i, heard⟩, hm, hi⟩ := hid
  obtain ⟨hturn, hk⟩ := List.mem_filter.1 hm
  obtain rfl : j = k := by simpa using hk
  obtain rfl : i = id := hi
  cases heard with
  | true => exact hturn
  | false =>
    have := not_isActive_of_mem_ended (law.ended _ hturn rfl)
    simp [this] at active

end StandingQuery.Channel
