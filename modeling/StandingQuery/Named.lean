/-! Things kept under names, the latest put last. -/

namespace StandingQuery

/-- A table with at most one entry per name, if built by `put` and `erase`. -/
abbrev Named (α : Type) := List (String × α)

namespace Named

variable {α : Type}

def get? (t : Named α) (name : String) : Option α := (t.find? (·.1 == name)).map (·.2)

def erase (t : Named α) (name : String) : Named α := t.filter (·.1 != name)

def put (t : Named α) (name : String) (a : α) : Named α := t.erase name ++ [(name, a)]

theorem mem_of_get? {t : Named α} {name : String} {a : α} (h : t.get? name = some a) :
    (name, a) ∈ t := by
  obtain ⟨p, hp, rfl⟩ := Option.map_eq_some_iff.1 h
  have hname : p.1 = name := by simpa using List.find?_some hp
  exact hname ▸ List.mem_of_find?_eq_some hp

theorem mem_of_mem_erase {t : Named α} {name : String} {p : String × α} (h : p ∈ t.erase name) :
    p ∈ t :=
  (List.mem_filter.1 h).1

theorem mem_of_mem_put {t : Named α} {name : String} {a : α} {p : String × α}
    (h : p ∈ t.put name a) : p ∈ t ∨ p = (name, a) := by
  rcases List.mem_append.1 h with h | h
  · exact .inl (mem_of_mem_erase h)
  · exact .inr (List.mem_singleton.1 h)

theorem get?_eq_none {t : Named α} {name : String} : t.get? name = none ↔ ∀ p ∈ t, p.1 ≠ name := by
  simp [get?]

theorem erase_of_get?_none {t : Named α} {name : String} (h : t.get? name = none) :
    t.erase name = t :=
  List.filter_eq_self.2 fun p hp => bne_iff_ne.2 (get?_eq_none.1 h p hp)

/-! ## One entry per name -/

def OnePerName (t : Named α) : Prop := (t.map (·.1)).Nodup

theorem OnePerName.erase {t : Named α} (h : t.OnePerName) (name : String) :
    (t.erase name).OnePerName :=
  h.sublist (List.filter_sublist.map _)

theorem OnePerName.put {t : Named α} (h : t.OnePerName) (name : String) (a : α) :
    (t.put name a).OnePerName := by
  rw [OnePerName, Named.put, List.map_append, List.nodup_append]
  refine ⟨h.erase name, by simp, fun n hn m hm same => ?_⟩
  obtain ⟨p, hp, rfl⟩ := List.mem_map.1 hn
  exact bne_iff_ne.1 (List.mem_filter.1 hp).2 (same.trans (List.mem_singleton.1 hm))

/-- What is found under a name is what is taken away with it. -/
theorem OnePerName.perm_erase {t : Named α} (h : t.OnePerName) {name : String} {a : α}
    (found : t.get? name = some a) : t.Perm ((name, a) :: t.erase name) := by
  induction t with
  | nil => cases found
  | cons p t ih =>
    obtain ⟨new, rest⟩ := List.nodup_cons.1 h
    by_cases hp : p.1 = name
    · have absent : Named.get? t name = none := get?_eq_none.2 fun q hq same =>
        new (List.mem_map.2 ⟨q, hq, same.trans hp.symm⟩)
      obtain rfl : p = (name, a) := by
        rw [get?, List.find?_cons_of_pos (by simpa using hp)] at found
        exact Prod.ext hp (Option.some.inj found)
      rw [Named.erase, List.filter_cons_of_neg (by simp)]
      exact .cons _ (.of_eq (erase_of_get?_none absent).symm)
    · rw [get?, List.find?_cons_of_neg (by simpa using hp)] at found
      rw [Named.erase, List.filter_cons_of_pos (by simpa using hp)]
      exact ((ih rest found).cons p).trans (.swap ..)

end Named
end StandingQuery
