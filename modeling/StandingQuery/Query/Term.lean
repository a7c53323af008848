/-! Search terms, and the map that holds at most one per field. The entries of the map ascend
strictly by key, so two maps with the same terms are equal whatever the order they were added in. -/

namespace StandingQuery

/-- A value that a field of an event must have, or must not have when inverted. -/
structure Term where
  value : String
  inverse : Bool
deriving DecidableEq, Repr

/-- A term that is not inverted. -/
def Term.matching (value : String) : Term := ⟨value, false⟩

structure TermMap where
  entries : List (String × Term)
  ascending : entries.Pairwise (·.1 < ·.1)
deriving DecidableEq, Repr

namespace TermMap

def empty : TermMap := ⟨[], .nil⟩

def size (m : TermMap) : Nat := m.entries.length

def isEmpty (m : TermMap) : Bool := m.entries.isEmpty

def get? (m : TermMap) (field : String) : Option Term :=
  (m.entries.find? (·.1 == field)).map (·.2)

/-- Puts an entry in its place, over one with the same key. -/
def insertEntry (k : String) (t : Term) : List (String × Term) → List (String × Term)
  | [] => [(k, t)]
  | e :: es =>
    if k < e.1 then (k, t) :: e :: es
    else if e.1 < k then e :: insertEntry k t es
    else (k, t) :: es

theorem mem_insertEntry {k : String} {t : Term} {es : List (String × Term)}
    {e : String × Term} (h : e ∈ insertEntry k t es) : e = (k, t) ∨ e ∈ es := by
  induction es with
  | nil => simpa [insertEntry] using h
  | cons d ds ih =>
    simp only [insertEntry] at h
    split at h
    · simpa using h
    · split at h
      · rcases List.mem_cons.1 h with rfl | h
        · simp
        · rcases ih h with h | h <;> simp [h]
      · rcases List.mem_cons.1 h with rfl | h <;> simp [*]

theorem pairwise_insertEntry (k : String) (t : Term) {es : List (String × Term)}
    (h : es.Pairwise (·.1 < ·.1)) : (insertEntry k t es).Pairwise (·.1 < ·.1) := by
  induction es with
  | nil => simp [insertEntry]
  | cons e es ih =>
    obtain ⟨he, hes⟩ := List.pairwise_cons.1 h
    simp only [insertEntry]
    split
    case isTrue hk =>
      refine List.pairwise_cons.2 ⟨fun d hd => ?_, h⟩
      rcases List.mem_cons.1 hd with rfl | hd
      · exact hk
      · exact String.lt_trans hk (he d hd)
    case isFalse hk =>
      split
      case isTrue hk' =>
        refine List.pairwise_cons.2 ⟨fun d hd => ?_, ih hes⟩
        rcases mem_insertEntry hd with rfl | hd
        · exact hk'
        · exact he d hd
      case isFalse hk' =>
        have : k = e.1 := String.le_antisymm (String.not_lt.1 hk') (String.not_lt.1 hk)
        exact List.pairwise_cons.2 ⟨fun d hd => this ▸ he d hd, hes⟩

def insert (m : TermMap) (field : String) (t : Term) : TermMap :=
  ⟨insertEntry field t m.entries, pairwise_insertEntry field t m.ascending⟩

/-- The pairs added in order, so of two with one key the later stays. -/
def ofList (pairs : List (String × Term)) : TermMap :=
  pairs.foldl (fun m (k, t) => m.insert k t) empty

end TermMap
end StandingQuery
