/-! White space in the sense of the Unicode property `White_Space`, and the trimming that goes
with it. There are more such characters than `Char.isWhitespace` knows, for instance the no-break
space. -/

namespace StandingQuery.Text

/-- The 25 characters with the property `White_Space`. -/
def isBlank (c : Char) : Bool :=
  let n := c.toNat
  (9 ≤ n && n ≤ 13) || n == 0x20 || n == 0x85 || n == 0xA0 || n == 0x1680 ||
    (0x2000 ≤ n && n ≤ 0x200A) || n == 0x2028 || n == 0x2029 || n == 0x202F ||
    n == 0x205F || n == 0x3000

def skipBlanks (s : List Char) : List Char := s.dropWhile isBlank

/-- The text without the blanks at either end. -/
def trim (s : List Char) : List Char := (skipBlanks (skipBlanks s).reverse).reverse

def isAllBlank (s : List Char) : Bool := s.all isBlank

theorem skipBlanks_eq_nil_iff {s : List Char} : skipBlanks s = [] ↔ isAllBlank s = true := by
  induction s with
  | nil => simp [skipBlanks, isAllBlank]
  | cons c s ih =>
    simp only [skipBlanks, isAllBlank, List.dropWhile_cons, List.all_cons] at ih ⊢
    cases isBlank c <;> simp [ih]

theorem trim_eq_nil_iff {s : List Char} : trim s = [] ↔ isAllBlank s = true := by
  rw [← skipBlanks_eq_nil_iff, trim]
  constructor
  · intro h
    have h' : isAllBlank (skipBlanks s) = true := by
      rw [List.reverse_eq_nil_iff, skipBlanks_eq_nil_iff] at h
      simpa [isAllBlank, List.all_reverse] using h
    cases hs : skipBlanks s with
    | nil => rfl
    | cons c r =>
      have hc : isBlank c = true := by
        rw [hs] at h'
        simp only [isAllBlank, List.all_cons, Bool.and_eq_true] at h'
        exact h'.1
      have := List.head?_dropWhile_not isBlank s
      simp only [skipBlanks] at hs
      simp [hs, hc] at this
  · intro h
    rw [h]
    rfl

end StandingQuery.Text
