import Mathlib
import StandingQuery.Text.Digit

/-! What a written number looks like: digits and nothing else, the first of them zero only when the
number is, and in a field exactly as many as the field is wide. -/

namespace StandingQuery.Text

/-- One digit or more. -/
structure Digits where
  chars : List Char
  nonempty : chars ≠ []
  digit : ∀ c ∈ chars, c.isDigit = true

/-- The text does not go on with a digit. -/
def NoDigitNext (s : List Char) : Prop := ∀ c ∈ s.head?, c.isDigit = false

theorem span_isDigit {ds r : List Char} (hds : ∀ c ∈ ds, c.isDigit = true) (hr : NoDigitNext r) :
    (ds ++ r).span Char.isDigit = (ds, r) := by
  have hr : r.takeWhile Char.isDigit = [] ∧ r.dropWhile Char.isDigit = r := by
    cases r with
    | nil => simp
    | cons c r =>
      have hc : c.isDigit = false := hr c rfl
      simp [hc]
  rw [List.span_eq_takeWhile_dropWhile, List.takeWhile_append_of_pos hds,
    List.dropWhile_append_of_pos hds, hr.1, hr.2, List.append_nil]

theorem Digits.eq_cons (ds : Digits) : ∃ c cs, ds.chars = c :: cs ∧ c.isDigit = true := by
  obtain ⟨c, cs, hd⟩ := List.exists_cons_of_ne_nil ds.nonempty
  exact ⟨c, cs, hd, ds.digit c (hd ▸ List.mem_cons_self)⟩

theorem decimalValue_lt {ds : List Char} (h : ∀ c ∈ ds, c.isDigit = true) :
    decimalValue ds < 10 ^ ds.length := by
  induction ds using List.reverseRecOn with
  | nil => exact Nat.one_pos
  | append_singleton ds c ih =>
    have hds := ih fun d hd => h d (List.mem_append_left _ hd)
    have hc : 48 ≤ c.toNat ∧ c.toNat ≤ 57 := Char.isDigit_iff_toNat.1 (h c (by simp))
    have hvalue : decimalValue (ds ++ [c]) = 10 * decimalValue ds + (c.toNat - 48) := by
      rw [decimalValue, Nat.ofDigitChars_append]
      rfl
    rw [hvalue, List.length_append, List.length_singleton, Nat.pow_succ]
    omega

/-! ## Without leading zeros -/

theorem isDigit_of_mem_decimal {n : Nat} {c : Char} (h : c ∈ decimal n) : c.isDigit = true :=
  Nat.isDigit_of_mem_toDigits (by decide) (by decide) h

theorem decimal_of_pos {n : Nat} (h : 0 < n) : ∃ c ds, decimal n = c :: ds ∧ c ≠ '0' := by
  induction n using Nat.strongRecOn with
  | ind n ih =>
    rw [decimal, Nat.toDigits_eq_if (by decide)]
    split
    case isTrue =>
      refine ⟨n.digitChar, [], rfl, ?_⟩
      rw [ne_eq, Nat.digitChar_eq_zero]
      omega
    case isFalse hn =>
      obtain ⟨c, ds, hd, hc⟩ := ih (n / 10) (by omega) (by omega)
      rw [decimal] at hd
      exact ⟨c, ds ++ [(n % 10).digitChar], by rw [hd]; rfl, hc⟩

/-! ## In a field -/

theorem isDigit_of_mem_decimalIn {width n : Nat} {c : Char} (h : c ∈ decimalIn width n) :
    c.isDigit = true := by
  rcases List.mem_append.1 h with h | h
  · rw [List.eq_of_mem_replicate h]
    rfl
  · exact isDigit_of_mem_decimal h

theorem decimalIn_eq_cons (width n : Nat) :
    ∃ c ds, decimalIn width n = c :: ds ∧ c.isDigit = true := by
  have hne : decimalIn width n ≠ [] :=
    List.append_ne_nil_of_right_ne_nil _ (Nat.toDigits_ne_nil : decimal n ≠ [])
  obtain ⟨c, ds, hd⟩ := List.exists_cons_of_ne_nil hne
  exact ⟨c, ds, hd, isDigit_of_mem_decimalIn (hd ▸ List.mem_cons_self)⟩

theorem decimalValue_decimalIn (width n : Nat) : decimalValue (decimalIn width n) = n := by
  rw [decimalIn, padZero, decimalValue, Nat.ofDigitChars_append, Nat.ofDigitChars_replicate_zero,
    Nat.mul_zero]
  exact decimalValue_decimal n

theorem length_decimalIn {width n : Nat} (hw : 0 < width) (hn : n < 10 ^ width) :
    (decimalIn width n).length = width := by
  have : (decimal n).length ≤ width := (Nat.length_toDigits_le_iff (by decide) hw).2 hn
  rw [decimalIn, padZero, List.length_append, List.length_replicate]
  omega

end StandingQuery.Text
