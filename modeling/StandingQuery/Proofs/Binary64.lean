import Mathlib
import StandingQuery.Binary64.Basic

/-! How far a rational is moved when it is made a binary64 number, and from where on it is out of
range. Both are read off the one significand that the quotient is rounded to. -/

namespace StandingQuery.Binary64

/-- The absolute value. -/
def magnitude (x : Binary64) : ℚ := x.significand * 2 ^ x.exponent

/-- Half a unit above the largest number. -/
def top : ℚ := (2 ^ 54 - 1) * 2 ^ 970

theorem top_eq : top = ((2 ^ 54 - 1) * 2 ^ 970 : Nat) := by
  -- for any exponent, so that the power is not computed
  have cast (k : Nat) : (((2 ^ 54 - 1) * 2 ^ k : Nat) : ℚ) = (2 ^ 54 - 1) * 2 ^ k := by
    push_cast
    norm_num
  exact (cast 970).symm

theorem magnitude_nonneg (x : Binary64) : 0 ≤ x.magnitude := by
  unfold magnitude
  positivity

/-! ## Rounding to an integer -/

/-- The nearest integer is half a unit away at most. -/
theorem roundQuotient_half (num : Nat) {den : Nat} (hden : 0 < den) :
    2 * num ≤ (2 * roundQuotient num den + 1) * den ∧
      2 * roundQuotient num den * den ≤ 2 * num + den := by
  have hnum := Nat.div_add_mod num den
  have hmod := Nat.mod_lt num hden
  unfold roundQuotient
  dsimp only
  generalize num / den = q at *
  generalize num % den = r at *
  have hq : q * den = den * q := Nat.mul_comm _ _
  have hodd : q % 2 = 0 ∨ q % 2 = 1 := Nat.mod_two_eq_zero_or_one q
  split
  · constructor <;> nlinarith
  · split
    · rcases hodd with h | h <;> rw [h] <;> constructor <;> nlinarith
    · constructor <;> nlinarith

theorem roundQuotient_near (num : Nat) {den : Nat} (hden : 0 < den) :
    (num / den : ℚ) ≤ roundQuotient num den + 1 / 2 ∧
      (roundQuotient num den : ℚ) ≤ num / den + 1 / 2 := by
  obtain ⟨h₁, h₂⟩ := roundQuotient_half num hden
  have hden : (0 : ℚ) < den := Nat.cast_pos.2 hden
  have h₁ : (2 * num : ℚ) ≤ (2 * roundQuotient num den + 1) * den := by exact_mod_cast h₁
  have h₂ : (2 * roundQuotient num den * den : ℚ) ≤ 2 * num + den := by exact_mod_cast h₂
  constructor
  · rw [div_le_iff₀ hden]
    linarith
  · rw [← sub_le_iff_le_add, le_div_iff₀ hden]
    linarith

/-! ## The unit -/

section
variable (num den : Nat)

/-- A quotient in units of `2 ^ e` is that of the two numbers that the rounding looks at. -/
theorem scaled_quotient (e : Int) :
    ((num * Nat.pow 2 (-e).toNat : Nat) : ℚ) / ((den * Nat.pow 2 e.toNat : Nat) : ℚ) =
      num / den / 2 ^ e := by
  have split : (2 : ℚ) ^ e * (2 : ℚ) ^ (-e).toNat = 2 ^ e.toNat := by
    rw [← zpow_natCast, ← zpow_natCast, ← zpow_add₀ two_ne_zero]
    congr 1
    omega
  simp only [Nat.pow_eq, Nat.cast_mul, Nat.cast_pow, Nat.cast_ofNat]
  rw [← split]
  field_simp

variable {num den} (hnum : 0 < num) (hden : 0 < den)
include hnum hden

/-- By its binary digits a quotient is known up to a factor of four. -/
theorem quotient_digits :
    (2 : ℚ) ^ 52 * 2 ^ (Int.ofNat num.log2 - Int.ofNat den.log2 - 53) ≤ num / den ∧
      (num / den : ℚ) < 2 ^ 54 * 2 ^ (Int.ofNat num.log2 - Int.ofNat den.log2 - 53) := by
  have numLow : (2 : ℚ) ^ num.log2 ≤ num := by exact_mod_cast Nat.log2_self_le hnum.ne'
  have numHigh : (num : ℚ) < 2 * 2 ^ num.log2 := by
    have : num < 2 ^ (num.log2 + 1) := Nat.lt_log2_self
    rw [pow_succ'] at this
    exact_mod_cast this
  have denLow : (2 : ℚ) ^ den.log2 ≤ den := by exact_mod_cast Nat.log2_self_le hden.ne'
  have denHigh : (den : ℚ) < 2 * 2 ^ den.log2 := by
    have : den < 2 ^ (den.log2 + 1) := Nat.lt_log2_self
    rw [pow_succ'] at this
    exact_mod_cast this
  have hden : (0 : ℚ) < den := Nat.cast_pos.2 hden
  have unit : (2 : ℚ) ^ (Int.ofNat num.log2 - Int.ofNat den.log2 - 53) =
      2 ^ num.log2 / 2 ^ den.log2 / 2 ^ 53 := by
    rw [zpow_sub₀ two_ne_zero, zpow_sub₀ two_ne_zero, Int.ofNat_eq_natCast, Int.ofNat_eq_natCast,
      zpow_natCast, zpow_natCast]
    rfl
  rw [unit]
  constructor
  · rw [le_div_iff₀ hden]
    field_simp
    nlinarith
  · rw [div_lt_iff₀ hden]
    field_simp
    nlinarith

theorem exponentFor_spec : leastExponent ≤ exponentFor num den ∧
    (num / den : ℚ) < 2 ^ 53 * 2 ^ exponentFor num den ∧
    (exponentFor num den = leastExponent ∨
      (2 : ℚ) ^ 52 * 2 ^ exponentFor num den ≤ num / den) := by
  obtain ⟨low, high⟩ := quotient_digits hnum hden
  rw [exponentFor]
  generalize Int.ofNat num.log2 - Int.ofNat den.log2 - 53 = e at low high
  have unit (k : Int) : (0 : ℚ) < 2 ^ k := zpow_pos two_pos k
  have whole : num * Nat.pow 2 (-e).toNat / (den * Nat.pow 2 e.toNat) < Nat.pow 2 53 ↔
      (num / den : ℚ) < 2 ^ 53 * 2 ^ e := by
    have hden : 0 < den * Nat.pow 2 e.toNat := Nat.mul_pos hden (Nat.two_pow_pos _)
    rw [Nat.div_lt_iff_lt_mul hden, ← Nat.cast_lt (α := ℚ), Nat.cast_mul (Nat.pow 2 53),
      ← div_lt_iff₀ (Nat.cast_pos.2 hden), scaled_quotient, div_lt_iff₀ (unit e)]
    norm_num
  -- with the greater of two units there is one digit less before the point
  have exact : ∃ f, (if num * Nat.pow 2 (-e).toNat / (den * Nat.pow 2 e.toNat) < Nat.pow 2 53
      then e else e + 1) = f ∧
        (2 : ℚ) ^ 52 * 2 ^ f ≤ num / den ∧ (num / den : ℚ) < 2 ^ 53 * 2 ^ f := by
    split
    · next h => exact ⟨e, rfl, low, whole.1 h⟩
    · next h =>
      have h := not_lt.1 (mt whole.2 h)
      refine ⟨e + 1, rfl, ?_, ?_⟩
      · rw [zpow_add_one₀ two_ne_zero]
        linarith
      · rw [zpow_add_one₀ two_ne_zero]
        linarith
  obtain ⟨f, hf, low, high⟩ := exact
  rw [hf]
  refine ⟨le_max_right _ _, ?_, ?_⟩
  · refine high.trans_le ?_
    gcongr
    · exact one_le_two
    · exact le_max_left _ _
  · rcases le_total f leastExponent with h | h
    · exact .inl (max_eq_right h)
    · rw [max_eq_left h]
      exact .inr low

end

/-! ## Rounding to a number -/

/-- The significand that a quotient is rounded to, and its unit. -/
structure Rounds (num den : Nat) (m : Nat) (e : Int) : Prop where
  above : (num / den : ℚ) ≤ m * 2 ^ e + 2 ^ e / 2
  below : (m * 2 ^ e : ℚ) ≤ num / den + 2 ^ e / 2
  lt : (num / den : ℚ) < 2 ^ 53 * 2 ^ e
  normal : e = leastExponent ∨ (2 : ℚ) ^ 52 * 2 ^ e ≤ num / den
  found : ∀ x, ofQuotient num den = some x → x.magnitude = m * 2 ^ e ∧
    (e < greatestExponent ∨ e = greatestExponent ∧ m < 2 ^ 53)
  lost : ofQuotient num den = none →
    greatestExponent < e ∨ e = greatestExponent ∧ 2 ^ 53 ≤ m

/-- Where the significand needs one digit more, the number is the least one of the next unit. -/
theorem ofQuotient_eq {num den m : Nat} {e : Int} (hnum : 0 < num) (he : exponentFor num den = e)
    (hm : roundQuotient (num * Nat.pow 2 (-e).toNat) (den * Nat.pow 2 e.toNat) = m) :
    ofQuotient num den =
      if m < Nat.pow 2 53 then if e ≤ greatestExponent then some ⟨false, m, e⟩ else none
      else if e + 1 ≤ greatestExponent then some ⟨false, Nat.pow 2 52, e + 1⟩ else none := by
  rw [ofQuotient, if_neg hnum.ne', he]
  dsimp only
  rw [hm]
  split <;> rfl

theorem exists_rounds {num den : Nat} (hnum : 0 < num) (hden : 0 < den) :
    ∃ m e, Rounds num den m e := by
  obtain ⟨-, lt, normal⟩ := exponentFor_spec hnum hden
  generalize he : exponentFor num den = e at lt normal
  have unit : (0 : ℚ) < 2 ^ e := zpow_pos two_pos e
  obtain ⟨above, below⟩ := roundQuotient_near (num * Nat.pow 2 (-e).toNat)
    (Nat.mul_pos hden (Nat.two_pow_pos e.toNat) : 0 < den * Nat.pow 2 e.toNat)
  rw [scaled_quotient] at above below
  generalize hm : roundQuotient _ _ = m at above below
  have result := ofQuotient_eq hnum he hm
  have size : Nat.pow 2 53 = 2 ^ 53 := rfl
  rw [div_le_iff₀ unit] at above
  rw [← sub_le_iff_le_add, le_div_iff₀ unit] at below
  have digits : m ≤ 2 ^ 53 := by
    have : (m : ℚ) < (2 ^ 53 + 1 : Nat) := by
      refine lt_of_mul_lt_mul_right ?_ unit.le
      push_cast
      linarith
    exact Nat.le_of_lt_succ (Nat.cast_lt.1 this)
  refine ⟨m, e, by linarith, by linarith, lt, normal, fun x found => ?_, fun lost => ?_⟩
  · rw [result] at found
    split at found
    · obtain ⟨le, found⟩ := (Option.ite_none_right_eq_some ..).1 found
      obtain rfl := Option.some.inj found
      exact ⟨rfl, by omega⟩
    · obtain ⟨le, found⟩ := (Option.ite_none_right_eq_some ..).1 found
      obtain rfl := Option.some.inj found
      obtain rfl : m = 2 ^ 53 := by omega
      refine ⟨?_, by omega⟩
      rw [magnitude, zpow_add_one₀ two_ne_zero]
      norm_num
      ring
  · rw [result] at lost
    split at lost
    · split at lost
      · cases lost
      · omega
    · split at lost
      · cases lost
      · omega

/-! ## What is out of range -/

section
variable {num den : Nat} (hden : 0 < den)
include hden

omit hden in
theorem two_zpow_greatest : (2 : ℚ) ^ greatestExponent = 2 * 2 ^ 970 := by
  rw [show greatestExponent = ((970 : Nat) : Int) + 1 from rfl, zpow_add_one₀ two_ne_zero,
    zpow_natCast, mul_comm]

/-- What is out of range is so by half a unit at least. -/
theorem top_le_of_none (h : ofQuotient num den = none) : top ≤ num / den := by
  have hnum : 0 < num := Nat.pos_of_ne_zero fun zero => by
    rw [ofQuotient, if_pos zero] at h
    cases h
  obtain ⟨m, e, r⟩ := exists_rounds hnum hden
  have greatest := two_zpow_greatest
  have half : (0 : ℚ) < 2 ^ 970 := pow_pos two_pos 970
  rw [top]
  generalize (2 : ℚ) ^ 970 = unit at *
  rcases r.lost h with lost | ⟨rfl, lost⟩
  · have least : e ≠ leastExponent := by
      rw [greatestExponent] at lost
      rw [leastExponent]
      omega
    have normal := r.normal.resolve_left least
    have next : (2 : ℚ) ^ greatestExponent * 2 ≤ 2 ^ e := by
      rw [← zpow_add_one₀ two_ne_zero]
      exact zpow_le_zpow_right₀ one_le_two lost
    linarith
  · have digits : (2 ^ 53 : ℚ) ≤ m := by exact_mod_cast lost
    have below := r.below
    rw [greatest] at below
    nlinarith

theorem le_top_of_some {x : Binary64} (h : ofQuotient num den = some x) :
    (num / den : ℚ) ≤ top := by
  have greatest := two_zpow_greatest
  have half : (0 : ℚ) < 2 ^ 970 := pow_pos two_pos 970
  rw [top]
  generalize (2 : ℚ) ^ 970 = unit at *
  rcases Nat.eq_zero_or_pos num with rfl | hnum
  · rw [Nat.cast_zero, zero_div]
    positivity
  obtain ⟨m, e, r⟩ := exists_rounds hnum hden
  rcases (r.found x h).2 with found | ⟨rfl, found⟩
  · have lt := r.lt
    have next : (2 : ℚ) ^ e * 2 ≤ 2 ^ greatestExponent := by
      rw [← zpow_add_one₀ two_ne_zero]
      exact zpow_le_zpow_right₀ one_le_two found
    linarith
  · have digits : (m + 1 : ℚ) ≤ 2 ^ 53 := by exact_mod_cast found
    have above := r.above
    rw [greatest] at above
    nlinarith

theorem exists_some (small : (num / den : ℚ) < top) : ∃ x, ofQuotient num den = some x := by
  cases h : ofQuotient num den with
  | some x => exact ⟨x, rfl⟩
  | none => exact absurd (top_le_of_none hden h) (not_le.2 small)

/-- A quotient that is not less than one is moved by a `2 ^ 53`-rd of itself at most. -/
theorem near_of_some (one : den ≤ num) {x : Binary64} (h : ofQuotient num den = some x) :
    (num / den : ℚ) * (1 - 1 / 2 ^ 53) ≤ x.magnitude ∧
      x.magnitude ≤ (num / den : ℚ) * (1 + 1 / 2 ^ 53) := by
  obtain ⟨m, e, r⟩ := exists_rounds (Nat.lt_of_lt_of_le hden one) hden
  rw [(r.found x h).1]
  have normal : (2 : ℚ) ^ 52 * 2 ^ e ≤ num / den := by
    refine r.normal.resolve_left fun least => ?_
    have lt := r.lt
    have one : (1 : ℚ) ≤ num / den := by
      rw [one_le_div (Nat.cast_pos.2 hden)]
      exact_mod_cast one
    have tiny : (2 : ℚ) ^ e ≤ 2 ^ (-53 : Int) :=
      zpow_le_zpow_right₀ one_le_two (by rw [least, leastExponent]; decide)
    norm_num at tiny
    linarith
  have above := r.above
  have below := r.below
  constructor <;> linarith

/-- No quotient is moved to more than about twice of itself. -/
theorem magnitude_le_of_some {x : Binary64} (h : ofQuotient num den = some x) :
    x.magnitude ≤ 2 * (num / den) + 1 := by
  rcases Nat.eq_zero_or_pos num with rfl | hnum
  · obtain rfl := Option.some.inj h
    simp [magnitude, zero]
  obtain ⟨m, e, r⟩ := exists_rounds hnum hden
  have below := r.below
  have positive : (0 : ℚ) ≤ num / den := by positivity
  rw [(r.found x h).1]
  rcases r.normal with least | normal
  · have tiny : (2 : ℚ) ^ e ≤ 2 ^ (0 : Int) :=
      zpow_le_zpow_right₀ one_le_two (by rw [least, leastExponent]; decide)
    rw [zpow_zero] at tiny
    linarith
  · linarith

end

/-! ## Products and quotients -/

theorem quotient_spec (x : Binary64) :
    0 < x.quotient.2 ∧ (x.quotient.1 / x.quotient.2 : ℚ) = x.magnitude := by
  refine ⟨Nat.two_pow_pos _, ?_⟩
  have scaled := scaled_quotient x.significand 1 (-x.exponent)
  rw [neg_neg, Nat.one_mul, Nat.cast_one, div_one, zpow_neg, div_inv_eq_mul] at scaled
  exact scaled

theorem product_spec (x y : Binary64) :
    (((x.quotient.1 * y.quotient.1 : Nat) : ℚ) / (x.quotient.2 * y.quotient.2 : Nat)) =
      x.magnitude * y.magnitude := by
  rw [← x.quotient_spec.2, ← y.quotient_spec.2]
  push_cast
  exact (div_mul_div_comm ..).symm

theorem top_le_of_mul?_none {x y : Binary64} (h : x.mul? y = none) :
    top ≤ x.magnitude * y.magnitude :=
  product_spec x y ▸ top_le_of_none (Nat.mul_pos x.quotient_spec.1 y.quotient_spec.1) h

theorem le_top_of_mul?_some {x y z : Binary64} (h : x.mul? y = some z) :
    x.magnitude * y.magnitude ≤ top :=
  product_spec x y ▸ le_top_of_some (Nat.mul_pos x.quotient_spec.1 y.quotient_spec.1) h

/-- What is not divided by much less than one stays in range. -/
theorem exists_div? {x y : Binary64} {b : ℚ} (hx : x.magnitude ≤ b) (hy : 1 / 2 ≤ y.magnitude)
    (hb : 2 * b < top) : ∃ z, x.div? y = some z ∧ z.magnitude ≤ 4 * b + 1 := by
  have dividend := x.quotient_spec
  have divisor := y.quotient_spec
  have positive : 0 < y.quotient.1 := Nat.pos_of_ne_zero fun zero => by
    rw [zero, Nat.cast_zero, zero_div] at divisor
    linarith [divisor.2]
  have value : (((x.quotient.1 * y.quotient.2 : Nat) : ℚ) / (x.quotient.2 * y.quotient.1 : Nat)) =
      x.magnitude / y.magnitude := by
    rw [← dividend.2, ← divisor.2]
    push_cast
    exact (div_div_div_eq ..).symm
  have le : x.magnitude / y.magnitude ≤ 2 * b := by
    rw [div_le_iff₀ (by linarith)]
    nlinarith [x.magnitude_nonneg]
  have den := Nat.mul_pos dividend.1 positive
  obtain ⟨z, hz⟩ := exists_some den (value ▸ le.trans_lt hb)
  refine ⟨z, hz, ?_⟩
  have bound := magnitude_le_of_some den hz
  rw [value] at bound
  linarith

end StandingQuery.Binary64
