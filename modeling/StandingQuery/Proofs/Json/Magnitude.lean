import StandingQuery.Proofs.Binary64
import StandingQuery.Proofs.Json.Value

/-! What number a literal writes, of any length and with any exponent, and what the reader makes of
it. An integer of at most 64 bits is kept. For any other literal the digits that fit 64 bits are
taken and scaled by a rounded power of ten; that is off by less than a unit in `2 ^ 51`, so that it
decides what is out of range for all magnitudes but those next to `2 ^ 1024`. -/

namespace StandingQuery.Json

open Text (decimalValue)

/-! ## The number written -/

namespace NumberLiteral

variable (l : NumberLiteral)

def fractionDigits : List Char := (l.fraction.map Text.Digits.chars).getD []

/-- The power of ten that the exponent writes. -/
def scale : Int :=
  match l.exponent with
  | none => 0
  | some e => (if e.sign = some true then -1 else 1) * decimalValue e.digits.chars

def magnitude : ℚ :=
  (decimalValue l.whole.chars + decimalValue l.fractionDigits / 10 ^ l.fractionDigits.length) *
    10 ^ l.scale

def value : ℚ := (if l.negative then -1 else 1) * l.magnitude

/-- Spelled as an integer other than `-0`, and of at most 64 bits. -/
def Kept (n : Int) : Prop := l.IsInteger n ∧ -2 ^ 63 ≤ n ∧ n < 2 ^ 64

theorem fractionDigits_isDigit : ∀ c ∈ l.fractionDigits, c.isDigit = true := by
  unfold fractionDigits
  cases l.fraction with
  | none => exact fun c hc => absurd hc List.not_mem_nil
  | some digits => exact digits.digit

theorem magnitude_nonneg : 0 ≤ l.magnitude := by
  unfold magnitude
  positivity

theorem abs_value : |l.value| = l.magnitude := by
  rw [value, abs_mul, abs_of_nonneg l.magnitude_nonneg]
  split <;> simp

variable {l} {n : Int}

theorem value_of_whole (fraction : l.fraction = none) (exponent : l.exponent = none) :
    l.value = ((if l.negative then -1 else 1) * decimalValue l.whole.chars : Int) := by
  rw [value, magnitude, fractionDigits, scale, fraction, exponent]
  simp [decimalValue]

theorem isInteger_iff : l.IsInteger n ↔ l.fraction = none ∧ l.exponent = none ∧ l.value = n ∧
    (l.negative = true → l.value ≠ 0) := by
  constructor
  · rintro ⟨fraction, exponent, rfl, signed⟩
    rw [value_of_whole fraction exponent]
    exact ⟨fraction, exponent, rfl, fun negative => Int.cast_ne_zero.2 (signed negative)⟩
  · rintro ⟨fraction, exponent, value, signed⟩
    rw [value] at signed
    rw [value_of_whole fraction exponent, Int.cast_inj] at value
    exact ⟨fraction, exponent, value.symm, fun negative => Int.cast_ne_zero.1 (signed negative)⟩

theorem IsInteger.value_eq (h : l.IsInteger n) : l.value = n := (isInteger_iff.1 h).2.2.1

end NumberLiteral

/-! ## The digits that are taken -/

namespace Numeral

theorem digitValue_le {c : Char} (h : c.isDigit = true) : Text.digitValue c ≤ 9 := by
  have digit : 48 ≤ c.toNat ∧ c.toNat ≤ 57 := Char.isDigit_iff_toNat.1 h
  show c.toNat - 48 ≤ 9
  omega

/-- The digits are taken until a number of 64 bits is as good as full. -/
theorem leading_spec (n : Nat) {ds : List Char} (digits : ∀ c ∈ ds, c.isDigit = true) :
    ∃ taken, ds = taken ++ (leading n ds).2 ∧ (leading n ds).1 = Nat.ofDigitChars 10 taken n ∧
      ((leading n ds).2 ≠ [] → 2 ^ 60 ≤ (leading n ds).1) := by
  induction ds generalizing n with
  | nil => exact ⟨[], rfl, rfl, fun h => absurd rfl h⟩
  | cons d ds ih =>
    obtain ⟨digit, digits⟩ := List.forall_mem_cons.1 digits
    rw [leading]
    split
    · obtain ⟨taken, parts, value, full⟩ := ih (10 * n + Text.digitValue d) digits
      exact ⟨d :: taken, congrArg (d :: ·) parts, value.trans Nat.ofDigitChars_cons.symm, full⟩
    · next large =>
      refine ⟨[], rfl, rfl, fun _ => ?_⟩
      have size : UInt64.size = 2 ^ 64 := rfl
      have := digitValue_le digit
      show 2 ^ 60 ≤ n
      omega

theorem leading_lt {n : Nat} (h : n < 2 ^ 64) (ds : List Char) : (leading n ds).1 < 2 ^ 64 := by
  induction ds generalizing n with
  | nil => exact h
  | cons d ds ih =>
    rw [leading]
    split
    · next fits => exact ih fits
    · exact h

/-- The significand that is taken. -/
def significand (l : NumberLiteral) : Nat :=
  (leading (leading 0 l.whole.chars).1 l.fractionDigits).1

/-- The power of ten that it is scaled by. -/
def shift (l : NumberLiteral) : Int :=
  (leading 0 l.whole.chars).2.length -
    ((l.fractionDigits.length : Nat) -
      (leading (leading 0 l.whole.chars).1 l.fractionDigits).2.length : Nat) + l.scale

theorem significand_lt (l : NumberLiteral) : significand l < 2 ^ 64 :=
  leading_lt (leading_lt (by decide) _) _

theorem float?_ofLiteral (l : NumberLiteral) : (ofLiteral l).float? =
    (scaled? (significand l) (shift l)).map ({ · with negative := l.negative }) := by
  have scale : (ofLiteral l).writtenExponent = l.scale := by
    rw [writtenExponent, NumberLiteral.scale, ofLiteral]
    cases l.exponent with
    | none => rfl
    | some e =>
      obtain ⟨_, sign, digits⟩ := e
      rcases sign with _ | _ | _ <;> simp
  rw [float?, scale, Option.map_eq_bind]
  rfl

theorem cast_decimalValue_append (ds es : List Char) :
    (decimalValue (ds ++ es) : ℚ) = 10 ^ es.length * decimalValue ds + decimalValue es := by
  rw [decimalValue, Nat.ofDigitChars_append, Nat.ofDigitChars_eq_ofDigitChars_zero]
  push_cast
  rfl

theorem cast_decimalValue_lt {ds : List Char} (h : ∀ c ∈ ds, c.isDigit = true) :
    (decimalValue ds : ℚ) + 1 ≤ 10 ^ ds.length := by
  exact_mod_cast Text.decimalValue_lt h

section
variable {n d x t v r u s : ℚ} (ht : 0 < t) (hr : 0 < r) (hs : 0 < s) (hu : 0 ≤ u)
include ht hr hs hu

/-- All digits before the point are taken, and of those behind it all or enough. -/
theorem near_of_whole (enough : u ≤ r * ((t * n + v) * (1 / 2 ^ 60))) :
    (t * n + v) / t * s ≤ (n + (r * v + u) / (t * r)) * s ∧
      (n + (r * v + u) / (t * r)) * s ≤ (t * n + v) / t * s * (1 + 1 / 2 ^ 60) := by
  have more : (n + (r * v + u) / (t * r)) * s = (t * n + v) / t * s + u / (t * r) * s := by
    field_simp
    ring
  rw [more, mul_add, mul_one]
  refine ⟨le_add_of_nonneg_right (by positivity), add_le_add_right ?_ _⟩
  have same :
      (t * n + v) / t * s * (1 / 2 ^ 60) = r * ((t * n + v) * (1 / 2 ^ 60)) / (t * r) * s := by
    field_simp
  rw [same]
  gcongr

/-- Enough digits before the point are taken; it does not matter much what comes behind them. -/
theorem near_of_cut (hv : 0 ≤ v) (hd : 0 < d) (hx : 0 ≤ x) (enough : 2 ^ 60 ≤ n)
    (hxd : x + 1 ≤ d) (hvt : v ≤ t) (hvr : r * v + u ≤ t * r) :
    (d * n * s ≤ (t * n + v) * (d / t * s) ∧
      (t * n + v) * (d / t * s) ≤ d * n * s * (1 + 1 / 2 ^ 60)) ∧
    (d * n * s ≤ (d * n + x + (r * v + u) / (t * r)) * s ∧
      (d * n + x + (r * v + u) / (t * r)) * s ≤ d * n * s * (1 + 1 / 2 ^ 60)) := by
  have next : d * n * s + d * s ≤ d * n * s * (1 + 1 / 2 ^ 60) := by
    have : d * s * 1 ≤ d * s * (n * (1 / 2 ^ 60)) := by
      gcongr
      linarith
    linarith
  have taken : (t * n + v) * (d / t * s) = d * n * s + v / t * (d * s) := by
    field_simp
  have part : v / t ≤ 1 := (div_le_one ht).2 hvt
  have rest : (r * v + u) / (t * r) ≤ 1 := (div_le_one (by positivity)).2 hvr
  refine ⟨⟨?_, le_trans ?_ next⟩, ?_, le_trans ?_ next⟩
  · rw [taken]
    exact le_add_of_nonneg_right (by positivity)
  · rw [taken]
    have : v / t * (d * s) ≤ 1 * (d * s) := by gcongr
    linarith
  · refine mul_le_mul_of_nonneg_right ?_ hs.le
    linarith [show (0 : ℚ) ≤ (r * v + u) / (t * r) by positivity]
  · rw [← add_mul]
    exact mul_le_mul_of_nonneg_right (by linarith) hs.le

end

/-- The digits before and behind the point, each of those that are taken and those that are not. -/
structure Takings (l : NumberLiteral) (taken dropped used left : List Char) : Prop where
  whole : l.whole.chars = taken ++ dropped
  fraction : l.fractionDigits = used ++ left
  significand : significand l = decimalValue (taken ++ used)
  shift : shift l = dropped.length - used.length + l.scale
  before : dropped ≠ [] → 2 ^ 60 ≤ decimalValue taken
  behind : left ≠ [] → 2 ^ 60 ≤ decimalValue (taken ++ used)

theorem exists_takings (l : NumberLiteral) :
    ∃ taken dropped used left, Takings l taken dropped used left := by
  obtain ⟨taken, whole, front, full⟩ := leading_spec 0 l.whole.digit
  obtain ⟨used, fraction, sig, full'⟩ :=
    leading_spec (leading 0 l.whole.chars).1 l.fractionDigits_isDigit
  have front : (leading 0 l.whole.chars).1 = decimalValue taken := front
  have both :
      (leading (leading 0 l.whole.chars).1 l.fractionDigits).1 = decimalValue (taken ++ used) := by
    rw [sig, front, decimalValue, decimalValue, Nat.ofDigitChars_append]
  refine ⟨taken, _, used, _, whole, fraction, both, ?_, front ▸ full, both ▸ full'⟩
  have length := congrArg List.length fraction
  rw [List.length_append] at length
  rw [shift, length, Nat.add_sub_cancel]

/-- What is taken and what is written lie next to each other: both are `a`, or less than a unit in
`2 ^ 60` above it. -/
theorem exists_near (l : NumberLiteral) : ∃ a : ℚ,
    (a ≤ significand l * 10 ^ shift l ∧ significand l * 10 ^ shift l ≤ a * (1 + 1 / 2 ^ 60)) ∧
    (a ≤ l.magnitude ∧ l.magnitude ≤ a * (1 + 1 / 2 ^ 60)) := by
  obtain ⟨taken, dropped, used, left, whole, fraction, significand, shift, before, behind⟩ :=
    exists_takings l
  have digits := whole ▸ l.whole.digit
  have digits' := fraction ▸ l.fractionDigits_isDigit
  have droppedLt := cast_decimalValue_lt fun c hc => digits c (List.mem_append_right _ hc)
  have usedLt := cast_decimalValue_lt fun c hc => digits' c (List.mem_append_left _ hc)
  have leftLt := cast_decimalValue_lt fun c hc => digits' c (List.mem_append_right _ hc)
  have scale : (0 : ℚ) < 10 ^ l.scale := zpow_pos (by norm_num) _
  have nonneg (ds : List Char) : (0 : ℚ) ≤ decimalValue ds := Nat.cast_nonneg _
  have pos (k : Nat) : (0 : ℚ) < 10 ^ k := by positivity
  rw [NumberLiteral.magnitude, significand, shift, whole, fraction, cast_decimalValue_append,
    cast_decimalValue_append, cast_decimalValue_append, List.length_append, pow_add,
    zpow_add₀ (by norm_num), zpow_sub₀ (by norm_num), zpow_natCast, zpow_natCast]
  by_cases cut : dropped = []
  · subst cut
    have enough : (decimalValue left : ℚ) ≤ 10 ^ left.length *
        ((10 ^ used.length * decimalValue taken + decimalValue used) * (1 / 2 ^ 60)) := by
      rw [← cast_decimalValue_append]
      by_cases all : left = []
      · subst all
        exact (Nat.cast_zero (R := ℚ)).trans_le (by positivity)
      · have many : (2 ^ 60 : ℚ) ≤ decimalValue (taken ++ used) := by exact_mod_cast behind all
        have : (10 : ℚ) ^ left.length * (2 ^ 60 * (1 / 2 ^ 60)) ≤ _ :=
          mul_le_mul_of_nonneg_left (mul_le_mul_of_nonneg_right many (by norm_num)) (pos _).le
        linarith
    have near := near_of_whole (pos _) (pos _) scale (nonneg _) enough
    have nothing : (decimalValue [] : ℚ) = 0 := Nat.cast_zero
    rw [List.length_nil, pow_zero, nothing, one_mul, add_zero, div_mul_eq_mul_div, one_mul,
      ← mul_div_assoc, mul_div_right_comm]
    exact ⟨_, ⟨le_refl _, le_mul_of_one_le_right (by positivity) (by norm_num)⟩, near⟩
  · have many : (2 ^ 60 : ℚ) ≤ decimalValue taken := by exact_mod_cast before cut
    refine ⟨_, near_of_cut (pos _) (pos _) scale (nonneg _) (nonneg _) (pos _) (nonneg _) many
      droppedLt (by linarith) ?_⟩
    nlinarith [pos left.length, pos used.length]

/-! ## Scaling -/

open Binary64 (top)

theorem powerOfTen_near {k : Nat} (h : k ≤ 308) :
    (10 : ℚ) ^ k * (1 - 1 / 2 ^ 53) ≤ (powerOfTen k).magnitude ∧
      (powerOfTen k).magnitude ≤ 10 ^ k * (1 + 1 / 2 ^ 53) := by
  have quotient : (((10 ^ k : Nat) : ℚ) / (1 : Nat)) = 10 ^ k := by simp
  have small : (((10 ^ k : Nat) : ℚ) / (1 : Nat)) < top := by
    have largest : 10 ^ 308 < (2 ^ 54 - 1) * 2 ^ 970 := by decide +kernel
    rw [Nat.cast_one, div_one, Binary64.top_eq, Nat.cast_lt]
    exact (pow_le_pow_right₀ (by decide) h).trans_lt largest
  obtain ⟨x, hx⟩ := Binary64.exists_some Nat.one_pos small
  have near := Binary64.near_of_some Nat.one_pos (Nat.pow_pos (by decide)) hx
  rw [quotient] at near
  rwa [powerOfTen, Nat.pow_eq, hx]

theorem significand_near {m : Nat} (h : m < 2 ^ 64) : ∃ x, Binary64.ofQuotient m 1 = some x ∧
    (x.isZero = true ↔ m = 0) ∧
    (m : ℚ) * (1 - 1 / 2 ^ 53) ≤ x.magnitude ∧ x.magnitude ≤ m * (1 + 1 / 2 ^ 53) := by
  rcases Nat.eq_zero_or_pos m with rfl | hm
  · refine ⟨.zero, rfl, by decide, ?_⟩
    simp [Binary64.magnitude, Binary64.zero]
  have small : (m / (1 : Nat) : ℚ) < top := by
    have largest : 2 ^ 64 < (2 ^ 54 - 1) * 2 ^ 970 := by decide +kernel
    rw [Nat.cast_one, div_one, Binary64.top_eq, Nat.cast_lt]
    exact h.trans largest
  obtain ⟨x, hx⟩ := Binary64.exists_some Nat.one_pos small
  have near := Binary64.near_of_some Nat.one_pos hm hx
  rw [Nat.cast_one, div_one] at near
  refine ⟨x, hx, ⟨fun zero => ?_, fun zero => absurd zero hm.ne'⟩, near⟩
  have nothing : x.magnitude = 0 := by
    rw [Binary64.magnitude, beq_iff_eq.1 zero, Nat.cast_zero, zero_mul]
  rw [nothing] at near
  have : (1 : ℚ) ≤ m := by exact_mod_cast hm
  linarith [near.1]

theorem half_le_powerOfTen {k : Nat} (h : k ≤ 308) : 1 / 2 ≤ (powerOfTen k).magnitude := by
  have near := (powerOfTen_near h).1
  have one : (1 : ℚ) ≤ 10 ^ k := one_le_pow₀ (by norm_num)
  linarith

theorem lt_top {b : ℚ} (h : b ≤ 2 ^ 72) : b < top := by
  have large : 2 ^ 72 < (2 ^ 54 - 1) * 2 ^ 970 := by decide +kernel
  rw [Binary64.top_eq]
  exact h.trans_lt (by exact_mod_cast large)

/-- Nothing is out of range where the exponent is negative. -/
theorem scaled?_of_neg {m : Nat} {e : Int} (hm : m < 2 ^ 64) (he : e < 0) :
    ∃ x, scaled? m e = some x := by
  obtain ⟨x, hx, -, -, near⟩ := significand_near hm
  have size : (m : ℚ) ≤ 2 ^ 64 := by exact_mod_cast hm.le
  have bound : x.magnitude ≤ 2 ^ 65 := by linarith
  rw [scaled?, hx, Option.bind_eq_bind, Option.bind_some]
  split
  · next small =>
    obtain ⟨y, hy, -⟩ := Binary64.exists_div? bound (half_le_powerOfTen small)
      (lt_top (by norm_num))
    rw [if_neg (not_le.2 he)]
    exact ⟨y, hy⟩
  · split
    · exact ⟨x, rfl⟩
    · rw [if_neg (not_le.2 he)]
      split
      · next small =>
        obtain ⟨y, hy, bound⟩ :=
          Binary64.exists_div? bound (half_le_powerOfTen (le_refl 308)) (lt_top (by norm_num))
        obtain ⟨z, hz, -⟩ :=
          Binary64.exists_div? bound (half_le_powerOfTen small) (lt_top (by norm_num))
        rw [hy, Option.bind_some]
        exact ⟨z, hz⟩
      · exact ⟨.zero, rfl⟩

/-- Where the exponent is not negative there is one product, unless it is beyond all powers. -/
theorem scaled?_of_nonneg {m : Nat} {x : Binary64} (hx : Binary64.ofQuotient m 1 = some x)
    (k : Nat) :
    scaled? m k = if k ≤ 308 then x.mul? (powerOfTen k) else if x.isZero then some x else none := by
  rw [scaled?, hx, Option.bind_eq_bind, Option.bind_some, Int.natAbs_natCast,
    if_pos (Int.natCast_nonneg k), if_pos (Int.natCast_nonneg k)]

/-- What is out of range is so with the significand and the power of ten as they are. -/
theorem top_le_of_scaled?_none {m : Nat} {e : Int} (hm : m < 2 ^ 64) (h : scaled? m e = none) :
    top ≤ m * 10 ^ e * (1 + 1 / 2 ^ 53) ^ 2 := by
  rcases Int.lt_or_le e 0 with he | he
  · obtain ⟨x, hx⟩ := scaled?_of_neg hm he
    rw [hx] at h
    cases h
  obtain ⟨k, rfl⟩ := Int.eq_ofNat_of_zero_le he
  obtain ⟨x, hx, zero, -, near⟩ := significand_near hm
  rw [scaled?_of_nonneg hx] at h
  rw [zpow_natCast]
  split at h
  · next small =>
    calc top ≤ x.magnitude * (powerOfTen k).magnitude := Binary64.top_le_of_mul?_none h
      _ ≤ m * (1 + 1 / 2 ^ 53) * (10 ^ k * (1 + 1 / 2 ^ 53)) := by
        gcongr
        · exact Binary64.magnitude_nonneg _
        · exact (powerOfTen_near small).2
      _ = m * 10 ^ k * (1 + 1 / 2 ^ 53) ^ 2 := by ring
  · next large =>
    have one : 1 ≤ m := Nat.one_le_iff_ne_zero.2 fun hm => by
      rw [if_pos (zero.2 hm)] at h
      cases h
    have beyond : (2 ^ 54 - 1) * 2 ^ 970 ≤ 10 ^ 309 := by decide +kernel
    have power : 10 ^ 309 ≤ 10 ^ k := pow_le_pow_right₀ (by decide) (by omega)
    calc top ≤ ((10 ^ k : Nat) : ℚ) := by
          rw [Binary64.top_eq, Nat.cast_le]
          exact beyond.trans power
      _ = 1 * 10 ^ k * 1 := by push_cast; ring
      _ ≤ m * 10 ^ k * (1 + 1 / 2 ^ 53) ^ 2 := by
        gcongr
        · exact_mod_cast one
        · norm_num

theorem le_top_of_scaled?_some {m : Nat} {e : Int} (hm : m < 2 ^ 64) {y : Binary64}
    (h : scaled? m e = some y) : m * 10 ^ e * (1 - 1 / 2 ^ 53) ^ 2 ≤ top := by
  rcases Int.lt_or_le e 0 with he | he
  · have size : (m : ℚ) ≤ 2 ^ 64 := by exact_mod_cast hm.le
    have small : (10 : ℚ) ^ e ≤ 1 := zpow_le_one_of_nonpos₀ (by norm_num) he.le
    refine (lt_top ?_).le
    calc (m : ℚ) * 10 ^ e * (1 - 1 / 2 ^ 53) ^ 2 ≤ 2 ^ 64 * 1 * 1 := by
          gcongr
          norm_num
      _ ≤ 2 ^ 72 := by norm_num
  obtain ⟨k, rfl⟩ := Int.eq_ofNat_of_zero_le he
  obtain ⟨x, hx, zero, near, -⟩ := significand_near hm
  rw [scaled?_of_nonneg hx] at h
  rw [zpow_natCast]
  split at h
  · next small =>
    calc (m : ℚ) * 10 ^ k * (1 - 1 / 2 ^ 53) ^ 2
        = m * (1 - 1 / 2 ^ 53) * (10 ^ k * (1 - 1 / 2 ^ 53)) := by ring
      _ ≤ x.magnitude * (powerOfTen k).magnitude := by
        gcongr
        · exact Binary64.magnitude_nonneg _
        · exact (powerOfTen_near small).1
      _ ≤ top := Binary64.le_top_of_mul?_some h
  · split at h
    · next nothing =>
      rw [zero.1 nothing, Nat.cast_zero, zero_mul, zero_mul]
      exact (lt_top (by norm_num)).le
    · cases h

/-! ## What is out of range -/

theorem float?_none (l : NumberLiteral) (h : (ofLiteral l).float? = none) :
    2 ^ 1024 - 2 ^ 973 < l.magnitude := by
  rw [float?_ofLiteral, Option.map_eq_none_iff] at h
  obtain ⟨a, ⟨-, taken⟩, written, -⟩ := exists_near l
  have out := top_le_of_scaled?_none (significand_lt l) h
  have positive : (0 : ℚ) < 2 ^ 970 := pow_pos two_pos 970
  rw [show (1024 : Nat) = 54 + 970 from rfl, show (973 : Nat) = 3 + 970 from rfl, pow_add, pow_add]
  rw [top] at out
  generalize (2 : ℚ) ^ 970 = unit at *
  have : (2 ^ 54 - 1) * unit ≤ l.magnitude * (1 + 1 / 2 ^ 60) * (1 + 1 / 2 ^ 53) ^ 2 := by
    refine out.trans (mul_le_mul_of_nonneg_right ?_ (by positivity))
    linarith
  norm_num at this ⊢
  linarith

theorem float?_some (l : NumberLiteral) {x : Binary64} (h : (ofLiteral l).float? = some x) :
    l.magnitude < 2 ^ 1024 + 2 ^ 973 := by
  rw [float?_ofLiteral] at h
  obtain ⟨y, h, -⟩ := Option.map_eq_some_iff.1 h
  obtain ⟨a, ⟨taken, -⟩, -, written⟩ := exists_near l
  have within := le_top_of_scaled?_some (significand_lt l) h
  have positive : (0 : ℚ) < 2 ^ 970 := pow_pos two_pos 970
  rw [show (1024 : Nat) = 54 + 970 from rfl, show (973 : Nat) = 3 + 970 from rfl, pow_add, pow_add]
  rw [top] at within
  generalize (2 : ℚ) ^ 970 = unit at *
  norm_num at taken written within ⊢
  linarith

end Numeral

/-! ## What the reader makes of a literal -/

section
variable {l : NumberLiteral}

theorem peeks_kept {n : Int} (h : l.Kept n) : Takes peekSurface l.print (.number (.integer n)) :=
  peeks_integer h.1 h.2.1 h.2.2

theorem peekSurface_other (other : ∀ n, ¬ l.Kept n) {w rest : List Char} (hw : Blanks w)
    (hr : Ends rest) : peekSurface (w ++ (l.print ++ rest)) =
      match (Numeral.ofLiteral l).float? with
      | some x => .ok (.number (.float x), rest)
      | none => .error (.malformed .numberTooLarge) := by
  have integer : (Numeral.ofLiteral l).integer? = none :=
    Option.eq_none_iff_forall_ne_some.2 fun n hn => other n (Numeral.integer?_ofLiteral.1 hn)
  have scan := Numeral.scan_literal (.ended .value) l hr
  obtain ⟨c, r, hl, hc⟩ := print_eq_cons l
  rw [hl, List.cons_append] at scan ⊢
  rw [peekSurface_blanks hw, peekSurface_numeric hc]
  simp only [numberToken, scan, bind, Except.bind, Numeral.number, integer]
  cases (Numeral.ofLiteral l).float? <;> rfl

theorem peeks_float (other : ∀ n, ¬ l.Kept n) {x : Binary64}
    (h : (Numeral.ofLiteral l).float? = some x) :
    Takes peekSurface l.print (.number (.float x)) := by
  intro w rest hw hr
  rw [peekSurface_other other hw hr, h]

theorem declines_tooLarge (other : ∀ n, ¬ l.Kept n) (h : (Numeral.ofLiteral l).float? = none) :
    Declines peekSurface l.print (.malformed .numberTooLarge) := by
  intro w rest hw hr
  rw [peekSurface_other other hw hr, h]

end

end StandingQuery.Json
