import StandingQuery.Proofs.Json.Lexeme

/-! What is printed is one of the texts of the grammar, so whatever reads those reads it back. Each
character of a string is printed as it stands, behind a backslash, or as four hexadecimal digits; an
integer is printed without leading zeros. -/

namespace StandingQuery.Json

/-! ## Strings -/

theorem quad_padZero_hex {n : Nat} (h : n < 0x20) : Quad n (Text.padZero 4 (Text.hex n)) := by
  have digits : ∀ n < 0x20, (lowerHex[n / 16]?.bind fun a => lowerHex[n % 16]?.map fun b =>
      ['0', '0', a, b]) = some (Text.padZero 4 (Text.hex n)) := by
    decide
  obtain ⟨a, ha, hrest⟩ := Option.bind_eq_some_iff.1 (digits n h)
  obtain ⟨b, hb, hquad⟩ := Option.map_eq_some_iff.1 hrest
  have quad : Quad (4096 * 0 + 256 * 0 + 16 * (n / 16) + n % 16) ['0', '0', a, b] :=
    .mk (.inl rfl) (.inl rfl) (.inl ha) (.inl hb)
  rw [hquad] at quad
  convert quad using 1
  omega

theorem spells_printChar (c : Char) {cs t : List Char} (h : Spells cs t) :
    Spells (c :: cs) (printChar c ++ t) := by
  unfold printChar
  split
  case h_8 hquote hslash _ _ _ _ _ =>
    split
    case isTrue hc => exact .unit (quad_padZero_hex hc) h
    case isFalse hc => exact .plain ⟨hquote, hslash, Nat.le_of_not_lt hc⟩ h
  all_goals exact .short (by decide) h

theorem spells_printed (cs : List Char) : Spells cs (cs.flatMap printChar) := by
  induction cs with
  | nil => exact .nil
  | cons c cs ih => exact spells_printChar c ih

theorem textTail_printed (s : String) (r : List Char) :
    textTail (s.toList.flatMap printChar ++ '"' :: r) = .ok (s, r) :=
  textTail_spells (spells_printed _) r

/-! ## Integers -/

/-- An integer as a number literal. -/
def printInteger (n : Int) : List Char :=
  if n < 0 then '-' :: Text.decimal n.natAbs else Text.decimal n.natAbs

theorem decimal_unpadded {n : Nat} (zero : (Text.decimal n).head? = some '0') :
    Text.decimal n = ['0'] := by
  rcases Nat.eq_zero_or_pos n with rfl | h
  · rfl
  · obtain ⟨c, ds, hd, hc⟩ := Text.decimal_of_pos h
    rw [hd] at zero
    exact absurd (Option.some.inj zero) hc

namespace NumberLiteral

def ofInt (n : Int) : NumberLiteral where
  negative := decide (n < 0)
  whole := ⟨Text.decimal n.natAbs, Nat.toDigits_ne_nil, fun _ => Text.isDigit_of_mem_decimal⟩
  unpadded := decimal_unpadded
  fraction := none
  exponent := none

theorem print_ofInt (n : Int) : (ofInt n).print = printInteger n := by
  by_cases h : n < 0 <;> simp [print, ofInt, printInteger, fractionText, exponentText, h]

theorem print_natCast (n : Nat) : (ofInt n).print = Text.decimal n :=
  (print_ofInt n).trans (if_neg (Int.not_lt.2 (Int.natCast_nonneg n)))

theorem isInteger_ofInt (n : Int) : (ofInt n).IsInteger n := by
  refine ⟨rfl, rfl, ?_, fun negative => ?_⟩
  · show n = (if decide (n < 0) then -1 else 1) * (Text.decimalValue (Text.decimal n.natAbs) : Int)
    rw [Text.decimalValue_decimal]
    by_cases h : n < 0
    · rw [if_pos (decide_eq_true h)]
      omega
    · rw [if_neg (by simpa using h)]
      omega
  · have : n < 0 := of_decide_eq_true negative
    omega

end NumberLiteral
end StandingQuery.Json
