import StandingQuery.Json.Scalar
import StandingQuery.Proofs.Json.Grammar

/-! The readers of strings, numbers and words take from a text what the grammar lets stand there,
however it is spelled, and stop behind it. -/

namespace StandingQuery.Json

/-! ## Blanks, and what may follow a value -/

/-- What may follow a value where there may be blanks. -/
def Ends (s : List Char) : Prop := ∀ c ∈ s.head?, isBlank c = true ∨ c = ',' ∨ c = ']' ∨ c = '\x7d'

theorem Blanks.isBlank {w : List Char} (h : Blanks w) : ∀ c ∈ w, isBlank c = true := by
  intro c hc
  rcases h c hc with rfl | rfl | rfl | rfl <;> rfl

theorem Blanks.nil : Blanks [] := fun _ hc => absurd hc List.not_mem_nil

/-- Blanks are passed over, whatever follows them. -/
theorem Blanks.skipBlanks {w : List Char} (h : Blanks w) (s : List Char) :
    skipBlanks (w ++ s) = skipBlanks s :=
  List.dropWhile_append_of_pos h.isBlank

theorem Blanks.skipBlanks_self {w : List Char} (h : Blanks w) : Json.skipBlanks w = [] := by
  have := h.skipBlanks []
  rwa [List.append_nil] at this

theorem Ends.nil : Ends [] := by simp [Ends]

theorem Ends.cons {c : Char} (h : c = ',' ∨ c = ']' ∨ c = '\x7d') (s : List Char) :
    Ends (c :: s) := by
  intro d hd
  cases hd
  exact .inr h

theorem Ends.blanks {w s : List Char} (hw : Blanks w) (hs : Ends s) : Ends (w ++ s) := by
  cases w with
  | nil => exact hs
  | cons c w =>
    intro d hd
    cases hd
    exact .inl (hw.isBlank c List.mem_cons_self)

/-- What is neither a digit nor otherwise part of a number. -/
theorem Ends.not_numeric {c : Char} {s : List Char} (h : Ends (c :: s)) :
    c.isDigit = false ∧ c ≠ '.' ∧ c ≠ 'e' ∧ c ≠ 'E' := by
  have hc := h c rfl
  simp only [Json.isBlank, Bool.or_eq_true, beq_iff_eq] at hc
  rcases hc with (((rfl | rfl) | rfl) | rfl) | rfl | rfl | rfl <;> simp

theorem Ends.noDigitNext {s : List Char} (h : Ends s) : Text.NoDigitNext s := by
  cases s with
  | nil => simp [Text.NoDigitNext]
  | cons c s =>
    intro d hd
    cases hd
    exact h.not_numeric.1

/-! ## Strings -/

theorem hexValue_of_isHex {v : Nat} {c : Char} (h : IsHex v c) : Text.hexValue? c = some v := by
  have lower : ∀ i : Fin 16, Text.hexValue? (lowerHex[i]) = some i.val := by decide
  have upper : ∀ i : Fin 16, Text.hexValue? (upperHex[i]) = some i.val := by decide
  rcases h with h | h
  · obtain ⟨hv, rfl⟩ := List.getElem?_eq_some_iff.1 h
    exact lower ⟨v, hv⟩
  · obtain ⟨hv, rfl⟩ := List.getElem?_eq_some_iff.1 h
    exact upper ⟨v, hv⟩

theorem codeUnit_quad {n : Nat} {quad : List Char} (h : Quad n quad) (r : List Char) :
    codeUnit (quad ++ r) = .ok (n, r) := by
  obtain ⟨ha, hb, hc, hd⟩ := h
  simp only [codeUnit, List.cons_append, List.nil_append, hexValue_of_isHex ha,
    hexValue_of_isHex hb, hexValue_of_isHex hc, hexValue_of_isHex hd]

theorem shortEscape_of_mem {letter c : Char} (h : (letter, c) ∈ shortEscapes) :
    shortEscape? letter = some c ∧ letter ≠ 'u' := by
  simp only [shortEscapes, List.mem_cons, Prod.mk.injEq, List.not_mem_nil, or_false] at h
  rcases h with ⟨rfl, rfl⟩ | ⟨rfl, rfl⟩ | ⟨rfl, rfl⟩ | ⟨rfl, rfl⟩ | ⟨rfl, rfl⟩ | ⟨rfl, rfl⟩ |
    ⟨rfl, rfl⟩ | ⟨rfl, rfl⟩ <;> exact ⟨rfl, by decide⟩

theorem escapedChar_short {letter c : Char} (h : (letter, c) ∈ shortEscapes) (r : List Char) :
    escapedChar (letter :: r) = .ok (c, r) := by
  obtain ⟨hshort, hu⟩ := shortEscape_of_mem h
  simp only [escapedChar, hshort]

theorem not_surrogate (c : Char) :
    isLowSurrogate c.toNat = false ∧ isHighSurrogate c.toNat = false := by
  have hvalid : c.toNat < 0xD800 ∨ 0xDFFF < c.toNat := by
    rcases c.valid with h | h
    · exact .inl h
    · exact .inr h.1
  simp only [isLowSurrogate, isHighSurrogate, Bool.and_eq_false_iff, decide_eq_false_iff_not]
  omega

theorem escapedChar_unit {c : Char} {quad : List Char} (h : Quad c.toNat quad) (r : List Char) :
    escapedChar ('u' :: (quad ++ r)) = .ok (c, r) := by
  obtain ⟨hlow, hhigh⟩ := not_surrogate c
  show numberedChar (quad ++ r) = _
  simp only [numberedChar, codeUnit_quad h, bind, Except.bind, hlow, hhigh, Char.ofNat_toNat]
  rfl

theorem escapedChar_pair {c : Char} {high low : List Char} (beyond : 0x10000 ≤ c.toNat)
    (hhigh : Quad (0xD800 + (c.toNat - 0x10000) / 1024) high)
    (hlow : Quad (0xDC00 + (c.toNat - 0x10000) % 1024) low) (r : List Char) :
    escapedChar ('u' :: (high ++ '\\' :: 'u' :: (low ++ r))) = .ok (c, r) := by
  have hmax : c.toNat < 0x110000 := by
    rcases c.valid with h | h
    · exact Nat.lt_trans h (by decide)
    · exact h.2
  have first : isLowSurrogate (0xD800 + (c.toNat - 0x10000) / 1024) = false ∧
      isHighSurrogate (0xD800 + (c.toNat - 0x10000) / 1024) = true := by
    simp only [isLowSurrogate, isHighSurrogate, Bool.and_eq_false_iff, decide_eq_false_iff_not,
      Bool.and_eq_true, decide_eq_true_eq]
    omega
  have second : isLowSurrogate (0xDC00 + (c.toNat - 0x10000) % 1024) = true := by
    simp only [isLowSurrogate, Bool.and_eq_true, decide_eq_true_eq]
    omega
  have hsecond : lowSurrogate ('\\' :: 'u' :: (low ++ r)) =
      .ok (0xDC00 + (c.toNat - 0x10000) % 1024, r) := by
    simp only [lowSurrogate, codeUnit_quad hlow, bind, Except.bind, second, if_true]
  have hchar : pairedChar (0xD800 + (c.toNat - 0x10000) / 1024)
      (0xDC00 + (c.toNat - 0x10000) % 1024) = c := by
    have hsum : 0x10000 + 1024 * (0xD800 + (c.toNat - 0x10000) / 1024 - 0xD800) +
        (0xDC00 + (c.toNat - 0x10000) % 1024 - 0xDC00) = c.toNat := by
      omega
    rw [pairedChar, hsum, Char.ofNat_toNat]
  show numberedChar (high ++ _) = _
  simp only [numberedChar, codeUnit_quad hhigh, bind, Except.bind, first, hsecond, hchar]
  rfl

/-- What a backslash and the text behind it add to a string. -/
theorem readChars_escape {fuel : Nat} {c : Char} {s r : List Char}
    (h : escapedChar s = .ok (c, r)) :
    readChars (fuel + 1) ('\\' :: s) = (readChars fuel r).map fun (cs, r) => (c :: cs, r) := by
  simp only [readChars, h, bind, Except.bind]
  rfl

theorem readChars_plain {fuel : Nat} {c : Char} (h : IsPlain c) (s : List Char) :
    readChars (fuel + 1) (c :: s) = (readChars fuel s).map fun (cs, r) => (c :: cs, r) := by
  obtain ⟨hquote, hslash, hcontrol⟩ := h
  have hcontrol : ¬ c.toNat < 0x20 := by omega
  simp only [readChars, if_neg hcontrol]
  rfl

theorem readChars_spells {cs t : List Char} (h : Spells cs t) (r : List Char) {fuel : Nat}
    (hfuel : t.length < fuel) : readChars fuel (t ++ '"' :: r) = .ok (cs, r) := by
  induction h generalizing fuel with
  | nil =>
    obtain ⟨fuel, rfl⟩ := Nat.exists_eq_add_one.2 (Nat.zero_lt_of_lt hfuel)
    rfl
  | @plain c cs t hc _ ih =>
    obtain ⟨fuel, rfl⟩ := Nat.exists_eq_add_one.2 (Nat.zero_lt_of_lt hfuel)
    rw [List.cons_append, readChars_plain hc, ih (Nat.lt_of_succ_lt_succ hfuel)]
    rfl
  | @short letter c cs t hc _ ih =>
    obtain ⟨fuel, rfl⟩ := Nat.exists_eq_add_one.2 (Nat.zero_lt_of_lt hfuel)
    have hrest : readChars fuel (t ++ '"' :: r) = .ok (cs, r) := ih (by simp at hfuel; omega)
    rw [List.cons_append, List.cons_append, readChars_escape (escapedChar_short hc _), hrest]
    rfl
  | @unit c quad cs t hc _ ih =>
    obtain ⟨fuel, rfl⟩ := Nat.exists_eq_add_one.2 (Nat.zero_lt_of_lt hfuel)
    have hrest : readChars fuel (t ++ '"' :: r) = .ok (cs, r) := ih (by simp at hfuel; omega)
    rw [List.cons_append, List.cons_append, List.append_assoc,
      readChars_escape (escapedChar_unit hc _), hrest]
    rfl
  | @pair c high low cs t beyond hhigh hlow _ ih =>
    obtain ⟨fuel, rfl⟩ := Nat.exists_eq_add_one.2 (Nat.zero_lt_of_lt hfuel)
    have hrest : readChars fuel (t ++ '"' :: r) = .ok (cs, r) := ih (by simp at hfuel; omega)
    have htext : '\\' :: 'u' :: (high ++ '\\' :: 'u' :: (low ++ t)) ++ '"' :: r =
        '\\' :: 'u' :: (high ++ '\\' :: 'u' :: (low ++ (t ++ '"' :: r))) := by simp
    rw [htext, readChars_escape (escapedChar_pair beyond hhigh hlow _), hrest]
    rfl

theorem textTail_spells {s : String} {t : List Char} (h : Spells s.toList t) (r : List Char) :
    textTail (t ++ '"' :: r) = .ok (s, r) := by
  have hfuel : t.length < (t ++ '"' :: r).length + 1 := by
    rw [List.length_append]
    omega
  rw [textTail, readChars_spells h r hfuel]
  show Except.ok (String.ofList s.toList, r) = .ok (s, r)
  rw [String.ofList_toList]

/-! ## Strings passed over -/

theorem Spells.escaped {cs t : List Char} (h : Spells cs t) : Escaped t := by
  induction h with
  | nil => exact .nil
  | plain hc _ ih => exact .plain hc ih
  | short hc _ ih => exact .short hc ih
  | unit hc _ ih => exact .unit hc ih
  | pair _ hhigh hlow _ ih => exact .unit hhigh (.unit hlow ih)

theorem Literal.escaped {content : Option String} {t : List Char} (h : Literal content t) :
    Escaped t := by
  cases content with
  | none => exact h
  | some s => exact Spells.escaped h

theorem skipEscape_short {letter c : Char} (h : (letter, c) ∈ shortEscapes) (r : List Char) :
    skipEscape (letter :: r) = .ok r := by
  obtain ⟨hshort, hu⟩ := shortEscape_of_mem h
  simp only [skipEscape, hshort, Option.isSome_some, if_true]

theorem skipEscape_unit {n : Nat} {quad : List Char} (h : Quad n quad) (r : List Char) :
    skipEscape ('u' :: (quad ++ r)) = .ok r := by
  simp only [skipEscape, codeUnit_quad h, bind, Except.bind]
  rfl

theorem skipChars_escape {fuel : Nat} {s r : List Char} (h : skipEscape s = .ok r) :
    skipChars (fuel + 1) ('\\' :: s) = skipChars fuel r := by
  simp only [skipChars, h, bind, Except.bind]

theorem skipText_escaped {t : List Char} (h : Escaped t) (r : List Char) :
    skipText (t ++ '"' :: r) = .ok r := by
  have skip {fuel : Nat} (hfuel : t.length < fuel) : skipChars fuel (t ++ '"' :: r) = .ok r := by
    induction h generalizing fuel with
    | nil =>
      obtain ⟨fuel, rfl⟩ := Nat.exists_eq_add_one.2 (Nat.zero_lt_of_lt hfuel)
      rfl
    | @plain c t hc _ ih =>
      obtain ⟨fuel, rfl⟩ := Nat.exists_eq_add_one.2 (Nat.zero_lt_of_lt hfuel)
      obtain ⟨hquote, hslash, hcontrol⟩ := hc
      have hcontrol : ¬ c.toNat < 0x20 := by omega
      simp only [List.cons_append, skipChars, if_neg hcontrol, ih (Nat.lt_of_succ_lt_succ hfuel)]
    | @short letter c t hc _ ih =>
      obtain ⟨fuel, rfl⟩ := Nat.exists_eq_add_one.2 (Nat.zero_lt_of_lt hfuel)
      rw [List.cons_append, List.cons_append, skipChars_escape (skipEscape_short hc _)]
      exact ih (by simp at hfuel; omega)
    | @unit n quad t hq _ ih =>
      obtain ⟨fuel, rfl⟩ := Nat.exists_eq_add_one.2 (Nat.zero_lt_of_lt hfuel)
      rw [List.cons_append, List.cons_append, List.append_assoc,
        skipChars_escape (skipEscape_unit hq _)]
      exact ih (by simp at hfuel; omega)
  refine skip ?_
  rw [List.length_append]
  omega

/-! ## Numbers -/

namespace Numeral

variable (atEnd : Failure) {rest : List Char}

theorem scanDigits_chars (ds : Text.Digits) (h : Text.NoDigitNext rest) :
    scanDigits atEnd (ds.chars ++ rest) = .ok (ds.chars, rest) := by
  have hspan := Text.span_isDigit ds.digit h
  obtain ⟨c, cs, hd, hc⟩ := ds.eq_cons
  rw [hd, List.cons_append] at hspan ⊢
  rw [scanDigits, if_pos hc, hspan]

theorem scanWhole_chars (l : NumberLiteral) (h : Text.NoDigitNext rest) :
    scanWhole atEnd (l.whole.chars ++ rest) = .ok (l.whole.chars, rest) := by
  have hspan := Text.span_isDigit l.whole.digit h
  obtain ⟨c, cs, hd, hc⟩ := l.whole.eq_cons
  by_cases hzero : c = '0'
  · have hall : l.whole.chars = ['0'] := l.unpadded (by rw [hd, hzero]; rfl)
    rw [hall]
    show (if (rest.head?.map Char.isDigit).getD false then _ else _) = _
    cases hr : rest.head? with
    | none => rfl
    | some d => simp [h d hr]
  · rw [hd, List.cons_append] at hspan ⊢
    rw [scanWhole, if_pos hc, hspan]
    exact hzero

theorem noDigitNext_exponentText (l : NumberLiteral) (h : Ends rest) :
    Text.NoDigitNext (l.exponentText ++ rest) := by
  unfold NumberLiteral.exponentText
  cases l.exponent with
  | none => exact h.noDigitNext
  | some e =>
    intro c hc
    cases hc
    split <;> rfl

theorem noDigitNext_fractionText (l : NumberLiteral) (h : Ends rest) :
    Text.NoDigitNext (l.fractionText ++ (l.exponentText ++ rest)) := by
  unfold NumberLiteral.fractionText
  cases l.fraction with
  | none => exact noDigitNext_exponentText l h
  | some digits =>
    intro c hc
    cases hc
    rfl

theorem scanFraction_text (l : NumberLiteral) (h : Ends rest) :
    scanFraction atEnd (l.fractionText ++ (l.exponentText ++ rest)) =
      .ok ((l.fraction.map Text.Digits.chars).getD [], l.exponentText ++ rest) := by
  unfold NumberLiteral.fractionText
  cases l.fraction with
  | some digits => exact scanDigits_chars atEnd digits (noDigitNext_exponentText l h)
  | none =>
    have hpoint : ∀ r, l.exponentText ++ rest ≠ '.' :: r := by
      unfold NumberLiteral.exponentText
      cases l.exponent with
      | none =>
        intro r hr
        rw [List.nil_append] at hr
        rw [hr] at h
        exact h.not_numeric.2.1 rfl
      | some e =>
        intro r hr
        obtain ⟨capital, _, _⟩ := e
        cases capital <;> cases hr
    rw [List.nil_append, scanFraction]
    · rfl
    · exact hpoint

theorem scanExponent_none (h : Ends rest) : scanExponent atEnd rest = .ok (none, rest) := by
  cases rest with
  | nil => rfl
  | cons c r =>
    obtain ⟨-, -, hsmall, hcapital⟩ := h.not_numeric
    exact if_neg (not_or.2 ⟨hsmall, hcapital⟩)

theorem scanExponent_print (e : Exponent) (h : Ends rest) :
    scanExponent atEnd (e.print ++ rest) =
      .ok (some (e.sign.getD false, e.digits.chars), rest) := by
  have hdigits := scanDigits_chars atEnd e.digits h.noDigitNext
  have hletter :
      (if e.capital then 'E' else 'e') = 'e' ∨ (if e.capital then 'E' else 'e') = 'E' := by
    cases e.capital <;> simp
  have hstart : e.print ++ rest =
      (if e.capital then 'E' else 'e') :: (e.signText ++ (e.digits.chars ++ rest)) := by
    simp [Exponent.print]
  have hsigned (negative : Bool) (c : Char) (r : List Char) :
      scanExponent atEnd (c :: (if negative then '-' else '+') :: r) =
        if c = 'e' ∨ c = 'E' then do
          let (ds, r) ← scanDigits atEnd r
          return (some (negative, ds), r)
        else .ok (none, c :: (if negative then '-' else '+') :: r) := by
    cases negative <;> rfl
  rw [hstart]
  unfold Exponent.signText
  cases e.sign with
  | some negative =>
    rw [List.cons_append, hsigned, if_pos hletter]
    simp only [List.nil_append, hdigits, bind, Except.bind]
    rfl
  | none =>
    obtain ⟨c, cs, hd, hc⟩ := e.digits.eq_cons
    rw [hd, List.cons_append] at hdigits
    rw [hd, List.nil_append, List.cons_append, scanExponent, if_pos hletter]
    · simp only [hdigits, bind, Except.bind]
      rfl
    · intro r hr
      cases hr
      cases hc
    · intro r hr
      cases hr
      cases hc

theorem scanExponent_text (l : NumberLiteral) (h : Ends rest) :
    scanExponent atEnd (l.exponentText ++ rest) =
      .ok (l.exponent.map fun e => (e.sign.getD false, e.digits.chars), rest) := by
  unfold NumberLiteral.exponentText
  cases l.exponent with
  | none => exact scanExponent_none atEnd h
  | some e => exact scanExponent_print atEnd e h

/-- The parts of a literal. -/
def ofLiteral (l : NumberLiteral) : Numeral where
  negative := l.negative
  whole := l.whole.chars
  fraction := (l.fraction.map Text.Digits.chars).getD []
  exponent := l.exponent.map fun e => (e.sign.getD false, e.digits.chars)

theorem scan_literal (l : NumberLiteral) (h : Ends rest) :
    scan atEnd (l.print ++ rest) = .ok (ofLiteral l, rest) := by
  have hwhole := scanWhole_chars atEnd l (noDigitNext_fractionText l h)
  have hfraction := scanFraction_text atEnd l h
  have hexponent := scanExponent_text atEnd l h
  have htext : l.print ++ rest = (if l.negative then ['-'] else []) ++
      (l.whole.chars ++ (l.fractionText ++ (l.exponentText ++ rest))) := by
    simp [NumberLiteral.print]
  rw [htext, ofLiteral]
  cases l.negative with
  | true =>
    simp only [if_true, List.cons_append, List.nil_append, scan, hwhole, hfraction, hexponent, bind,
      Except.bind]
    rfl
  | false =>
    obtain ⟨c, cs, hd, hc⟩ := l.whole.eq_cons
    rw [hd, List.cons_append] at hwhole
    rw [hd, if_neg Bool.false_ne_true, List.nil_append, List.cons_append, scan]
    · simp only [hwhole, hfraction, hexponent, bind, Except.bind]
      rfl
    · intro r hr
      cases hr
      cases hc

/-- An integer of at most 64 bits is kept as one, and nothing else is. -/
theorem integer?_ofLiteral {l : NumberLiteral} {n : Int} :
    (ofLiteral l).integer? = some n ↔ l.IsInteger n ∧ -2 ^ 63 ≤ n ∧ n < 2 ^ 64 := by
  have hsize : UInt64.size = 2 ^ 64 := rfl
  have hwhole : (ofLiteral l).isWhole = true ↔ l.fraction = none ∧ l.exponent = none := by
    rw [isWhole, ofLiteral, Bool.and_eq_true, Option.isNone_map, Option.isNone_iff_eq_none]
    refine and_congr_left fun _ => ?_
    cases l.fraction with
    | none => simp
    | some digits => simp [digits.nonempty]
  rw [integer?, NumberLiteral.IsInteger]
  have hvalue : Text.decimalValue l.whole.chars = Text.decimalValue (ofLiteral l).whole := rfl
  have hsign : l.negative = (ofLiteral l).negative := rfl
  rw [hvalue, hsign]
  generalize Text.decimalValue (ofLiteral l).whole = v
  generalize (ofLiteral l).negative = negative
  by_cases h : l.fraction = none ∧ l.exponent = none
  · rw [hwhole.2 h, Bool.not_true, if_neg Bool.false_ne_true]
    simp only [h.1, h.2, true_and]
    cases negative with
    | true =>
      simp only [if_true, Option.ite_none_right_eq_some, Option.some.injEq, forall_const]
      omega
    | false =>
      simp only [if_false, Bool.false_eq_true, Option.ite_none_right_eq_some, Option.some.injEq,
        false_implies, and_true]
      omega
  · rw [Bool.eq_false_iff.2 (mt hwhole.1 h), Bool.not_false, if_pos rfl]
    exact ⟨nofun, fun hn => absurd ⟨hn.1.1, hn.1.2.1⟩ h⟩

theorem number_ofLiteral {l : NumberLiteral} {n : Int} (h : l.IsInteger n)
    (low : -2 ^ 63 ≤ n) (high : n < 2 ^ 64) : (ofLiteral l).number = .ok (.integer n) := by
  rw [number, integer?_ofLiteral.2 ⟨h, low, high⟩]

end Numeral

theorem numberToken_literal {l : NumberLiteral} {n : Int} (h : l.IsInteger n) (low : -2 ^ 63 ≤ n)
    (high : n < 2 ^ 64) {rest : List Char} (hr : Ends rest) :
    numberToken (l.print ++ rest) = .ok (.integer n, rest) := by
  simp only [numberToken, Numeral.scan_literal _ l hr, bind, Except.bind,
    Numeral.number_ofLiteral h low high]
  rfl

/-- A number starts with its sign or with a digit. -/
theorem print_eq_cons (l : NumberLiteral) :
    ∃ c r, l.print = c :: r ∧ (c = '-' ∨ c.isDigit = true) := by
  unfold NumberLiteral.print
  cases l.negative with
  | true => exact ⟨_, _, rfl, .inl rfl⟩
  | false =>
    obtain ⟨c, cs, hd, hc⟩ := l.whole.eq_cons
    rw [hd]
    exact ⟨c, _, rfl, .inr hc⟩

end StandingQuery.Json
