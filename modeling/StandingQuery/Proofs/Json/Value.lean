import StandingQuery.Proofs.Json.Printed

/-! A reader takes from a text what was written and nothing after it. That holds of booleans,
strings, natural numbers of 64 bits and null wherever a value may stand. A number alone does not
show where it ends, so it matters what may follow a value. What is printed stands without blanks;
elsewhere there may be some before a value and behind it. -/

namespace StandingQuery.Json

/-- What may follow a value: a comma, a closing bracket, or nothing. -/
def AtBreak (s : List Char) : Prop := ∀ c ∈ s.head?, c = ',' ∨ c = ']' ∨ c = '\x7d'

/-- Starts with a quote mark or an opening bracket. -/
def Opens (s : List Char) : Prop := ∃ c r, s = c :: r ∧ (c = '"' ∨ c = '[' ∨ c = '\x7b')

/-- The reader finds `a` written as `text`, and stops there, whatever may follow. -/
def Reads {α : Type} (read : Reader α) (text : List Char) (a : α) : Prop :=
  ∀ rest, AtBreak rest → read (text ++ rest) = .ok (a, rest)

/-- The reader finds `a` in the text, behind any blanks, and stops there. -/
def Takes {α : Type} (read : Reader α) (text : List Char) (a : α) : Prop :=
  ∀ w rest, Blanks w → Ends rest → read (w ++ (text ++ rest)) = .ok (a, rest)

/-- The reader fails with `e` on the text, behind any blanks. -/
def Declines {α : Type} (read : Reader α) (text : List Char) (e : Failure) : Prop :=
  ∀ w rest, Blanks w → Ends rest → read (w ++ (text ++ rest)) = .error e

variable {α β : Type} {read : Reader α} {text : List Char} {a : α} {e : Failure}

theorem atBreak_nil : AtBreak [] := by simp [AtBreak]

theorem atBreak_comma (s : List Char) : AtBreak (',' :: s) := by simp [AtBreak]

theorem atBreak_bracket (s : List Char) : AtBreak (']' :: s) := by simp [AtBreak]

theorem atBreak_brace (s : List Char) : AtBreak ('\x7d' :: s) := by simp [AtBreak]

theorem AtBreak.ends {s : List Char} (h : AtBreak s) : Ends s := fun c hc => .inr (h c hc)

theorem opens_printText (s : String) : Opens (printText s) := ⟨_, _, rfl, .inl rfl⟩

theorem opens_printObject (members : List (String × List Char)) : Opens (printObject members) :=
  ⟨_, _, rfl, .inr (.inr rfl)⟩

@[simp] theorem skipBlanks_cons {c : Char} (h : isBlank c = false) (r : List Char) :
    skipBlanks (c :: r) = c :: r := by
  simp [skipBlanks, h]

theorem Opens.skipBlanks {s : List Char} (h : Opens s) : skipBlanks s = s := by
  obtain ⟨c, r, rfl, rfl | rfl | rfl⟩ := h <;> rfl

theorem Opens.ne_nil {s : List Char} (h : Opens s) : s ≠ [] := by
  obtain ⟨c, r, rfl, -⟩ := h
  exact List.cons_ne_nil c r

theorem Opens.append {s : List Char} (h : Opens s) (t : List Char) : Opens (s ++ t) := by
  obtain ⟨c, r, rfl, hc⟩ := h
  exact ⟨c, r ++ t, rfl, hc⟩

/-! ## Readers built from readers -/

theorem Takes.reads (h : Takes read text a) : Reads read text a := by
  intro rest hr
  exact h [] rest .nil hr.ends

/-- A value that is accepted. -/
theorem Takes.accept {v : Surface} {accept : Surface → Except Misfit α}
    (h : Takes peekSurface text v) (ha : accept v = .ok a) : Takes (readScalar accept) text a := by
  intro w rest hw hr
  simp only [readScalar, h w rest hw hr, bind, Except.bind, ha]
  rfl

/-- A value that is not accepted. -/
theorem Takes.decline {v : Surface} {accept : Surface → Except Misfit α} {m : Misfit}
    (h : Takes peekSurface text v) (ha : accept v = .error m) :
    Declines (readScalar accept) text (.misfit m) := by
  intro w rest hw hr
  simp only [readScalar, h w rest hw hr, bind, Except.bind, ha]

/-- What has no surface is not accepted either. -/
theorem Declines.scalar {accept : Surface → Except Misfit α} (h : Declines peekSurface text e) :
    Declines (readScalar accept) text e := by
  intro w rest hw hr
  simp only [readScalar, h w rest hw hr, bind, Except.bind]

/-- What is neither array nor object is all there is of the value. -/
theorem Takes.whole {v : Surface} (h : Takes peekSurface text v) (scalar : v ≠ .sequence ∧ v ≠ .map)
    (room : Nat) : Takes (wholeSurface room) text v := by
  intro w rest hw hr
  simp only [wholeSurface, h w rest hw hr, bind, Except.bind]
  cases v with
  | sequence => exact absurd rfl scalar.1
  | map => exact absurd rfl scalar.2
  | null | boolean _ | number _ | text _ => rfl

theorem Declines.whole (h : Declines peekSurface text e) (room : Nat) :
    Declines (wholeSurface room) text e := by
  intro w rest hw hr
  simp only [wholeSurface, h w rest hw hr, bind, Except.bind]

theorem Declines.map (g : α → β) (h : Declines read text e) :
    Declines (fun s => do let (a, r) ← read s; return (g a, r)) text e := by
  intro w rest hw hr
  simp only [h w rest hw hr, bind, Except.bind]

/-- What is taken can be put into something larger. -/
theorem Takes.map (g : α → β) (h : Takes read text a) :
    Takes (fun s => do let (a, r) ← read s; return (g a, r)) text (g a) := by
  intro w rest hw hr
  simp only [h w rest hw hr]
  rfl

/-- What is read can be put into something larger. -/
theorem Reads.map (g : α → β) (h : Reads read text a) :
    Reads (fun s => do let (a, r) ← read s; return (g a, r)) text (g a) := by
  intro rest hr
  simp only [h rest hr]
  rfl

theorem Reads.optional (h : Reads read text a) (ht : Opens text) :
    Reads (readOptional read) text (some a) := by
  intro rest hr
  rw [readOptional, (ht.append rest).skipBlanks]
  split
  case h_1 r he =>
    obtain ⟨c, s, hs, hc⟩ := ht.append rest
    rw [he, List.cons.injEq] at hs
    rcases hc with rfl | rfl | rfl <;> exact absurd hs.1 (by decide)
  case h_2 =>
    rw [h rest hr]
    rfl

theorem reads_null : Reads (readOptional read) printNull none := by
  intro rest _
  rfl

/-! ## Surfaces -/

theorem isBlank_of_isDigit {c : Char} (h : c.isDigit = true) : isBlank c = false := by
  rw [← Bool.not_eq_true]
  intro hb
  simp only [isBlank, Bool.or_eq_true, beq_iff_eq] at hb
  rcases hb with ((rfl | rfl) | rfl) | rfl <;> cases h

/-- A number begins as nothing else does. -/
theorem numeric_spec {c : Char} (h : c = '-' ∨ c.isDigit = true) :
    isBlank c = false ∧ c ∉ ['n', 't', 'f', '"', '[', '\x7b', ',', ']', '\x7d'] := by
  rcases h with rfl | h
  · decide
  · refine ⟨isBlank_of_isDigit h, fun hc => ?_⟩
    simp only [List.mem_cons, List.not_mem_nil, or_false] at hc
    rcases hc with rfl | rfl | rfl | rfl | rfl | rfl | rfl | rfl | rfl <;> cases h

theorem peekSurface_numeric {c : Char} (h : c = '-' ∨ c.isDigit = true) (r : List Char) :
    peekSurface (c :: r) = do
      let (n, r) ← numberToken (c :: r)
      return (.number n, r) := by
  obtain ⟨hblank, hother⟩ := numeric_spec h
  have scalar : scalar? (c :: r) = some do
      let (n, r) ← numberToken (c :: r)
      return (.number n, r) := by
    unfold scalar?
    split
    case h_5 he =>
      cases he
      exact if_pos h
    all_goals
      rename_i he
      cases he
      try exact absurd hother (by decide)
  rw [peekSurface, skipBlanks_cons hblank]
  split
  case h_4 =>
    rw [scalar]
    rfl
  all_goals
    rename_i he
    cases he
    try exact absurd hother (by decide)

theorem peekSurface_blanks {w : List Char} (hw : Blanks w) (s : List Char) :
    peekSurface (w ++ s) = peekSurface s := by
  simp only [peekSurface, hw.skipBlanks]

theorem peeks_null : Takes peekSurface ['n', 'u', 'l', 'l'] .null := by
  intro w rest hw _
  rw [peekSurface_blanks hw]
  rfl

theorem peeks_boolean (b : Bool) : Takes peekSurface (printBoolean b) (.boolean b) := by
  intro w rest hw _
  rw [peekSurface_blanks hw]
  cases b <;> rfl

theorem peeks_text {s : String} {t : List Char} (h : Spells s.toList t) :
    Takes peekSurface ('"' :: t ++ ['"']) (.text s) := by
  intro w rest hw _
  have htext : '"' :: t ++ ['"'] ++ rest = '"' :: (t ++ '"' :: rest) := by simp
  rw [peekSurface_blanks hw, htext]
  show Except.bind (textTail (t ++ '"' :: rest)) _ = _
  rw [textTail_spells h]
  rfl

theorem peeks_integer {l : NumberLiteral} {n : Int} (h : l.IsInteger n) (low : -2 ^ 63 ≤ n)
    (high : n < 2 ^ 64) : Takes peekSurface l.print (.number (.integer n)) := by
  intro w rest hw hr
  have hnumber := numberToken_literal h low high hr
  obtain ⟨c, r, hl, hc⟩ := print_eq_cons l
  rw [hl, List.cons_append] at hnumber ⊢
  rw [peekSurface_blanks hw, peekSurface_numeric hc, hnumber]
  rfl

/-! ## Single values -/

theorem peekSurface_printText (s : String) : Reads peekSurface (printText s) (.text s) :=
  (peeks_text (spells_printed _)).reads

theorem reads_text (s : String) : Reads readText (printText s) s := by
  have taken : Takes readText (printText s) s := (peeks_text (spells_printed _)).accept rfl
  exact taken.reads

theorem reads_boolean (b : Bool) : Reads readBoolean (printBoolean b) b := by
  have taken : Takes readBoolean (printBoolean b) b := (peeks_boolean b).accept rfl
  exact taken.reads

theorem peekSurface_printInteger {n : Int} (low : -2 ^ 63 ≤ n) (high : n < 2 ^ 64) :
    Reads peekSurface (printInteger n) (.number (.integer n)) :=
  NumberLiteral.print_ofInt n ▸ (peeks_integer (NumberLiteral.isInteger_ofInt n) low high).reads

theorem takes_integer64 {l : NumberLiteral} {n : UInt64} (h : l.IsInteger n.toNat) :
    Takes readNatural64 l.print n := by
  have hlt : n.toNat < UInt64.size := n.toNat_lt
  have hsize : UInt64.size = 2 ^ 64 := rfl
  refine (peeks_integer h (by omega) (by omega)).accept ?_
  simp only
  rw [if_pos ⟨Int.natCast_nonneg _, Int.ofNat_lt.2 hlt⟩, Int.toNat_natCast, UInt64.ofNat_toNat]

theorem takes_integer32 {l : NumberLiteral} {n : { n : UInt32 // n ≠ 0 }}
    (h : l.IsInteger n.1.toNat) : Takes readPositive32 l.print n := by
  have hlt : n.1.toNat < UInt32.size := n.1.toNat_lt
  have hpos : 0 < n.1.toNat := Nat.pos_of_ne_zero fun h => n.2 (UInt32.toNat_inj.1 h)
  have hsize : UInt32.size = 2 ^ 32 := rfl
  refine (peeks_integer h (by omega) (by omega)).accept ?_
  simp only
  rw [dif_pos ⟨Int.natCast_pos.2 hpos, Int.ofNat_lt.2 hlt⟩]
  simp only [Int.toNat_natCast, UInt32.ofNat_toNat]

theorem reads_natural64 (n : UInt64) : Reads readNatural64 (Text.decimal n.toNat) n := by
  rw [← NumberLiteral.print_natCast]
  exact (takes_integer64 (NumberLiteral.isInteger_ofInt _)).reads

theorem reads_positive32 (n : { n : UInt32 // n ≠ 0 }) :
    Reads readPositive32 (Text.decimal n.1.toNat) n := by
  rw [← NumberLiteral.print_natCast]
  exact (takes_integer32 (NumberLiteral.isInteger_ofInt _)).reads

end StandingQuery.Json
