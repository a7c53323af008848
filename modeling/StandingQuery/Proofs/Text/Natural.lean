import StandingQuery.Proofs.Text.Digit
import StandingQuery.Text.Blank
import StandingQuery.Text.Natural

/-! Which texts are natural numbers of 64 bits, and why others are not. A numeral is read digit by
digit, and what has been read so far never wraps: as soon as it does not fit, that is the fault,
whatever the text goes on with. -/

namespace StandingQuery.Text

/-! ## Numbers -/

/-- Digits, leading zeros among them, behind at most one plus sign. -/
def Numeral (s : List Char) (n : Nat) : Prop :=
  ∃ ds : Digits, (s = ds.chars ∨ s = '+' :: ds.chars) ∧ decimalValue ds.chars = n

/-- The number that digits make behind those of `n`. -/
abbrev valueFrom (n : Nat) (ds : List Char) : Nat := Nat.ofDigitChars 10 ds n

theorem le_valueFrom (n : Nat) (ds : List Char) : n ≤ valueFrom n ds := by
  induction ds generalizing n with
  | nil => exact Nat.le_refl n
  | cons c ds ih =>
    rw [valueFrom, Nat.ofDigitChars_cons]
    exact Nat.le_trans (by omega) (ih _)

/-- As long as the digits fit. -/
theorem naturalFrom_cons {n : UInt64} {c : Char} (hc : c.isDigit = true)
    (fits : 10 * n.toNat + digitValue c < UInt64.size) (cs : List Char) :
    naturalFrom n (c :: cs) = naturalFrom (UInt64.ofNat (10 * n.toNat + digitValue c)) cs := by
  simp only [naturalFrom, hc, Bool.not_true, Bool.false_eq_true, if_false]
  rw [if_neg (Nat.not_le.2 fits)]

theorem naturalFrom_cons_large {n : UInt64} {c : Char} (hc : c.isDigit = true)
    (large : ¬ 10 * n.toNat + digitValue c < UInt64.size) (cs : List Char) :
    naturalFrom n (c :: cs) = .error .tooLarge := by
  simp only [naturalFrom, hc, Bool.not_true, Bool.false_eq_true, if_false]
  rw [if_pos (Nat.not_lt.1 large)]

theorem naturalFrom_cons_bad {n : UInt64} {c : Char} (hc : ¬ c.isDigit = true) (cs : List Char) :
    naturalFrom n (c :: cs) = .error .badDigit := by
  simp [naturalFrom, hc]

theorem naturalFrom_ok_iff {n m : UInt64} {cs : List Char} :
    naturalFrom n cs = .ok m ↔ (∀ c ∈ cs, c.isDigit = true) ∧ valueFrom n.toNat cs = m.toNat := by
  induction cs generalizing n with
  | nil => simp [naturalFrom, valueFrom, UInt64.toNat_inj]
  | cons c cs ih =>
    by_cases hc : c.isDigit = true
    · have hvalue : valueFrom n.toNat (c :: cs) = valueFrom (10 * n.toNat + digitValue c) cs :=
        Nat.ofDigitChars_cons
      by_cases fits : 10 * n.toNat + digitValue c < UInt64.size
      · rw [naturalFrom_cons hc fits, ih, hvalue, UInt64.toNat_ofNat_of_lt' fits]
        simp [hc]
      · rw [naturalFrom_cons_large hc fits, hvalue]
        refine ⟨nofun, fun ⟨_, h⟩ => ?_⟩
        have hle := le_valueFrom (10 * n.toNat + digitValue c) cs
        have hlt : m.toNat < UInt64.size := m.toNat_lt
        omega
    · rw [naturalFrom_cons_bad hc]
      simp [hc]

/-- The digits up to some place are too many, whatever comes after them. -/
theorem naturalFrom_tooLarge_iff {n : UInt64} {cs : List Char} :
    naturalFrom n cs = .error .tooLarge ↔ ∃ ds rest, cs = ds ++ rest ∧
      (∀ c ∈ ds, c.isDigit = true) ∧ UInt64.size ≤ valueFrom n.toNat ds := by
  have nothing (n : UInt64) : ¬ UInt64.size ≤ valueFrom n.toNat [] := Nat.not_le.2 n.toNat_lt
  induction cs generalizing n with
  | nil =>
    refine ⟨nofun, ?_⟩
    rintro ⟨ds, rest, h, -, hvalue⟩
    obtain ⟨rfl, rfl⟩ := List.append_eq_nil_iff.1 h.symm
    exact absurd hvalue (nothing n)
  | cons c cs ih =>
    have hvalue (ds : List Char) :
        valueFrom n.toNat (c :: ds) = valueFrom (10 * n.toNat + digitValue c) ds :=
      Nat.ofDigitChars_cons
    by_cases hc : c.isDigit = true
    · by_cases fits : 10 * n.toNat + digitValue c < UInt64.size
      · rw [naturalFrom_cons hc fits]
        refine ih.trans ?_
        rw [UInt64.toNat_ofNat_of_lt' fits]
        constructor
        · rintro ⟨ds, rest, rfl, hds, hlarge⟩
          exact ⟨c :: ds, rest, rfl, List.forall_mem_cons.2 ⟨hc, hds⟩, hvalue ds ▸ hlarge⟩
        · rintro ⟨ds, rest, h, hds, hlarge⟩
          cases ds with
          | nil => exact absurd hlarge (nothing n)
          | cons d ds =>
            obtain ⟨rfl, rfl⟩ := List.cons.inj h
            exact ⟨ds, rest, rfl, (List.forall_mem_cons.1 hds).2, hvalue ds ▸ hlarge⟩
      · refine ⟨fun _ => ⟨[c], cs, rfl, by simpa using hc, ?_⟩,
          fun _ => naturalFrom_cons_large hc fits cs⟩
        rw [hvalue]
        exact Nat.not_lt.1 fits
    · rw [naturalFrom_cons_bad hc]
      refine ⟨nofun, ?_⟩
      rintro ⟨ds, rest, h, hds, hlarge⟩
      cases ds with
      | nil => exact absurd hlarge (nothing n)
      | cons d ds =>
        obtain ⟨rfl, rfl⟩ := List.cons.inj h
        exact absurd (hds c List.mem_cons_self) hc

theorem naturalFrom_ne_empty (n : UInt64) (cs : List Char) : naturalFrom n cs ≠ .error .empty := by
  induction cs generalizing n with
  | nil => exact nofun
  | cons c cs ih =>
    by_cases hc : c.isDigit = true
    · by_cases fits : 10 * n.toNat + digitValue c < UInt64.size
      · rw [naturalFrom_cons hc fits]
        exact ih _
      · rw [naturalFrom_cons_large hc fits]
        exact nofun
    · rw [naturalFrom_cons_bad hc]
      exact nofun

/-! ## The sign -/

/-- What is left when a plus sign has been taken off. -/
inductive Unsigned : List Char → List Char → Prop
  | plain {body : List Char} (h : ∀ cs, body ≠ '+' :: cs) : Unsigned body body
  | plus (body : List Char) : Unsigned ('+' :: body) body

theorem exists_unsigned (s : List Char) : ∃ body, Unsigned s body := by
  cases s with
  | nil => exact ⟨[], .plain nofun⟩
  | cons c cs =>
    by_cases hc : c = '+'
    · exact ⟨cs, hc ▸ .plus cs⟩
    · exact ⟨c :: cs, .plain fun ds hd => hc (List.cons.inj hd).1⟩

theorem Unsigned.natural64_eq {s body : List Char} (h : Unsigned s body) (hne : body ≠ []) :
    natural64 s = naturalFrom 0 body := by
  cases h with
  | plain h =>
    unfold natural64
    split
    · exact absurd rfl hne
    · exact absurd rfl (h [])
    · exact absurd rfl (h _)
    · rfl
  | plus body =>
    unfold natural64
    split
    · next h => cases h
    · next h =>
      cases h
      exact absurd rfl hne
    · next h =>
      cases h
      rfl
    · next h => exact absurd rfl (h body)

theorem Unsigned.numeral_iff {s body : List Char} (h : Unsigned s body) (n : Nat) :
    Numeral s n ↔ body ≠ [] ∧ (∀ c ∈ body, c.isDigit = true) ∧ decimalValue body = n := by
  constructor
  · rintro ⟨ds, hs, rfl⟩
    have hbody : body = ds.chars := by
      cases h with
      | plain h => exact hs.resolve_right (h _)
      | plus =>
        rcases hs with hs | hs
        · exact absurd (ds.digit '+' (hs ▸ List.mem_cons_self)) (by decide)
        · exact (List.cons.inj hs).2
    subst hbody
    exact ⟨ds.nonempty, ds.digit, rfl⟩
  · rintro ⟨hne, hdigit, rfl⟩
    refine ⟨⟨body, hne, hdigit⟩, ?_, rfl⟩
    cases h with
    | plain _ => exact .inl rfl
    | plus => exact .inr rfl

theorem Numeral.unique {s : List Char} {m n : Nat} (hm : Numeral s m) (hn : Numeral s n) :
    m = n := by
  obtain ⟨body, h⟩ := exists_unsigned s
  obtain ⟨-, -, rfl⟩ := (h.numeral_iff m).1 hm
  obtain ⟨-, -, rfl⟩ := (h.numeral_iff n).1 hn
  rfl

theorem Unsigned.append {t ds : List Char} (h : Unsigned t ds) (hne : ds ≠ []) (rest : List Char) :
    Unsigned (t ++ rest) (ds ++ rest) := by
  cases h with
  | plain h =>
    obtain ⟨c, cs, rfl⟩ := List.exists_cons_of_ne_nil hne
    exact .plain fun ds hds => h cs (by rw [(List.cons.inj hds).1])
  | plus => exact .plus (ds ++ rest)

theorem Unsigned.unique {s ds es : List Char} (hd : Unsigned s ds) (he : Unsigned s es) :
    ds = es := by
  cases hd with
  | plain h =>
    cases he with
    | plain _ => rfl
    | plus => exact absurd rfl (h _)
  | plus =>
    cases he with
    | plain h => exact absurd rfl (h _)
    | plus => rfl

/-- A sign belongs to what stands behind it. -/
theorem Unsigned.cut {s ds rest : List Char} (h : Unsigned s (ds ++ rest)) :
    ∃ t, s = t ++ rest ∧ Unsigned t ds := by
  generalize hbody : ds ++ rest = body at h
  cases h with
  | plain h =>
    refine ⟨ds, hbody.symm, .plain fun cs hcs => h (cs ++ rest) ?_⟩
    rw [← hbody, hcs, List.cons_append]
  | plus => exact ⟨'+' :: ds, by rw [← hbody, List.cons_append], .plus ds⟩

/-! ## Numbers of 64 bits -/

theorem natural64_ok_iff {s : List Char} {n : UInt64} :
    natural64 s = .ok n ↔ Numeral s n.toNat := by
  obtain ⟨body, h⟩ := exists_unsigned s
  rw [h.numeral_iff]
  by_cases hne : body = []
  · subst hne
    cases h <;> simp [natural64]
  · rw [h.natural64_eq hne, naturalFrom_ok_iff, UInt64.toNat_zero]
    exact (and_iff_right hne).symm

theorem natural64_empty_iff {s : List Char} : natural64 s = .error .empty ↔ s = [] := by
  obtain ⟨body, h⟩ := exists_unsigned s
  by_cases hne : body = []
  · subst hne
    cases h <;> simp [natural64]
  · refine ⟨fun he => absurd (h.natural64_eq hne ▸ he) (naturalFrom_ne_empty 0 body), ?_⟩
    rintro rfl
    rfl

/-- A numeral at the front does not fit 64 bits, whatever stands behind it. -/
theorem natural64_tooLarge_iff {s : List Char} : natural64 s = .error .tooLarge ↔
    ∃ t rest n, s = t ++ rest ∧ Numeral t n ∧ UInt64.size ≤ n := by
  obtain ⟨body, h⟩ := exists_unsigned s
  constructor
  · intro he
    have hne : body ≠ [] := by
      rintro rfl
      cases h <;> simp [natural64] at he
    rw [h.natural64_eq hne, naturalFrom_tooLarge_iff] at he
    obtain ⟨ds, rest, rfl, hdigit, large⟩ := he
    obtain ⟨t, rfl, ht⟩ := h.cut
    have hds : ds ≠ [] := by
      rintro rfl
      exact absurd large (by decide)
    exact ⟨t, rest, _, rfl, (ht.numeral_iff _).2 ⟨hds, hdigit, rfl⟩, large⟩
  · rintro ⟨t, rest, n, rfl, hn, large⟩
    obtain ⟨ds, ht⟩ := exists_unsigned t
    obtain ⟨hne, hdigit, rfl⟩ := (ht.numeral_iff n).1 hn
    obtain rfl := h.unique (ht.append hne rest)
    rw [h.natural64_eq (List.append_ne_nil_of_left_ne_nil hne rest)]
    exact naturalFrom_tooLarge_iff.2 ⟨ds, rest, rfl, hdigit, large⟩

/-! ## Between blanks -/

/-- `s` stands in `raw` with nothing but blanks around it, and has none at either end. -/
structure Trimmed (raw s : List Char) : Prop where
  parts : ∃ before after, raw = before ++ (s ++ after) ∧ (∀ c ∈ before, isBlank c = true) ∧
    ∀ c ∈ after, isBlank c = true
  first : ∀ c ∈ s.head?, isBlank c = false
  last : ∀ c ∈ s.getLast?, isBlank c = false

/-- Nothing else could have been meant. -/
theorem Trimmed.trim_eq {raw s : List Char} (h : Trimmed raw s) : trim raw = s := by
  obtain ⟨⟨before, after, rfl, hbefore, hafter⟩, first, last⟩ := h
  cases s with
  | nil =>
    rw [trim_eq_nil_iff, List.nil_append, isAllBlank, List.all_append, Bool.and_eq_true]
    exact ⟨List.all_eq_true.2 hbefore, List.all_eq_true.2 hafter⟩
  | cons c cs =>
    have hfront : skipBlanks (before ++ (c :: cs ++ after)) = c :: cs ++ after := by
      rw [skipBlanks, List.dropWhile_append_of_pos hbefore, List.cons_append,
        List.dropWhile_cons_of_neg (by simp [first c rfl])]
    have hback : skipBlanks (c :: cs ++ after).reverse = (c :: cs).reverse := by
      obtain ⟨d, ds, hd⟩ := List.exists_cons_of_ne_nil
        (List.reverse_ne_nil_iff.2 (List.cons_ne_nil c cs))
      have hlast : isBlank d = false := last d (by rw [← List.head?_reverse, hd]; rfl)
      rw [List.reverse_append, skipBlanks,
        List.dropWhile_append_of_pos fun e he => hafter e (List.mem_reverse.1 he), hd,
        List.dropWhile_cons_of_neg (by simp [hlast])]
    rw [trim, hfront, hback, List.reverse_reverse]

theorem trimmed_trim (raw : List Char) : Trimmed raw (trim raw) := by
  -- `trim` as the two functions of the library
  change Trimmed raw ((raw.dropWhile isBlank).rdropWhile isBlank)
  have hfront := List.takeWhile_append_dropWhile (p := isBlank) (l := raw)
  have hfirst := List.head?_dropWhile_not isBlank raw
  generalize raw.dropWhile isBlank = rest at hfront hfirst
  have hback := List.rdropWhile_append_rtakeWhile (p := isBlank) (l := rest)
  refine ⟨⟨raw.takeWhile isBlank, rest.rtakeWhile isBlank, by rw [hback, hfront],
    fun c hc => List.mem_takeWhile_imp hc, fun c hc => List.mem_rtakeWhile_imp hc⟩, ?first, ?last⟩
  case first =>
    intro c hc
    have hhead : rest.head? = some c := by
      rw [← hback, List.head?_append, Option.mem_def.1 hc]
      rfl
    rw [hhead] at hfirst
    exact hfirst
  case last =>
    intro c hc
    obtain ⟨hne, rfl⟩ := List.mem_getLast?_eq_getLast hc
    exact Bool.not_eq_true _ ▸ List.rdropWhile_last_not isBlank rest hne

end StandingQuery.Text
