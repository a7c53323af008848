import StandingQuery.Proofs.Text.Natural
import StandingQuery.Settings

/-! What settings come of the variables. The limit is a numeral of 64 bits that is not zero, blanks
around it not counting; all else is refused, with a reason that depends on the text of the limit and
on nothing else. The filter is taken as it is unless it is blank. -/

namespace StandingQuery.Settings

open Text (Trimmed Numeral)

/-! ## The limit -/

/-- The numeral `n` stands in `raw`, between blanks. -/
def Spells (raw : String) (n : Nat) : Prop := ∃ text, Trimmed raw.toList text ∧ Numeral text n

theorem spells_iff {raw : String} {n : Nat} : Spells raw n ↔ Numeral (Text.trim raw.toList) n := by
  constructor
  · rintro ⟨text, htext, h⟩
    exact htext.trim_eq ▸ h
  · intro h
    exact ⟨_, Text.trimmed_trim _, h⟩

theorem Spells.unique {raw : String} {m n : Nat} (hm : Spells raw m) (hn : Spells raw n) :
    m = n := by
  rw [spells_iff] at hm hn
  exact hm.unique hn

theorem limitOf_ok_iff {raw : String} {n : UInt64} :
    limitOf raw = .ok n ↔ Spells raw n.toNat ∧ 1 ≤ n.toNat := by
  rw [spells_iff, ← Text.natural64_ok_iff, limitOf]
  cases hread : Text.natural64 (Text.trim raw.toList) with
  | error cause => simp
  | ok m =>
    have hzero : m = 0 ↔ m.toNat = 0 := by rw [← UInt64.toNat_inj, UInt64.toNat_zero]
    dsimp only
    split
    case isTrue hm =>
      refine ⟨nofun, fun ⟨h, hn⟩ => ?_⟩
      cases h
      have := hzero.1 hm
      omega
    case isFalse hm =>
      constructor
      · intro h
        cases h
        exact ⟨rfl, Nat.one_le_iff_ne_zero.2 (mt hzero.2 hm)⟩
      · rintro ⟨h, -⟩
        cases h
        rfl

/-- No numeral that is a limit is refused. -/
theorem Spells.accepted {raw : String} {n : Nat} (h : Spells raw n) (hpos : 1 ≤ n)
    (hlt : n < 2 ^ 64) : limitOf raw = .ok (UInt64.ofNat n) := by
  have hnat : (UInt64.ofNat n).toNat = n := UInt64.toNat_ofNat_of_lt hlt
  exact limitOf_ok_iff.2 ⟨by rwa [hnat], by rwa [hnat]⟩

/-- Zero is refused as a number, and all else as none. -/
theorem limitOf_error {raw : String} {cause : LimitFault} (h : limitOf raw = .error cause) :
    (cause = .zero ∧ Numeral (Text.trim raw.toList) 0) ∨
      ∃ fault,
        cause = .notNatural fault ∧ Text.natural64 (Text.trim raw.toList) = .error fault := by
  rw [limitOf] at h
  cases hread : Text.natural64 (Text.trim raw.toList) with
  | error fault =>
    rw [hread] at h
    cases h
    exact .inr ⟨fault, rfl, rfl⟩
  | ok m =>
    rw [hread] at h
    dsimp only at h
    split at h
    · next hm =>
      subst hm
      cases h
      exact .inl ⟨rfl, Text.natural64_ok_iff.1 hread⟩
    · cases h

/-! ## The reasons -/

/-- What is said of a limit that was given as `raw`, which is `text` between blanks. -/
structure Explains (raw : String) (text : List Char) (causes : List String) : Prop where
  outermost : causes[0]? = some ("Invalid PROVENANCE_MAX_RESULTS value: " ++ Text.quoted raw)
  zero_iff : causes[1]? = some "must be greater than zero" ↔ Numeral text 0
  otherwise : ¬ Numeral text 0 → causes[1]? = some "not an unsigned integer"
  empty_iff : causes[2]? = some "cannot parse integer from empty string" ↔ text = []
  /-- A numeral that does not fit 64 bits, however long. -/
  tooLarge : ∀ n, Numeral text n → 2 ^ 64 ≤ n →
    causes[2]? = some "number too large to fit in target type"
  /-- Such a numeral at the front is enough. -/
  tooLarge_iff : causes[2]? = some "number too large to fit in target type" ↔
    ∃ front rest n, text = front ++ rest ∧ Numeral front n ∧ 2 ^ 64 ≤ n

theorem explains {raw : String} {cause : LimitFault} (h : limitOf raw = .error cause) :
    Explains raw (Text.trim raw.toList) (Fault.causes ⟨raw, cause⟩) := by
  have hempty := Text.natural64_empty_iff (s := Text.trim raw.toList)
  have hlarge := Text.natural64_tooLarge_iff (s := Text.trim raw.toList)
  have hread {n : UInt64} := Text.natural64_ok_iff (s := Text.trim raw.toList) (n := n)
  have whole : ∀ n, Numeral (Text.trim raw.toList) n → 2 ^ 64 ≤ n →
      Text.natural64 (Text.trim raw.toList) = .error .tooLarge :=
    fun n hn hle => hlarge.2 ⟨_, [], n, (List.append_nil _).symm, hn, hle⟩
  rcases limitOf_error h with ⟨rfl, hzero⟩ | ⟨fault, rfl, hfault⟩
  · rw [← UInt64.toNat_zero, ← hread] at hzero
    rw [hzero] at hempty hlarge whole
    exact {
      outermost := rfl
      zero_iff := ⟨fun _ => hread.1 hzero, fun _ => rfl⟩
      otherwise := fun hn => absurd (hread.1 hzero) hn
      empty_iff := ⟨nofun, fun he => nomatch hempty.2 he⟩
      tooLarge := fun n hn hle => nomatch whole n hn hle
      tooLarge_iff := ⟨nofun, fun he => nomatch hlarge.2 he⟩ }
  · have hzero : ¬ Numeral (Text.trim raw.toList) 0 := fun hn => by
      rw [← UInt64.toNat_zero, ← hread, hfault] at hn
      cases hn
    rw [hfault] at hempty hlarge whole
    have message {f : Text.NaturalFault} : some fault.message = some f.message ↔
        Except.error fault = (Except.error f : Except _ UInt64) := by
      cases fault <;> cases f <;> simp [Text.NaturalFault.message]
    exact {
      outermost := rfl
      zero_iff := ⟨fun he => absurd (Option.some.inj he) (by decide), fun hn => absurd hn hzero⟩
      otherwise := fun _ => rfl
      empty_iff := message.trans hempty
      tooLarge := fun n hn hle => message.2 (whole n hn hle)
      tooLarge_iff := message.trans hlarge }

/-! ## The settings -/

/-- The filter that is used where the variable is as given: itself, untrimmed, if anything in it is
not blank. -/
def Filters (raw? : Option String) (filter : String) : Prop :=
  (∃ raw, raw? = some raw ∧ (∃ c ∈ raw.toList, Text.isBlank c = false) ∧ filter = raw) ∨
    (∀ raw, raw? = some raw → ∀ c ∈ raw.toList, Text.isBlank c = true) ∧ filter = "warn"

/-- What comes of the variables that `lookup` finds. -/
structure Follows (lookup : String → Option String) : Prop where
  succeeds_iff : (∃ s, ofLookup lookup = .ok s) ↔ lookup "PROVENANCE_MAX_RESULTS" = none ∨
    ∃ raw n, lookup "PROVENANCE_MAX_RESULTS" = some raw ∧ Spells raw n ∧ 1 ≤ n ∧ n < 2 ^ 64
  unlimited : ∀ s, ofLookup lookup = .ok s → lookup "PROVENANCE_MAX_RESULTS" = none → s.limit = 1000
  limit : ∀ s raw n, ofLookup lookup = .ok s → lookup "PROVENANCE_MAX_RESULTS" = some raw →
    Spells raw n → s.limit.toNat = n
  filter : ∀ s, ofLookup lookup = .ok s → Filters (lookup "PROVENANCE_LOG") s.logFilter
  /-- The filter has no part in a failure. -/
  unfiltered : ∀ f other, ofLookup lookup = .error f →
    other "PROVENANCE_MAX_RESULTS" = lookup "PROVENANCE_MAX_RESULTS" → ofLookup other = .error f
  fails : ∀ f, ofLookup lookup = .error f → ∃ raw text,
    lookup "PROVENANCE_MAX_RESULTS" = some raw ∧ Trimmed raw.toList text ∧
      Explains raw text f.causes

/-- The filter as it is found, and `warn` for a blank one. -/
def filterOf (raw? : Option String) : String :=
  (raw?.filter fun s => !Text.isAllBlank s.toList).getD "warn"

theorem filters (raw? : Option String) : Filters raw? (filterOf raw?) := by
  cases raw? with
  | none => exact .inr ⟨nofun, rfl⟩
  | some raw =>
    cases hblank : Text.isAllBlank raw.toList with
    | true =>
      refine .inr ⟨?_, by simp [filterOf, Option.filter, hblank]⟩
      rintro _ ⟨⟩
      exact List.all_eq_true.1 hblank
    | false =>
      refine .inl ⟨raw, rfl, ?_, by simp [filterOf, Option.filter, hblank]⟩
      simpa [Text.isAllBlank] using hblank

/-- The variables give a limit or none, or one that is refused. -/
inductive Comes (lookup : String → Option String) : Except Fault Settings → Prop
  | unset (h : lookup limitVariable = none) :
      Comes lookup (.ok ⟨1000, filterOf (lookup logVariable)⟩)
  | given {raw : String} {n : UInt64} (h : lookup limitVariable = some raw)
      (accepted : limitOf raw = .ok n) : Comes lookup (.ok ⟨n, filterOf (lookup logVariable)⟩)
  | refused {raw : String} {cause : LimitFault} (h : lookup limitVariable = some raw)
      (refused : limitOf raw = .error cause) : Comes lookup (.error ⟨raw, cause⟩)

theorem ofLookup_some {lookup : String → Option String} {raw : String}
    (h : lookup limitVariable = some raw) : ofLookup lookup =
      match limitOf raw with
      | .ok n => .ok ⟨n, filterOf (lookup logVariable)⟩
      | .error cause => .error ⟨raw, cause⟩ := by
  simp only [ofLookup, h]
  cases limitOf raw <;> rfl

theorem comes (lookup : String → Option String) : Comes lookup (ofLookup lookup) := by
  cases h : lookup limitVariable with
  | none =>
    simp only [ofLookup, h]
    exact .unset h
  | some raw =>
    rw [ofLookup_some h]
    cases hlimit : limitOf raw with
    | ok n => exact .given h hlimit
    | error cause => exact .refused h hlimit

/-- **Exactly the positive numerals of 64 bits are limits.** The filter is independent of that. -/
theorem follows_lookup (lookup : String → Option String) : Follows lookup := by
  have came := comes lookup
  constructor
  case succeeds_iff =>
    constructor
    · rintro ⟨s, h⟩
      rw [h] at came
      cases came with
      | unset hnone => exact .inl hnone
      | @given raw n hraw accepted =>
        obtain ⟨hspells, hpos⟩ := limitOf_ok_iff.1 accepted
        exact .inr ⟨raw, n.toNat, hraw, hspells, hpos, n.toNat_lt⟩
    · intro h
      cases hread : ofLookup lookup with
      | ok s => exact ⟨s, rfl⟩
      | error f =>
        rw [hread] at came
        cases came with
        | refused hraw refused =>
          rcases h with hnone | ⟨raw, n, hsome, hspells, hpos, hlt⟩
          · exact nomatch hnone.symm.trans hraw
          · obtain rfl := Option.some.inj (hsome.symm.trans hraw)
            exact nomatch refused.symm.trans (hspells.accepted hpos hlt)
  case unlimited =>
    intro s h hnone
    rw [h] at came
    cases came with
    | unset => rfl
    | given hraw => exact nomatch hnone.symm.trans hraw
  case limit =>
    intro s raw n h hsome hn
    rw [h] at came
    cases came with
    | unset hnone => exact nomatch hnone.symm.trans hsome
    | given hraw accepted =>
      obtain rfl := Option.some.inj (hsome.symm.trans hraw)
      exact (limitOf_ok_iff.1 accepted).1.unique hn
  case filter =>
    intro s h
    rw [h] at came
    cases came with
    | unset | given => exact filters _
  case unfiltered =>
    intro f other h hother
    rw [h] at came
    cases came with
    | refused hraw refused => rw [ofLookup_some (hother.trans hraw), refused]
  case fails =>
    intro f h
    rw [h] at came
    cases came with
    | refused hraw refused => exact ⟨_, _, hraw, Text.trimmed_trim _, explains refused⟩

end StandingQuery.Settings
