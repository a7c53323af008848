import StandingQuery.Proofs.Json.Magnitude
import StandingQuery.Proofs.Query.Decoding

/-! Which number literals the fields take. A field for a count takes the spellings of its integers
that have neither sign nor point nor exponent; a date takes the spelling of any integer that is a
number of milliseconds within the supported years. What is taken is exactly the number written, of
whatever length the literal is, and every other literal is refused. -/

namespace StandingQuery

open Json

/-! ## What is taken -/

namespace Json.NumberLiteral

variable {l : NumberLiteral} {n : Int}

/-- An integer of the range, with no minus sign, fraction or exponent. -/
structure Plain (low high : Int) (l : NumberLiteral) : Prop where
  unsigned : l.negative = false
  fraction : l.fraction = none
  exponent : l.exponent = none
  low : low ≤ l.value
  high : l.value ≤ high

/-- An integer of 64 bits, not spelled `-0`, that is a number of milliseconds within the supported
years. -/
structure Millis (l : NumberLiteral) : Prop where
  fraction : l.fraction = none
  exponent : l.exponent = none
  signed : l.negative = true → l.value ≠ 0
  low : -2 ^ 63 ≤ l.value
  high : l.value ≤ 2 ^ 63 - 1
  since : (1000 * Instant.leastSeconds : Int) ≤ l.value
  before : l.value < (1000 * (Instant.greatestSeconds + 1) : Int)

theorem plain_iff {low high : Int} (hlow : 0 ≤ low) :
    l.Plain low high ↔ ∃ n, l.IsInteger n ∧ low ≤ n ∧ n ≤ high := by
  constructor
  · rintro ⟨unsigned, fraction, exponent, hmin, hmax⟩
    have value := value_of_whole fraction exponent
    rw [value] at hmin hmax
    exact ⟨_, isInteger_iff.2 ⟨fraction, exponent, value, by simp [unsigned]⟩,
      Int.cast_le.1 hmin, Int.cast_le.1 hmax⟩
  · rintro ⟨n, integer, hmin, hmax⟩
    have value := integer.value_eq
    obtain ⟨fraction, exponent, hn, signed⟩ := integer
    refine ⟨?_, fraction, exponent, value ▸ Int.cast_le.2 hmin, value ▸ Int.cast_le.2 hmax⟩
    rw [← Bool.not_eq_true]
    intro negative
    have nonzero := signed negative
    rw [negative, if_pos rfl] at hn
    omega

/-- An integer that is kept is not out of range. -/
theorem Kept.exists_float (h : l.Kept n) : ∃ x, (Numeral.ofLiteral l).float? = some x := by
  obtain ⟨integer, low, high⟩ := h
  rw [← Option.ne_none_iff_exists']
  intro none
  have beyond := Numeral.float?_none l none
  have size : |n| ≤ 2 ^ 64 := abs_le.2 ⟨by omega, high.le⟩
  have within : l.magnitude ≤ 2 ^ 64 := by
    rw [← abs_value, integer.value_eq, ← Int.cast_abs]
    exact_mod_cast size
  have small : (2 : ℚ) ^ 64 ≤ 2 ^ 973 := pow_le_pow_right₀ one_le_two (by decide)
  rw [show (1024 : Nat) = 51 + 973 from rfl, pow_add] at beyond
  generalize (2 : ℚ) ^ 973 = unit at beyond small
  norm_num at within beyond small
  linarith

end Json.NumberLiteral

namespace Instant

/-- Milliseconds since 1970-01-01T00:00:00Z. -/
def millis (t : Instant) : ℚ := 1000 * t.seconds + t.nanos / 1000000

theorem nanos_lt (n : Int) : (n % 1000).toNat * 1000000 < nanosPerSecond := by
  unfold nanosPerSecond
  omega

theorem fits_millis {n : Int} : Fits (n / 1000) ((n % 1000).toNat * 1000000) ↔
    1000 * leastSeconds ≤ n ∧ n < 1000 * (greatestSeconds + 1) := by
  constructor
  · rintro ⟨least, greatest, -⟩
    omega
  · rintro ⟨least, greatest⟩
    exact ⟨by omega, by omega, .inl (nanos_lt n)⟩

/-- The instant so many milliseconds after 1970-01-01T00:00:00Z, and no leap second. -/
def IsAt (t : Option Instant) (ms : ℚ) : Prop :=
  ∃ i, t = some i ∧ i.millis = ms ∧ i.nanos < nanosPerSecond

theorem isAt_of_ofMillis? {n : Int} {t : Instant} (h : ofMillis? n = some t) :
    IsAt (some t) n := by
  unfold ofMillis? ofSeconds? at h
  split at h
  · obtain rfl := Option.some.inj h
    refine ⟨_, rfl, ?_, nanos_lt n⟩
    have rest : (((n % 1000).toNat : Int) : ℚ) = (n % 1000 : Int) :=
      congrArg Int.cast (Int.toNat_of_nonneg (Int.emod_nonneg n (by decide)))
    have parts : (((1000 * (n / 1000) + n % 1000 : Int)) : ℚ) = n :=
      congrArg Int.cast (Int.mul_ediv_add_emod n 1000)
    rw [millis]
    push_cast at rest parts ⊢
    rw [rest]
    linarith
  · cases h

theorem exists_ofMillis? {n : Int} : (∃ t, ofMillis? n = some t) ↔
    1000 * leastSeconds ≤ n ∧ n < 1000 * (greatestSeconds + 1) := by
  rw [← fits_millis]
  constructor
  · rintro ⟨t, found⟩
    by_contra unfit
    rw [ofMillis?, ofSeconds?, dif_neg unfit] at found
    cases found
  · exact fun fits => ⟨_, dif_pos fits⟩

end Instant

theorem Json.NumberLiteral.millis_iff {l : NumberLiteral} :
    l.Millis ↔ ∃ n t, l.IsInteger n ∧ -2 ^ 63 ≤ n ∧ n < 2 ^ 63 ∧ Instant.ofMillis? n = some t := by
  constructor
  · rintro ⟨fraction, exponent, signed, low, high, since, before⟩
    have value := value_of_whole fraction exponent
    generalize ((if l.negative then -1 else 1) * Text.decimalValue l.whole.chars : Int) = n at value
    rw [value] at low high since before
    obtain ⟨t, found⟩ := Instant.exists_ofMillis?.2 ⟨Int.cast_le.1 since, Int.cast_lt.1 before⟩
    have low : -2 ^ 63 ≤ n := by exact_mod_cast low
    have high : n ≤ 2 ^ 63 - 1 := by exact_mod_cast high
    exact ⟨n, t, isInteger_iff.2 ⟨fraction, exponent, value, signed⟩, low, by omega, found⟩
  · rintro ⟨n, t, integer, low, high, found⟩
    obtain ⟨fraction, exponent, value, signed⟩ := isInteger_iff.1 integer
    obtain ⟨since, before⟩ := Instant.exists_ofMillis?.1 ⟨t, found⟩
    have high : n ≤ 2 ^ 63 - 1 := by omega
    exact ⟨fraction, exponent, signed, value ▸ by exact_mod_cast low,
      value ▸ by exact_mod_cast high, value ▸ Int.cast_le.2 since, value ▸ Int.cast_lt.2 before⟩

/-! ## What is refused -/

/-- How a field that asks for a number refuses a literal: an integer of at most 64 bits by its
value, anything else by its kind, unless no binary64 number stands for it. That is a matter of the
magnitude, save next to `2 ^ 1024`, where it depends on how the reader rounds. -/
inductive Json.Refused (wanted : Wanted) (l : NumberLiteral) : Failure → Prop
  | value {n : Int} (kept : l.Kept n) :
      Refused wanted l (.misfit (.wrongValue (.number (.integer n)) wanted))
  | kind {x : Binary64} (other : ∀ n, ¬ l.Kept n) (read : (Numeral.ofLiteral l).float? = some x)
      (within : |l.value| < 2 ^ 1024 + 2 ^ 973) :
      Refused wanted l (.misfit (.wrongKind (.number (.float x)) wanted))
  | tooLarge (read : (Numeral.ofLiteral l).float? = none)
      (beyond : 2 ^ 1024 - 2 ^ 973 < |l.value|) : Refused wanted l (.malformed .numberTooLarge)

/-- How a date refuses a literal. -/
inductive Instant.Refused (l : NumberLiteral) : Failure → Prop
  | outOfRange {n : Int} (kept : l.Kept n) (small : n < 2 ^ 63) :
      Refused l (.misfit (.timestamp .outOfRange))
  | notInteger {x : Binary64} (other : ∀ n, l.Kept n → 2 ^ 63 ≤ n)
      (read : (Numeral.ofLiteral l).float? = some x) (within : |l.value| < 2 ^ 1024 + 2 ^ 973) :
      Refused l (.misfit (.timestamp .notInteger))
  | tooLarge (read : (Numeral.ofLiteral l).float? = none)
      (beyond : 2 ^ 1024 - 2 ^ 973 < |l.value|) : Refused l (.malformed .numberTooLarge)

section
variable {α : Type} {accept : Surface → Except Misfit α} {wanted : Wanted} {l : NumberLiteral}

/-- Where no number is accepted that the literal may show. -/
theorem Json.exists_refused
    (integer : ∀ n, l.Kept n →
      accept (.number (.integer n)) = .error (.wrongValue (.number (.integer n)) wanted))
    (float : ∀ x, accept (.number (.float x)) = .error (.wrongKind (.number (.float x)) wanted)) :
    ∃ e, Refused wanted l e ∧ Declines (readScalar accept) l.print e := by
  by_cases kept : ∃ n, l.Kept n
  · obtain ⟨n, kept⟩ := kept
    exact ⟨_, .value kept, (peeks_kept kept).decline (integer n kept)⟩
  · have other := not_exists.1 kept
    cases read : (Numeral.ofLiteral l).float? with
    | some x =>
      exact ⟨_, .kind other read (l.abs_value ▸ Numeral.float?_some l read),
        (peeks_float other read).decline (float x)⟩
    | none =>
      exact ⟨_, .tooLarge read (l.abs_value ▸ Numeral.float?_none l read),
        (declines_tooLarge other read).scalar⟩

end

/-! ## Single values -/

section
variable {l : NumberLiteral}

theorem Json.plain64_iff :
    l.Plain 0 (2 ^ 64 - 1) ↔ ∃ n : UInt64, l.IsInteger n.toNat := by
  rw [NumberLiteral.plain_iff (le_refl 0)]
  constructor
  · rintro ⟨n, integer, low, high⟩
    have same : ((UInt64.ofNat n.toNat).toNat : Int) = n := by
      rw [UInt64.toNat_ofNat_of_lt' (by omega : n.toNat < 2 ^ 64), Int.toNat_of_nonneg low]
    exact ⟨_, (congrArg l.IsInteger same).mpr integer⟩
  · rintro ⟨n, integer⟩
    have := n.toNat_lt
    exact ⟨_, integer, Int.natCast_nonneg _, by omega⟩

theorem Json.declines_unplain64 (h : ¬ l.Plain 0 (2 ^ 64 - 1)) :
    ∃ e, Refused .natural64 l e ∧ Declines readNatural64 l.print e := by
  refine exists_refused (fun n kept => if_neg fun range => h ?_) fun x => rfl
  have size : UInt64.size = 2 ^ 64 := rfl
  exact (NumberLiteral.plain_iff (le_refl 0)).2 ⟨n, kept.1, range.1, by omega⟩

theorem PageSize.plain_iff :
    l.Plain 1 (2 ^ 32 - 1) ↔ ∃ n : PageSize, l.IsInteger n.value.toNat := by
  rw [NumberLiteral.plain_iff (Int.le_of_lt Int.zero_lt_one)]
  constructor
  · rintro ⟨n, integer, low, high⟩
    obtain ⟨u, rfl⟩ : ∃ u : UInt32, (u.toNat : Int) = n := ⟨UInt32.ofNat n.toNat, by
      rw [UInt32.toNat_ofNat_of_lt' (by omega : n.toNat < 2 ^ 32), Int.toNat_of_nonneg (by omega)]⟩
    refine ⟨⟨u, fun zero => ?_⟩, integer⟩
    rw [zero] at low
    exact absurd low (by decide)
  · rintro ⟨n, integer⟩
    have := n.value.toNat_lt
    have : n.value.toNat ≠ 0 := fun zero => n.positive (UInt32.toNat_inj.1 zero)
    exact ⟨_, integer, by omega, by omega⟩

theorem PageSize.declines_unplain (h : ¬ l.Plain 1 (2 ^ 32 - 1)) :
    ∃ e, Refused .positive32 l e ∧ Declines PageSize.read l.print e := by
  have declined : ∃ e, Refused .positive32 l e ∧ Declines readPositive32 l.print e := by
    refine exists_refused (fun n kept => dif_neg fun range => h ?_) fun x => rfl
    have size : UInt32.size = 2 ^ 32 := rfl
    exact (NumberLiteral.plain_iff (Int.le_of_lt Int.zero_lt_one)).2
      ⟨n, kept.1, by omega, by omega⟩
  obtain ⟨e, refused, declines⟩ := declined
  exact ⟨e, refused,
    declines.map fun n : { n : UInt32 // n ≠ 0 } => (⟨n.1, n.2⟩ : PageSize)⟩

theorem Instant.declines_surface {room : Nat} {s : Surface} {fault : Fault} {text : List Char}
    (h : Takes (wholeSurface room) text s) (hs : ofSurface s = .error fault) :
    Declines (readValue room) text (.misfit (.timestamp fault)) := by
  intro w rest hw hr
  simp only [readValue, h w rest hw hr, bind, Except.bind, hs]

theorem Instant.declines_unmillis (room : Nat) (h : ¬ l.Millis) :
    ∃ e, Refused l e ∧ Declines (readValue room) l.print e := by
  by_cases kept : ∃ n, l.Kept n
  · obtain ⟨n, kept⟩ := kept
    have surface := (peeks_kept kept).whole (by simp) room
    have bound : Int64.maxValue.toInt = 2 ^ 63 - 1 := rfl
    by_cases small : n < 2 ^ 63
    · have unknown : ofMillis? n = none := Option.eq_none_iff_forall_ne_some.2 fun t found =>
        h (NumberLiteral.millis_iff.2 ⟨n, t, kept.1, kept.2.1, small, found⟩)
      refine ⟨_, .outOfRange kept small, declines_surface surface ?_⟩
      simp only [ofSurface, if_pos (by omega : n ≤ Int64.maxValue.toInt), unknown]
    · have beyond : ∀ m, l.Kept m → 2 ^ 63 ≤ m := fun m other => by
        rw [Int.cast_injective (other.1.value_eq.symm.trans kept.1.value_eq)]
        omega
      obtain ⟨x, read⟩ := kept.exists_float
      refine ⟨_, .notInteger beyond read (l.abs_value ▸ Numeral.float?_some l read),
        declines_surface surface ?_⟩
      exact if_neg (by omega)
  · have other := not_exists.1 kept
    cases read : (Numeral.ofLiteral l).float? with
    | some x =>
      have surface := (peeks_float other read).whole (by simp) room
      exact ⟨_, .notInteger (fun n kept => absurd kept (other n)) read
        (l.abs_value ▸ Numeral.float?_some l read), declines_surface surface rfl⟩
    | none =>
      have surface := (declines_tooLarge other read).whole room
      refine ⟨_, .tooLarge read (l.abs_value ▸ Numeral.float?_none l read), fun w rest hw hr => ?_⟩
      simp only [readValue, surface w rest hw hr, bind, Except.bind]

end

/-! ## Members -/

section
variable {σ γ : Type}

/-- The field of this name takes the literals that are accepted, each as the number that it writes,
and refuses all others. -/
structure TakesNumbers (schema : Schema σ) (slots : List (Slot σ))
    (ofText : String → Except Failure σ) (name : String) (get : σ → γ)
    (Accepts : NumberLiteral → Prop) (Holds : γ → ℚ → Prop)
    (Refused : NumberLiteral → Failure → Prop) : Prop where
  /-- Wherever its value stands. -/
  takes : ∀ f ∈ schema.fields, f.name = name → ∀ room l, Accepts l →
    ∃ change, Takes (f.read room) l.print change ∧ ∀ a, Holds (get (change a)) l.value
  refuses : ∀ f ∈ schema.fields, f.name = name → ∀ room l, ¬ Accepts l →
    ∃ e, Refused l e ∧ Declines (f.read room) l.print e
  /-- An object that is in order but for this member is read, with all it says. -/
  accepted : ∀ {front back : Members} {l text},
    ObjectText (front ++ (name, .number l) :: back) text → Valid slots (front ++ back) →
    Once slots (Members.names (front ++ (name, .number l) :: back)) →
    (∀ s ∈ slots, s.absent = none → s.name ∈ Members.names (front ++ (name, .number l) :: back)) →
    Accepts l → ∃ a, ofText text = .ok a ∧ Holds (get a) l.value ∧
      ∀ b, Given slots (front ++ (name, .number l) :: back) b ↔ b = a
  /-- An object is refused at this member, if it is in order as far as that. -/
  rejected : ∀ {front back : Members} {l text},
    ObjectText (front ++ (name, .number l) :: back) text → Valid slots front →
    Once slots front.names → name ∉ front.names → ¬ Accepts l →
    ∃ e, Refused l e ∧ ofText text = .error e

variable {schema : Schema σ} {slots : List (Slot σ)} {Accepts : NumberLiteral → Prop}
  {Refused : NumberLiteral → Failure → Prop} {s : Slot σ}
  {Holds : s.Content → ℚ → Prop}

/-- It is enough that the reader does so that the field is made of. -/
theorem Json.Describes.takesNumbers (d : Describes 127 schema slots) (hs : s ∈ slots)
    {required : Bool} {read : Nat → Reader s.Content}
    (hf : .of s.name required read s.set ∈ schema.fields)
    (means : ∀ l, Accepts l → ∃ c, s.Means (.number l) c)
    (holds : ∀ l c, s.Means (.number l) c → Holds c l.value)
    (takes : ∀ room l c, s.Means (.number l) c → Takes (read room) l.print c)
    (declines : ∀ room l, ¬ Accepts l → ∃ e, Refused l e ∧ Declines (read room) l.print e) :
    TakesNumbers schema slots (readAll schema.read) s.name s.get Accepts Holds Refused := by
  have unique : ∀ f ∈ schema.fields, f.name = s.name → f = .of s.name required read s.set :=
    fun f hmem named => List.inj_on_of_nodup_map (d.names ▸ d.lawful.names) hmem hf named
  refine ⟨?_, ?_, ?_, ?_⟩
  · intro f hmem named room l accepts
    obtain rfl := unique f hmem named
    obtain ⟨c, hc⟩ := means l accepts
    refine ⟨s.set c, (takes room l c hc).map s.set, fun a => ?_⟩
    rw [d.lawful.get_set s hs]
    exact holds l c hc
  · intro f hmem named room l accepts
    obtain rfl := unique f hmem named
    obtain ⟨e, refused, declined⟩ := declines room l accepts
    exact ⟨e, refused, declined.map s.set⟩
  · intro front back l text ht valid once complete accepts
    have whole : Valid slots (front ++ (s.name, .number l) :: back) := by
      intro t ht v hv
      rw [List.mem_append, List.mem_cons] at hv
      rcases hv with hv | same | hv
      · exact valid t ht v (List.mem_append_left _ hv)
      · obtain ⟨named, rfl⟩ := Prod.mk.inj same
        obtain rfl := d.lawful.eq_of_name ht hs named
        exact means l accepts
      · exact valid t ht v (List.mem_append_right _ hv)
    obtain ⟨a, hread, given⟩ := d.decodes.complete ht whole once complete
    have said := ((given a).2 rfl).said s hs (.number l) (by simp)
    exact ⟨a, hread, holds l _ said, given⟩
  · rintro front back l _ ⟨hw, ht, hu⟩ valid once new accepts
    obtain ⟨e, refused, declined⟩ := declines 127 l accepts
    have refuses := d.refuses_value hs ht valid once new fun f hmem named t written => by
      cases written
      obtain rfl := unique f hmem named
      exact declined.map s.set
    exact ⟨e, refused, refuses.readAll hw _⟩

end

theorem Json.NumberLiteral.isInteger_value {l : NumberLiteral} {n : Int} :
    (Value.number l).IsInteger n ↔ l.IsInteger n := by
  constructor
  · rintro ⟨_, same, integer⟩
    exact Value.number.inj same ▸ integer
  · exact fun integer => ⟨l, rfl, integer⟩

theorem Instant.isDate_number {l : NumberLiteral} {t : Option Instant} :
    IsDate (.number l) t ↔
      ∃ n i, l.IsInteger n ∧ -2 ^ 63 ≤ n ∧ n < 2 ^ 63 ∧ ofMillis? n = some i ∧ t = some i := by
  constructor
  · rintro (_ | ⟨⟨_, same, integer⟩, low, high, found⟩ | ⟨text, -⟩)
    · obtain rfl := Value.number.inj same
      exact ⟨_, _, integer, low, high, found, rfl⟩
    · cases text
  · rintro ⟨n, i, integer, low, high, found, rfl⟩
    exact .millis ⟨l, rfl, integer⟩ low high found

theorem PageSize.takesNumbers :
    TakesNumbers Request.schema Request.slots Request.ofText "maxResults"
    Request.pageSize (NumberLiteral.Plain 1 (2 ^ 32 - 1)) (fun n value => n.value.toNat = value)
    (Refused .positive32) := by
  refine (Request.described 124).takesNumbers (.tail _ (.head _)) (.tail _ (.head _))
    (fun l plain => ?_) (fun l n meant => ?_) (fun room l n meant => ?_) fun room l unplain => ?_
  · obtain ⟨n, integer⟩ := PageSize.plain_iff.1 plain
    exact ⟨n, l, rfl, integer⟩
  · exact (NumberLiteral.isInteger_value.1 meant).value_eq.symm
  · exact PageSize.takes meant (.number l)
  · exact PageSize.declines_unplain unplain

theorem Results.takesNumbers : TakesNumbers Results.schema Results.slots Results.ofText "totalCount"
    Results.total (NumberLiteral.Plain 0 (2 ^ 64 - 1)) (fun n value => n.toNat = value)
    (Refused .natural64) := by
  refine (Results.described 124).takesNumbers (.head _) (.head _)
    (fun l plain => ?_) (fun l n meant => ?_) (fun room l n meant => ?_) fun room l unplain => ?_
  · obtain ⟨n, integer⟩ := plain64_iff.1 plain
    exact ⟨n, l, rfl, integer⟩
  · exact (NumberLiteral.isInteger_value.1 meant).value_eq.symm
  · exact takes_natural64 meant (.number l)
  · exact declines_unplain64 unplain

theorem Instant.exists_isDate {l : NumberLiteral} (h : l.Millis) : ∃ t, IsDate (.number l) t := by
  obtain ⟨n, i, integer, low, high, found⟩ := NumberLiteral.millis_iff.1 h
  exact ⟨some i, isDate_number.2 ⟨n, i, integer, low, high, found, rfl⟩⟩

theorem Instant.isAt_of_isDate {l : NumberLiteral} {t : Option Instant} (h : IsDate (.number l) t) :
    IsAt t l.value := by
  obtain ⟨n, i, integer, -, -, found, rfl⟩ := isDate_number.1 h
  exact integer.value_eq ▸ isAt_of_ofMillis? found

theorem Instant.takesNumbers {name : String} {get : Request → Option Instant}
    {set : Option Instant → Request → Request}
    (hs : ⟨name, Option Instant, IsDate, get, set, some none⟩ ∈ Request.slots)
    (hf : .of name false readValue set ∈ Request.schema.fields) :
    TakesNumbers Request.schema Request.slots Request.ofText name get NumberLiteral.Millis IsAt
      Refused := by
  refine (Request.described 124).takesNumbers hs hf (fun l millis => ?_) (fun l t meant => ?_)
    (fun room l t meant => ?_) fun room l unfit => ?_
  · exact exists_isDate millis
  · exact isAt_of_isDate meant
  · exact Instant.takes meant (.number l)
  · exact declines_unmillis room unfit

/-- What is made of a number in a request or in results. -/
theorem reads_numbers :
    TakesNumbers Request.schema Request.slots Request.ofText "maxResults" Request.pageSize
      (NumberLiteral.Plain 1 (2 ^ 32 - 1)) (fun n value => n.value.toNat = value)
      (Refused .positive32) ∧
    TakesNumbers Results.schema Results.slots Results.ofText "totalCount" Results.total
      (NumberLiteral.Plain 0 (2 ^ 64 - 1)) (fun n value => n.toNat = value) (Refused .natural64) ∧
    TakesNumbers Request.schema Request.slots Request.ofText "startDate" Request.start
      NumberLiteral.Millis Instant.IsAt Instant.Refused ∧
    TakesNumbers Request.schema Request.slots Request.ofText "endDate" Request.stop
      NumberLiteral.Millis Instant.IsAt Instant.Refused := by
  refine ⟨PageSize.takesNumbers, Results.takesNumbers, ?_, ?_⟩
  · exact Instant.takesNumbers (.tail _ (.tail _ (.tail _ (.tail _ (.head _)))))
      (.tail _ (.tail _ (.tail _ (.tail _ (.head _)))))
  · exact Instant.takesNumbers (.tail _ (.tail _ (.tail _ (.tail _ (.tail _ (.head _))))))
      (.tail _ (.tail _ (.tail _ (.tail _ (.tail _ (.head _))))))

/-- No number is read at all. -/
example : Results.ofText "\x7b\"totalCount\": 1e309\x7d" = .error (.malformed .numberTooLarge) := by
  decide +kernel

end StandingQuery
