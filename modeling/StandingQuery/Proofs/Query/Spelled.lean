import StandingQuery.Proofs.DayCount
import StandingQuery.Proofs.Query.Timestamp

/-! Every date and time that is written out in full is judged and read by what it says. It is
accepted if there is such a day, in the supported years, if the zone is less than a day away, and if
the instant does not leave those years; that instant is found by counting days. -/

namespace StandingQuery.Instant

open Json
open Text (decimalIn decimalValue Digits NoDigitNext)

/-! ## What is written -/

/-- A year in four digits, or in any number of them behind a sign. -/
inductive WrittenYear where
  | four (y : Nat) (short : y < 10000)
  | signed (negative : Bool) (digits : Digits)

namespace WrittenYear

def print : WrittenYear → List Char
  | four y _ => decimalIn 4 y
  | signed negative digits => (if negative then '-' else '+') :: digits.chars

def value : WrittenYear → Int
  | four y _ => y
  | signed negative digits => (if negative then -1 else 1) * decimalValue digits.chars

end WrittenYear

/-- A distance from UTC, of which the hours may be too many. -/
structure Shift where
  west : Bool
  hours : Nat
  minutes : Nat
  hours_lt : hours < 100
  minutes_lt : minutes < 60

/-- A date and time as it is written, whether or not there is such a day. No shift stands for
UTC. -/
structure Stamp where
  year : WrittenYear
  month : Nat
  day : Nat
  hour : Nat
  minute : Nat
  second : Nat
  fraction : Option Digits
  shift : Option Shift
  month_in : 1 ≤ month ∧ month ≤ 12
  day_in : 1 ≤ day ∧ day ≤ 31
  hour_le : hour ≤ 23
  minute_le : minute ≤ 59
  second_le : second ≤ 60

namespace Stamp

def printDate (s : Stamp) : List Char :=
  s.year.print ++ '-' :: decimalIn 2 s.month ++ '-' :: decimalIn 2 s.day

def printFraction (s : Stamp) : List Char :=
  match s.fraction with
  | none => []
  | some digits => '.' :: digits.chars

def printZone (s : Stamp) : List Char :=
  match s.shift with
  | none => ['Z']
  | some z => (if z.west then '-' else '+') :: (decimalIn 2 z.hours ++ ':' :: decimalIn 2 z.minutes)

def print (s : Stamp) : List Char :=
  s.printDate ++ 'T' :: (printClock s.hour s.minute s.second ++ (s.printFraction ++ s.printZone))

/-- As a text between quote marks. -/
def text (s : Stamp) : String := String.ofList (printText (String.ofList s.print))

/-! ## What it says -/

def date (s : Stamp) : Date := ⟨s.year.value, s.month, s.day⟩

/-- Minutes by which the clocks are ahead of UTC. -/
def east (s : Stamp) : Int :=
  match s.shift with
  | none => 0
  | some z => (if z.west then -1 else 1) * (60 * z.hours + z.minutes)

/-- Seconds since 1970-01-01T00:00:00Z; the second 60 is no further than the one before. -/
def seconds (s : Stamp) : Int :=
  86400 * Calendar.count s.date + (3600 * s.hour + 60 * s.minute + min s.second 59 : Nat) -
    60 * s.east

/-- The first nine digits of the fraction, missing ones being zeros. -/
def fractionNanos (s : Stamp) : Nat :=
  match s.fraction with
  | none => 0
  | some digits => decimalValue ((digits.chars ++ List.replicate 9 '0').take 9)

/-- The second 60 lies a second beyond the one before. -/
def nanos (s : Stamp) : Nat := s.fractionNanos + if s.second = 60 then 1000000000 else 0

/-- There is such a day, in the supported years, and the zone is less than a day away. -/
def IsProper (s : Stamp) : Prop :=
  Calendar.HasDay s.date ∧ (-262143 ≤ s.date.year ∧ s.date.year ≤ 262142) ∧ s.east.natAbs < 24 * 60

/-- The instant lies in the supported years of UTC. -/
def InRange (s : Stamp) : Prop :=
  86400 * Calendar.count ⟨-262143, 1, 1⟩ ≤ s.seconds ∧
    s.seconds < 86400 * Calendar.count ⟨262143, 1, 1⟩

end Stamp

/-! ## The parts -/

theorem digits_chars (ds : Digits) {r : List Char} (hr : NoDigitNext r) :
    digits (ds.chars ++ r) = .ok (ds.chars, r) := by
  have hspan := Text.span_isDigit ds.digit hr
  obtain ⟨c, cs, hd, hc⟩ := ds.eq_cons
  rw [hd, List.cons_append] at hspan ⊢
  rw [digits_of_isDigit hc, hspan]

theorem signedYear_chars (sign : Int) (ds : Digits) {r : List Char} (hr : NoDigitNext r) :
    signedYear sign (ds.chars ++ r) =
      if Int32.minValue.toInt ≤ sign * decimalValue ds.chars ∧
          sign * decimalValue ds.chars ≤ Int32.maxValue.toInt then
        .ok (sign * decimalValue ds.chars, r)
      else .error .range := by
  simp only [signedYear, digits_chars ds hr, bind, Except.bind]
  rfl

/-- A year that does not fit 32 bits is refused at once. -/
theorem year_print (y : WrittenYear) (s : List Char) :
    year (y.print ++ '-' :: s) =
      if Int32.minValue.toInt ≤ y.value ∧ y.value ≤ Int32.maxValue.toInt
      then .ok (y.value, '-' :: s)
      else .error .range := by
  have hdash : NoDigitNext ('-' :: s) := fun c hc => by cases hc; rfl
  cases y with
  | four y short =>
    have hprint : decimalIn 4 y = printYear y := by
      rw [printYear, if_pos (by omega), Int.toNat_natCast]
    have hlow : Int32.minValue.toInt ≤ y := Int.le_trans (by decide) (Int.natCast_nonneg y)
    have hhigh : (y : Int) ≤ Int32.maxValue.toInt :=
      Int.le_trans (Int.ofNat_le.2 (Nat.le_of_lt short)) (by decide)
    rw [WrittenYear.print, WrittenYear.value, hprint, if_pos ⟨hlow, hhigh⟩]
    exact year_printYear hdash hlow hhigh
  | signed negative digits =>
    cases negative with
    | true => exact signedYear_chars (-1) digits hdash
    | false => exact signedYear_chars 1 digits hdash

theorem decimalValue_padded (ds : List Char) :
    decimalValue ((ds ++ List.replicate 9 '0').take 9) =
      decimalValue (ds.take 9) * Nat.pow 10 (9 - (ds.take 9).length) := by
  have hpad : (List.replicate 9 '0').take (9 - ds.length) =
      List.replicate (9 - (ds.take 9).length) '0' := by
    rw [List.take_replicate, List.length_take]
    congr 1
    omega
  rw [List.take_append, hpad, decimalValue, Nat.ofDigitChars_append,
    Nat.ofDigitChars_replicate_zero, Nat.mul_comm]
  rfl

variable (s : Stamp)

theorem noDigitNext_printZone : NoDigitNext s.printZone := by
  intro c hc
  unfold Stamp.printZone at hc
  split at hc
  · cases hc
    rfl
  · cases hc
    split <;> rfl

theorem fraction_stamp :
    fraction (s.printFraction ++ s.printZone) = .ok (s.fractionNanos, s.printZone) := by
  unfold Stamp.printFraction Stamp.fractionNanos
  cases s.fraction with
  | none =>
    unfold Stamp.printZone
    cases s.shift with
    | none => rfl
    | some z =>
      obtain ⟨west, _, _, _, _⟩ := z
      cases west <;> rfl
  | some digits =>
    simp only [List.cons_append, fraction, digits_chars digits (noDigitNext_printZone s), bind,
      Except.bind, decimalValue_padded]
    rfl

theorem zone_stamp : zone (Text.skipBlanks s.printZone) = .ok (s.east, []) := by
  unfold Stamp.printZone Stamp.east
  cases s.shift with
  | none => rfl
  | some z => exact zone_offset z.west z.hours_lt z.minutes_lt

theorem readSpelling_stamp :
    readSpelling s.print =
      if Int32.minValue.toInt ≤ s.year.value ∧ s.year.value ≤ Int32.maxValue.toInt then
        .ok ⟨s.date, s.hour, s.minute, s.second, s.fractionNanos, s.east⟩
      else .error .range := by
  split
  case isTrue h =>
    refine readSpelling_spelled (fun r => readDate_spelled (fun t => ?_) s.month_in s.day_in r)
      s.hour_le s.minute_le s.second_le (fraction_stamp s) (zone_stamp s)
    rw [year_print, if_pos h]
  case isFalse h =>
    have hyear (t : List Char) : year (s.year.print ++ '-' :: t) = .error .range := by
      rw [year_print, if_neg h]
    simp only [Stamp.print, Stamp.printDate, List.append_assoc, List.cons_append, readSpelling,
      readDate, hyear, bind, Except.bind]

/-! ## The instant -/

theorem isProper_iff : s.IsProper ↔
    (s.date.Exists ∧ firstYear ≤ s.date.year ∧ s.date.year ≤ lastYear) ∧
      s.east.natAbs < 24 * 60 := by
  rw [Stamp.IsProper, Calendar.hasDay_iff, ← and_assoc]
  exact Iff.rfl

theorem fractionNanos_lt : s.fractionNanos < nanosPerSecond := by
  unfold Stamp.fractionNanos
  cases s.fraction with
  | none => decide
  | some digits =>
    have hdigit : ∀ c ∈ (digits.chars ++ List.replicate 9 '0').take 9, c.isDigit = true := by
      intro c hc
      rcases List.mem_append.1 (List.mem_of_mem_take hc) with hc | hc
      · exact digits.digit c hc
      · rw [List.eq_of_mem_replicate hc]
        rfl
    have hlength : ((digits.chars ++ List.replicate 9 '0').take 9).length = 9 := by simp
    have hlt := Text.decimalValue_lt hdigit
    rwa [hlength] at hlt

/-- The second 60 names the last second of a minute. -/
theorem fits_stamp_iff : Fits s.seconds s.nanos ↔ s.InRange := by
  have hfirst : Calendar.count ⟨-262143, 1, 1⟩ = (Date.mk firstYear 1 1).dayNumber :=
    Calendar.count_eq (by decide)
  have hlast : Calendar.count ⟨262143, 1, 1⟩ = (Date.mk lastYear 12 31).dayNumber + 1 := by
    rw [Calendar.count_eq (by decide)]
    rfl
  have hfraction := fractionNanos_lt s
  have hnanos : s.nanos < nanosPerSecond ∨
      s.nanos < 2 * nanosPerSecond ∧ s.seconds % 60 = 59 := by
    unfold Stamp.nanos Stamp.seconds
    unfold nanosPerSecond at *
    split <;> omega
  rw [Fits, Stamp.InRange, hfirst, hlast, leastSeconds, greatestSeconds]
  constructor
  · rintro ⟨least, greatest, -⟩
    exact ⟨least, by omega⟩
  · rintro ⟨least, greatest⟩
    exact ⟨least, by omega, hnanos⟩

theorem read_stamp (proper : s.IsProper) : read s.print =
    match ofSeconds? s.seconds s.nanos with
    | some t => .ok t
    | none => .error .impossible := by
  obtain ⟨hdate, heast⟩ := (isProper_iff s).1 proper
  have hcount : Calendar.count s.date = s.date.dayNumber := Calendar.count_eq s.month_in
  have hyear : Int32.minValue.toInt ≤ s.year.value ∧ s.year.value ≤ Int32.maxValue.toInt :=
    ⟨Int.le_trans (by decide) hdate.2.1, Int.le_trans hdate.2.2 (by decide)⟩
  have hnanos : (if s.second = 60 then s.fractionNanos + nanosPerSecond else s.fractionNanos) =
      s.nanos := by
    unfold Stamp.nanos
    split <;> rfl
  rw [read, readSpelling_stamp, if_pos hyear]
  show Spelling.resolve _ = _
  rw [Spelling.resolve, if_pos hdate]
  simp only [heast, hnanos, Stamp.seconds, hcount]
  rfl

theorem read_improper (improper : ¬ s.IsProper) : read s.print = .error .range := by
  rw [isProper_iff] at improper
  rw [read, readSpelling_stamp]
  split
  case isFalse => rfl
  case isTrue =>
    show Spelling.resolve _ = _
    rw [Spelling.resolve]
    by_cases hdate : s.date.Exists ∧ firstYear ≤ s.date.year ∧ s.date.year ≤ lastYear
    · have heast : ¬ s.east.natAbs < 24 * 60 := fun h => improper ⟨hdate, h⟩
      rw [if_pos hdate]
      simp only [heast]
      rfl
    · rw [if_neg hdate]
      rfl

/-! ## Whole texts -/

theorem ofText_stamp : ofText s.text =
    match read s.print with
    | .ok t => .ok (some t)
    | .error fault => .error (.misfit (.timestamp (.spelling fault))) := by
  rw [Stamp.text, ofText_surface (peekSurface_printText _) (by simp), ofSurface,
    String.toList_ofList]
  cases read s.print <;> rfl

/-- How a date and time that is written out is judged, and the instant it is read as. -/
structure ReadsStamp (s : Stamp) : Prop where
  accepts_iff : (∃ t, ofText s.text = .ok t) ↔ s.IsProper ∧ s.InRange
  instant : ∀ t, ofText s.text = .ok t →
    ∃ i : Instant, t = some i ∧ i.seconds = s.seconds ∧ i.nanos = s.nanos
  improper : ¬ s.IsProper → ofText s.text = .error (.misfit (.timestamp (.spelling .range)))
  outside : s.IsProper → ¬ s.InRange →
    ofText s.text = .error (.misfit (.timestamp (.spelling .impossible)))

theorem reads_stamp : ReadsStamp s := by
  have htext := ofText_stamp s
  have improper (h : ¬ s.IsProper) :
      ofText s.text = .error (.misfit (.timestamp (.spelling .range))) := by
    rw [htext, read_improper s h]
  have outside (h : s.IsProper) (hrange : ¬ s.InRange) :
      ofText s.text = .error (.misfit (.timestamp (.spelling .impossible))) := by
    have hnone : ofSeconds? s.seconds s.nanos = none := dif_neg (mt (fits_stamp_iff s).1 hrange)
    rw [htext, read_stamp s h, hnone]
  have inside (h : s.IsProper) (hrange : s.InRange) :
      ofText s.text = .ok (some ⟨s.seconds, s.nanos, (fits_stamp_iff s).2 hrange⟩) := by
    have hsome : ofSeconds? s.seconds s.nanos = some ⟨s.seconds, s.nanos, _⟩ :=
      dif_pos ((fits_stamp_iff s).2 hrange)
    rw [htext, read_stamp s h, hsome]
  have accepted {t : Option Instant} (ht : ofText s.text = .ok t) : s.IsProper ∧ s.InRange := by
    by_cases h : s.IsProper
    · refine ⟨h, ?_⟩
      by_contra hrange
      rw [outside h hrange] at ht
      cases ht
    · rw [improper h] at ht
      cases ht
  refine ⟨⟨fun ⟨t, ht⟩ => accepted ht, fun ⟨h, hrange⟩ => ⟨_, inside h hrange⟩⟩, ?_, improper,
    outside⟩
  intro t ht
  obtain ⟨h, hrange⟩ := accepted ht
  rw [inside h hrange] at ht
  cases ht
  exact ⟨_, rfl, rfl, rfl⟩

/-- A leap second of the leap day 2000, where the clocks are half an hour behind. -/
example : (Stamp.mk (.signed false ⟨['0', '2', '0', '0', '0'], by simp, by simp⟩) 2 29 23
      59 60 (some ⟨['5'], by simp, by simp⟩) (some ⟨true, 0, 30, by simp, by simp⟩)
      (by simp) (by simp) (by simp) (by simp) (by simp)).text =
    "\"+02000-02-29T23:59:60.5-00:30\"" := by
  decide +kernel

end StandingQuery.Instant
