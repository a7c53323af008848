import StandingQuery.Instant.Printer
import StandingQuery.Instant.Reader
import StandingQuery.Proofs.Calendar
import StandingQuery.Proofs.Text.Digit

/-! An instant reads back from the text it prints to. What is printed is one of the spellings that
the relaxed reader allows, and that spelling resolves to the instant: a leap second is told by its
second 60, a year beyond four digits by its sign, and the digits of the fraction by their number. -/

namespace StandingQuery.Instant

open Text (isBlank skipBlanks decimalIn decimalValue NoDigitNext)

/-! ## Digits and fields -/

theorem isBlank_of_isDigit {c : Char} (h : c.isDigit = true) : isBlank c = false := by
  have hc : 48 ≤ c.toNat ∧ c.toNat ≤ 57 := Char.isDigit_iff_toNat.1 h
  simp [isBlank]
  omega

theorem skipBlanks_of_isDigit {c : Char} (h : c.isDigit = true) (r : List Char) :
    skipBlanks (c :: r) = c :: r := by
  simp [skipBlanks, isBlank_of_isDigit h]

theorem digits_of_isDigit {c : Char} (h : c.isDigit = true) (r : List Char) :
    digits (c :: r) = .ok ((c :: r).span Char.isDigit) := by
  rw [digits, List.span_eq_takeWhile_dropWhile, List.takeWhile_cons_of_pos h]

theorem digits_decimalIn {r : List Char} (width n : Nat) (hr : NoDigitNext r) :
    digits (decimalIn width n ++ r) = .ok (decimalIn width n, r) := by
  have hspan : (decimalIn width n ++ r).span Char.isDigit = (decimalIn width n, r) :=
    Text.span_isDigit (fun _ => Text.isDigit_of_mem_decimalIn) hr
  obtain ⟨c, ds, hd, hc⟩ := Text.decimalIn_eq_cons width n
  rw [hd, List.cons_append] at hspan ⊢
  rw [digits_of_isDigit hc, hspan]

/-- Digits that follow the field, if any, are left for what is read next. -/
theorem field_decimalIn {width n : Nat} (hw : 0 < width) (hn : n < 10 ^ width) (r : List Char) :
    field width (decimalIn width n ++ r) = .ok (n, r) := by
  have hlen := Text.length_decimalIn hw hn
  have htake : ((decimalIn width n ++ r).takeWhile Char.isDigit).take width =
      decimalIn width n := by
    rw [List.takeWhile_append_of_pos fun _ => Text.isDigit_of_mem_decimalIn, List.take_left' hlen]
  have hdrop : (decimalIn width n ++ r).drop (decimalIn width n).length = r := List.drop_left
  have hvalue := Text.decimalValue_decimalIn width n
  obtain ⟨c, ds, hd, hc⟩ := Text.decimalIn_eq_cons width n
  rw [hd, List.cons_append] at htake hdrop ⊢
  rw [hd] at hvalue
  simp only [field, skipBlanks_of_isDigit hc, digits_of_isDigit hc,
    List.span_eq_takeWhile_dropWhile, bind, Except.bind, htake, hdrop, hvalue]
  rfl

theorem fieldIn_decimalIn {low high n : Nat} (hlow : low ≤ n) (hhigh : n ≤ high) (hn : n < 100)
    (r : List Char) : fieldIn low high (decimalIn 2 n ++ r) = .ok (n, r) := by
  have hfield : field 2 (decimalIn 2 n ++ r) = .ok (n, r) := field_decimalIn (by decide) hn r
  simp only [fieldIn, hfield, bind, Except.bind]
  rw [if_pos ⟨hlow, hhigh⟩]
  rfl

/-! ## The date -/

theorem signedYear_decimalIn {sign y : Int} {r : List Char} (hr : NoDigitNext r)
    (hy : sign * y.natAbs = y) (hlow : Int32.minValue.toInt ≤ y)
    (hhigh : y ≤ Int32.maxValue.toInt) :
    signedYear sign (decimalIn 4 y.natAbs ++ r) = .ok (y, r) := by
  simp only [signedYear, digits_decimalIn 4 y.natAbs hr, bind, Except.bind,
    Text.decimalValue_decimalIn, hy]
  rw [if_pos ⟨hlow, hhigh⟩]
  rfl

theorem year_printYear {y : Int} {r : List Char} (hr : NoDigitNext r)
    (hlow : Int32.minValue.toInt ≤ y) (hhigh : y ≤ Int32.maxValue.toInt) :
    year (printYear y ++ r) = .ok (y, r) := by
  unfold printYear
  split
  case isTrue h =>
    have hfield : field 4 (decimalIn 4 y.toNat ++ r) = .ok (y.toNat, r) :=
      field_decimalIn (by decide) (by omega) r
    obtain ⟨c, ds, hd, hc⟩ := Text.decimalIn_eq_cons 4 y.toNat
    rw [hd, List.cons_append] at hfield ⊢
    rw [year, skipBlanks_of_isDigit hc]
    split
    case h_1 he =>
      cases he
      cases hc
    case h_2 he =>
      cases he
      cases hc
    case h_3 =>
      simp only [hfield, bind, Except.bind]
      rw [Int.ofNat_eq_natCast, Int.toNat_of_nonneg h.1]
      rfl
  case isFalse h =>
    split
    case isTrue hneg => exact signedYear_decimalIn hr (by omega) hlow hhigh
    case isFalse hpos => exact signedYear_decimalIn hr (by omega) hlow hhigh

/-- A date is read as it is spelled, whatever form its year has and whether or not it exists. -/
theorem readDate_spelled {yearText : List Char} {y : Int} {m d : Nat}
    (hyear : ∀ s, year (yearText ++ '-' :: s) = .ok (y, '-' :: s)) (hm : 1 ≤ m ∧ m ≤ 12)
    (hd : 1 ≤ d ∧ d ≤ 31) (r : List Char) :
    readDate (yearText ++ '-' :: decimalIn 2 m ++ '-' :: decimalIn 2 d ++ r) =
      .ok (⟨y, m, d⟩, r) := by
  have hdash : ∀ s, expect '-' (skipBlanks ('-' :: s)) = .ok s := fun _ => rfl
  simp only [List.append_assoc, List.cons_append, readDate, bind, Except.bind, hyear, hdash,
    fieldIn_decimalIn hm.1 hm.2 (by omega), fieldIn_decimalIn hd.1 hd.2 (by omega)]
  rfl

theorem readDate_printDate {d : Date} (hd : d.Exists) (hlow : Int32.minValue.toInt ≤ d.year)
    (hhigh : d.year ≤ Int32.maxValue.toInt) (r : List Char) :
    readDate (printDate d ++ r) = .ok (d, r) := by
  obtain ⟨h1, h12, hfirst, hlast⟩ := hd
  have h31 : Calendar.monthLength (Calendar.isLeap d.year) d.month ≤ 31 := by
    unfold Calendar.monthLength
    split <;> try split
    all_goals decide
  have hyear (s : List Char) : year (printYear d.year ++ '-' :: s) = .ok (d.year, '-' :: s) :=
    year_printYear (fun c hc => by cases hc; rfl) hlow hhigh
  exact readDate_spelled hyear ⟨h1, h12⟩ ⟨hfirst, Nat.le_trans hlast h31⟩ r

/-! ## The time -/

theorem fraction_decimalIn {k n : Nat} {r : List Char} (hr : NoDigitNext r) (hk : 0 < k)
    (h9 : k ≤ 9) (hn : n < 10 ^ k) :
    fraction ('.' :: decimalIn k n ++ r) = .ok (n * Nat.pow 10 (9 - k), r) := by
  have hlen := Text.length_decimalIn hk hn
  simp only [List.cons_append, fraction, digits_decimalIn k n hr, bind, Except.bind,
    List.take_of_length_le (hlen ▸ h9), Text.decimalValue_decimalIn, hlen]
  rfl

theorem fraction_printFraction {n : Nat} (hn : n < nanosPerSecond) :
    fraction (printFraction n ++ ['Z']) = .ok (n, ['Z']) := by
  have hZ : NoDigitNext ['Z'] := fun c hc => by cases hc; rfl
  unfold nanosPerSecond at hn
  unfold printFraction
  split
  case isTrue h =>
    rw [h]
    rfl
  split
  case isTrue h =>
    rw [fraction_decimalIn hZ (by decide) (by decide) (by omega)]
    have : n / 1000000 * Nat.pow 10 (9 - 3) = n := Nat.div_mul_cancel (Nat.dvd_of_mod_eq_zero h)
    rw [this]
  split
  case isTrue h =>
    rw [fraction_decimalIn hZ (by decide) (by decide) (by omega)]
    have : n / 1000 * Nat.pow 10 (9 - 6) = n := Nat.div_mul_cancel (Nat.dvd_of_mod_eq_zero h)
    rw [this]
  case isFalse h =>
    rw [fraction_decimalIn hZ (by decide) (by decide) (by omega), Nat.sub_self]
    rw [show Nat.pow 10 0 = 1 from rfl, Nat.mul_one]

/-! ## The whole spelling -/

/-- A date and time is read as it is spelled, whatever form its date, its fraction and its zone
have. -/
theorem readSpelling_spelled {d : Date} {dateText : List Char}
    (hdate : ∀ s, readDate (dateText ++ s) = .ok (d, s)) {hour minute second nanos : Nat}
    (hhour : hour ≤ 23) (hminute : minute ≤ 59) (hsecond : second ≤ 60)
    {fractionText zoneText : List Char}
    (hfraction : fraction (fractionText ++ zoneText) = .ok (nanos, zoneText)) {east : Int}
    (hzone : zone (skipBlanks zoneText) = .ok (east, [])) :
    readSpelling (dateText ++ 'T' :: (printClock hour minute second ++
      (fractionText ++ zoneText))) = .ok ⟨d, hour, minute, second, nanos, east⟩ := by
  have hhour := fieldIn_decimalIn (Nat.zero_le _) hhour (by omega)
  have hminute := fieldIn_decimalIn (Nat.zero_le _) hminute (by omega)
  have hsecond := fieldIn_decimalIn (Nat.zero_le _) hsecond (by omega)
  have hseparator : ∀ s, separator ('T' :: s) = .ok s := fun _ => rfl
  have hcolon : ∀ s, expect ':' (skipBlanks (':' :: s)) = .ok s := fun _ => rfl
  simp only [readSpelling, printClock, List.append_assoc, List.cons_append, bind, Except.bind,
    hdate, hseparator, hhour, hcolon, hminute, hsecond, hfraction, hzone]
  rfl

theorem readDate_inYears {d : Date} (hexists : d.Exists) (hfirst : firstYear ≤ d.year)
    (hlast : d.year ≤ lastYear) (s : List Char) : readDate (printDate d ++ s) = .ok (d, s) :=
  readDate_printDate hexists (Int.le_trans (by decide) hfirst) (Int.le_trans hlast (by decide)) s

/-- How an instant is spelled when printed. -/
def spelling (t : Instant) : Spelling where
  date := Date.ofDayNumber (t.seconds / 86400)
  hour := (t.seconds % 86400).toNat / 3600
  minute := (t.seconds % 86400).toNat / 60 % 60
  second := (t.seconds % 86400).toNat % 60 + t.nanos / nanosPerSecond
  nanos := t.nanos % nanosPerSecond
  eastMinutes := 0

/-- A leap second is added to the last second of a minute. -/
theorem leap_cases (t : Instant) :
    t.nanos / nanosPerSecond = 0 ∨ t.nanos / nanosPerSecond = 1 ∧ t.seconds % 60 = 59 := by
  obtain ⟨-, -, h⟩ := t.fits
  unfold nanosPerSecond at *
  omega

theorem first_day : (Date.mk firstYear 1 1).dayNumber + Calendar.epochOffset =
    Calendar.daysBeforeYear firstYear := rfl

theorem last_day : (Date.mk lastYear 12 31).dayNumber + 1 + Calendar.epochOffset =
    Calendar.daysBeforeYear (lastYear + 1) := rfl

theorem spelling_date (t : Instant) :
    t.spelling.date.Exists ∧ t.spelling.date.dayNumber = t.seconds / 86400 :=
  Date.ofDayNumber_spec _

/-- Which days lie in the supported years. -/
theorem years_iff {d : Date} (h : d.Exists) : firstYear ≤ d.year ∧ d.year ≤ lastYear ↔
    (Date.mk firstYear 1 1).dayNumber ≤ d.dayNumber ∧
      d.dayNumber ≤ (Date.mk lastYear 12 31).dayNumber := by
  have hfirst := first_day
  have hlast := last_day
  constructor
  · rintro ⟨hleast, hgreatest⟩
    have hyear := h.within_year
    have := Calendar.daysBeforeYear_mono hleast
    have := Calendar.daysBeforeYear_mono (y := d.year + 1) (z := lastYear + 1) (by omega)
    omega
  · rintro ⟨hleast, hgreatest⟩
    exact ⟨h.le_year (by omega), h.year_le (by omega)⟩

theorem year_bounds (t : Instant) :
    firstYear ≤ t.spelling.date.year ∧ t.spelling.date.year ≤ lastYear := by
  obtain ⟨hleast, hgreatest, -⟩ := t.fits
  obtain ⟨hexists, hnumber⟩ := t.spelling_date
  unfold leastSeconds at hleast
  unfold greatestSeconds at hgreatest
  rw [years_iff hexists, hnumber]
  omega

/-- The parts of the time lie in the ranges that the reader asks for. -/
theorem time_bounds (t : Instant) :
    t.spelling.hour ≤ 23 ∧ t.spelling.minute ≤ 59 ∧ t.spelling.second ≤ 60 := by
  have hleap := t.leap_cases
  simp only [spelling]
  omega

theorem readSpelling_print (t : Instant) : readSpelling t.print = .ok t.spelling := by
  obtain ⟨hexists, -⟩ := t.spelling_date
  obtain ⟨hfirst, hlast⟩ := t.year_bounds
  obtain ⟨hhour, hminute, hsecond⟩ := t.time_bounds
  have hprint : t.print = printDate t.spelling.date ++ 'T' ::
      (printClock t.spelling.hour t.spelling.minute t.spelling.second ++
        (printFraction t.spelling.nanos ++ ['Z'])) := by
    simp [print, spelling]
  have hfraction := fraction_printFraction (n := t.spelling.nanos) (Nat.mod_lt _ (by decide))
  rw [hprint, readSpelling_spelled (readDate_inYears hexists hfirst hlast) hhour hminute hsecond
    hfraction rfl]
  rfl

theorem resolve_spelling (t : Instant) : t.spelling.resolve = .ok t := by
  obtain ⟨hexists, hnumber⟩ := t.spelling_date
  have hleap := t.leap_cases
  have hseconds : 86400 * t.spelling.date.dayNumber +
      ((3600 * t.spelling.hour + 60 * t.spelling.minute + min t.spelling.second 59 : Nat) : Int) -
        60 * t.spelling.eastMinutes = t.seconds := by
    rw [hnumber]
    simp only [spelling]
    omega
  have hnanos : (if t.spelling.second = 60 then t.spelling.nanos + nanosPerSecond
      else t.spelling.nanos) = t.nanos := by
    have hdiv := Nat.div_add_mod t.nanos nanosPerSecond
    have hsecond : t.spelling.second =
      (t.seconds % 86400).toNat % 60 + t.nanos / nanosPerSecond := rfl
    have hrest : t.spelling.nanos = t.nanos % nanosPerSecond := rfl
    rcases hleap with hnone | ⟨hone, hlast⟩
    · rw [if_neg (by omega), hrest]
      rw [hnone] at hdiv
      omega
    · rw [if_pos (by omega), hrest]
      rw [hone] at hdiv
      omega
  have hfits : ofSeconds? t.seconds t.nanos = some t := dif_pos t.fits
  rw [Spelling.resolve, if_pos ⟨hexists, t.year_bounds⟩]
  simp only [hseconds, hnanos, hfits]
  rfl

theorem read_print (t : Instant) : read t.print = .ok t := by
  rw [read, readSpelling_print]
  exact resolve_spelling t

/-- Half a second into the leap second before 1970. -/
example : (⟨-1, 1500000000, by decide⟩ : Instant).print = "1969-12-31T23:59:60.500Z".toList := by
  decide

end StandingQuery.Instant
