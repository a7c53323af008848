import StandingQuery.Proofs.Query.ReadBack

/-! A date is given as a number of milliseconds, or as the date and time that the clocks show in
some zone. The two go different ways: a number is divided, a spelling goes through the calendar and
has its distance from UTC taken off. They lead to the same instant wherever both lead to one. -/

namespace StandingQuery

open Json
open Text (decimalIn NoDigitNext)

/-! ## What the clocks show -/

/-- A distance from UTC of less than a day. -/
structure Zone where
  west : Bool
  hours : Nat
  minutes : Nat
  hours_lt : hours < 24
  minutes_lt : minutes < 60

namespace Zone

/-- Minutes by which the clocks are ahead of UTC. -/
def east (z : Zone) : Int := (if z.west then -1 else 1) * (60 * z.hours + z.minutes)

def print (z : Zone) : List Char :=
  (if z.west then '-' else '+') :: (decimalIn 2 z.hours ++ ':' :: decimalIn 2 z.minutes)

theorem natAbs_east (z : Zone) : z.east.natAbs < 24 * 60 := by
  have := z.hours_lt
  have := z.minutes_lt
  unfold east
  split <;> omega

theorem plain (z : Zone) : Plain z.print := by
  refine .cons ?_ ((Plain.decimalIn _ _).append (.cons rfl (.decimalIn _ _)))
  split <;> rfl

end Zone

/-- A date and a time of day, to the millisecond. -/
structure DateTime where
  date : Date
  hour : Nat
  minute : Nat
  second : Nat
  milli : Nat
  real : date.Exists
  hour_lt : hour < 24
  minute_lt : minute < 60
  second_lt : second < 60
  milli_lt : milli < 1000

namespace DateTime

/-- Milliseconds since 1970-01-01T00:00:00 by the same clock, negative before it. -/
def millis (t : DateTime) : Int :=
  86400000 * t.date.dayNumber +
    (3600000 * t.hour + 60000 * t.minute + 1000 * t.second + t.milli : Nat)

def ofMillis (ms : Int) : DateTime where
  date := .ofDayNumber (ms / 86400000)
  hour := (ms % 86400000).toNat / 3600000
  minute := (ms % 86400000).toNat / 60000 % 60
  second := (ms % 86400000).toNat / 1000 % 60
  milli := (ms % 86400000).toNat % 1000
  real := (Date.ofDayNumber_spec _).1
  hour_lt := by omega
  minute_lt := Nat.mod_lt _ (by decide)
  second_lt := Nat.mod_lt _ (by decide)
  milli_lt := Nat.mod_lt _ (by decide)

theorem millis_ofMillis (ms : Int) : (ofMillis ms).millis = ms := by
  have day : (ofMillis ms).date.dayNumber = ms / 86400000 := (Date.ofDayNumber_spec _).2
  rw [millis, day]
  simp only [ofMillis]
  omega

/-- Lies in the supported years. -/
def InYears (t : DateTime) : Prop :=
  Instant.firstYear ≤ t.date.year ∧ t.date.year ≤ Instant.lastYear

instance (t : DateTime) : Decidable t.InYears := by unfold InYears; infer_instance

def print (t : DateTime) : List Char :=
  Instant.printDate t.date ++ 'T' :: (Instant.printClock t.hour t.minute t.second ++
    '.' :: decimalIn 3 t.milli)

theorem plain (t : DateTime) : Plain t.print :=
  (Plain.printDate _).append
    (.cons rfl ((Plain.printClock _ _ _).append (.cons rfl (.decimalIn _ _))))

/-- In UTC the supported years are those of all instants. -/
theorem inYears_iff (t : DateTime) : t.InYears ↔
    Instant.Fits (t.millis / 1000) ((t.millis % 1000).toNat * 1000000) := by
  have := t.hour_lt
  have := t.minute_lt
  have := t.second_lt
  have := t.milli_lt
  have day : t.date.dayNumber = t.millis / 86400000 := by
    unfold millis
    omega
  have short : (t.millis % 1000).toNat * 1000000 < Instant.nanosPerSecond := by
    unfold Instant.nanosPerSecond
    omega
  rw [InYears, Instant.years_iff t.real, day, Instant.Fits, Instant.leastSeconds,
    Instant.greatestSeconds]
  constructor
  · rintro ⟨least, greatest⟩
    exact ⟨by omega, by omega, .inl short⟩
  · rintro ⟨least, greatest, _⟩
    omega

end DateTime

/-! ## Reading -/

namespace Instant

theorem twoDigits_decimalIn {n : Nat} (h : n < 100) (r : List Char) :
    twoDigits (decimalIn 2 n ++ r) = .ok (n, r) := by
  obtain ⟨a, b, hab⟩ := List.length_eq_two.1 (Text.length_decimalIn Nat.two_pos h)
  have digit : ∀ c ∈ [a, b], c.isDigit = true := by
    rw [← hab]
    exact fun _ => Text.isDigit_of_mem_decimalIn
  have value := Text.decimalValue_decimalIn 2 n
  rw [hab] at value ⊢
  show (if a.isDigit ∧ b.isDigit then Except.ok (Text.decimalValue [a, b], r) else _) = _
  rw [if_pos ⟨digit a (by simp), digit b (by simp)⟩, value]

theorem offset_decimalIn (sign : Int) {hours minutes : Nat} (hh : hours < 100) (hm : minutes < 60) :
    offset sign (decimalIn 2 hours ++ ':' :: decimalIn 2 minutes) =
      .ok (sign * (60 * hours + minutes), []) := by
  have after : (':' :: decimalIn 2 minutes).dropWhile (fun c => c == ':' || Text.isBlank c) =
      decimalIn 2 minutes := by
    obtain ⟨c, ds, hd, hc⟩ := Text.decimalIn_eq_cons 2 minutes
    have hcolon : (c == ':') = false := by
      rw [beq_eq_false_iff_ne]
      rintro rfl
      cases hc
    rw [hd, List.dropWhile_cons_of_pos rfl,
      List.dropWhile_cons_of_neg (by simp [hcolon, isBlank_of_isDigit hc])]
  have last := twoDigits_decimalIn (n := minutes) (by omega) []
  rw [List.append_nil] at last
  simp only [offset, twoDigits_decimalIn hh, after, last, bind, Except.bind]
  rw [if_pos hm]
  rfl

theorem zone_offset (west : Bool) {hours minutes : Nat} (hh : hours < 100) (hm : minutes < 60) :
    zone (Text.skipBlanks
        ((if west then '-' else '+') :: (decimalIn 2 hours ++ ':' :: decimalIn 2 minutes))) =
      .ok ((if west then -1 else 1) * (60 * hours + minutes), []) := by
  have plus (r : List Char) : zone (Text.skipBlanks ('+' :: r)) = offset 1 r := rfl
  have minus (r : List Char) : zone (Text.skipBlanks ('-' :: r)) = offset (-1) r := rfl
  cases west with
  | true => exact (minus _).trans (offset_decimalIn (-1) hh hm)
  | false => exact (plus _).trans (offset_decimalIn 1 hh hm)

theorem zone_print (z : Zone) : zone (Text.skipBlanks z.print) = .ok (z.east, []) :=
  zone_offset z.west (Nat.lt_trans z.hours_lt (by decide)) z.minutes_lt

/-- The date and time shown in a zone name the instant that lies as far from 1970 as they do, less
the distance of the zone. -/
theorem read_local {t : DateTime} (inYears : t.InYears) (z : Zone) :
    read (t.print ++ z.print) =
      match ofMillis? (t.millis - 60000 * z.east) with
      | some i => .ok i
      | none => .error .impossible := by
  have hfraction : fraction ('.' :: decimalIn 3 t.milli ++ z.print) =
      .ok (t.milli * 1000000, z.print) := by
    refine fraction_decimalIn ?_ (by decide) (by decide) t.milli_lt
    intro c hc
    cases hwest : z.west <;> simp [Zone.print, hwest] at hc <;> subst hc <;> rfl
  have hspelling := readSpelling_spelled (readDate_inYears t.real inYears.1 inYears.2)
    (Nat.le_of_lt_succ t.hour_lt) (Nat.le_of_lt_succ t.minute_lt) (Nat.le_of_lt t.second_lt)
    hfraction (zone_print z)
  have hseconds : 86400 * t.date.dayNumber +
      ((3600 * t.hour + 60 * t.minute + min t.second 59 : Nat) : Int) - 60 * z.east =
        (t.millis - 60000 * z.east) / 1000 := by
    have := t.second_lt
    have := t.milli_lt
    unfold DateTime.millis
    omega
  have hnanos : t.milli * 1000000 = ((t.millis - 60000 * z.east) % 1000).toNat * 1000000 := by
    have := t.milli_lt
    unfold DateTime.millis
    omega
  have hshape : t.print ++ z.print = printDate t.date ++ 'T' ::
      (printClock t.hour t.minute t.second ++ ('.' :: decimalIn 3 t.milli ++ z.print)) := by
    simp [DateTime.print]
  rw [hshape, read, hspelling]
  show Spelling.resolve _ = _
  rw [Spelling.resolve, if_pos ⟨t.real, inYears⟩]
  simp only [z.natAbs_east, hseconds, Nat.ne_of_lt t.second_lt, if_false, hnanos]
  rfl

/-! ## Whole texts -/

theorem ofText_surface {text : List Char} {v : Surface} (h : Reads peekSurface text v)
    (scalar : v ≠ .sequence ∧ v ≠ .map) :
    ofText (String.ofList text) =
      (ofSurface v).mapError fun fault => Failure.misfit (.timestamp fault) := by
  have hvalue : readValue roomAtTop (text ++ []) = _ := readValue_surface h scalar atBreak_nil
  rw [List.append_nil] at hvalue
  rw [ofText, readAll, String.toList_ofList, hvalue]
  cases ofSurface v <;> rfl

/-- The number of milliseconds, as a text. -/
def numberText (n : Int64) : String := String.ofList (printInteger n.toInt)

/-- The date and time that lie `n` milliseconds after 1970-01-01T00:00:00Z, as they are in the zone
and with it, as a text. -/
def localText (n : Int64) (z : Zone) : String :=
  String.ofList (printText (String.ofList
    ((DateTime.ofMillis (n.toInt + 60000 * z.east)).print ++ z.print)))

theorem ofText_numberText (n : Int64) : ofText (numberText n) =
    match ofMillis? n.toInt with
    | some t => .ok (some t)
    | none => .error (.misfit (.timestamp .outOfRange)) := by
  have high : n.toInt < 2 ^ 64 := Int.lt_of_le_of_lt n.toInt_le (by decide)
  have hread := peekSurface_printInteger n.minValue_le_toInt high
  rw [numberText, ofText_surface hread (by simp), ofSurface, if_pos n.toInt_le]
  cases ofMillis? n.toInt <;> rfl

theorem ofText_localText (n : Int64) (z : Zone)
    (inYears : (DateTime.ofMillis (n.toInt + 60000 * z.east)).InYears) : ofText (localText n z) =
    match ofMillis? n.toInt with
    | some t => .ok (some t)
    | none => .error (.misfit (.timestamp (.spelling .impossible))) := by
  have hread := read_local inYears z
  rw [DateTime.millis_ofMillis, Int.add_sub_cancel] at hread
  rw [localText, ofText_surface (peekSurface_printText _) (by simp), ofSurface,
    String.toList_ofList, hread]
  cases ofMillis? n.toInt <;> rfl

/-- How a number of milliseconds is read, and the date and time it stands for in any zone. -/
structure ReadsMillis (n : Int64) : Prop where
  accepted : (DateTime.ofMillis n.toInt).InYears → ∃ t : Instant,
    ofText (numberText n) = .ok (some t) ∧
      t.seconds = n.toInt / 1000 ∧ t.nanos = (n.toInt % 1000).toNat * 1000000
  rejected : ¬ (DateTime.ofMillis n.toInt).InYears →
    ofText (numberText n) = .error (.misfit (.timestamp .outOfRange))
  /-- Seconds, nanoseconds and the number of the day, counted from 0000-12-31, need 64, 32 and
  64 bits. -/
  small : (∃ seconds : Int64, seconds.toInt = n.toInt / 1000) ∧
    (∃ nanos : UInt32, nanos.toNat = (n.toInt % 1000).toNat * 1000000) ∧
    ∃ day : Int64, day.toInt = n.toInt / 1000 / 86400 + Calendar.epochOffset + 1
  /-- What the clocks show leads to the same instant, in whatever zone. -/
  spelled : (DateTime.ofMillis n.toInt).InYears → ∀ z : Zone,
    (DateTime.ofMillis (n.toInt + 60000 * z.east)).InYears →
      ofText (localText n z) = ofText (numberText n)
  /-- So does none of them where there is no such instant. -/
  beyond : ¬ (DateTime.ofMillis n.toInt).InYears → ∀ z : Zone,
    (DateTime.ofMillis (n.toInt + 60000 * z.east)).InYears →
      ofText (localText n z) = .error (.misfit (.timestamp (.spelling .impossible)))

theorem reads_millis (n : Int64) : ReadsMillis n := by
  have hfits := (DateTime.ofMillis n.toInt).inYears_iff
  rw [DateTime.millis_ofMillis] at hfits
  have hlow := n.minValue_le_toInt
  have hhigh := n.toInt_le
  rw [show Int64.minValue.toInt = -2 ^ 63 from rfl] at hlow
  rw [show Int64.maxValue.toInt = 2 ^ 63 - 1 from rfl] at hhigh
  have machine {i : Int} (hmin : -2 ^ 63 ≤ i) (hmax : i < 2 ^ 63) : ∃ k : Int64, k.toInt = i :=
    ⟨Int64.ofInt i, Int64.toInt_ofInt_of_le hmin hmax⟩
  have found (h : (DateTime.ofMillis n.toInt).InYears) : ofMillis? n.toInt =
      some ⟨n.toInt / 1000, (n.toInt % 1000).toNat * 1000000, hfits.1 h⟩ := dif_pos (hfits.1 h)
  have missing (h : ¬ (DateTime.ofMillis n.toInt).InYears) : ofMillis? n.toInt = none :=
    dif_neg (mt hfits.2 h)
  have hnumber := ofText_numberText n
  refine ⟨?accepted, ?rejected, ⟨?_, ?_, ?_⟩, ?spelled, ?beyond⟩
  case accepted =>
    intro h
    rw [found h] at hnumber
    exact ⟨_, hnumber, rfl, rfl⟩
  case rejected =>
    intro h
    rw [missing h] at hnumber
    exact hnumber
  · exact machine (by omega) (by omega)
  · have hsize : UInt32.size = 2 ^ 32 := rfl
    exact ⟨UInt32.ofNat ((n.toInt % 1000).toNat * 1000000), UInt32.toNat_ofNat_of_lt (by omega)⟩
  · exact machine (by unfold Calendar.epochOffset; omega) (by unfold Calendar.epochOffset; omega)
  case spelled =>
    intro h z inYears
    rw [ofText_localText n z inYears, hnumber, found h]
  case beyond =>
    intro h z inYears
    rw [ofText_localText n z inYears, missing h]

/-- A millisecond before 1970, where the clocks are three and a half hours behind. -/
example : localText (-1) ⟨true, 3, 30, by decide, by decide⟩ =
    "\"1969-12-31T20:29:59.999-03:30\"" := by
  decide +kernel

end Instant
end StandingQuery
