import StandingQuery.Calendar

/-! Every day has a date, which exists and whose number is that of the day. A day is placed in its
cycle, century, group and year by quotients of which two are capped; the cap is reached on the last
day of a leap year only, so the day always fits its year. -/

namespace StandingQuery

open Calendar

namespace Calendar

def yearLength (leap : Bool) : Nat := if leap then 366 else 365

/-! ## Years -/

theorem isLeap_iff (y : Int) : isLeap y = true ↔ y % 4 = 0 ∧ y % 100 ≠ 0 ∨ y % 400 = 0 := by
  simp [isLeap]

theorem daysBeforeYear_succ (y : Int) :
    daysBeforeYear (y + 1) = daysBeforeYear y + yearLength (isLeap y) := by
  have h := isLeap_iff y
  unfold daysBeforeYear yearLength
  split
  case isTrue hl =>
    rcases h.1 hl with hl | hl <;> omega
  case isFalse hl =>
    rw [h] at hl
    omega

theorem daysBeforeYear_mono {y z : Int} (h : y ≤ z) : daysBeforeYear y ≤ daysBeforeYear z := by
  unfold daysBeforeYear
  omega

/-! ## Months -/

theorem daysBeforeMonth_succ (leap : Bool) {m : Nat} (h : 1 ≤ m) :
    daysBeforeMonth leap (m + 1) = daysBeforeMonth leap m + monthLength leap m := by
  obtain ⟨k, rfl⟩ : ∃ k, m = k + 1 := ⟨m - 1, by omega⟩
  rfl

theorem daysBeforeMonth_thirteen (leap : Bool) : daysBeforeMonth leap 13 = yearLength leap := by
  cases leap <;> rfl

theorem daysBeforeMonth_mono (leap : Bool) {m k : Nat} (h : m ≤ k) :
    daysBeforeMonth leap m ≤ daysBeforeMonth leap k := by
  induction h with
  | refl => exact Nat.le_refl _
  | @step k _ ih =>
    cases k with
    | zero => exact ih
    | succ k => exact Nat.le_trans ih (Nat.le_add_right _ _)

end Calendar

namespace Date

/-- A day of the year lies in a month, at a place within its length. -/
theorem monthDay_spec (leap : Bool) {m n fuel : Nat} (hm : 1 ≤ m) (hf : m + fuel = 12)
    (hn : daysBeforeMonth leap m + n < yearLength leap) {month day : Nat}
    (h : monthDay leap m n fuel = (month, day)) :
    1 ≤ month ∧ month ≤ 12 ∧ 1 ≤ day ∧ day ≤ monthLength leap month ∧
      daysBeforeMonth leap month + day = daysBeforeMonth leap m + n + 1 := by
  induction fuel generalizing m n with
  | zero =>
    obtain rfl : m = 12 := hf
    cases h
    have hlast : daysBeforeMonth leap 13 = daysBeforeMonth leap 12 + monthLength leap 12 := rfl
    rw [daysBeforeMonth_thirteen] at hlast
    omega
  | succ fuel ih =>
    rw [monthDay] at h
    split at h
    case isTrue hlt =>
      cases h
      omega
    case isFalse hge =>
      have hnext := daysBeforeMonth_succ leap hm
      have := ih (by omega) (by omega) (by omega) h
      omega

/-- The `k`th day of a year, counted from zero. -/
def ofYearDay (y : Int) (k : Nat) : Date :=
  let (month, day) := monthDay (isLeap y) 1 k 11
  ⟨y, month, day⟩

@[simp] theorem year_ofYearDay (y : Int) (k : Nat) : (ofYearDay y k).year = y := rfl

theorem ofYearDay_spec {y : Int} {k : Nat} (h : k < yearLength (isLeap y)) :
    (ofYearDay y k).Exists ∧ (ofYearDay y k).dayNumber = daysBeforeYear y + k - epochOffset := by
  have hn : daysBeforeMonth (isLeap y) 1 + k < yearLength (isLeap y) := by
    simpa [daysBeforeMonth] using h
  have hday : monthDay (isLeap y) 1 k 11 = ((ofYearDay y k).month, (ofYearDay y k).day) := rfl
  obtain ⟨h1, h12, hfirst, hlast, hk⟩ := monthDay_spec (isLeap y) (Nat.le_refl 1) rfl hn hday
  refine ⟨⟨h1, h12, hfirst, hlast⟩, ?_⟩
  simp only [daysBeforeMonth] at hk
  rw [dayNumber, year_ofYearDay]
  omega

/-! ## Days -/

/-- Where a day lies: in which cycle, century, group of four years and year, and how far into it. -/
theorem ofDayNumber_place (n : Int) : ∃ (cycle : Int) (century group single inYear : Nat),
    century ≤ 3 ∧ group ≤ 24 ∧ single ≤ 3 ∧ inYear ≤ 365 ∧
    (inYear = 365 → single = 3 ∧ (group = 24 → century = 3)) ∧
    n + epochOffset =
      146097 * cycle + (36524 * century + 1461 * group + 365 * single + inYear : Nat) ∧
    ofDayNumber n =
      ofYearDay (400 * cycle + (100 * century + 4 * group + single : Nat) + 1) inYear := by
  refine ⟨(n + epochOffset) / 146097, _, _, _, _, ?_, ?_, ?_, ?_, ?_, ?_, rfl⟩ <;> omega

theorem ofDayNumber_spec (n : Int) :
    (ofDayNumber n).Exists ∧ (ofDayNumber n).dayNumber = n := by
  obtain ⟨cycle, century, group, single, inYear, hcentury, hgroup, hsingle, hday, hleap, hn, hd⟩ :=
    ofDayNumber_place n
  generalize hy : 400 * cycle + ((100 * century + 4 * group + single : Nat) : Int) + 1 = y at hd
  have hlength : inYear < yearLength (isLeap y) := by
    unfold yearLength
    split
    case isTrue => omega
    case isFalse h =>
      rw [isLeap_iff] at h
      omega
  have hyear : daysBeforeYear y =
      146097 * cycle + (36524 * century + 1461 * group + 365 * single : Nat) := by
    unfold daysBeforeYear
    omega
  obtain ⟨he, hnumber⟩ := ofYearDay_spec hlength
  rw [hd]
  refine ⟨he, ?_⟩
  rw [hnumber, hyear]
  omega

example : ofDayNumber 0 = ⟨1970, 1, 1⟩ := by decide

/-- An existing day lies within its year. -/
theorem Exists.within_year {d : Date} (h : d.Exists) :
    daysBeforeYear d.year ≤ d.dayNumber + epochOffset ∧
      d.dayNumber + epochOffset < daysBeforeYear (d.year + 1) := by
  obtain ⟨h1, h12, hfirst, hlast⟩ := h
  have hmonth := daysBeforeMonth_succ (isLeap d.year) h1
  have hend := daysBeforeMonth_mono (isLeap d.year) (m := d.month + 1) (k := 13) (by omega)
  rw [daysBeforeMonth_thirteen] at hend
  rw [daysBeforeYear_succ, dayNumber]
  omega

theorem Exists.le_year {d : Date} (h : d.Exists) {y : Int}
    (hy : daysBeforeYear y ≤ d.dayNumber + epochOffset) : y ≤ d.year := by
  refine Int.not_lt.1 fun hlt => ?_
  have := daysBeforeYear_mono (y := d.year + 1) (z := y) (by omega)
  have := h.within_year
  omega

theorem Exists.year_le {d : Date} (h : d.Exists) {y : Int}
    (hy : d.dayNumber + epochOffset < daysBeforeYear (y + 1)) : d.year ≤ y := by
  refine Int.not_lt.1 fun hlt => ?_
  have := daysBeforeYear_mono (y := y + 1) (z := d.year) (by omega)
  have := h.within_year
  omega

end Date
end StandingQuery
