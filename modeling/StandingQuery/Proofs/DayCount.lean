import Mathlib
import StandingQuery.Proofs.Calendar

/-! Days counted the long way: the years between 1970 and the year of a date are added up one by
one, then the months before its month, then the days. The closed form of the calendar gives the same
number, for every year before and after 1970. -/

namespace StandingQuery.Calendar

/-- The lengths of the months of a year, from January on. -/
def months (y : Int) : List Nat :=
  [31, if y % 4 = 0 ∧ y % 100 ≠ 0 ∨ y % 400 = 0 then 29 else 28, 31, 30, 31, 30, 31, 31, 30, 31,
    30, 31]

/-- Days from 1970-01-01 to the first day of a year: those of the years in between, negative when
they lie before 1970. -/
def countYears (y : Int) : Int :=
  ∑ k ∈ Finset.range (y - 1970).toNat, ((months (1970 + k)).sum : Int) -
    ∑ k ∈ Finset.range (1970 - y).toNat, ((months (1969 - k)).sum : Int)

/-- Days from 1970-01-01 to a date, negative before it. -/
def count (d : Date) : Int :=
  countYears d.year + ((months d.year).take (d.month - 1)).sum + (d.day - 1)

/-- The month has that many days at least. -/
def HasDay (d : Date) : Prop :=
  1 ≤ d.month ∧ 1 ≤ d.day ∧ ∃ length ∈ (months d.year)[d.month - 1]?, d.day ≤ length

theorem february (y : Int) :
    (if y % 4 = 0 ∧ y % 100 ≠ 0 ∨ y % 400 = 0 then 29 else 28) = monthLength (isLeap y) 2 := by
  have h := isLeap_iff y
  cases hl : isLeap y with
  | true => exact if_pos (h.1 hl)
  | false => exact if_neg (mt h.2 (by simp [hl]))

theorem months_eq (y : Int) : months y = (List.range' 1 12).map (monthLength (isLeap y)) := by
  rw [months, february]
  cases isLeap y <;> rfl

/-! ## Within a year -/

theorem sum_months (y : Int) : (months y).sum = yearLength (isLeap y) := by
  rw [months_eq]
  cases isLeap y <;> rfl

theorem sum_take_months (y : Int) {m : Nat} (h : m ≤ 12) :
    ((months y).take m).sum = daysBeforeMonth (isLeap y) (m + 1) := by
  rw [months_eq]
  generalize isLeap y = leap
  revert m leap
  decide

theorem hasDay_iff (d : Date) : HasDay d ↔ d.Exists := by
  have length_of {m : Nat} (h : m < 12) :
      (months d.year)[m]? = some (monthLength (isLeap d.year) (m + 1)) := by
    rw [months_eq, List.getElem?_map, List.getElem?_range' h, Nat.one_mul, Nat.add_comm]
    rfl
  constructor
  · rintro ⟨hm, hd, length, hlength, hle⟩
    have hsize := List.getElem?_eq_some_iff.1 (Option.mem_def.1 hlength)
    have hlt : d.month - 1 < 12 := by
      obtain ⟨hlt, -⟩ := hsize
      rwa [months_eq, List.length_map, List.length_range'] at hlt
    rw [length_of hlt, Nat.sub_add_cancel hm, Option.mem_some_iff] at hlength
    exact ⟨hm, by omega, hd, hlength ▸ hle⟩
  · rintro ⟨hm, h12, hd, hle⟩
    refine ⟨hm, hd, _, ?_, hle⟩
    rw [length_of (by omega), Nat.sub_add_cancel hm, Option.mem_some_iff]

/-! ## From year to year -/

theorem countYears_succ (y : Int) : countYears (y + 1) = countYears y + (months y).sum := by
  unfold countYears
  rcases Int.lt_or_le y 1970 with h | h
  · have hlast : (1970 - y).toNat = (1970 - (y + 1)).toNat + 1 := by omega
    have hyear : 1969 - ((1970 - (y + 1)).toNat : Int) = y := by omega
    have hnone : (y + 1 - 1970).toNat = 0 ∧ (y - 1970).toNat = 0 := by omega
    rw [hnone.1, hnone.2, hlast, Finset.sum_range_succ, hyear]
    ring
  · have hlast : (y + 1 - 1970).toNat = (y - 1970).toNat + 1 := by omega
    have hyear : 1970 + ((y - 1970).toNat : Int) = y := by omega
    have hnone : (1970 - (y + 1)).toNat = 0 ∧ (1970 - y).toNat = 0 := by omega
    rw [hnone.1, hnone.2, hlast, Finset.sum_range_succ, hyear]
    ring

/-- One year more or less changes both by the length of the same year. -/
theorem countYears_eq (y : Int) : countYears y = daysBeforeYear y - epochOffset := by
  have step (z : Int) : countYears (z + 1) - daysBeforeYear (z + 1) =
      countYears z - daysBeforeYear z := by
    rw [countYears_succ, daysBeforeYear_succ, sum_months]
    ring
  have start : countYears 1970 - daysBeforeYear 1970 = -epochOffset := by
    simp [countYears, daysBeforeYear, epochOffset]
  have all : countYears y - daysBeforeYear y = -epochOffset := by
    induction y using Int.inductionOn' (b := 1970) with
    | zero => exact start
    | succ z _ ih => rw [step, ih]
    | pred z _ ih => rw [← step, Int.sub_add_cancel, ih]
  omega

theorem count_eq {d : Date} (h : 1 ≤ d.month ∧ d.month ≤ 12) : count d = d.dayNumber := by
  rw [count, countYears_eq, sum_take_months d.year (by omega), Nat.sub_add_cancel h.1,
    Date.dayNumber]
  ring

example : count ⟨2000, 3, 1⟩ = 11017 := by
  rw [count_eq (by decide)]
  rfl

end StandingQuery.Calendar
