import Mathlib.Algebra.Order.Ring.Int
import Mathlib.Logic.Function.Iterate
import Mathlib.Tactic.Common

/-!
# The Gregorian calendar

Dates of the Gregorian calendar, extended to all years, and the number of days
before each. The number grows with the date, compared by year, month and day,
and by one from a date to the next, so that dates are as good as day numbers.

## Main results

* `dayNumber_lt` — an earlier date has the smaller number.
* `dayNumber_succ`, `dayNumber_pred` — the next date, and the one before.
-/

namespace AirNote.Lib.Calendar

def IsLeap (y : Int) : Prop := y % 4 = 0 ∧ (y % 100 ≠ 0 ∨ y % 400 = 0)

instance (y : Int) : Decidable (IsLeap y) := inferInstanceAs (Decidable (_ ∧ _))

def daysInMonth (y : Int) : Nat → Nat
  | 2 => if IsLeap y then 29 else 28
  | 4 | 6 | 9 | 11 => 30
  | _ => 31

/-- A date of the calendar. -/
structure Date where
  year : Int
  month : Nat
  day : Nat
  month_pos : 1 ≤ month
  month_le : month ≤ 12
  day_pos : 1 ≤ day
  day_le : day ≤ daysInMonth year month
  deriving DecidableEq, Repr

/-- The days before a month, in its year. -/
def daysBefore (y : Int) (m : Nat) : Nat :=
  ((List.range (m - 1)).map fun i => daysInMonth y (i + 1)).sum

/-- The days before a year, from the year 1 on. -/
def yearStart (y : Int) : Int :=
  365 * (y - 1) + (y - 1) / 4 - (y - 1) / 100 + (y - 1) / 400

/-- The days before a date, from the first day of the year 1 on. -/
def Date.dayNumber (d : Date) : Int :=
  yearStart d.year + daysBefore d.year d.month + (d.day - 1)

/-- The date comes before the other. -/
def Date.Before (d d' : Date) : Prop :=
  d.year < d'.year ∨ d.year = d'.year ∧
    (d.month < d'.month ∨ d.month = d'.month ∧ d.day < d'.day)

/-! ## The number of days -/

theorem yearStart_succ (y : Int) :
    yearStart (y + 1) = yearStart y + if IsLeap y then 366 else 365 := by
  by_cases h : IsLeap y
  · rw [if_pos h]
    unfold IsLeap at h
    unfold yearStart
    omega
  · rw [if_neg h]
    unfold IsLeap at h
    unfold yearStart
    omega

theorem yearStart_mono {y y' : Int} (h : y < y') :
    yearStart (y + 1) ≤ yearStart y' := by
  unfold yearStart
  omega

theorem daysInMonth_pos (y : Int) (m : Nat) : 1 ≤ daysInMonth y m := by
  unfold daysInMonth
  split <;> (try split) <;> decide

theorem daysBefore_succ (y : Int) {m : Nat} (hm : 1 ≤ m) :
    daysBefore y (m + 1) = daysBefore y m + daysInMonth y m := by
  obtain ⟨k, rfl⟩ : ∃ k, m = k + 1 := ⟨m - 1, by omega⟩
  simp [daysBefore, List.range_succ]

theorem daysBefore_mono (y : Int) {m m' : Nat} (hm : 1 ≤ m) (h : m < m') :
    daysBefore y m + daysInMonth y m ≤ daysBefore y m' := by
  induction m', h using Nat.le_induction with
  | base => rw [← daysBefore_succ y hm]
  | succ k hk ih =>
      rw [daysBefore_succ y (by omega)]
      omega

theorem daysBefore_end (y : Int) :
    daysBefore y 13 = if IsLeap y then 366 else 365 := by
  by_cases h : IsLeap y <;>
    simp [daysBefore, List.range_succ, daysInMonth, h]

/-- The days of a year from its first one on. -/
theorem Date.dayOfYear (d : Date) :
    (daysBefore d.year d.month : Int) + (d.day - 1) + 1 ≤
      if IsLeap d.year then 366 else 365 := by
  have hmono : daysBefore d.year d.month + daysInMonth d.year d.month ≤
      daysBefore d.year 13 :=
    daysBefore_mono d.year d.month_pos (Nat.lt_succ_of_le d.month_le)
  have hend := daysBefore_end d.year
  have hday := d.day_le
  have hpos := d.day_pos
  split at hend <;> simp_all <;> omega

/-- **An earlier date has the smaller number.** -/
theorem dayNumber_lt {d d' : Date} (h : d.Before d') :
    d.dayNumber < d'.dayNumber := by
  unfold Date.dayNumber
  have hpos := d'.day_pos
  rcases h with hy | ⟨hy, hm | ⟨hm, hd⟩⟩
  · have hyear := yearStart_mono hy
    have hlast := d.dayOfYear
    rw [yearStart_succ] at hyear
    omega
  · have hmonth := daysBefore_mono d.year d.month_pos hm
    have hday := d.day_le
    rw [← hy]
    omega
  · rw [← hy, ← hm]
    omega

/-! ## The next date, and the one before -/

/-- The next date. -/
def Date.succ (d : Date) : Date :=
  if h : d.day < daysInMonth d.year d.month then
    { d with day := d.day + 1, day_pos := by omega, day_le := h }
  else if h : d.month < 12 then
    ⟨d.year, d.month + 1, 1, by omega, h, le_rfl, daysInMonth_pos _ _⟩
  else ⟨d.year + 1, 1, 1, le_rfl, by omega, le_rfl, daysInMonth_pos _ _⟩

/-- The date before. -/
def Date.pred (d : Date) : Date :=
  if h : 1 < d.day then
    { d with day := d.day - 1, day_pos := by omega,
             day_le := (Nat.sub_le _ _).trans d.day_le }
  else if h : 1 < d.month then
    ⟨d.year, d.month - 1, daysInMonth d.year (d.month - 1), by omega,
      (Nat.sub_le _ _).trans d.month_le, daysInMonth_pos _ _, le_rfl⟩
  else ⟨d.year - 1, 12, 31, by omega, le_rfl, by omega, le_rfl⟩

/-- **The next date has the next number.** -/
theorem dayNumber_succ (d : Date) : d.succ.dayNumber = d.dayNumber + 1 := by
  have hday := d.day_le
  have hpos := d.day_pos
  unfold Date.succ
  split
  · simp only [Date.dayNumber]
    omega
  next hlast =>
    split
    · simp only [Date.dayNumber, daysBefore_succ d.year d.month_pos]
      omega
    next hdec =>
      have hmonth : d.month = 12 := by
        have := d.month_le
        omega
      have hend := daysBefore_end d.year
      rw [daysBefore_succ d.year (by decide), ← hmonth] at hend
      have hfirst : daysBefore (d.year + 1) 1 = 0 := rfl
      simp only [Date.dayNumber, yearStart_succ, hfirst]
      split at hend <;> simp_all <;> omega

/-- **The date before has the number before.** -/
theorem dayNumber_pred (d : Date) : d.pred.dayNumber = d.dayNumber - 1 := by
  have hpos := d.day_pos
  unfold Date.pred
  split
  · simp only [Date.dayNumber]
    omega
  next hfirst =>
    have hone : d.day = 1 := by omega
    split
    next hmonth =>
      have hsucc := daysBefore_succ d.year (m := d.month - 1) (by omega)
      have hpred : d.month - 1 + 1 = d.month := by omega
      have hdays := daysInMonth_pos d.year (d.month - 1)
      rw [hpred] at hsucc
      simp only [Date.dayNumber, hsucc, hone]
      omega
    next hmonth =>
      have hjan : d.month = 1 := by
        have := d.month_pos
        omega
      have hend := daysBefore_end (d.year - 1)
      have hlast : daysInMonth (d.year - 1) 12 = 31 := rfl
      have hyear := yearStart_succ (d.year - 1)
      have hzero : daysBefore d.year 1 = 0 := rfl
      rw [daysBefore_succ (d.year - 1) (by decide), hlast] at hend
      rw [Int.sub_add_cancel] at hyear
      simp only [Date.dayNumber, hjan, hone, hzero, hyear]
      split at hend <;> simp_all <;> omega

/-! ## The date of a day -/

theorem january_pos : 1 ≤ 1 := le_rfl

theorem january_le : 1 ≤ 12 := by decide

/-- The first day of the year 1. -/
def firstDay : Date :=
  ⟨1, 1, 1, january_pos, january_le, january_pos, by decide⟩

/-- The date with a number. -/
def ofDay : Int → Date
  | .ofNat k => Date.succ^[k] firstDay
  | .negSucc k => Date.pred^[k + 1] firstDay

end AirNote.Lib.Calendar
