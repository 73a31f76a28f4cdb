import ContainerInit.Calendar.Instant
import Mathlib.Order.Monotone.Basic

/-! # Dates

Day numbers count the days of the calendar.  A year takes up its 365 or 366 days, and within it a month
takes up its own; so dates are in the order of their day numbers, no two have the same one, and every day
number is that of a date.

## The calendar as a sum of lengths

The number of a day is computed by a closed formula, with divisions that round down.  Nothing is said about
that formula here but how it grows: `yearStart_succ` and `daysBefore_succ` are the recursions that it comes
to, and these, with `daysBefore_thirteen`, are what the calendar is known by in all that follows.

## The way back

`yearOf` guesses a year from a day number by the mean length of a year, and corrects the guess once; that
once is enough is `yearOf_bounds`.  Within the year the month is found by going through the months one after
the other (`exists_monthAndDay_eq`). -/

namespace ContainerInit.Calendar

variable {year year' : Int} {month month' day day' : Nat}

/-! ## Years -/

def yearLength (year : Int) : Nat := if isLeap year then 366 else 365

/-- A year begins where the one before it ends. -/
theorem yearStart_succ (year : Int) : yearStart (year + 1) = yearStart year + yearLength year := by
  simp only [yearStart, yearLength, isLeap, Bool.and_eq_true, Bool.or_eq_true, decide_eq_true_eq]
  split <;> omega

theorem yearStart_mono {year year' : Int} (h : year ≤ year') : yearStart year ≤ yearStart year' := by
  refine monotone_int_of_le_succ (fun year => ?_) h
  rw [yearStart_succ]
  exact Int.le_add_of_nonneg_right (Int.natCast_nonneg _)

/-- The first guess at the year is never off by more than one. -/
theorem yearOf_bounds (day : Int) :
    yearStart (Instant.yearOf day) ≤ day ∧ day < yearStart (Instant.yearOf day + 1) := by
  have hlow : yearStart (1970 + 400 * day / 146097 - 1) ≤ day := by
    unfold yearStart
    omega
  have hhigh : day < yearStart (1970 + 400 * day / 146097 + 1 + 1) := by
    unfold yearStart
    omega
  unfold Instant.yearOf
  dsimp only
  split
  case isTrue h =>
    rw [Int.sub_add_cancel]
    exact ⟨hlow, h⟩
  case isFalse h =>
    split
    case isTrue h' => exact ⟨h', hhigh⟩
    case isFalse h' => exact ⟨Int.not_lt.mp h, Int.not_le.mp h'⟩

/-! ## Months -/

/-- A month begins where the one before it ends. -/
theorem daysBefore_succ (year : Int) (h : 1 ≤ month) :
    daysBefore year (month + 1) = daysBefore year month + daysInMonth year month := by
  obtain ⟨m, rfl⟩ := Nat.exists_eq_succ_of_ne_zero (Nat.one_le_iff_ne_zero.mp h)
  rfl

theorem daysBefore_mono (year : Int) : Monotone (daysBefore year) := monotone_nat_of_le_succ fun m => by
  cases m with
  | zero => exact Nat.le_refl 0
  | succ m => exact Nat.le_add_right _ _

/-- The twelve months make up the year. -/
theorem daysBefore_thirteen (year : Int) : daysBefore year 13 = yearLength year := by
  cases h : isLeap year <;> simp [daysBefore, daysInMonth, yearLength, h]

/-- Whatever the month, it has from 1 to 31 days. -/
theorem daysInMonth_bounds (year : Int) (month : Nat) : 1 ≤ daysInMonth year month ∧ daysInMonth year month ≤ 31 := by
  unfold daysInMonth
  split
  · split <;> decide
  all_goals decide

/-! ## Days -/

/-- There is such a day in the calendar. -/
structure IsDate (year : Int) (month day : Nat) : Prop where
  one_le_month : 1 ≤ month
  month_le : month ≤ 12
  one_le_day : 1 ≤ day
  day_le : day ≤ daysInMonth year month

namespace IsDate

theorem le_daysBefore_succ (h : IsDate year month day) :
    daysBefore year month + day ≤ daysBefore year (month + 1) := by
  rw [daysBefore_succ year h.one_le_month]
  exact Nat.add_le_add_left h.day_le _

theorem le_yearLength (h : IsDate year month day) : daysBefore year month + day ≤ yearLength year :=
  calc daysBefore year month + day
    _ ≤ daysBefore year (month + 1) := h.le_daysBefore_succ
    _ ≤ daysBefore year 13 := daysBefore_mono year (Nat.succ_le_succ h.month_le)
    _ = yearLength year := daysBefore_thirteen year

theorem yearStart_le (h : IsDate year month day) : yearStart year ≤ dayNumber year month day := by
  have hday := h.one_le_day
  unfold dayNumber
  omega

/-- No day of a year is one of the next. -/
theorem lt_yearStart_succ (h : IsDate year month day) : dayNumber year month day < yearStart (year + 1) := by
  have hlen := h.le_yearLength
  rw [yearStart_succ]
  unfold dayNumber
  omega

/-- Dates of different years are in the order of the years. -/
theorem dayNumber_lt_of_year (h : IsDate year month day) (h' : IsDate year' month' day')
    (hy : year < year') : dayNumber year month day < dayNumber year' month' day' :=
  calc dayNumber year month day
    _ < yearStart (year + 1) := h.lt_yearStart_succ
    _ ≤ yearStart year' := yearStart_mono (Int.add_one_le_of_lt hy)
    _ ≤ dayNumber year' month' day' := h'.yearStart_le

/-- Dates of the same year are in the order of the months. -/
theorem dayNumber_lt_of_month (h : IsDate year month day) (h' : IsDate year month' day')
    (hm : month < month') : dayNumber year month day < dayNumber year month' day' := by
  have hlast := h.le_daysBefore_succ
  have hmono : daysBefore year (month + 1) ≤ daysBefore year month' := daysBefore_mono year hm
  have hfirst := h'.one_le_day
  unfold dayNumber
  omega

end IsDate

theorem dayNumber_lt_of_day (year : Int) (month : Nat) (h : day < day') :
    dayNumber year month day < dayNumber year month day' := by
  unfold dayNumber
  omega

/-! ## The next day -/

theorem dayNumber_nextDay (year : Int) (month day : Nat) :
    dayNumber year month (day + 1) = dayNumber year month day + 1 := by
  unfold dayNumber
  omega

/-- The first of a month is the day after the last of the month before. -/
theorem dayNumber_nextMonth (year : Int) (h : 1 ≤ month) :
    dayNumber year (month + 1) 1 = dayNumber year month (daysInMonth year month) + 1 := by
  unfold dayNumber
  rw [daysBefore_succ year h]
  omega

/-- New year's day is the day after the last of December. -/
theorem dayNumber_nextYear (year : Int) :
    dayNumber (year + 1) 1 1 = dayNumber year 12 (daysInMonth year 12) + 1 := by
  have hlast := daysBefore_thirteen year
  rw [daysBefore_succ year (by decide)] at hlast
  unfold dayNumber
  rw [yearStart_succ, show daysBefore (year + 1) 1 = 0 from rfl]
  omega

theorem weekdayOf_lt (day : Int) : weekdayOf day < 7 := by
  unfold weekdayOf
  omega

/-- The days of the week follow each other in a circle. -/
theorem weekdayOf_succ (day : Int) : weekdayOf (day + 1) = (weekdayOf day + 1) % 7 := by
  unfold weekdayOf
  omega

/-! ## The date of a day number -/

/-- Month by month, what is left of the days of a year comes down to a date. -/
theorem exists_monthAndDay_eq (year : Int) (n : Nat) {rest : Nat} (hm : 1 ≤ month) (hn : month + n = 12)
    (hrest : daysBefore year month + rest < yearLength year) :
    ∃ m d, Instant.monthAndDay year rest (List.range' month n) = (m, d) ∧ IsDate year m d ∧
      daysBefore year m + d = daysBefore year month + rest + 1 := by
  induction n generalizing month rest with
  | zero =>
    obtain rfl : month = 12 := hn
    have hlast : daysBefore year 12 + daysInMonth year 12 = yearLength year :=
      (daysBefore_succ year hm).symm.trans (daysBefore_thirteen year)
    have hday : rest + 1 ≤ daysInMonth year 12 := by omega
    exact ⟨12, rest + 1, rfl, ⟨hm, Nat.le_refl 12, Nat.succ_pos rest, hday⟩, rfl⟩
  | succ n ih =>
    rw [List.range'_succ, Instant.monthAndDay]
    split
    case isTrue hlt => exact ⟨month, rest + 1, rfl, ⟨hm, by omega, Nat.succ_pos rest, hlt⟩, rfl⟩
    case isFalse hge =>
      have hsplit : daysBefore year (month + 1) + (rest - daysInMonth year month) =
          daysBefore year month + rest := by
        rw [daysBefore_succ year hm]
        omega
      have hnext := ih (Nat.le_succ_of_le hm) (by omega) (by rwa [hsplit])
      rwa [hsplit] at hnext

end ContainerInit.Calendar
