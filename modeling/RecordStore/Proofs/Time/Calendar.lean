import Mathlib.Data.Nat.Find
import RecordStore.Time.Calendar

/-!
# The date of a day

The inverse of counting days: the year, the month and the day of the month that a
day falls on, for a day that is counted from the first day of 1970. This is a date of
the calendar (`RecordStore.Calendar.dayOfMonth_mem`), and counting its days gives the
day back (`RecordStore.Calendar.daysSinceEpoch_date`).

The calendar repeats itself every 400 years, which are 146097 days. The days before a
year are in proportion to this, but for less than two days, and so one division gives
the year or the one before it.
-/

namespace RecordStore

namespace Calendar

/-! ### Years -/

/-- The year that a day falls on. -/
def yearOf (day : Int) : Int :=
  let sinceYearZero := day + daysBeforeYear 1970
  let year := 400 * (sinceYearZero - 2) / 146097
  if sinceYearZero < daysBeforeYear (year + 1) then year else year + 1

/-- A day falls between the first day of its year and the first day of the next. -/
theorem yearOf_spec (day : Int) :
    daysBeforeYear (yearOf day) ≤ day + daysBeforeYear 1970 ∧
      day + daysBeforeYear 1970 < daysBeforeYear (yearOf day + 1) := by
  rw [yearOf]
  generalize day + daysBeforeYear 1970 = n
  split
  · rename_i h
    refine ⟨?_, h⟩
    rw [daysBeforeYear]
    omega
  · rename_i h
    refine ⟨Int.not_lt.1 h, ?_⟩
    rw [daysBeforeYear]
    omega

/-- Later years have more days before them. -/
theorem daysBeforeYear_le {year other : Int} (h : year ≤ other) :
    daysBeforeYear year ≤ daysBeforeYear other := by
  rcases Int.le_iff_lt_or_eq.1 h with hlt | rfl
  · rw [daysBeforeYear, daysBeforeYear]
    omega
  · exact Int.le_refl _

theorem daysSinceEpoch_firstDay (year : Int) :
    daysSinceEpoch year 1 1 = daysBeforeYear year - daysBeforeYear 1970 := by
  rw [daysSinceEpoch, daysBeforeMonth]
  simp

/-- A day is before a year exactly when its year is. -/
theorem yearOf_lt_iff {day year : Int} : yearOf day < year ↔ day < daysSinceEpoch year 1 1 := by
  obtain ⟨hfirst, hnext⟩ := yearOf_spec day
  rw [daysSinceEpoch_firstDay]
  constructor
  · intro h
    have hle : daysBeforeYear (yearOf day + 1) ≤ daysBeforeYear year := daysBeforeYear_le h
    omega
  · intro h
    by_contra hnot
    have hle : daysBeforeYear year ≤ daysBeforeYear (yearOf day) :=
      daysBeforeYear_le (Int.not_lt.1 hnot)
    omega

/-! ### Months -/

/-- The day of its year that a day is; the first one is 0. -/
def dayOfYear (day : Int) : Nat :=
  (day + daysBeforeYear 1970 - daysBeforeYear (yearOf day)).toNat

/-- The month that a day falls on: the last one that has begun. -/
def monthOf (day : Int) : Nat :=
  Nat.findGreatest (fun month => daysBeforeMonth (yearOf day) month ≤ dayOfYear day) 12

/-- The day of its month that a day is; the first one is 1. -/
def dayOfMonth (day : Int) : Nat :=
  dayOfYear day - daysBeforeMonth (yearOf day) (monthOf day) + 1

/-- The days before the next month are those of this month more. -/
theorem daysBeforeMonth_succ (year : Int) {month : Nat} (h : 1 ≤ month) :
    daysBeforeMonth year (month + 1) = daysBeforeMonth year month + daysInMonth year month := by
  obtain ⟨before, rfl⟩ := Nat.exists_eq_add_of_le' h
  rw [daysBeforeMonth, Nat.add_sub_cancel, List.range_succ, List.foldl_append]
  rfl

/-- The twelve months fill the year. -/
theorem daysBeforeYear_succ_eq (year : Int) :
    daysBeforeYear (year + 1) = daysBeforeYear year + daysBeforeMonth year 13 := by
  have hmonths : daysBeforeMonth year 13 = if isLeap year then 366 else 365 := by
    cases hleap : isLeap year <;> simp [daysBeforeMonth, daysInMonth, hleap, List.range_succ]
  rw [daysBeforeYear_succ, hmonths]
  split <;> rfl

theorem dayOfYear_lt (day : Int) : dayOfYear day < daysBeforeMonth (yearOf day) 13 := by
  obtain ⟨hfirst, hnext⟩ := yearOf_spec day
  rw [daysBeforeYear_succ_eq] at hnext
  rw [dayOfYear]
  omega

/-- A day falls between the first day of its month and the first day of the next. -/
theorem monthOf_spec (day : Int) :
    1 ≤ monthOf day ∧ monthOf day ≤ 12 ∧
      daysBeforeMonth (yearOf day) (monthOf day) ≤ dayOfYear day ∧
      dayOfYear day < daysBeforeMonth (yearOf day) (monthOf day + 1) := by
  have hbegun : daysBeforeMonth (yearOf day) 1 ≤ dayOfYear day := Nat.zero_le _
  have hone : 1 ≤ monthOf day := Nat.le_findGreatest (by decide) hbegun
  obtain ⟨hle, hfirst, hgreatest⟩ := (Nat.findGreatest_eq_iff (m := monthOf day)).1 rfl
  refine ⟨hone, hle, hfirst (Nat.ne_of_gt hone), ?_⟩
  rcases Nat.eq_or_lt_of_le hle with htwelve | hlt
  · rw [htwelve]
    exact dayOfYear_lt day
  · exact Nat.not_le.1 (hgreatest (Nat.lt_succ_self _) hlt)

theorem daysInMonth_le (year : Int) (month : Nat) : daysInMonth year month ≤ 31 := by
  rw [daysInMonth]
  repeat' split
  all_goals decide

/-! ### Dates -/

/-- **A day falls on a day of the calendar.** -/
theorem dayOfMonth_mem (day : Int) :
    1 ≤ dayOfMonth day ∧ dayOfMonth day ≤ daysInMonth (yearOf day) (monthOf day) := by
  obtain ⟨hone, -, hfirst, hnext⟩ := monthOf_spec day
  rw [daysBeforeMonth_succ _ hone] at hnext
  rw [dayOfMonth]
  omega

/-- **The days of the date of a day** are the ones that the date was made of. -/
theorem daysSinceEpoch_date (day : Int) :
    daysSinceEpoch (yearOf day) (monthOf day) (dayOfMonth day) = day := by
  obtain ⟨hyear, -⟩ := yearOf_spec day
  obtain ⟨-, -, hmonth, -⟩ := monthOf_spec day
  have hdayOfYear : (dayOfYear day : Int)
      = day + daysBeforeYear 1970 - daysBeforeYear (yearOf day) :=
    Int.toNat_of_nonneg (by omega)
  rw [daysSinceEpoch, dayOfMonth]
  omega

example : (yearOf 11017, monthOf 11017, dayOfMonth 11017) = (2000, 3, 1) := by decide

end Calendar

end RecordStore
