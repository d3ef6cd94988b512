/-!
# Days of the calendar

The Gregorian calendar, carried back to every year before its introduction: the
lengths of months and years, and the number of days between a date and the first
day of 1970.
-/

namespace RecordStore

namespace Calendar

/-- Whether a year has 366 days. -/
def isLeap (year : Int) : Bool :=
  year % 4 = 0 ∧ (year % 100 ≠ 0 ∨ year % 400 = 0)

/-- The number of days of a month; there are none in a month that does not
exist. -/
def daysInMonth (year : Int) (month : Nat) : Nat :=
  if month = 2 then if isLeap year then 29 else 28
  else if month = 4 ∨ month = 6 ∨ month = 9 ∨ month = 11 then 30
  else if 1 ≤ month ∧ month ≤ 12 then 31
  else 0

/-- The days from the first day of year 0 to the first day of a year. -/
def daysBeforeYear (year : Int) : Int :=
  365 * year + (year + 3) / 4 - (year + 99) / 100 + (year + 399) / 400

/-- The days of a year before the first day of a month. -/
def daysBeforeMonth (year : Int) (month : Nat) : Nat :=
  (List.range (month - 1)).foldl (fun days m => days + daysInMonth year (m + 1)) 0

/-- The days from the first day of 1970 to a date. -/
def daysSinceEpoch (year : Int) (month day : Nat) : Int :=
  daysBeforeYear year - daysBeforeYear 1970 + daysBeforeMonth year month + ((day : Int) - 1)

/-- A year is as long as its months together. -/
theorem daysBeforeYear_succ (year : Int) :
    daysBeforeYear (year + 1) = daysBeforeYear year + if isLeap year then 366 else 365 := by
  by_cases hl : year % 4 = 0 ∧ (year % 100 ≠ 0 ∨ year % 400 = 0)
  · rw [if_pos (by simpa [isLeap] using hl), daysBeforeYear, daysBeforeYear]
    omega
  · rw [if_neg (by simpa [isLeap] using hl), daysBeforeYear, daysBeforeYear]
    omega

example : daysSinceEpoch 1970 1 1 = 0 := by decide

example : daysSinceEpoch 2000 3 1 = 11017 := by decide

end Calendar

end RecordStore
