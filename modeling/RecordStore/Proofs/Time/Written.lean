import RecordStore.Proofs.Time.Calendar
import RecordStore.Time.Rfc3339

/-!
# Writing date-times

The text of an instant: its date and the time of the day in UTC, with a fraction of
all nine digits. Four digits are there for the year, and so it is for the instants of
the years 0 to 9999 that the text is read back (`RecordStore.Instant.instant?_text`).
-/

namespace RecordStore

/-! ### Digits -/

namespace Digits

/-- The last digits of a natural, as many as are asked for. -/
def written : Nat → Nat → List Char
  | 0, _ => []
  | count + 1, n => written count (n / 10) ++ [Nat.digitChar (n % 10)]

theorem isDigit_digitChar : ∀ d < 10, (Nat.digitChar d).isDigit = true := by decide

theorem value_digitChar : ∀ d < 10, value (Nat.digitChar d) = d := by decide

theorem length_written (count n : Nat) : (written count n).length = count := by
  induction count generalizing n with
  | zero => rfl
  | succ count ih => rw [written, List.length_append, ih]; rfl

/-- Only digits are written. -/
theorem isDigit_of_mem_written {count n : Nat} {c : Char} (h : c ∈ written count n) :
    c.isDigit = true := by
  induction count generalizing n with
  | zero => cases h
  | succ count ih =>
    rcases List.mem_append.1 h with hfront | hlast
    · exact ih hfront
    · rw [List.mem_singleton.1 hlast]
      exact isDigit_digitChar _ (Nat.mod_lt _ (by decide))

/-- **A number is read back from its digits**, if there are enough of them. -/
theorem toNat_written {count n : Nat} (h : n < 10 ^ count) : toNat (written count n) = n := by
  induction count generalizing n with
  | zero => exact (Nat.lt_one_iff.1 h).symm
  | succ count ih =>
    have hfront : n / 10 < 10 ^ count := Nat.div_lt_of_lt_mul (Nat.pow_succ' ▸ h)
    rw [written, toNat_append_singleton, ih hfront, value_digitChar _ (Nat.mod_lt _ (by decide)),
      Nat.div_add_mod]

/-- **What is written in a number of digits is read back.** -/
theorem take?_written {count n : Nat} (h : n < 10 ^ count) (rest : List Char) :
    take? count (written count n ++ rest) = some (n, rest) := by
  have hlength : (written count n).length = count := length_written count n
  have htake : (written count n ++ rest).take count = written count n :=
    List.take_left' hlength
  have hdrop : (written count n ++ rest).drop count = rest := List.drop_left' hlength
  have hdigits : (written count n).all Char.isDigit = true :=
    List.all_eq_true.2 fun _ => isDigit_of_mem_written
  rw [take?, htake, hdrop, toNat_written h, if_pos ⟨hlength, hdigits⟩]

theorem front_written (count n : Nat) {c : Char} (hc : c.isDigit = false) (rest : List Char) :
    front (written count n ++ c :: rest) = written count n := by
  rw [front, List.takeWhile_append_of_pos fun _ => isDigit_of_mem_written,
    List.takeWhile_cons_of_neg (by simp [hc]), List.append_nil]

theorem afterFront_written (count n : Nat) {c : Char} (hc : c.isDigit = false)
    (rest : List Char) : afterFront (written count n ++ c :: rest) = c :: rest := by
  rw [afterFront, List.dropWhile_append_of_pos fun _ => isDigit_of_mem_written,
    List.dropWhile_cons_of_neg (by simp [hc])]

end Digits

/-! ### Date-times -/

namespace Rfc3339

/-- A fraction of nine digits is read back. -/
theorem fraction?_written {n : Nat} (h : n < 10 ^ 9) {c : Char} (hc : c.isDigit = false)
    (rest : List Char) :
    fraction? ('.' :: (Digits.written 9 n ++ c :: rest)) = some (n, c :: rest) := by
  have hlength : (Digits.written 9 n).length = 9 := Digits.length_written 9 n
  have hne : Digits.written 9 n ≠ [] := by
    intro hnil
    rw [hnil] at hlength
    cases hlength
  rw [fraction?, Digits.front_written _ _ hc, Digits.afterFront_written _ _ hc, if_neg hne,
    List.take_left' hlength, Digits.toNat_written h]

namespace Fields

/-- The text of a date-time in UTC, with a fraction of nine digits. -/
def written (f : Fields) : List Char :=
  Digits.written 4 f.year ++ '-' :: (Digits.written 2 f.month ++ '-' ::
    (Digits.written 2 f.day ++ 'T' :: (Digits.written 2 f.hour ++ ':' ::
      (Digits.written 2 f.minute ++ ':' :: (Digits.written 2 f.second ++ '.' ::
        (Digits.written 9 f.nanos ++ ['Z']))))))

/-- Whether the text of a date-time in UTC has digits enough for it. -/
structure Fits (f : Fields) : Prop where
  year : f.year < 10 ^ 4
  month : f.month < 10 ^ 2
  day : f.day < 10 ^ 2
  hour : f.hour < 10 ^ 2
  minute : f.minute < 10 ^ 2
  second : f.second < 10 ^ 2
  nanos : f.nanos < 10 ^ 9
  utc : f.offset = 0

/-- **A date-time that was written is taken apart again.** -/
theorem fields?_written {f : Fields} (fits : f.Fits) : fields? f.written = some f := by
  have hoffset : offset? ['Z'] = some f.offset := by rw [fits.utc]; rfl
  have hfraction : fraction? ('.' :: (Digits.written 9 f.nanos ++ ['Z'])) = some (f.nanos, ['Z']) :=
    fraction?_written fits.nanos rfl []
  simp [fields?, written, Digits.take?_written fits.year, Digits.take?_written fits.month,
    Digits.take?_written fits.day, Digits.take?_written fits.hour,
    Digits.take?_written fits.minute, Digits.take?_written fits.second, char?, ascii?, hfraction,
    hoffset]

end Fields

end Rfc3339

/-! ### Instants -/

namespace Instant

/-- The minutes from the start of 1970 to the one that an instant is in. -/
def minutes (instant : Instant) : Int := instant.nanos / (60 * 10 ^ 9)

/-- The days from the start of 1970 to the one that an instant is in. -/
def days (instant : Instant) : Int := instant.minutes / (24 * 60)

/-- The parts of an instant as they are written in UTC. -/
def fields (instant : Instant) : Rfc3339.Fields :=
  let minuteOfDay := (instant.minutes % (24 * 60)).toNat
  let nanosOfMinute := (instant.nanos % (60 * 10 ^ 9)).toNat
  { year := (Calendar.yearOf instant.days).toNat
    month := Calendar.monthOf instant.days
    day := Calendar.dayOfMonth instant.days
    hour := minuteOfDay / 60
    minute := minuteOfDay % 60
    second := nanosOfMinute / 10 ^ 9
    nanos := nanosOfMinute % 10 ^ 9
    offset := 0 }

/-- The text of an instant. -/
def text (instant : Instant) : String :=
  .ofList instant.fields.written

/-- Whether an instant is in one of the years 0 to 9999. -/
structure InWrittenYears (instant : Instant) : Prop where
  lower : Calendar.daysSinceEpoch 0 1 1 ≤ instant.days
  upper : instant.days < Calendar.daysSinceEpoch 10000 1 1

variable {instant : Instant}

/-- In the years that can be written the year written is the year of the calendar. -/
theorem year_fields (h : instant.InWrittenYears) :
    (instant.fields.year : Int) = Calendar.yearOf instant.days :=
  Int.toNat_of_nonneg (Int.not_lt.1 fun hlt => Int.not_lt.2 h.lower (Calendar.yearOf_lt_iff.1 hlt))

/-- The date of an instant is on the calendar, and its time on the clock. -/
theorem inRange_fields (h : instant.InWrittenYears) : instant.fields.inRange = true := by
  have hdate := Calendar.dayOfMonth_mem instant.days
  have hyear := year_fields h
  rw [Rfc3339.Fields.inRange, hyear, decide_eq_true_eq]
  refine ⟨hdate.1, hdate.2, ?_, ?_, ?_⟩ <;> simp only [fields] <;> omega

theorem second_fields_lt (instant : Instant) : instant.fields.second < 60 := by
  simp only [fields]
  omega

/-- The fields of an instant fit their places in a text. -/
theorem fits_fields (h : instant.InWrittenYears) : instant.fields.Fits where
  year := by
    have hlt : Calendar.yearOf instant.days < 10000 := Calendar.yearOf_lt_iff.2 h.upper
    have hyear := year_fields h
    omega
  month := by
    have hmonth := (Calendar.monthOf_spec instant.days).2.1
    simp only [fields]
    omega
  day := by
    have hday := (Calendar.dayOfMonth_mem instant.days).2
    have hmonth := Calendar.daysInMonth_le (Calendar.yearOf instant.days)
      (Calendar.monthOf instant.days)
    simp only [fields]
    omega
  hour := by simp only [fields]; omega
  minute := by simp only [fields]; omega
  second := Nat.lt_trans (second_fields_lt instant) (by decide)
  nanos := Nat.mod_lt _ (by decide)
  utc := rfl

/-- **An instant is read back from its fields.** -/
theorem instant?_fields (h : instant.InWrittenYears) : instant.fields.instant? = some instant := by
  have hsecond := second_fields_lt instant
  have hdate : Calendar.daysSinceEpoch instant.fields.year instant.fields.month instant.fields.day
      = instant.days := by
    rw [year_fields h]
    exact Calendar.daysSinceEpoch_date instant.days
  have hminutes : instant.fields.utcMinutes = instant.minutes := by
    rw [Rfc3339.Fields.utcMinutes, hdate]
    simp only [fields, days]
    omega
  have hnanos : (instant.fields.nanosOfMinute : Int) = instant.nanos % (60 * 10 ^ 9) := by
    rw [Rfc3339.Fields.nanosOfMinute, if_neg (Nat.ne_of_lt hsecond)]
    simp only [fields]
    omega
  rw [Rfc3339.Fields.instant?,
    if_pos ⟨inRange_fields h, fun hleap => absurd hleap (Nat.ne_of_lt hsecond)⟩, hminutes, hnanos,
    minutes]
  congr 2
  omega

/-- **The text of an instant is read back**, if the instant is in a year that four
digits write. -/
theorem instant?_text (h : instant.InWrittenYears) :
    Rfc3339.instant? instant.text = some instant := by
  rw [Rfc3339.instant?, text, String.toList_ofList, Rfc3339.Fields.fields?_written (fits_fields h)]
  exact instant?_fields h

example : Instant.text ⟨-1⟩ = "1969-12-31T23:59:59.999999999Z" := by decide

end Instant

end RecordStore
