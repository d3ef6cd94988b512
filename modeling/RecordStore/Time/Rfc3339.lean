import RecordStore.Text.Digits
import RecordStore.Time.Calendar
import RecordStore.Time.Instant

/-!
# Reading RFC 3339 date-times

The text of a date-time is `yyyy-mm-dd`, any one ASCII character, `hh:mm:ss`, an
optional fraction of a second, and an offset from UTC; nothing may be missing
and nothing may follow. The date has to exist, and the digits of a fraction
after the ninth are dropped.

A second numbered 60 is a leap second. It is accepted where leap seconds are
inserted, after the last second of a month in UTC, and stands for the last
nanosecond before the month ends.

The reader works on a list of characters: each step takes what it reads off the
front and hands on the rest.
-/

namespace RecordStore

namespace Rfc3339

/-- Reads one given character. -/
def char? (expected : Char) : List Char → Option (List Char)
  | [] => none
  | c :: rest => if c = expected then some rest else none

/-- Reads one ASCII character, whichever it is. -/
def ascii? : List Char → Option (List Char)
  | [] => none
  | c :: rest => if c.toNat < 128 then some rest else none

/-- Reads an optional fraction of a second, as nanoseconds. -/
def fraction? : List Char → Option (Nat × List Char)
  | '.' :: rest =>
    if Digits.front rest = [] then none
    else
      some (Digits.toNat ((Digits.front rest ++ List.replicate 9 '0').take 9),
        Digits.afterFront rest)
  | rest => some (0, rest)

/-- Reads an offset from UTC, as minutes to the east, up to the end of the
text. -/
def offset? : List Char → Option Int
  | ['Z'] | ['z'] => some 0
  | sign :: rest => do
    let (hours, rest) ← Digits.take? 2 rest
    let rest ← char? ':' rest
    let (minutes, rest) ← Digits.take? 2 rest
    let east : Int := 60 * hours + minutes
    if rest = [] ∧ hours ≤ 23 ∧ minutes ≤ 59 then
      if sign = '+' then some east else if sign = '-' then some (-east) else none
    else none
  | [] => none

/-- The parts of a date-time as they are written. -/
structure Fields where
  year : Nat
  month : Nat
  day : Nat
  hour : Nat
  minute : Nat
  second : Nat
  /-- The fraction of the second, in nanoseconds. -/
  nanos : Nat
  /-- Minutes by which the written time is ahead of UTC. -/
  offset : Int
  deriving DecidableEq

/-- Takes a text apart. -/
def fields? (cs : List Char) : Option Fields := do
  let (year, cs) ← Digits.take? 4 cs
  let cs ← char? '-' cs
  let (month, cs) ← Digits.take? 2 cs
  let cs ← char? '-' cs
  let (day, cs) ← Digits.take? 2 cs
  let cs ← ascii? cs
  let (hour, cs) ← Digits.take? 2 cs
  let cs ← char? ':' cs
  let (minute, cs) ← Digits.take? 2 cs
  let cs ← char? ':' cs
  let (second, cs) ← Digits.take? 2 cs
  let (nanos, cs) ← fraction? cs
  return { year, month, day, hour, minute, second, nanos, offset := ← offset? cs }

namespace Fields

/-- Whether the date is on the calendar and the time on the clock; second 60
passes here. -/
def inRange (f : Fields) : Bool :=
  1 ≤ f.day ∧ f.day ≤ Calendar.daysInMonth f.year f.month ∧
    f.hour ≤ 23 ∧ f.minute ≤ 59 ∧ f.second ≤ 60

/-- The minutes from the start of 1970, in UTC, to the written minute. -/
def utcMinutes (f : Fields) : Int :=
  (Calendar.daysSinceEpoch f.year f.month f.day * 24 + f.hour) * 60 + f.minute - f.offset

/-- Whether the written minute is the last one of a month in UTC. An offset is
shorter than a day, so the month can only be the written one or the one
before. -/
def endsMonth (f : Fields) : Bool :=
  let start := Calendar.daysSinceEpoch f.year f.month 1
  f.utcMinutes + 1 = start * (24 * 60) ∨
    f.utcMinutes + 1 = (start + Calendar.daysInMonth f.year f.month) * (24 * 60)

/-- The nanoseconds from the start of the written minute. A leap second counts
as the last nanosecond of the second before it. -/
def nanosOfMinute (f : Fields) : Nat :=
  if f.second = 60 then 60 * 10 ^ 9 - 1 else f.second * 10 ^ 9 + f.nanos

/-- The point of time that is written. -/
def instant? (f : Fields) : Option Instant :=
  if f.inRange ∧ (f.second = 60 → f.endsMonth) then
    some ⟨f.utcMinutes * (60 * 10 ^ 9) + f.nanosOfMinute⟩
  else none

end Fields

/-- The point of time that a text spells. -/
def instant? (text : String) : Option Instant :=
  (fields? text.toList).bind Fields.instant?

/-- The stored date that a text spells: what lies below the millisecond is
dropped. -/
def date? (text : String) : Option Date :=
  (instant? text).map Instant.truncDate

end Rfc3339

end RecordStore
