import RecordStore.Power

/-!
# Instants and dates

An instant is a point of time to the nanosecond; a stored date keeps whole
milliseconds in 64 bits. There are two ways from the one to the other, which
differ before 1970 by one millisecond: rounding towards the past
(`RecordStore.Instant.floorDate`), and rounding towards 1970
(`RecordStore.Instant.truncDate`).
-/

namespace RecordStore

/-- A stored date: milliseconds since the start of 1970. -/
structure Date where
  millis : Int64
  deriving DecidableEq

/-- A point of time: nanoseconds since the start of 1970. -/
structure Instant where
  nanos : Int
  deriving DecidableEq

namespace Date

/-- The date of a number of milliseconds. -/
def ofMillis (millis : Int) : Date := ⟨Int64.ofInt millis⟩

end Date

namespace Instant

/-- The last millisecond that is not after the instant. -/
def floorDate (instant : Instant) : Date :=
  .ofMillis (instant.nanos.fdiv (10 ^ 6))

/-- The instant without its digits below the millisecond. -/
def truncDate (instant : Instant) : Date :=
  .ofMillis (instant.nanos.tdiv (10 ^ 6))

example : (Instant.floorDate ⟨-1⟩).millis = -1 ∧ (Instant.truncDate ⟨-1⟩).millis = 0 := by decide

end Instant

end RecordStore
