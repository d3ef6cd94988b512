import RecordStore.ObjectId
import RecordStore.Time.Instant

/-!
# Stamps

What a store adds to a payload of its own accord: an identifier that no other
record has, and the time. A stamp is handed to a store together with the payload
it is for, so a store itself has neither a clock nor a source of identifiers.

The mint below is one such source. It issues identifiers that begin with the
second of their issue and go on with a serial number, so that they increase, and
no two of its first `2 ^ 64` are equal (`RecordStore.Mint.next_ne`).
-/

namespace RecordStore

/-- An identifier and a time for one record. -/
structure Stamp where
  id : ObjectId
  now : Date
  deriving DecidableEq

/-- A clock and a source of identifiers. -/
structure Mint where
  /-- The time on the clock, in milliseconds since the start of 1970. -/
  now : Int
  /-- How many identifiers have been issued. -/
  issued : Nat

namespace Mint

/-- Sets the clock. -/
def setClock (mint : Mint) (now : Int) : Mint := { mint with now }

/-- The next stamp. -/
def next (mint : Mint) : Stamp where
  id := .ofParts (mint.now.fdiv 1000 % 2 ^ 32).toNat mint.issued
  now := .ofMillis mint.now

/-- Counts stamps that were issued. -/
def advance (mint : Mint) (count : Nat) : Mint :=
  { mint with issued := mint.issued + count }

/-- The next stamps, one for each member of a list. -/
def stampAll {α : Type} (mint : Mint) : List α → List (Stamp × α)
  | [] => []
  | item :: rest => (mint.next, item) :: (mint.advance 1).stampAll rest

/-- Whatever the clock says, different serial numbers give different
identifiers. -/
theorem next_ne {a b : Mint} (ha : a.issued < 2 ^ 64) (hb : b.issued < 2 ^ 64)
    (h : a.issued ≠ b.issued) : a.next.id ≠ b.next.id := by
  intro heq
  have hval := congrArg ObjectId.val heq
  simp only [next, ObjectId.ofParts] at hval
  omega

end Mint

end RecordStore
