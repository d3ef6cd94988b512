/-!
# Decimal digits

Reading runs of the ten ASCII digits off a list of characters. Every reader of
numbers and of date-times in the library is built from these.
-/

namespace RecordStore

namespace Digits

/-- The value of a digit. Only digits are passed to it. -/
def value (c : Char) : Nat := c.toNat - '0'.toNat

/-- The natural that a run of digits spells. -/
def toNat (digits : List Char) : Nat :=
  digits.foldl (fun n c => 10 * n + value c) 0

/-- One more digit is worth its value, and the others ten times what they were worth. -/
theorem toNat_append_singleton (digits : List Char) (c : Char) :
    toNat (digits ++ [c]) = 10 * toNat digits + value c := by
  rw [toNat, List.foldl_append]
  rfl

/-- The digits at the front of a text. -/
def front (cs : List Char) : List Char := cs.takeWhile Char.isDigit

/-- What follows the digits at the front of a text. -/
def afterFront (cs : List Char) : List Char := cs.dropWhile Char.isDigit

/-- The natural that a text spells: one digit or more, and nothing else. -/
def nat? (cs : List Char) : Option Nat :=
  if cs ≠ [] ∧ cs.all Char.isDigit then some (toNat cs) else none

/-- Reads exactly `count` digits off the front of a text; the rest is handed
on. -/
def take? (count : Nat) (cs : List Char) : Option (Nat × List Char) :=
  if (cs.take count).length = count ∧ (cs.take count).all Char.isDigit then
    some (toNat (cs.take count), cs.drop count)
  else none

end Digits

end RecordStore
