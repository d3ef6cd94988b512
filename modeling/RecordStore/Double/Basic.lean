import RecordStore.Power

/-!
# Doubles, by their bits

A double is kept as the 64 bits of its binary representation, and every question
about it is answered in exact integer arithmetic: no floating-point operation is
used anywhere in the library.

Two readings of the bits are all that is needed.

* The **rank** (`RecordStore.Double.rank?`): below the sign bit, the bits of a
  double increase with its magnitude, so the signed magnitude is an integer that
  orders doubles as their values do. Both zeros have rank `0`, and a NaN has
  none, which is why it is comparable to nothing.
* The **value**: a finite double is its significand times a power of two
  (`RecordStore.Double.significand`, `RecordStore.Double.exponent`), and
  `RecordStore.Double.toInt?` is that value when it is an integer.
-/

namespace RecordStore

/-- A binary floating-point number of 64 bits. -/
structure Double where
  /-- The sign bit, eleven bits of exponent and 52 bits of fraction. -/
  bits : UInt64
  deriving DecidableEq

namespace Double

/-- The magnitude bits of infinity; those of a NaN are larger. -/
def infinityMagnitude : Nat := 2047 * 2 ^ 52

/-- The bits below the sign bit. -/
def magnitude (d : Double) : Nat := d.bits.toNat % 2 ^ 63

/-- Whether the sign bit is set. -/
def isNegative (d : Double) : Bool := 2 ^ 63 ≤ d.bits.toNat

/-- Whether the double stands for no number. -/
def isNaN (d : Double) : Bool := infinityMagnitude < d.magnitude

/-- Whether the double is a number other than the infinities. -/
def isFinite (d : Double) : Bool := d.magnitude < infinityMagnitude

/-- The double with a given sign and given magnitude bits. -/
def ofMagnitude (negative : Bool) (magnitude : Nat) : Double :=
  ⟨UInt64.ofNat (if negative then 2 ^ 63 + magnitude else magnitude)⟩

/-- A NaN. -/
def nan : Double := ofMagnitude false (infinityMagnitude + 2 ^ 51)

/-- The infinity of a given sign. -/
def infinity (negative : Bool) : Double := ofMagnitude negative infinityMagnitude

/-! ### Order -/

/-- The place of a double among all doubles, by value. A NaN has no place. -/
def rank? (d : Double) : Option Int :=
  if d.isNaN then none
  else some (if d.isNegative then -(d.magnitude : Int) else d.magnitude)

/-- Compares two doubles by value; a NaN is comparable to nothing, itself
included. -/
def compare? (a b : Double) : Option Ordering := do
  return compare (← a.rank?) (← b.rank?)

/-- Whether two doubles have one value. Both zeros do, and a NaN differs from
itself. -/
def equals (a b : Double) : Bool :=
  a.compare? b == some .eq

/-! ### Value -/

/-- The significand of a finite double: its value is the significand times two
to the `RecordStore.Double.exponent`, up to sign. Numbers with an empty exponent
field lack the implicit leading bit. -/
def significand (d : Double) : Nat :=
  if d.magnitude / 2 ^ 52 = 0 then d.magnitude else 2 ^ 52 + d.magnitude % 2 ^ 52

/-- The power of two that the significand of a finite double is scaled by. -/
def exponent (d : Double) : Int :=
  if d.magnitude / 2 ^ 52 = 0 then -1074 else (d.magnitude / 2 ^ 52 : Nat) - 1075

/-- The absolute value of a finite double, when that is an integer. -/
def toNat? (d : Double) : Option Nat :=
  if d.isFinite then
    let place := 2 ^ (-d.exponent).toNat
    if d.significand % place = 0 then
      some (d.significand / place * 2 ^ d.exponent.toNat)
    else none
  else none

/-- The value of a double, when that is an integer. -/
def toInt? (d : Double) : Option Int :=
  d.toNat?.map fun n => if d.isNegative then -(n : Int) else n

end Double

end RecordStore
