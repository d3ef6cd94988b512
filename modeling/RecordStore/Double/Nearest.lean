import RecordStore.Double.Basic

/-!
# The double nearest to a ratio

Integers beyond 53 bits and most decimal fractions have no double of their own
and stand for the nearest one, the even one of two that are equally near. The
rounding is done once, for any ratio of naturals, in exact arithmetic: the ratio
is divided by the spacing of the doubles around it, and the quotient rounded.
Since the magnitude bits of successive doubles are successive naturals, the
rounded quotient only has to be added to the bits at which its spacing begins,
and a quotient rounded up past the last double of its spacing lands on the first
of the next one by itself.
-/

namespace RecordStore

namespace Double

/-- The natural nearest to `num / den`; of two that are equally near, the even
one. -/
def roundHalfEven (num den : Nat) : Nat :=
  let quotient := num / den
  match compare (2 * (num % den)) den with
  | .lt => quotient
  | .gt => quotient + 1
  | .eq => quotient + quotient % 2

/-- The largest `k` with `2 ^ k ≤ num / den`, for positive arguments. -/
def floorLog (num den : Nat) : Int :=
  let guess : Int := (num.log2 : Int) - (den.log2 : Int)
  if den * 2 ^ guess.toNat ≤ num * 2 ^ (-guess).toNat then guess else guess - 1

/-- The magnitude bits of the double nearest to `num / den`. A ratio beyond the
largest double gives infinity. -/
def nearestMagnitude (num den : Nat) : Nat :=
  if num = 0 then 0
  else
    let spacing := max (floorLog num den - 52) (-1074)
    let quotient := roundHalfEven (num * 2 ^ (-spacing).toNat) (den * 2 ^ spacing.toNat)
    min ((spacing + 1074).toNat * 2 ^ 52 + quotient) infinityMagnitude

/-- The double nearest to an integer. -/
def ofInt (n : Int) : Double :=
  ofMagnitude (n < 0) (nearestMagnitude n.natAbs 1)

example : (ofInt 1).bits = 0x3ff0000000000000 := by decide +kernel

example : ofInt (2 ^ 53 + 1) = ofInt (2 ^ 53) := by decide +kernel

example : (ofInt (-(2 ^ 63))).toInt? = some (-(2 ^ 63)) := by decide +kernel

end Double

end RecordStore
