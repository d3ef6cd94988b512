import RecordStore.Decimal

/-!
# Decimal numbers of 128 bits

Such a number is a coefficient of up to 34 decimal digits times a power of ten, an
infinity or a NaN. One number may be held in several ways, since trailing zeros of
the coefficient can be traded for the power, and bits that fit no number of 34
digits stand for zero; so a decimal is kept by its bits
(`RecordStore.Decimal128.bits`), which is what tells two of them apart, and what
the bits stand for is its datum (`RecordStore.Decimal128.datum`).

A text is read exactly or not at all (`RecordStore.Decimal128.ofText?`): digits are
only dropped, and zeros only added, where this does not change the number.
-/

namespace RecordStore

/-- A decimal floating-point number of 128 bits. -/
structure Decimal128 where
  /-- The sign bit, fourteen bits of exponent and 113 bits of coefficient, unless the
  leading bits of the exponent say otherwise. -/
  bits : BitVec 128
  deriving DecidableEq

namespace Decimal128

/-- The most digits that a coefficient has. -/
def precision : Nat := 34

/-- The least power of ten that scales a coefficient. -/
def leastExponent : Int := -6176

/-- The greatest power of ten that scales a coefficient. -/
def greatestExponent : Int := 6111

/-- What a decimal stands for, up to its sign. -/
inductive Datum where
  /-- No number. One that signals is meant to be noticed when it is used. -/
  | nan (signals : Bool)
  | infinity
  /-- A coefficient times a power of ten. -/
  | finite (coefficient : Nat) (exponent : Int)
  deriving DecidableEq

/-- The bits below the sign bit that hold a datum. -/
def Datum.magnitude : Datum → Nat
  | nan signals => 31 * 2 ^ 122 + if signals then 2 ^ 121 else 0
  | infinity => 30 * 2 ^ 122
  | finite coefficient exponent => (exponent - leastExponent).toNat * 2 ^ 113 + coefficient

/-- The decimal with a given sign that stands for a datum. -/
def ofDatum (negative : Bool) (datum : Datum) : Decimal128 :=
  ⟨.ofNat 128 (if negative then 2 ^ 127 + datum.magnitude else datum.magnitude)⟩

/-- The bits below the sign bit. -/
def magnitude (d : Decimal128) : Nat := d.bits.toNat % 2 ^ 127

/-- Whether the sign bit is set. -/
def isNegative (d : Decimal128) : Bool := 2 ^ 127 ≤ d.bits.toNat

/-- What a decimal stands for. Where its first two bits of exponent are set, the
coefficient is too long to be one. -/
def datum (d : Decimal128) : Datum :=
  if d.magnitude / 2 ^ 122 = 31 then .nan (d.magnitude / 2 ^ 121 % 2 = 1)
  else if d.magnitude / 2 ^ 122 = 30 then .infinity
  else if d.magnitude / 2 ^ 125 = 3 then
    .finite 0 ((d.magnitude / 2 ^ 111 % 2 ^ 14 : Nat) + leastExponent)
  else
    let coefficient := d.magnitude % 2 ^ 113
    .finite (if coefficient < 10 ^ precision then coefficient else 0)
      ((d.magnitude / 2 ^ 113 : Nat) + leastExponent)

/-- The decimal that sixteen bytes hold, the least significant first. -/
def ofBytes? (bytes : List UInt8) : Option Decimal128 :=
  if bytes.length = 16 then
    some ⟨.ofNat 128 (bytes.foldr (fun byte bits => 2 ^ 8 * bits + byte.toNat) 0)⟩
  else none

/-! ### Reading -/

/-- The datum of the number that some digits, the first of which is not zero, spell
when scaled by a power of ten. Digits are dropped where there are too many or the
power is too small, and zeros are added where it is too great. -/
def ofDigits? (digits : List Char) (exponent : Int) : Option Datum :=
  if digits = [] then some (.finite 0 (max leastExponent (min exponent greatestExponent)))
  else
    let dropped := max (digits.length - precision) (leastExponent - exponent).toNat
    let added := (exponent + dropped - greatestExponent).toNat
    if Digits.toNat digits % 10 ^ dropped = 0 ∧ digits.length - dropped + added ≤ precision then
      some (.finite (Digits.toNat digits / 10 ^ dropped * 10 ^ added)
        (exponent + dropped - added))
    else none

/-- Whether an exponent is within what sixteen bits hold. -/
def isExponent (exponent : Int) : Bool :=
  -(2 ^ 15) ≤ exponent ∧ exponent < 2 ^ 15

/-- The decimal that a text spells, if it is one exactly. -/
def ofText? (text : String) : Option Decimal128 :=
  let (negative, body) := Decimal.splitSign text.toList
  let name := String.ofList (body.map Char.toLower)
  if name = "nan" then some (ofDatum negative (.nan false))
  else if name = "snan" then some (ofDatum negative (.nan true))
  else if name = "inf" ∨ name = "infinity" then some (ofDatum negative .infinity)
  else do
    let parts ← Decimal.parts? body
    let exponent := parts.exponent - parts.fraction.length
    if isExponent parts.exponent ∧ isExponent exponent then
      let digits := (parts.whole ++ parts.fraction).dropWhile (· = '0')
      return ofDatum negative (← ofDigits? digits exponent)
    else none

/-! ### Writing -/

/-- Writes digits with a point before the last of them, as many as given. -/
def withPoint (digits : List Char) (places : Nat) : List Char :=
  if places = 0 then digits
  else
    let digits := List.replicate (places + 1 - digits.length) '0' ++ digits
    digits.take (digits.length - places) ++ '.' :: digits.drop (digits.length - places)

/-- The text of a coefficient times a power of ten: with a point where few zeros are
needed for that, and with an exponent after the first digit otherwise. -/
def finiteText (coefficient : Nat) (exponent : Int) : List Char :=
  let digits := Nat.toDigits 10 coefficient
  let scale := exponent + digits.length - 1
  if exponent ≤ 0 ∧ -6 ≤ scale then withPoint digits (-exponent).toNat
  else
    withPoint digits (digits.length - 1) ++ 'E' :: (if 0 < scale then ['+'] else [])
      ++ (toString scale).toList

/-- The text of a decimal. -/
def text (d : Decimal128) : String :=
  let sign := if d.isNegative then "-" else ""
  match d.datum with
  | .nan _ => "NaN"
  | .infinity => sign ++ "Infinity"
  | .finite coefficient exponent => sign ++ String.ofList (finiteText coefficient exponent)

end Decimal128

end RecordStore
