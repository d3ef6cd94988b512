import RecordStore.Double.Nearest
import RecordStore.Text.Digits

/-!
# Reading decimal numerals

The text of an integer is an optional sign and one or more digits. The text of a
double may also have a point, with digits on at least one side of it, and an
exponent; the names of infinity and of NaN are read in any letter case. Every
character counts: a text with anything else in it is no numeral.
-/

namespace RecordStore

namespace Decimal

/-- Splits off a leading sign; the flag says whether it is a minus. -/
def splitSign : List Char → Bool × List Char
  | '-' :: rest => (true, rest)
  | '+' :: rest => (false, rest)
  | rest => (false, rest)

/-- The integer that a text spells. -/
def int? (text : String) : Option Int :=
  let (negative, body) := splitSign text.toList
  (Digits.nat? body).map fun n => if negative then -(n : Int) else n

/-- An unsigned numeral, taken apart. -/
structure Parts where
  /-- The digits before the point. -/
  whole : List Char
  /-- The digits after the point. -/
  fraction : List Char
  /-- The power of ten that scales them. -/
  exponent : Int

/-- The exponent at the end of a numeral, which may be missing. -/
def exponent? : List Char → Option Int
  | [] => some 0
  | c :: rest =>
    if c = 'e' ∨ c = 'E' then
      let (negative, body) := splitSign rest
      (Digits.nat? body).map fun n => if negative then -(n : Int) else n
    else none

/-- Takes an unsigned numeral apart. -/
def parts? (cs : List Char) : Option Parts := do
  let whole := Digits.front cs
  let (fraction, rest) := match Digits.afterFront cs with
    | '.' :: rest => (Digits.front rest, Digits.afterFront rest)
    | rest => ([], rest)
  if whole = [] ∧ fraction = [] then none
  else return ⟨whole, fraction, ← exponent? rest⟩

/-- The magnitude bits of the double nearest to `mantissa * 10 ^ exponent`, for a
mantissa of at most `size` digits. Numbers that lie far outside the range of
doubles are settled by their size alone, without computing the power. -/
def magnitude (mantissa size : Nat) (exponent : Int) : Nat :=
  if exponent > 310 then if mantissa = 0 then 0 else Double.infinityMagnitude
  else if exponent + size < -330 then 0
  else Double.nearestMagnitude (mantissa * 10 ^ exponent.toNat) (10 ^ (-exponent).toNat)

/-- The double nearest to the number that a text spells. -/
def double? (text : String) : Option Double :=
  let (negative, body) := splitSign text.toList
  let name := String.ofList (body.map Char.toLower)
  if name = "inf" ∨ name = "infinity" then some (.infinity negative)
  else if name = "nan" then some .nan
  else (parts? body).map fun parts =>
    .ofMagnitude negative <|
      magnitude (Digits.toNat (parts.whole ++ parts.fraction))
        (parts.whole ++ parts.fraction).length (parts.exponent - parts.fraction.length)

end Decimal

end RecordStore
