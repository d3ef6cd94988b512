/-!
# Base-64 text

Bytes as text: three bytes are written as four digits of six bits each, and where
the last group has only one byte or two, equals signs stand for the missing
digits. The reader is strict, so that no bytes have two texts: groups are
complete, nothing stands between the digits, and the bits that a shortened group
leaves over are zero.
-/

namespace RecordStore

namespace Base64

/-- The number that a digit stands for: capital letters, small letters, decimal
digits, plus and slash, in this order. -/
def digitValue? (c : Char) : Option Nat :=
  if 'A' ≤ c ∧ c ≤ 'Z' then some (c.toNat - 'A'.toNat)
  else if 'a' ≤ c ∧ c ≤ 'z' then some (c.toNat - 'a'.toNat + 26)
  else if '0' ≤ c ∧ c ≤ '9' then some (c.toNat - '0'.toNat + 52)
  else if c = '+' then some 62
  else if c = '/' then some 63
  else none

/-- The bytes that a text spells. -/
def bytes? : List Char → Option (List UInt8)
  | [] => some []
  | [a, b, '=', '='] => do
    let bits := 2 ^ 6 * (← digitValue? a) + (← digitValue? b)
    if bits % 2 ^ 4 = 0 then some [.ofNat (bits / 2 ^ 4)] else none
  | [a, b, c, '='] => do
    let bits := 2 ^ 12 * (← digitValue? a) + 2 ^ 6 * (← digitValue? b) + (← digitValue? c)
    if bits % 2 ^ 2 = 0 then some [.ofNat (bits / 2 ^ 10), .ofNat (bits / 2 ^ 2)] else none
  | a :: b :: c :: d :: rest => do
    let bits := 2 ^ 18 * (← digitValue? a) + 2 ^ 12 * (← digitValue? b)
      + 2 ^ 6 * (← digitValue? c) + (← digitValue? d)
    return .ofNat (bits / 2 ^ 16) :: .ofNat (bits / 2 ^ 8) :: .ofNat bits :: (← bytes? rest)
  | _ => none

end Base64

end RecordStore
