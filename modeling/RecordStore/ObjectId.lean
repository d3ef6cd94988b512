import RecordStore.Power

/-!
# Object identifiers

An object identifier is a number of 96 bits, written as 24 hexadecimal digits.
Writing uses lower case, reading takes either case and nothing but 24 digits.
Identifiers are ordered as numbers, so by the leading 32 bits first: these hold
the second at which a store issued the identifier, and the rest tells apart the
identifiers of one second.
-/

namespace RecordStore

/-- An object identifier. -/
structure ObjectId where
  /-- The identifier as a number. -/
  val : Nat
  /-- Twelve bytes hold it. -/
  isLt : val < 2 ^ 96
  deriving DecidableEq

namespace ObjectId

instance : Inhabited ObjectId := ⟨⟨0, by decide⟩⟩

/-- The identifier with given leading 32 bits and given trailing 64 bits; what
lies beyond them is dropped. -/
def ofParts (second serial : Nat) : ObjectId :=
  ⟨second % 2 ^ 32 * 2 ^ 64 + serial % 2 ^ 64, by omega⟩

/-- The hexadecimal digit of a number below sixteen, in lower case. -/
def digit (n : Nat) : Char :=
  if n < 10 then Char.ofNat ('0'.toNat + n) else Char.ofNat ('a'.toNat + (n - 10))

/-- The number that a hexadecimal digit of either case stands for. -/
def digitValue? (c : Char) : Option Nat :=
  if '0' ≤ c ∧ c ≤ '9' then some (c.toNat - '0'.toNat)
  else if 'a' ≤ c ∧ c ≤ 'f' then some (c.toNat - 'a'.toNat + 10)
  else if 'A' ≤ c ∧ c ≤ 'F' then some (c.toNat - 'A'.toNat + 10)
  else none

/-- The last `count` hexadecimal digits of a number, most significant first. -/
def digits : Nat → Nat → List Char
  | 0, _ => []
  | count + 1, n => digits count (n / 16) ++ [digit (n % 16)]

/-- The number that a list of hexadecimal digits spells, continuing from the
number that the digits before it spell. -/
def valueFrom : Nat → List Char → Option Nat
  | n, [] => some n
  | n, c :: rest => (digitValue? c).bind fun d => valueFrom (16 * n + d) rest

/-- The 24 digits of an identifier. -/
def text (id : ObjectId) : String :=
  String.ofList (digits 24 id.val)

/-- The identifier that 24 hexadecimal digits spell. -/
def ofText? (text : String) : Option ObjectId :=
  if text.length = 24 then
    (valueFrom 0 text.toList).bind fun n => if h : n < 2 ^ 96 then some ⟨n, h⟩ else none
  else none

/-! ### Reading what was written -/

/-- A digit is read as the number that it was written for. -/
theorem digitValue?_digit : ∀ n, n < 16 → digitValue? (digit n) = some n := by
  decide

/-- Digits are read one part after the other. -/
theorem valueFrom_append (n : Nat) (a b : List Char) :
    valueFrom n (a ++ b) = (valueFrom n a).bind fun m => valueFrom m b := by
  induction a generalizing n with
  | nil => rfl
  | cons c rest ih =>
    cases h : digitValue? c <;> simp [valueFrom, h, ih]

/-- Reading written digits continues a number by what they were written for. -/
theorem valueFrom_digits (count m n : Nat) :
    valueFrom m (digits count n) = some (m * 16 ^ count + n % 16 ^ count) := by
  induction count generalizing n with
  | zero => simp [digits, valueFrom, Nat.mod_one]
  | succ count ih =>
    rw [digits, valueFrom_append, ih]
    simp only [Option.bind_some, valueFrom, digitValue?_digit _ (Nat.mod_lt n (by decide))]
    congr 1
    rw [Nat.pow_succ, Nat.mul_comm (16 ^ count) 16, Nat.mod_mul]
    rw [Nat.mul_add, ← Nat.mul_assoc, Nat.mul_comm 16 m, Nat.mul_assoc]
    omega

/-- As many digits are written as were asked for. -/
theorem length_digits (count n : Nat) : (digits count n).length = count := by
  induction count generalizing n with
  | zero => rfl
  | succ count ih => simp [digits, ih]

/-- **The written form of an identifier reads back as the identifier.** -/
theorem ofText?_text (id : ObjectId) : ofText? id.text = some id := by
  obtain ⟨n, h⟩ := id
  have hlength : (String.ofList (digits 24 n)).length = 24 := by
    rw [String.length_ofList, length_digits]
  have hpow : 16 ^ 24 = 2 ^ 96 := by decide
  have hn : 0 * 16 ^ 24 + n % 16 ^ 24 = n := by
    rw [Nat.zero_mul, Nat.zero_add, hpow]
    exact Nat.mod_eq_of_lt h
  rw [ofText?, text, if_pos hlength, String.toList_ofList, valueFrom_digits, hn, Option.bind_some,
    dif_pos h]

end ObjectId

end RecordStore
