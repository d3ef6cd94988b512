import RecordStore.Text.Base64

/-!
# Base-64 text is strict

The text of some bytes is written down here (`RecordStore.Base64.written`), as what the
reader is strict about: a text spells bytes exactly when it is this one
(`RecordStore.Base64.bytes?_eq_some_iff`). So every list of bytes has a text, and no two
texts spell the same bytes.

Group by group both directions are the same arithmetic: the digits of a group are the
digits in base 64 of a number whose digits in base 256 are the bytes.
-/

namespace RecordStore

namespace Base64

/-! ### Digits -/

/-- The digit that stands for a number below 64. -/
def digit (n : Nat) : Char :=
  if n < 26 then Char.ofNat ('A'.toNat + n)
  else if n < 52 then Char.ofNat ('a'.toNat + (n - 26))
  else if n < 62 then Char.ofNat ('0'.toNat + (n - 52))
  else if n = 62 then '+'
  else '/'

/-- A digit is read as the number that it stands for. -/
theorem digitValue?_digit : ∀ n < 64, digitValue? (digit n) = some n := by
  decide

/-- Among the ASCII characters, what is read is the digit of a number below 64. -/
theorem digitValue?_ascii : ∀ m < 128, (digitValue? (Char.ofNat m)).all
    (fun n => decide (n < 64 ∧ digit n = Char.ofNat m)) = true := by
  decide

/-- Only an ASCII character is read. -/
theorem lt_of_digitValue? {c : Char} {n : Nat} (h : digitValue? c = some n) : c.toNat < 128 := by
  -- characters are ordered as numbers
  have hle : ∀ {a b : Char}, a ≤ b → a.toNat ≤ b.toNat := fun h => h
  rw [digitValue?] at h
  split at h
  · rename_i hc
    exact Nat.lt_of_le_of_lt (hle hc.2) (by decide)
  split at h
  · rename_i hc
    exact Nat.lt_of_le_of_lt (hle hc.2) (by decide)
  split at h
  · rename_i hc
    exact Nat.lt_of_le_of_lt (hle hc.2) (by decide)
  split at h
  · rename_i hc
    rw [hc]
    decide
  split at h
  · rename_i hc
    rw [hc]
    decide
  · cases h

/-- **A character is read as a number exactly when it is the digit of the number.** -/
theorem digitValue?_eq_some_iff {c : Char} {n : Nat} :
    digitValue? c = some n ↔ n < 64 ∧ digit n = c := by
  constructor
  · intro h
    have hascii := digitValue?_ascii c.toNat (lt_of_digitValue? h)
    rw [Char.ofNat_toNat, h] at hascii
    exact of_decide_eq_true hascii
  · rintro ⟨hn, rfl⟩
    exact digitValue?_digit n hn

/-! ### Groups -/

/-- The text of some bytes. -/
def written : List UInt8 → List Char
  | [] => []
  | [x] =>
    let bits := 2 ^ 4 * x.toNat
    [digit (bits / 2 ^ 6), digit (bits % 2 ^ 6), '=', '=']
  | [x, y] =>
    let bits := 2 ^ 10 * x.toNat + 2 ^ 2 * y.toNat
    [digit (bits / 2 ^ 12), digit (bits / 2 ^ 6 % 2 ^ 6), digit (bits % 2 ^ 6), '=']
  | x :: y :: z :: rest =>
    let bits := 2 ^ 16 * x.toNat + 2 ^ 8 * y.toNat + z.toNat
    digit (bits / 2 ^ 18) :: digit (bits / 2 ^ 12 % 2 ^ 6) :: digit (bits / 2 ^ 6 % 2 ^ 6) ::
      digit (bits % 2 ^ 6) :: written rest

/-- What stands for a missing digit is none. -/
theorem digit_ne {n : Nat} (h : n < 64) : digit n ≠ '=' := by
  intro heq
  have hpadding : digitValue? '=' = none := by decide
  rw [← heq, digitValue?_digit n h] at hpadding
  cases hpadding

/-- A byte is told by its number. -/
theorem ofNat_eq {n : Nat} {x : UInt8} (h : n % 2 ^ 8 = x.toNat) : UInt8.ofNat n = x :=
  UInt8.toNat_inj.1 (UInt8.toNat_ofNat'.trans h)

variable {k l m n : Nat}

/-- A group of two digits holds one byte, and four bits that are zero. -/
theorem bytes?_two (hk : k < 64) (hl : l < 64) :
    bytes? [digit k, digit l, '=', '='] =
      if (2 ^ 6 * k + l) % 2 ^ 4 = 0 then some [.ofNat ((2 ^ 6 * k + l) / 2 ^ 4)] else none := by
  rw [bytes?, digitValue?_digit k hk, digitValue?_digit l hl]
  rfl

/-- A group of three digits holds two bytes, and two bits that are zero. -/
theorem bytes?_three (hk : k < 64) (hl : l < 64) (hm : m < 64) :
    bytes? [digit k, digit l, digit m, '='] =
      if (2 ^ 12 * k + 2 ^ 6 * l + m) % 2 ^ 2 = 0 then
        some [.ofNat ((2 ^ 12 * k + 2 ^ 6 * l + m) / 2 ^ 10),
          .ofNat ((2 ^ 12 * k + 2 ^ 6 * l + m) / 2 ^ 2)]
      else none := by
  rw [bytes?, digitValue?_digit k hk, digitValue?_digit l hl, digitValue?_digit m hm]
  · rfl
  · exact digit_ne hm

/-- A full group holds three bytes. -/
theorem bytes?_four (hk : k < 64) (hl : l < 64) (hm : m < 64) (hn : n < 64)
    (rest : List Char) :
    bytes? (digit k :: digit l :: digit m :: digit n :: rest) =
      (bytes? rest).map fun bytes =>
        .ofNat ((2 ^ 18 * k + 2 ^ 12 * l + 2 ^ 6 * m + n) / 2 ^ 16) ::
        .ofNat ((2 ^ 18 * k + 2 ^ 12 * l + 2 ^ 6 * m + n) / 2 ^ 8) ::
        .ofNat (2 ^ 18 * k + 2 ^ 12 * l + 2 ^ 6 * m + n) :: bytes := by
  rw [bytes?, digitValue?_digit k hk, digitValue?_digit l hl, digitValue?_digit m hm,
    digitValue?_digit n hn]
  · cases bytes? rest <;> rfl
  · exact fun hpadding _ _ => digit_ne hm hpadding
  · exact fun hpadding _ => digit_ne hn hpadding

/-- **Bytes are read back from their text.** -/
theorem bytes?_written (bytes : List UInt8) : bytes? (written bytes) = some bytes := by
  induction bytes using written.induct with
  | case1 => rfl
  | case2 x =>
    have hx := x.toNat_lt
    rw [written, bytes?_two (by omega) (by omega), if_pos (by omega), ofNat_eq (x := x) (by omega)]
  | case3 x y =>
    have hx := x.toNat_lt
    have hy := y.toNat_lt
    rw [written, bytes?_three (by omega) (by omega) (by omega), if_pos (by omega),
      ofNat_eq (x := x) (by omega), ofNat_eq (x := y) (by omega)]
  | case4 x y z rest ih =>
    have hx := x.toNat_lt
    have hy := y.toNat_lt
    have hz := z.toNat_lt
    rw [written, bytes?_four (by omega) (by omega) (by omega) (by omega), ih, Option.map_some,
      ofNat_eq (x := x) (by omega), ofNat_eq (x := y) (by omega), ofNat_eq (x := z) (by omega)]

/-- The text of one byte, from the digits of its group. -/
theorem written_two (hk : k < 64) (hl : l < 64) (h : (2 ^ 6 * k + l) % 2 ^ 4 = 0) :
    written [.ofNat ((2 ^ 6 * k + l) / 2 ^ 4)] = [digit k, digit l, '=', '='] := by
  have hbits : 2 ^ 4 * ((2 ^ 6 * k + l) / 2 ^ 4 % 2 ^ 8) = 2 ^ 6 * k + l := by omega
  have hdigits : (2 ^ 6 * k + l) / 2 ^ 6 = k ∧ (2 ^ 6 * k + l) % 2 ^ 6 = l := by omega
  simp only [written, UInt8.toNat_ofNat', hbits, hdigits]

/-- The text of two bytes, from the digits of their group. -/
theorem written_three (hk : k < 64) (hl : l < 64) (hm : m < 64)
    (h : (2 ^ 12 * k + 2 ^ 6 * l + m) % 2 ^ 2 = 0) :
    written [.ofNat ((2 ^ 12 * k + 2 ^ 6 * l + m) / 2 ^ 10),
      .ofNat ((2 ^ 12 * k + 2 ^ 6 * l + m) / 2 ^ 2)] = [digit k, digit l, digit m, '='] := by
  have hbits : 2 ^ 10 * ((2 ^ 12 * k + 2 ^ 6 * l + m) / 2 ^ 10 % 2 ^ 8) +
      2 ^ 2 * ((2 ^ 12 * k + 2 ^ 6 * l + m) / 2 ^ 2 % 2 ^ 8) = 2 ^ 12 * k + 2 ^ 6 * l + m := by
    omega
  have hdigits : (2 ^ 12 * k + 2 ^ 6 * l + m) / 2 ^ 12 = k ∧
      (2 ^ 12 * k + 2 ^ 6 * l + m) / 2 ^ 6 % 2 ^ 6 = l ∧
        (2 ^ 12 * k + 2 ^ 6 * l + m) % 2 ^ 6 = m := by
    omega
  simp only [written, UInt8.toNat_ofNat', hbits, hdigits]

/-- The text of three bytes and of what follows, from the digits of their group. -/
theorem written_four (hk : k < 64) (hl : l < 64) (hm : m < 64) (hn : n < 64)
    (bytes : List UInt8) :
    written (.ofNat ((2 ^ 18 * k + 2 ^ 12 * l + 2 ^ 6 * m + n) / 2 ^ 16) ::
      .ofNat ((2 ^ 18 * k + 2 ^ 12 * l + 2 ^ 6 * m + n) / 2 ^ 8) ::
      .ofNat (2 ^ 18 * k + 2 ^ 12 * l + 2 ^ 6 * m + n) :: bytes) =
        digit k :: digit l :: digit m :: digit n :: written bytes := by
  generalize hbits : 2 ^ 18 * k + 2 ^ 12 * l + 2 ^ 6 * m + n = bits
  have hback : 2 ^ 16 * (bits / 2 ^ 16 % 2 ^ 8) + 2 ^ 8 * (bits / 2 ^ 8 % 2 ^ 8) +
      bits % 2 ^ 8 = bits := by
    omega
  have hdigits : bits / 2 ^ 18 = k ∧ bits / 2 ^ 12 % 2 ^ 6 = l ∧ bits / 2 ^ 6 % 2 ^ 6 = m ∧
      bits % 2 ^ 6 = n := by
    omega
  simp only [written, UInt8.toNat_ofNat', hback, hdigits]

/-- A text that is read is the text of what it is read as. The cases are those of the reader,
which tries the shortened groups first. -/
theorem written_of_bytes? {cs : List Char} {bytes : List UInt8} (h : bytes? cs = some bytes) :
    written bytes = cs := by
  fun_induction bytes? cs generalizing bytes with
  | case1 =>
    obtain rfl := Option.some.inj h
    rfl
  | case2 a b =>
    obtain ⟨k, hfirst, h⟩ := Option.bind_eq_some_iff.1 h
    obtain ⟨l, hsecond, h⟩ := Option.bind_eq_some_iff.1 h
    obtain ⟨hzero, hbytes⟩ := Option.ite_none_right_eq_some.1 h
    obtain ⟨hk, rfl⟩ := digitValue?_eq_some_iff.1 hfirst
    obtain ⟨hl, rfl⟩ := digitValue?_eq_some_iff.1 hsecond
    obtain rfl := Option.some.inj hbytes
    exact written_two hk hl hzero
  | case3 a b c _ =>
    obtain ⟨k, hfirst, h⟩ := Option.bind_eq_some_iff.1 h
    obtain ⟨l, hsecond, h⟩ := Option.bind_eq_some_iff.1 h
    obtain ⟨m, hthird, h⟩ := Option.bind_eq_some_iff.1 h
    obtain ⟨hzero, hbytes⟩ := Option.ite_none_right_eq_some.1 h
    obtain ⟨hk, rfl⟩ := digitValue?_eq_some_iff.1 hfirst
    obtain ⟨hl, rfl⟩ := digitValue?_eq_some_iff.1 hsecond
    obtain ⟨hm, rfl⟩ := digitValue?_eq_some_iff.1 hthird
    obtain rfl := Option.some.inj hbytes
    exact written_three hk hl hm hzero
  | case4 a b c d rest _ _ ih =>
    obtain ⟨k, hfirst, h⟩ := Option.bind_eq_some_iff.1 h
    obtain ⟨l, hsecond, h⟩ := Option.bind_eq_some_iff.1 h
    obtain ⟨m, hthird, h⟩ := Option.bind_eq_some_iff.1 h
    obtain ⟨n, hfourth, h⟩ := Option.bind_eq_some_iff.1 h
    obtain ⟨following, hrest, hbytes⟩ := Option.bind_eq_some_iff.1 h
    obtain ⟨hk, rfl⟩ := digitValue?_eq_some_iff.1 hfirst
    obtain ⟨hl, rfl⟩ := digitValue?_eq_some_iff.1 hsecond
    obtain ⟨hm, rfl⟩ := digitValue?_eq_some_iff.1 hthird
    obtain ⟨hn, rfl⟩ := digitValue?_eq_some_iff.1 hfourth
    obtain rfl := Option.some.inj hbytes
    rw [written_four hk hl hm hn, ih hrest]
  | case5 => cases h

/-- **A text spells bytes exactly when it is their text.** -/
theorem bytes?_eq_some_iff {cs : List Char} {bytes : List UInt8} :
    bytes? cs = some bytes ↔ written bytes = cs := by
  constructor
  · exact written_of_bytes?
  · rintro rfl
    exact bytes?_written bytes

end Base64

end RecordStore
