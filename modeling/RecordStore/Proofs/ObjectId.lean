import Mathlib.Data.List.Induction
import RecordStore.ObjectId

/-!
# The spellings of an object identifier

Identifiers are written in lower case and read in either, so a text spells an
identifier exactly when it is the written form of it but for the case of its
letters (`RecordStore.ObjectId.ofText?_eq_some_iff`). For single digits this is
tried on all characters that could be digits; for texts, it is an induction that
takes the last digit off both the text and the number.
-/

namespace RecordStore

namespace ObjectId

/-! ### Digits in either case -/

/-- Among the ASCII characters a digit is read from its own character, in either case. -/
theorem digitValue?_ascii : ∀ n < 128, ∀ d < 16,
    digitValue? (Char.ofNat n) = some d ↔ (Char.ofNat n).toLower = digit d := by
  decide

theorem toNat_digit_lt : ∀ d < 16, (digit d).toNat < 128 := by
  decide

/-- Only an ASCII character is a digit, and it stands for a number below sixteen. The three
ranges of digits are taken one by one. -/
theorem lt_of_digitValue? {c : Char} {d : Nat} (h : digitValue? c = some d) :
    c.toNat < 128 ∧ d < 16 := by
  -- characters are ordered as numbers
  have hle : ∀ {a b : Char}, a ≤ b → a.toNat ≤ b.toNat := fun h => h
  have h0 : '0'.toNat = 48 := rfl
  have h9 : '9'.toNat = 57 := rfl
  have ha : 'a'.toNat = 97 := rfl
  have hf : 'f'.toNat = 102 := rfl
  have hA : 'A'.toNat = 65 := rfl
  have hF : 'F'.toNat = 70 := rfl
  rw [digitValue?] at h
  split at h
  case isTrue hc =>
    have hupper := hle hc.2
    have hd := Option.some.inj h
    omega
  case isFalse =>
    split at h
    case isTrue hc =>
      have hupper := hle hc.2
      have hd := Option.some.inj h
      omega
    case isFalse =>
      split at h
      case isTrue hc =>
        have hupper := hle hc.2
        have hd := Option.some.inj h
        omega
      case isFalse => cases h

/-- A character whose lower case is a digit is an ASCII character, since changing case leaves
the others as they are. -/
theorem lt_of_toLower {c : Char} {d : Nat} (hd : d < 16) (h : c.toLower = digit d) :
    c.toNat < 128 := by
  by_cases hc : c.toNat ≤ 'Z'.toNat
  · exact Nat.lt_of_le_of_lt hc (by decide)
  · -- beyond the upper-case letters, a character is its own lower case
    have hlower : c.toLower = c := dif_neg fun h => hc h.2
    rw [← hlower, h]
    exact toNat_digit_lt d hd

/-- **A character is a digit exactly when it is the written one, but for case.** -/
theorem digitValue?_eq_some_iff {c : Char} {d : Nat} :
    digitValue? c = some d ↔ d < 16 ∧ c.toLower = digit d := by
  have hascii : c.toNat < 128 → d < 16 → (digitValue? c = some d ↔ c.toLower = digit d) := by
    intro hc hd
    have h := digitValue?_ascii c.toNat hc d hd
    rwa [Char.ofNat_toNat] at h
  constructor
  · intro h
    obtain ⟨hc, hd⟩ := lt_of_digitValue? h
    exact ⟨hd, (hascii hc hd).1 h⟩
  · rintro ⟨hd, h⟩
    exact (hascii (lt_of_toLower hd h) hd).2 h

/-! ### Texts in either case -/

/-- Characters spell a number exactly when they are its digits, but for case. -/
theorem valueFrom_eq_some_iff {cs : List Char} {n : Nat} :
    valueFrom 0 cs = some n ↔ n < 16 ^ cs.length ∧ cs.map Char.toLower = digits cs.length n := by
  induction cs using List.reverseRecOn generalizing n with
  | nil => simp [valueFrom, digits, eq_comm]
  | append_singleton front c ih =>
    have hlast : valueFrom 0 (front ++ [c]) = some n ↔
        ∃ m, valueFrom 0 front = some m ∧ ∃ d, digitValue? c = some d ∧ 16 * m + d = n := by
      simp [valueFrom_append, valueFrom, Option.bind_eq_some_iff]
    rw [hlast, List.map_append, List.map_singleton, List.length_append, List.length_singleton,
      digits, Nat.pow_succ, List.append_singleton_inj]
    constructor
    · rintro ⟨m, hm, d, hd, rfl⟩
      obtain ⟨hlt, hfront⟩ := ih.1 hm
      obtain ⟨hd, hc⟩ := digitValue?_eq_some_iff.1 hd
      rw [Nat.mul_add_div (by decide), Nat.div_eq_of_lt hd, Nat.add_zero, Nat.mul_add_mod,
        Nat.mod_eq_of_lt hd]
      exact ⟨by omega, hfront, hc⟩
    · rintro ⟨hlt, hfront, hc⟩
      refine ⟨n / 16, ih.2 ⟨?_, hfront⟩, n % 16, digitValue?_eq_some_iff.2 ⟨?_, hc⟩, ?_⟩
      · exact Nat.div_lt_of_lt_mul (by omega)
      · exact Nat.mod_lt n (by decide)
      · exact Nat.div_add_mod n 16

/-- **A text spells an identifier exactly when it is the written form of it, but
for case.** -/
theorem ofText?_eq_some_iff {text : String} {id : ObjectId} :
    ofText? text = some id ↔ text.toLower = id.text := by
  have hpow : 16 ^ 24 = 2 ^ 96 := by decide
  have hlower : text.toLower = id.text ↔
      text.toList.map Char.toLower = digits 24 id.val := by
    have htoList : text.toLower.toList = text.toList.map Char.toLower := String.toList_map
    rw [ObjectId.text, ← String.toList_inj, htoList, String.toList_ofList]
  rw [hlower, ofText?]
  constructor
  · intro h
    split at h
    case isTrue hlength =>
      obtain ⟨n, hn, h⟩ := Option.bind_eq_some_iff.1 h
      split at h
      case isTrue hlt =>
        obtain rfl := Option.some.inj h
        rw [(valueFrom_eq_some_iff.1 hn).2, String.length_toList, hlength]
      case isFalse => cases h
    case isFalse => cases h
  · intro h
    have hlength : text.length = 24 := by
      rw [← String.length_toList, ← List.length_map Char.toLower, h, length_digits]
    have hvalue : valueFrom 0 text.toList = some id.val := by
      rw [valueFrom_eq_some_iff, String.length_toList, hlength, hpow]
      exact ⟨id.isLt, h⟩
    rw [if_pos hlength, hvalue, Option.bind_some, dif_pos id.isLt]

end ObjectId

end RecordStore
