import Mathlib.Algebra.Order.Field.Power
import Mathlib.Data.List.TakeWhile
import Mathlib.Data.Rat.Cast.Order
import Mathlib.Tactic.FieldSimp
import Mathlib.Tactic.Positivity
import RecordStore.Decimal128

/-!
# Decimals and what they stand for

Two facts tie the bits of a decimal to its number. What is packed into bits is unpacked
again (`RecordStore.Decimal128.datum_ofDatum`), and every pattern of bits stands for
something that can be packed (`RecordStore.Decimal128.valid_datum`), also those that
are not packed from anything.

Digits that are scaled by a power of ten are read without rounding, and whenever this
can be done at all: there is a result exactly when some coefficient of 34 digits at
most, scaled by a power within bounds, is the same number
(`RecordStore.Decimal128.isSome_ofDigits?_iff`). The two corrections that the reader
makes, dropping digits and adding zeros, never work against each other: digits are
only dropped as far as the power that they are traded for has to grow.
-/

namespace RecordStore

namespace Digits

/-- A digit is worth less than ten. -/
theorem value_lt {c : Char} (h : c.isDigit = true) : value c < 10 := by
  have hbounds : 48 ≤ c.toNat ∧ c.toNat ≤ 57 := by
    simpa [Char.isDigit, UInt32.le_iff_toNat_le] using h
  have hzero : '0'.toNat = 48 := by decide
  rw [value, hzero]
  omega

/-- A digit that is not zero is worth something. -/
theorem value_pos {c : Char} (h : c.isDigit = true) (hne : c ≠ '0') : 0 < value c := by
  have hbounds : 48 ≤ c.toNat ∧ c.toNat ≤ 57 := by
    simpa [Char.isDigit, UInt32.le_iff_toNat_le] using h
  have hzero : '0'.toNat = 48 := by decide
  have hne : c.toNat ≠ '0'.toNat := fun heq => hne (Char.toNat_inj.1 heq)
  rw [value]
  omega

/-- Digits spell a number of at most as many digits. -/
theorem toNat_lt {digits : List Char} (h : ∀ c ∈ digits, c.isDigit = true) :
    toNat digits < 10 ^ digits.length := by
  induction digits using List.reverseRecOn with
  | nil => exact Nat.one_pos
  | append_singleton digits c ih =>
    have hdigits := ih fun c hc => h c (List.mem_append_left _ hc)
    have hlast : value c < 10 := value_lt (h c (by simp))
    rw [toNat_append_singleton, List.length_append, List.length_singleton, pow_succ]
    omega

/-- Digits spell a number of as many digits, if the first one is not zero. -/
theorem le_toNat {first : Char} {digits : List Char}
    (h : ∀ c ∈ first :: digits, c.isDigit = true) (hfirst : first ≠ '0') :
    10 ^ digits.length ≤ toNat (first :: digits) := by
  induction digits using List.reverseRecOn with
  | nil =>
    have hpos : 0 < value first := value_pos (h first (by simp)) hfirst
    simpa [toNat] using Nat.succ_le_of_lt hpos
  | append_singleton digits c ih =>
    have hdigits := ih fun c hc => h c (List.mem_append_left [_] hc)
    rw [← List.cons_append, toNat_append_singleton, List.length_append, List.length_singleton,
      pow_succ]
    omega

end Digits

namespace Decimal128

/-- Whether a datum fits into the bits of a decimal. -/
def Datum.Valid : Datum → Prop
  | finite coefficient exponent =>
    coefficient < 10 ^ precision ∧ leastExponent ≤ exponent ∧ exponent ≤ greatestExponent
  | _ => True

/-! ### Packing -/

variable {datum : Datum} {negative : Bool}

/-- What fits leaves the bit of the sign free. -/
theorem magnitude_lt (h : datum.Valid) : datum.magnitude < 2 ^ 127 := by
  cases datum with
  | nan signals => cases signals <;> decide
  | infinity => decide
  | finite coefficient exponent =>
    simp only [Datum.Valid, precision, leastExponent, greatestExponent] at h
    simp only [Datum.magnitude, leastExponent]
    omega

theorem toNat_bits_ofDatum (h : datum.Valid) :
    (ofDatum negative datum).bits.toNat = if negative then 2 ^ 127 + datum.magnitude
      else datum.magnitude := by
  have hlt := magnitude_lt h
  rw [ofDatum, BitVec.toNat_ofNat]
  refine Nat.mod_eq_of_lt ?_
  split <;> omega

/-- The sign is packed in its own bit. -/
theorem isNegative_ofDatum (h : datum.Valid) : (ofDatum negative datum).isNegative = negative := by
  have hlt := magnitude_lt h
  rw [isNegative, toNat_bits_ofDatum h]
  cases negative
  · simpa using hlt
  · simp

theorem magnitude_ofDatum (h : datum.Valid) :
    (ofDatum negative datum).magnitude = datum.magnitude := by
  have hlt := magnitude_lt h
  rw [magnitude, toNat_bits_ofDatum h]
  split <;> omega

/-- A coefficient and a power of ten are told apart by their places. -/
theorem datum_of_magnitude {d : Decimal128} {bias coefficient : Nat}
    (h : d.magnitude = bias * 2 ^ 113 + coefficient) (hbias : bias < 3 * 2 ^ 12)
    (hcoefficient : coefficient < 10 ^ precision) :
    d.datum = .finite coefficient (bias + leastExponent) := by
  have hroom : coefficient < 2 ^ 113 := hcoefficient.trans (by decide)
  have hplaces : d.magnitude / 2 ^ 125 < 3 ∧ d.magnitude / 2 ^ 122 < 30 := by omega
  have hparts : d.magnitude % 2 ^ 113 = coefficient ∧ d.magnitude / 2 ^ 113 = bias := by omega
  rw [datum, if_neg (by omega), if_neg (by omega), if_neg (by omega)]
  simp only [hparts, hcoefficient, if_true]

/-- **What is packed into bits is unpacked again.** -/
theorem datum_ofDatum (h : datum.Valid) : (ofDatum negative datum).datum = datum := by
  have hmagnitude : (ofDatum negative datum).magnitude = datum.magnitude := magnitude_ofDatum h
  cases datum with
  | nan signals =>
    rw [Decimal128.datum, hmagnitude]
    cases signals <;> decide
  | infinity =>
    rw [Decimal128.datum, hmagnitude]
    decide
  | finite coefficient exponent =>
    obtain ⟨hcoefficient, hleast, hgreatest⟩ := h
    simp only [leastExponent, greatestExponent] at hleast hgreatest
    rw [datum_of_magnitude hmagnitude (by rw [leastExponent]; omega) hcoefficient]
    congr 1
    rw [leastExponent]
    omega

/-- **Every pattern of bits stands for something that can be packed.** -/
theorem valid_datum (d : Decimal128) : d.datum.Valid := by
  have hlt : d.magnitude < 2 ^ 127 := Nat.mod_lt _ (by decide)
  have hprecision : 0 < 10 ^ precision := by decide
  rw [datum]
  split
  · trivial
  split
  · trivial
  split
  · refine ⟨hprecision, ?_, ?_⟩
    · simp only [leastExponent]
      omega
    · simp only [leastExponent, greatestExponent]
      omega
  · refine ⟨?_, ?_, ?_⟩
    · split
      · assumption
      · exact hprecision
    · simp only [leastExponent]
      omega
    · simp only [leastExponent, greatestExponent]
      omega

/-! ### Reading digits -/

variable {digits : List Char} {exponent : Int}

/-- Zeros that are dropped from a number, and zeros that are added to it, are made up for
by the power of ten. -/
theorem traded_eq {n dropped added : ℕ} (h : n % 10 ^ dropped = 0) (exponent : ℤ) :
    ((n / 10 ^ dropped * 10 ^ added : ℕ) : ℚ) * 10 ^ (exponent + dropped - added) =
      n * 10 ^ exponent := by
  obtain ⟨m, rfl⟩ := Nat.dvd_of_mod_eq_zero h
  rw [Nat.mul_div_cancel_left m (by positivity), zpow_sub₀ (by norm_num), zpow_add₀ (by norm_num),
    zpow_natCast, zpow_natCast]
  push_cast
  field_simp

/-- A number that dropping and adding zeros leaves with few digits is a coefficient. -/
theorem traded_lt {n size dropped added : ℕ} (hn : n < 10 ^ size)
    (h : size - dropped + added ≤ precision) : n / 10 ^ dropped * 10 ^ added < 10 ^ precision := by
  have hsize : n < 10 ^ dropped * 10 ^ (size - dropped) := by
    rw [← pow_add]
    exact hn.trans_le (Nat.pow_le_pow_right (by decide) (by omega))
  calc n / 10 ^ dropped * 10 ^ added
      < 10 ^ (size - dropped) * 10 ^ added :=
        Nat.mul_lt_mul_of_pos_right (Nat.div_lt_of_lt_mul hsize) (by positivity)
    _ = 10 ^ (size - dropped + added) := (pow_add _ _ _).symm
    _ ≤ 10 ^ precision := Nat.pow_le_pow_right (by decide) h

/-- **Digits are read without rounding**: what is read fits, and is the number that they
spell. -/
theorem exists_of_ofDigits? (hdigits : ∀ c ∈ digits, c.isDigit = true)
    (h : ofDigits? digits exponent = some datum) :
    ∃ coefficient scale, datum = .finite coefficient scale ∧ datum.Valid ∧
      (coefficient : ℚ) * 10 ^ scale = Digits.toNat digits * 10 ^ exponent := by
  rw [ofDigits?] at h
  split at h
  · obtain rfl := Option.some.inj h
    rename_i hnil
    refine ⟨_, _, rfl, ⟨by decide, ?_, ?_⟩, ?_⟩
    · simp only [leastExponent, greatestExponent]
      omega
    · simp only [leastExponent, greatestExponent]
      omega
    · simp [hnil, Digits.toNat]
  · obtain ⟨⟨hdropped, hsize⟩, h⟩ := Option.ite_none_right_eq_some.1 h
    obtain rfl := Option.some.inj h
    refine ⟨_, _, rfl, ⟨traded_lt (Digits.toNat_lt hdigits) hsize, ?_, ?_⟩,
      traded_eq hdropped exponent⟩
    · simp only [leastExponent, greatestExponent]
      omega
    · simp only [leastExponent, greatestExponent]
      omega

/-- A number that is scaled up by a power of ten has its zeros. -/
theorem pow_dvd_of_scaled {coefficient n : ℕ} {k : ℤ} (h : (coefficient : ℚ) * 10 ^ k = n) :
    10 ^ k.toNat ∣ n := by
  rcases Int.eq_nat_or_neg k with ⟨k, rfl | rfl⟩
  · rw [zpow_natCast] at h
    exact ⟨coefficient, by rw [Int.toNat_natCast, mul_comm]; exact_mod_cast h.symm⟩
  · rw [Int.toNat_neg_natCast, pow_zero]
    exact one_dvd n

/-- A number that is scaled from a coefficient has as many digits as this leaves room for. -/
theorem length_le_of_scaled {coefficient n size : ℕ} {k : ℤ}
    (h : (coefficient : ℚ) * 10 ^ k = n) (hcoefficient : coefficient < 10 ^ precision)
    (hn : 10 ^ size ≤ n) : (size : ℤ) < precision + k := by
  have hpower : (0 : ℚ) < 10 ^ k := by positivity
  refine (zpow_lt_zpow_iff_right₀ (by norm_num : (1 : ℚ) < 10)).1 ?_
  calc (10 : ℚ) ^ (size : ℤ)
      ≤ n := by rw [zpow_natCast]; exact_mod_cast hn
    _ = coefficient * 10 ^ k := h.symm
    _ < 10 ^ (precision : ℤ) * 10 ^ k := by
        refine mul_lt_mul_of_pos_right ?_ hpower
        rw [zpow_natCast]
        exact_mod_cast hcoefficient
    _ = 10 ^ ((precision : ℤ) + k) := (zpow_add₀ (by norm_num) _ _).symm

/-- **Digits are read whenever this can be done without rounding**: the first of them is not
zero, and what they spell is a coefficient that fits, scaled by a power that fits. -/
theorem isSome_ofDigits?_iff (hdigits : ∀ c ∈ digits, c.isDigit = true)
    (hfirst : digits.head? ≠ some '0') :
    (ofDigits? digits exponent).isSome = true ↔
      ∃ coefficient scale, (Datum.finite coefficient scale).Valid ∧
        (coefficient : ℚ) * 10 ^ scale = Digits.toNat digits * 10 ^ exponent := by
  constructor
  · intro h
    obtain ⟨datum, hdatum⟩ := Option.isSome_iff_exists.1 h
    obtain ⟨coefficient, scale, rfl, hvalid, heq⟩ := exists_of_ofDigits? hdigits hdatum
    exact ⟨coefficient, scale, hvalid, heq⟩
  · rintro ⟨coefficient, scale, ⟨hcoefficient, hleast, hgreatest⟩, heq⟩
    cases digits with
    | nil => rfl
    | cons first digits =>
      have hscaled : (coefficient : ℚ) * 10 ^ (scale - exponent) =
          Digits.toNat (first :: digits) := by
        rw [zpow_sub₀ (by norm_num), ← mul_div_assoc, heq]
        exact mul_div_cancel_right₀ _ (by positivity)
      have hlength := length_le_of_scaled hscaled hcoefficient
        (Digits.le_toNat hdigits fun hzero => hfirst (congrArg some hzero))
      simp only [precision, leastExponent, greatestExponent] at hlength hleast hgreatest
      -- no more digits are dropped than the number has zeros for
      have hdropped : max ((first :: digits).length - precision)
          (leastExponent - exponent).toNat ≤ (scale - exponent).toNat := by
        simp only [precision, leastExponent, List.length_cons]
        omega
      have hzeros := (pow_dvd_pow 10 hdropped).trans (pow_dvd_of_scaled hscaled)
      rw [ofDigits?, if_neg (List.cons_ne_nil _ _)]
      refine (congrArg _ (if_pos ⟨Nat.mod_eq_zero_of_dvd hzeros, ?_⟩)).trans rfl
      simp only [precision, leastExponent, greatestExponent, List.length_cons] at hdropped ⊢
      omega

/-! ### Reading texts -/

/-- The parts of a numeral are made of digits. -/
theorem isDigit_of_parts? {cs : List Char} {parts : Decimal.Parts}
    (h : Decimal.parts? cs = some parts) :
    ∀ c ∈ parts.whole ++ parts.fraction, c.isDigit = true := by
  have hfront : ∀ cs : List Char, ∀ c ∈ Digits.front cs, c.isDigit = true := fun cs c hc =>
    List.mem_takeWhile_imp hc
  have hnil : ∀ c ∈ ([] : List Char), c.isDigit = true := List.forall_mem_nil _
  rw [Decimal.parts?] at h
  split at h
  rename_i fraction rest hsplit
  obtain ⟨-, h⟩ := Option.ite_none_left_eq_some.1 h
  obtain ⟨power, -, h⟩ := Option.bind_eq_some_iff.1 h
  obtain rfl := Option.some.inj h
  refine List.forall_mem_append.2 ⟨hfront cs, ?_⟩
  split at hsplit
  · obtain ⟨rfl, -⟩ := Prod.mk.inj hsplit
    exact hfront _
  · obtain ⟨rfl, -⟩ := Prod.mk.inj hsplit
    exact hnil

/-- What a text spells is packed from a datum that fits. -/
theorem exists_of_ofText? {text : String} {d : Decimal128} (h : ofText? text = some d) :
    ∃ negative datum, Datum.Valid datum ∧ ofDatum negative datum = d := by
  rw [ofText?] at h
  split at h
  dsimp only at h
  split at h
  · exact ⟨_, .nan false, trivial, Option.some.inj h⟩
  split at h
  · exact ⟨_, .nan true, trivial, Option.some.inj h⟩
  split at h
  · exact ⟨_, .infinity, trivial, Option.some.inj h⟩
  obtain ⟨parts, hparts, h⟩ := Option.bind_eq_some_iff.1 h
  obtain ⟨-, h⟩ := Option.ite_none_right_eq_some.1 h
  obtain ⟨datum, hdatum, h⟩ := Option.bind_eq_some_iff.1 h
  have hdigits := isDigit_of_parts? hparts
  obtain ⟨_, _, -, hvalid, -⟩ := exists_of_ofDigits?
    (fun c hc => hdigits c (List.dropWhile_subset _ hc)) hdatum
  exact ⟨_, datum, hvalid, Option.some.inj h⟩

/-- **A decimal that is read from a text is told by its sign and by what it stands for**, as
one that is read from bytes need not be. -/
theorem ofDatum_of_ofText? {text : String} {d : Decimal128} (h : ofText? text = some d) :
    ofDatum d.isNegative d.datum = d := by
  obtain ⟨negative, datum, hvalid, rfl⟩ := exists_of_ofText? h
  rw [isNegative_ofDatum hvalid, datum_ofDatum hvalid]

end Decimal128

end RecordStore
