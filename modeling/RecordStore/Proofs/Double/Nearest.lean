import RecordStore.Double.Nearest

/-!
# Integers among the doubles

An integer takes the place of the double nearest to it
(`RecordStore.Double.rank?_ofInt`), and rounding to the nearest double keeps the
order: of two integers the greater one never gets the lower place
(`RecordStore.Double.integerRank_mono`). Up to `2 ^ 53` every integer is a double,
and different integers have different places
(`RecordStore.Double.integerRank_lt_of_lt`); beyond, some share one.
-/

namespace RecordStore

namespace Double

/-! ### Rounding a ratio -/

/-- Rounding a fraction goes down to the next integer or up to it. -/
theorem roundHalfEven_bounds (num den : Nat) :
    num / den ≤ roundHalfEven num den ∧ roundHalfEven num den ≤ num / den + 1 := by
  rw [roundHalfEven]
  split <;> omega

/-- What is at least a natural is rounded to at least it. -/
theorem le_roundHalfEven {num den bound : Nat} (positive : 0 < den) (h : bound * den ≤ num) :
    bound ≤ roundHalfEven num den := by
  have hquotient : bound ≤ num / den := (Nat.le_div_iff_mul_le positive).2 h
  exact Nat.le_trans hquotient (roundHalfEven_bounds num den).1

/-- An integer is not rounded. -/
theorem roundHalfEven_mul {den : Nat} (positive : 0 < den) (n : Nat) :
    roundHalfEven (n * den) den = n := by
  rw [roundHalfEven, Nat.mul_mod_left, Nat.mul_div_cancel n positive, Nat.mul_zero,
    Nat.compare_eq_lt.2 positive]

/-- **Rounding keeps the order.** -/
theorem roundHalfEven_mono {num num' : Nat} (den : Nat) (h : num ≤ num') :
    roundHalfEven num den ≤ roundHalfEven num' den := by
  have hquotient : num / den ≤ num' / den := Nat.div_le_div_right h
  rcases Nat.eq_or_lt_of_le hquotient with heq | hlt
  · -- with one quotient, the remainders are in order, and so are their halves
    have hnum := Nat.div_add_mod num den
    have hnum' := Nat.div_add_mod num' den
    have hrest : num % den ≤ num' % den := by
      rw [heq] at hnum
      omega
    rw [roundHalfEven, roundHalfEven, ← heq]
    split <;> rename_i hfirst <;> split <;> rename_i hsecond <;>
      simp only [Nat.compare_eq_lt, Nat.compare_eq_gt, Nat.compare_eq_eq] at hfirst hsecond <;>
      omega
  · have hup := (roundHalfEven_bounds num den).2
    have hdown := (roundHalfEven_bounds num' den).1
    omega

/-- What is at most a natural is rounded to at most it. -/
theorem roundHalfEven_le {num den bound : Nat} (positive : 0 < den) (h : num ≤ bound * den) :
    roundHalfEven num den ≤ bound := by
  have hmono := roundHalfEven_mono den h
  rwa [roundHalfEven_mul positive] at hmono

/-! ### Rounding a natural -/

/-- The significand that a positive natural is rounded to: 53 bits, or the power
of two above them. -/
def roundedSignificand (n : Nat) : Nat :=
  roundHalfEven (n * 2 ^ (52 - n.log2)) (2 ^ (n.log2 - 52))

/-- The significand of a positive number has its leading bit: scaling brings it there, and
rounding does not take it away. -/
theorem le_roundedSignificand {n : Nat} (h : n ≠ 0) : 2 ^ 52 ≤ roundedSignificand n := by
  refine le_roundHalfEven (Nat.two_pow_pos _) ?_
  have hlog : 2 ^ n.log2 ≤ n := Nat.log2_self_le h
  calc 2 ^ 52 * 2 ^ (n.log2 - 52) = 2 ^ n.log2 * 2 ^ (52 - n.log2) := by
        rw [← Nat.pow_add, ← Nat.pow_add]
        congr 1
        omega
    _ ≤ n * 2 ^ (52 - n.log2) := Nat.mul_le_mul_right _ hlog

/-- Scaled to 53 bits, a number stays below the power of two that follows them. -/
theorem mul_two_pow_lt (n : Nat) : n * 2 ^ (52 - n.log2) < 2 ^ 53 * 2 ^ (n.log2 - 52) := by
  have hlog : n < 2 ^ (n.log2 + 1) := Nat.lt_log2_self
  calc n * 2 ^ (52 - n.log2) < 2 ^ (n.log2 + 1) * 2 ^ (52 - n.log2) :=
        Nat.mul_lt_mul_of_pos_right hlog (Nat.two_pow_pos _)
    _ = 2 ^ 53 * 2 ^ (n.log2 - 52) := by
        rw [← Nat.pow_add, ← Nat.pow_add]
        congr 1
        omega

theorem roundedSignificand_le (n : Nat) : roundedSignificand n ≤ 2 ^ 53 :=
  roundHalfEven_le (Nat.two_pow_pos _) (Nat.le_of_lt (mul_two_pow_lt n))

/-- A natural below `2 ^ 53` is not rounded. -/
theorem roundedSignificand_eq {n : Nat} (h : n.log2 ≤ 52) :
    roundedSignificand n = n * 2 ^ (52 - n.log2) := by
  have hden : 2 ^ (n.log2 - 52) = 1 := by
    rw [Nat.sub_eq_zero_of_le h, Nat.pow_zero]
  have hone := roundHalfEven_mul Nat.one_pos (n * 2 ^ (52 - n.log2))
  rwa [Nat.mul_one, ← hden] at hone

/-- The power of two below an integer is that of its leading bit. -/
theorem floorLog_one {n : Nat} (h : n ≠ 0) : floorLog n 1 = n.log2 := by
  have hlog : 2 ^ n.log2 ≤ n := Nat.log2_self_le h
  have hone : Nat.log2 1 = 0 := by decide
  simp [floorLog, hone, hlog]

/-- The magnitude bits of the double nearest to a positive natural: its binary
order of magnitude, and its significand. -/
theorem nearestMagnitude_one {n : Nat} (h : n ≠ 0) :
    nearestMagnitude n 1
      = min ((n.log2 + 1022) * 2 ^ 52 + roundedSignificand n) infinityMagnitude := by
  have hspacing : max ((n.log2 : Int) - 52) (-1074) = n.log2 - 52 := by omega
  have hnum : (-((n.log2 : Int) - 52)).toNat = 52 - n.log2 := by omega
  have hden : ((n.log2 : Int) - 52).toNat = n.log2 - 52 := by omega
  have hplace : ((n.log2 : Int) - 52 + 1074).toNat = n.log2 + 1022 := by omega
  rw [nearestMagnitude, if_neg h, floorLog_one h]
  dsimp only
  rw [hspacing, hnum, hden, hplace, Nat.one_mul, roundedSignificand]

theorem nearestMagnitude_zero : nearestMagnitude 0 1 = 0 := rfl

/-- Nothing is nearest to more than infinity. -/
theorem nearestMagnitude_le (num den : Nat) : nearestMagnitude num den ≤ infinityMagnitude := by
  rw [nearestMagnitude]
  split
  · exact Nat.zero_le _
  · exact Nat.min_le_right _ _

/-- **Of two naturals the greater one has no smaller magnitude.** -/
theorem nearestMagnitude_mono {m n : Nat} (h : m ≤ n) :
    nearestMagnitude m 1 ≤ nearestMagnitude n 1 := by
  rcases Nat.eq_zero_or_pos m with rfl | positive
  · exact Nat.zero_le _
  have hm : m ≠ 0 := Nat.ne_of_gt positive
  have hn : n ≠ 0 := Nat.ne_of_gt (Nat.lt_of_lt_of_le positive h)
  have hlog : m.log2 ≤ n.log2 := (Nat.le_log2 hn).2 (Nat.le_trans (Nat.log2_self_le hm) h)
  have hle : (m.log2 + 1022) * 2 ^ 52 + roundedSignificand m
      ≤ (n.log2 + 1022) * 2 ^ 52 + roundedSignificand n := by
    rcases Nat.eq_or_lt_of_le hlog with heq | hlt
    · have hsignificand : roundedSignificand m ≤ roundedSignificand n := by
        rw [roundedSignificand, roundedSignificand, heq]
        exact roundHalfEven_mono _ (Nat.mul_le_mul_right _ h)
      rw [heq]
      omega
    · -- the next order of magnitude begins where the last significand ends
      have hup := roundedSignificand_le m
      have hdown := le_roundedSignificand hn
      omega
  rw [nearestMagnitude_one hm, nearestMagnitude_one hn]
  omega

/-- Naturals up to `2 ^ 53` differ in their magnitude. -/
theorem nearestMagnitude_lt_of_lt {m n : Nat} (h : m < n) (exact : n ≤ 2 ^ 53) :
    nearestMagnitude m 1 < nearestMagnitude n 1 := by
  have hn : n ≠ 0 := Nat.ne_of_gt (Nat.lt_of_le_of_lt (Nat.zero_le m) h)
  have hlogn : n.log2 ≤ 53 := by
    have hlast : n.log2 < 54 := (Nat.log2_lt hn).2 (by omega)
    omega
  have hnhigh := le_roundedSignificand hn
  have hntop := roundedSignificand_le n
  rcases Nat.eq_zero_or_pos m with rfl | positive
  · rw [nearestMagnitude_zero, nearestMagnitude_one hn, infinityMagnitude]
    omega
  have hm : m ≠ 0 := Nat.ne_of_gt positive
  have hlogm : m.log2 ≤ 52 := by
    have hlast : m.log2 < 53 := (Nat.log2_lt hm).2 (by omega)
    omega
  have hlog : m.log2 ≤ n.log2 :=
    (Nat.le_log2 hn).2 (Nat.le_trans (Nat.log2_self_le hm) (Nat.le_of_lt h))
  have hlt : (m.log2 + 1022) * 2 ^ 52 + roundedSignificand m
      < (n.log2 + 1022) * 2 ^ 52 + roundedSignificand n := by
    rcases Nat.eq_or_lt_of_le hlog with heq | hlt
    · have hsignificand : roundedSignificand m < roundedSignificand n := by
        rw [roundedSignificand_eq hlogm, roundedSignificand_eq (heq ▸ hlogm), heq]
        exact Nat.mul_lt_mul_of_pos_right h (Nat.two_pow_pos _)
      rw [heq]
      omega
    · have hup : roundedSignificand m < 2 ^ 53 := by
        have hshift := mul_two_pow_lt m
        rw [Nat.sub_eq_zero_of_le hlogm, Nat.pow_zero, Nat.mul_one] at hshift
        rwa [roundedSignificand_eq hlogm]
      omega
  rw [nearestMagnitude_one hm, nearestMagnitude_one hn, infinityMagnitude]
  omega

/-! ### The place of an integer -/

theorem magnitude_ofMagnitude (negative : Bool) {magnitude : Nat} (h : magnitude < 2 ^ 63) :
    (ofMagnitude negative magnitude).magnitude = magnitude := by
  rw [Double.magnitude, ofMagnitude, UInt64.toNat_ofNat']
  split <;> omega

theorem isNegative_ofMagnitude (negative : Bool) {magnitude : Nat} (h : magnitude < 2 ^ 63) :
    (ofMagnitude negative magnitude).isNegative = negative := by
  rw [isNegative, ofMagnitude, UInt64.toNat_ofNat']
  rcases negative <;> simp <;> omega

/-- The place of the double nearest to an integer. -/
def integerRank (n : Int) : Int :=
  if n < 0 then -(nearestMagnitude n.natAbs 1 : Int) else nearestMagnitude n.natAbs 1

/-- **An integer has a place among the doubles.** -/
theorem rank?_ofInt (n : Int) : (ofInt n).rank? = some (integerRank n) := by
  have hle := nearestMagnitude_le n.natAbs 1
  have hlt : nearestMagnitude n.natAbs 1 < 2 ^ 63 := by
    rw [infinityMagnitude] at hle
    omega
  have hnumber : (ofInt n).isNaN = false := by
    rw [isNaN, ofInt, magnitude_ofMagnitude _ hlt]
    exact decide_eq_false (Nat.not_lt.2 hle)
  rw [rank?, hnumber, if_neg Bool.false_ne_true, ofInt, magnitude_ofMagnitude _ hlt,
    isNegative_ofMagnitude _ hlt, integerRank]
  simp only [decide_eq_true_eq]

/-- **The places of integers are in the order of the integers.** -/
theorem integerRank_mono {m n : Int} (h : m ≤ n) : integerRank m ≤ integerRank n := by
  rw [integerRank, integerRank]
  split <;> split
  · have hmono : nearestMagnitude n.natAbs 1 ≤ nearestMagnitude m.natAbs 1 :=
      nearestMagnitude_mono (by omega)
    omega
  · omega
  · omega
  · have hmono : nearestMagnitude m.natAbs 1 ≤ nearestMagnitude n.natAbs 1 :=
      nearestMagnitude_mono (by omega)
    omega

/-- Whether an integer has a double of its own. Beyond `2 ^ 53` some integers do,
but not all. -/
def IsExact (n : Int) : Prop := n.natAbs ≤ 2 ^ 53

/-- **Integers up to `2 ^ 53` have places of their own.** -/
theorem integerRank_lt_of_lt {m n : Int} (hm : IsExact m) (hn : IsExact n) (h : m < n) :
    integerRank m < integerRank n := by
  rw [IsExact] at hm hn
  rw [integerRank, integerRank]
  split <;> split
  · have hlt : nearestMagnitude n.natAbs 1 < nearestMagnitude m.natAbs 1 :=
      nearestMagnitude_lt_of_lt (by omega) hm
    omega
  · have hlt : nearestMagnitude 0 1 < nearestMagnitude m.natAbs 1 :=
      nearestMagnitude_lt_of_lt (by omega) hm
    omega
  · omega
  · have hlt : nearestMagnitude m.natAbs 1 < nearestMagnitude n.natAbs 1 :=
      nearestMagnitude_lt_of_lt (by omega) hn
    omega

example : integerRank (2 ^ 53) = integerRank (2 ^ 53 + 1) := by decide +kernel

end Double

end RecordStore
