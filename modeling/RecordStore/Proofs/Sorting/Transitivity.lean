import RecordStore.Proofs.Double.Nearest
import RecordStore.Proofs.Sorting.Compare

/-!
# Where the order of sorts is transitive

The order of sorts compares two integers exactly, and an integer with a double by
the double nearest to the integer. Two integers that share their nearest double
are told apart, but neither of them from the double; and a NaN is not told apart
from any number. So a double may lie beside two numbers that are in the wrong
order around it: it blurs them (`RecordStore.Value.Blurs`).

This is the only way in which transitivity fails
(`RecordStore.Value.not_trans_iff_blurs`): the order is a total preorder exactly
on the collections of values in which no double blurs two others
(`RecordStore.Value.totalPreorderOn_iff`). Values without a NaN whose integers
reach no further than `2 ^ 53` are of this kind
(`RecordStore.Value.totalPreorderOn_of_exact`).
-/

namespace RecordStore

namespace Double

/-- Only what is not a number has no place among the doubles. -/
theorem rank?_eq_none_iff {d : Double} : d.rank? = none ↔ d.isNaN = true := by
  rw [rank?]
  split <;> simp [*]

theorem equals_iff {d e : Double} {i j : Int} (hd : d.rank? = some i) (he : e.rank? = some j) :
    d.equals e = true ↔ i = j := by
  rw [equals, compare?, hd, he, beq_iff_eq]
  exact Option.some_inj.trans Int.compare_eq_eq

end Double

namespace Value

/-! ### Numbers as doubles -/

/-- The integer that a value is, if it is one. -/
def integer? : Value → Option Int
  | int32 n => some n.toInt
  | int64 n => some n.toInt
  | _ => none

/-- The double as which a number is compared with doubles. -/
def nearest : Value → Double
  | double d => d
  | value => .ofInt (value.integer?.getD 0)

/-- **A double blurs two numbers**, of which the first is the greater one, and ties
with both. -/
inductive Blurs : Value → Value → Value → Prop
  /-- A NaN ties with every number. -/
  | nan {d : Double} {a c : Value} (undefined : d.isNaN = true) (first : a.rank = 1)
      (second : c.rank = 1) (greater : a.sortCompare c = .gt) : Blurs (double d) a c
  /-- A double ties with every integer to which it is nearest. -/
  | rounded {d : Double} {a c : Value} {m n : Int} (first : a.integer? = some m)
      (second : c.integer? = some n) (greater : n < m) (above : d.equals (.ofInt m) = true)
      (below : d.equals (.ofInt n) = true) : Blurs (double d) a c

variable {a b c : Value} {m n i j : Int}

/-- A number is an integer or a double. -/
theorem integer_or_double (h : a.rank = 1) : (∃ n, a.integer? = some n) ∨ ∃ d, a = double d := by
  cases a <;> cases h
  · exact .inl ⟨_, rfl⟩
  · exact .inl ⟨_, rfl⟩
  · exact .inr ⟨_, rfl⟩

theorem rank_of_integer? (h : a.integer? = some n) : a.rank = 1 := by
  cases a <;> cases h <;> rfl

theorem rank?_nearest (h : a.integer? = some n) :
    a.nearest.rank? = some (Double.integerRank n) := by
  rw [← Double.rank?_ofInt]
  cases a <;> cases h <;> rfl

/-- Two integers of either width compare as the numbers they are. -/
theorem sortCompare_of_integers (ha : a.integer? = some m) (hb : b.integer? = some n) :
    a.sortCompare b = compare m n := by
  cases a <;> cases ha <;> cases b <;> cases hb <;> rfl

/-- As soon as one of two numbers is a double both are compared as doubles. -/
theorem sortCompare_of_doubles (ha : a.rank = 1) (hb : b.rank = 1)
    (h : a.integer? = none ∨ b.integer? = none) :
    a.sortCompare b = (a.nearest.compare? b.nearest).getD .eq := by
  cases a <;> cases ha <;> cases b <;> cases hb <;>
    first
    | rfl
    | exact absurd h (by simp [integer?])

/-- A NaN ties with every number. -/
theorem sortCompare_of_isNaN {d : Double} (hd : d.isNaN = true) (ha : a.rank = 1) :
    (double d).sortCompare a = .eq := by
  rw [sortCompare_of_doubles rfl ha (.inl rfl), nearest, Double.compare?,
    Double.rank?_eq_none_iff.2 hd]
  rfl

/-- A double ties with every integer to which it is nearest. -/
theorem sortCompare_of_equals {d : Double} (ha : a.integer? = some m)
    (hd : d.equals (.ofInt m) = true) : (double d).sortCompare a = .eq := by
  have hnearest : a.nearest = .ofInt m := by
    cases a <;> cases ha <;> rfl
  rw [Double.equals, beq_iff_eq] at hd
  rw [sortCompare_of_doubles rfl (rank_of_integer? ha) (.inl rfl), hnearest, nearest, hd]
  rfl

/-! ### What stands before what -/

/-- What does not come after a value has no greater rank. -/
theorem rank_le_of_isLE (h : (a.sortCompare b).isLE) : a.rank ≤ b.rank := by
  refine Nat.le_of_not_lt fun hlt => ?_
  rw [sortCompare, Nat.compare_eq_gt.2 hlt] at h
  exact Bool.false_ne_true h

theorem rank_le_of_gt (h : a.sortCompare b = .gt) : b.rank ≤ a.rank := by
  refine rank_le_of_isLE ?_
  rw [sortCompare_swap, h]
  rfl

/-- **Among values of one type, numbers apart, nothing goes wrong.** -/
theorem isLE_trans_of_rank_ne_one (hb : b.rank = a.rank) (hc : c.rank = a.rank) (h : a.rank ≠ 1)
    (hab : (a.sortCompare b).isLE) (hbc : (b.sortCompare c).isLE) : (a.sortCompare c).isLE := by
  cases a <;> cases b <;> cases hb <;> cases c <;> cases hc
  case bool.bool.refl.bool.refl x y z =>
    have htrans : (compare x y).isLE → (compare y z).isLE → (compare x z).isLE :=
      Std.TransCmp.isLE_trans
    exact htrans hab hbc
  case string.string.refl.string.refl x y z =>
    have htrans : (compare x y).isLE → (compare y z).isLE → (compare x z).isLE :=
      Std.TransCmp.isLE_trans
    exact htrans hab hbc
  case date.date.refl.date.refl x y z =>
    have htrans : (compare x.millis.toInt y.millis.toInt).isLE →
        (compare y.millis.toInt z.millis.toInt).isLE →
        (compare x.millis.toInt z.millis.toInt).isLE := Std.TransCmp.isLE_trans
    exact htrans hab hbc
  case objectId.objectId.refl.objectId.refl x y z =>
    have htrans : (compare x.val y.val).isLE → (compare y.val z.val).isLE →
        (compare x.val z.val).isLE := Std.TransCmp.isLE_trans
    exact htrans hab hbc
  -- the others are numbers, or have no order and tie
  all_goals first | rfl | exact absurd rfl h

/-- Numbers are never in the wrong order of their places. -/
theorem le_of_isLE (ha : a.rank = 1) (hb : b.rank = 1) (hi : a.nearest.rank? = some i)
    (hj : b.nearest.rank? = some j) (h : (a.sortCompare b).isLE) : i ≤ j := by
  by_cases hdouble : a.integer? = none ∨ b.integer? = none
  · rw [sortCompare_of_doubles ha hb hdouble, Double.compare?, hi, hj] at h
    exact Int.isLE_compare.1 h
  · obtain ⟨hna, hnb⟩ := not_or.1 hdouble
    obtain ⟨m, hm⟩ := Option.ne_none_iff_exists'.1 hna
    obtain ⟨n, hn⟩ := Option.ne_none_iff_exists'.1 hnb
    rw [sortCompare_of_integers hm hn] at h
    have hrank := Double.integerRank_mono (Int.isLE_compare.1 h)
    rwa [← Option.some.inj ((rank?_nearest hm).symm.trans hi),
      ← Option.some.inj ((rank?_nearest hn).symm.trans hj)]

/-- Numbers of which the first is greater have places, and in the order of the
numbers, unless they are integers. -/
theorem exists_places_of_gt (ha : a.rank = 1) (hb : b.rank = 1) (h : a.sortCompare b = .gt) :
    (∃ i j, a.nearest.rank? = some i ∧ b.nearest.rank? = some j ∧ j < i) ∨
      ∃ m n, a.integer? = some m ∧ b.integer? = some n ∧ n < m := by
  by_cases hdouble : a.integer? = none ∨ b.integer? = none
  · left
    rw [sortCompare_of_doubles ha hb hdouble, Double.compare?] at h
    rcases hi : a.nearest.rank? with _ | i
    · rw [hi] at h
      cases h
    rcases hj : b.nearest.rank? with _ | j
    · rw [hi, hj] at h
      cases h
    rw [hi, hj] at h
    exact ⟨i, j, rfl, rfl, Int.compare_eq_gt.1 h⟩
  · right
    obtain ⟨hna, hnb⟩ := not_or.1 hdouble
    obtain ⟨m, hm⟩ := Option.ne_none_iff_exists'.1 hna
    obtain ⟨n, hn⟩ := Option.ne_none_iff_exists'.1 hnb
    rw [sortCompare_of_integers hm hn] at h
    exact ⟨m, n, hm, hn, Int.compare_eq_gt.1 h⟩

/-! ### Where transitivity fails -/

/-- **A value between two numbers in the wrong order blurs them.** -/
theorem blurs_of_gt (hab : (a.sortCompare b).isLE) (hbc : (b.sortCompare c).isLE)
    (hac : a.sortCompare c = .gt) : Blurs b a c := by
  have hrank := rank_le_of_isLE hab
  have hrank' := rank_le_of_isLE hbc
  have hturn := rank_le_of_gt hac
  have heqb : b.rank = a.rank := by omega
  have heqc : c.rank = a.rank := by omega
  have hnumber : a.rank = 1 := by
    refine Decidable.not_not.1 fun hother => ?_
    have hle := isLE_trans_of_rank_ne_one heqb heqc hother hab hbc
    rw [hac] at hle
    exact Bool.false_ne_true hle
  have hb : b.rank = 1 := heqb.trans hnumber
  have hc : c.rank = 1 := heqc.trans hnumber
  rcases hplace : b.nearest.rank? with _ | p
  · -- only a NaN has no place
    rcases integer_or_double hb with ⟨k, hk⟩ | ⟨d, rfl⟩
    · rw [rank?_nearest hk] at hplace
      cases hplace
    · exact .nan (Double.rank?_eq_none_iff.1 hplace) hnumber hc hac
  rcases exists_places_of_gt hnumber hc hac with ⟨i, j, hi, hj, hlt⟩ | ⟨m, n, hm, hn, hlt⟩
  · have hip := le_of_isLE hnumber hb hi hplace hab
    have hpj := le_of_isLE hb hc hplace hj hbc
    omega
  · have hip := le_of_isLE hnumber hb (rank?_nearest hm) hplace hab
    have hpj := le_of_isLE hb hc hplace (rank?_nearest hn) hbc
    have hmono := Double.integerRank_mono (Int.le_of_lt hlt)
    rcases integer_or_double hb with ⟨k, hk⟩ | ⟨d, rfl⟩
    · -- integers are compared exactly
      rw [sortCompare_of_integers hm hk, Int.isLE_compare] at hab
      rw [sortCompare_of_integers hk hn, Int.isLE_compare] at hbc
      omega
    · have habove : p = Double.integerRank m := by omega
      have hbelow : p = Double.integerRank n := by omega
      exact .rounded hm hn hlt ((Double.equals_iff hplace (Double.rank?_ofInt m)).2 habove)
        ((Double.equals_iff hplace (Double.rank?_ofInt n)).2 hbelow)

theorem Blurs.ties (h : Blurs b a c) : b.sortCompare a = .eq ∧ b.sortCompare c = .eq := by
  cases h with
  | nan undefined first second _ =>
    exact ⟨sortCompare_of_isNaN undefined first, sortCompare_of_isNaN undefined second⟩
  | rounded first second _ above below =>
    exact ⟨sortCompare_of_equals first above, sortCompare_of_equals second below⟩

theorem Blurs.gt (h : Blurs b a c) : a.sortCompare c = .gt := by
  cases h with
  | nan _ _ _ greater => exact greater
  | rounded first second greater _ _ =>
    rw [sortCompare_of_integers first second]
    exact Int.compare_eq_gt.2 greater

/-- **Transitivity fails exactly around a double that blurs two numbers.** -/
theorem not_trans_iff_blurs :
    (a.sortCompare b).isLE ∧ (b.sortCompare c).isLE ∧ ¬(a.sortCompare c).isLE ↔ Blurs b a c := by
  constructor
  · rintro ⟨hab, hbc, hac⟩
    refine blurs_of_gt hab hbc ?_
    rw [Ordering.isLE_iff_ne_gt] at hac
    exact Decidable.not_not.1 hac
  · intro h
    rw [sortCompare_swap a b, h.ties.1, h.ties.2, h.gt]
    exact ⟨rfl, rfl, Bool.false_ne_true⟩

/-- **The order of sorts is a total preorder** on values among which no double blurs
two others, and only there. -/
theorem totalPreorderOn_iff {values : List Value} :
    TotalPreorderOn values ↔
      ∀ a ∈ values, ∀ b ∈ values, ∀ c ∈ values, ¬Blurs b a c := by
  constructor
  · intro h a ha b hb c hc hblurs
    obtain ⟨hab, hbc, hac⟩ := not_trans_iff_blurs.2 hblurs
    exact hac (h.trans a ha b hb c hc hab hbc)
  · intro h
    refine .of_trans fun a ha b hb c hc hab hbc => ?_
    refine Decidable.not_not.1 fun hac => ?_
    exact h a ha b hb c hc (not_trans_iff_blurs.1 ⟨hab, hbc, hac⟩)

/-- Whether a value is compared exactly with every other one: it is no NaN, and no
integer beyond those that have doubles of their own. -/
structure IsExact (value : Value) : Prop where
  number : ∀ d, value = double d → d.isNaN = false
  integer : ∀ n, value.integer? = some n → Double.IsExact n

/-- **The order of sorts is a total preorder on exact values.** -/
theorem totalPreorderOn_of_exact {values : List Value} (h : ∀ value ∈ values, value.IsExact) :
    TotalPreorderOn values := by
  refine totalPreorderOn_iff.2 fun a ha b hb c hc hblurs => ?_
  cases hblurs with
  | @nan d _ _ undefined _ _ _ =>
    rw [(h _ hb).number d rfl] at undefined
    exact Bool.false_ne_true undefined
  | @rounded d _ _ m n first second greater above below =>
    have hlt := Double.integerRank_lt_of_lt ((h c hc).integer n second) ((h a ha).integer m first)
      greater
    rcases hplace : d.rank? with _ | p
    · rw [Double.equals, Double.compare?, hplace] at above
      cases above
    have habove := (Double.equals_iff hplace (Double.rank?_ofInt m)).1 above
    have hbelow := (Double.equals_iff hplace (Double.rank?_ofInt n)).1 below
    omega

/-- **What the order of sorts is, and is not**: it ties every value with itself,
comparing two values the other way round turns the result round, and it is
transitive but for numbers that a double between them blurs. -/
theorem sortCompare_laws (a b c : Value) :
    a.sortCompare a = .eq ∧
    b.sortCompare a = (a.sortCompare b).swap ∧
    ((a.sortCompare b).isLE ∧ (b.sortCompare c).isLE ∧ ¬(a.sortCompare c).isLE ↔
      Blurs b a c) :=
  ⟨sortCompare_self a, sortCompare_swap b a, not_trans_iff_blurs⟩

/-- Beyond `2 ^ 53` an integer is no greater than a double which is no greater than
the integer before it. -/
theorem not_trans_beyond_doubles :
    ((int64 9007199254740993).sortCompare (double (.ofInt 9007199254740992))).isLE ∧
      ((double (.ofInt 9007199254740992)).sortCompare (int64 9007199254740992)).isLE ∧
      ¬((int64 9007199254740993).sortCompare (int64 9007199254740992)).isLE := by
  have hblurs : Blurs (double (.ofInt 9007199254740992)) (int64 9007199254740993)
      (int64 9007199254740992) :=
    .rounded rfl rfl (by decide) (by decide +kernel) (by decide +kernel)
  exact (sortCompare_laws _ _ _).2.2.2 hblurs

end Value

end RecordStore
