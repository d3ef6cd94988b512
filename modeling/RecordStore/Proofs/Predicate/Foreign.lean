import RecordStore.Proofs.Filter.Conjunction
import RecordStore.Proofs.Predicate.Selection

/-!
# Clauses with operands of foreign types

A clause compares its operands with the value of a field or, when that is an
array, also with its members. If every operand is foreign to all of these – of a
type that none of them has – there is nothing to compare, and the clause should
not be met.

Comparing does not see types, though, but ranks, and null shares its rank with
the special kinds, which are all read as null. A rank has no other type to
share, so an operand equals a value of a foreign type exactly when both are read
as null (`RecordStore.Value.equivalent_iff_of_type_ne`), and is never ordered
with one (`RecordStore.Value.compare?_eq_none_of_type_ne`). Of the clauses with
foreign operands these are thus met, and no others
(`RecordStore.Clause.holds_iff_of_foreign`):

* those that *conflate* null with a special kind, or two special kinds
  (`RecordStore.Clause.Conflates`);
* those with a range that has neither bound, and so no operand that could be
  foreign (`RecordStore.Clause.Unbounded`).
-/

namespace RecordStore

/-- The types of values. Numbers are of one type, whatever their encoding. -/
inductive ValueType where
  | null
  | boolean
  | number
  | string
  | date
  | objectId
  | array
  | document
  /-- Every special kind is a type of its own. -/
  | special (kind : Kind)
  deriving DecidableEq

/-- The rank of the values of a type. -/
def ValueType.rank : ValueType → Nat
  | null | special _ => 0
  | number => 1
  | string => 2
  | document => 3
  | array => 4
  | objectId => 5
  | boolean => 6
  | date => 7

/-- Only null and the special kinds share a rank. -/
theorem ValueType.eq_of_rank_eq {s t : ValueType} (h : s.rank = t.rank) (hne : s.rank ≠ 0) :
    s = t := by
  cases s with
  | null => exact absurd rfl hne
  | special kind => exact absurd rfl hne
  | _ => cases t <;> first | rfl | cases h

/-- The rank of the values that are read as a scalar. -/
def Scalar.rank : Scalar → Nat
  | null => 0
  | integer _ | real _ => 1
  | string _ => 2
  | objectId _ => 5
  | bool _ => 6
  | date _ => 7

theorem Scalar.rank_eq_of_equivalent {x y : Scalar} (h : x.equivalent y = true) :
    x.rank = y.rank := by
  cases x <;> cases y <;> first | rfl | cases h

/-- Null is not ordered, not even with itself. -/
theorem Scalar.rank_eq_of_compare? {x y : Scalar} {order : Ordering}
    (h : x.compare? y = some order) : x.rank = y.rank ∧ x.rank ≠ 0 := by
  cases x <;> cases y <;> first | exact ⟨rfl, Nat.succ_ne_zero _⟩ | cases h

namespace Value

/-- The type of a value. -/
def type : Value → ValueType
  | null => .null
  | bool _ => .boolean
  | string _ => .string
  | int32 _ | int64 _ | double _ => .number
  | date _ => .date
  | objectId _ => .objectId
  | array _ => .array
  | document _ => .document
  | special s => .special s.kind
  | codeWithScope _ _ => .special .javaScriptCodeWithScope

theorem rank_type (a : Value) : a.type.rank = a.rank := by
  cases a <;> rfl

theorem rank_scalar {a : Value} {x : Scalar} (h : a.scalar? = some x) : x.rank = a.rank := by
  cases a <;> cases h <;> rfl

/-- Whether comparing takes a value for null: it is null, or of a special kind. -/
def readsAsNull (a : Value) : Bool :=
  a.scalar? = some .null

/-- The values of the lowest rank are those read as null. -/
theorem rank_eq_zero_iff {a : Value} : a.rank = 0 ↔ a.readsAsNull = true := by
  cases a <;> simp [rank, readsAsNull, scalar?]

variable {a b : Value}

/-! ### Comparing values of different types -/

/-- Equal values have one rank. -/
theorem rank_eq_of_equivalent (h : a.equivalent b = true) : a.rank = b.rank := by
  unfold equivalent alike at h
  split at h
  · rfl
  · rfl
  · rfl
  · unfold equivalentScalars at h
    split at h
    · rename_i x y hx hy
      rw [← rank_scalar hx, ← rank_scalar hy]
      exact Scalar.rank_eq_of_equivalent h
    · cases h

/-- Values that are ordered have one rank, and it is not that of null. -/
theorem rank_eq_of_compare? {order : Ordering} (h : a.compare? b = some order) :
    a.rank = b.rank ∧ a.rank ≠ 0 := by
  obtain ⟨x, hx, hrest⟩ := Option.bind_eq_some_iff.1 h
  obtain ⟨y, hy, hxy⟩ := Option.bind_eq_some_iff.1 hrest
  rw [← rank_scalar hx, ← rank_scalar hy]
  exact Scalar.rank_eq_of_compare? hxy

/-- All values that are read as null are equal. -/
theorem equivalent_of_readsAsNull (ha : a.readsAsNull = true) (hb : b.readsAsNull = true) :
    a.equivalent b = true := by
  have hx : a.scalar? = some .null := of_decide_eq_true ha
  have hy : b.scalar? = some .null := of_decide_eq_true hb
  rw [equivalent_eq_of_scalar? hx, equivalentScalars, hx, hy]
  rfl

/-- Values of different types share a rank only if it is that of null. -/
theorem rank_eq_zero_of_type_ne (h : a.type ≠ b.type) (hrank : a.rank = b.rank) : a.rank = 0 := by
  by_contra hne
  refine h (ValueType.eq_of_rank_eq ?_ ?_)
  · rw [rank_type, rank_type, hrank]
  · rwa [rank_type]

/-- **Values of different types are equal exactly when both are read as null.** -/
theorem equivalent_iff_of_type_ne (h : a.type ≠ b.type) :
    a.equivalent b = true ↔ a.readsAsNull = true ∧ b.readsAsNull = true := by
  constructor
  · intro hequivalent
    have hrank := rank_eq_of_equivalent hequivalent
    have hzero := rank_eq_zero_of_type_ne h hrank
    exact ⟨rank_eq_zero_iff.1 hzero, rank_eq_zero_iff.1 (hrank ▸ hzero)⟩
  · rintro ⟨ha, hb⟩
    exact equivalent_of_readsAsNull ha hb

/-- **Values of different types are not ordered.** -/
theorem compare?_eq_none_of_type_ne (h : a.type ≠ b.type) : a.compare? b = none := by
  rw [Option.eq_none_iff_forall_ne_some]
  intro order horder
  obtain ⟨hrank, hne⟩ := rank_eq_of_compare? horder
  exact hne (rank_eq_zero_of_type_ne h hrank)

end Value

/-! ### Operands -/

namespace Bounds

/-- The bounds that there are. -/
def operands (bounds : Bounds) : List Value :=
  bounds.atLeast.toList ++ bounds.atMost.toList

/-- **Bounds of foreign types hold of a value only if there are none.** -/
theorem hold_iff_of_foreign {bounds : Bounds} {item : Value}
    (foreign : ∀ operand ∈ bounds.operands, operand.type ≠ item.type) :
    bounds.hold item = true ↔ bounds.operands = [] := by
  obtain ⟨atLeast, atMost⟩ := bounds
  have hleast : atLeastHolds ⟨atLeast, atMost⟩ item = true ↔ atLeast = none := by
    rcases atLeast with _ | bound
    · exact iff_of_true rfl rfl
    · have hnone : item.compare? bound = none :=
        Value.compare?_eq_none_of_type_ne (Ne.symm (foreign bound (by simp [operands])))
      simp [atLeastHolds, hnone]
  have hmost : atMostHolds ⟨atLeast, atMost⟩ item = true ↔ atMost = none := by
    rcases atMost with _ | bound
    · exact iff_of_true rfl rfl
    · have hnone : item.compare? bound = none :=
        Value.compare?_eq_none_of_type_ne (Ne.symm (foreign bound (by simp [operands])))
      simp [atMostHolds, hnone]
  rw [hold, Bool.and_eq_true, hleast, hmost, operands, List.append_eq_nil_iff,
    Option.toList_eq_nil_iff, Option.toList_eq_nil_iff]

end Bounds

namespace Clause

/-- The values one of which a clause wants a field to equal. -/
def expected : Clause → List Value
  | equals value => [value]
  | among values => values
  | _ => []

/-- The bounds one of which a clause wants a field to meet. -/
def ranges : Clause → List Bounds
  | within bounds => [bounds]
  | withinAny alternatives => alternatives
  | _ => []

/-- The values that a clause compares with, bounds of ranges included. -/
def operands (clause : Clause) : List Value :=
  clause.expected ++ clause.ranges.flatMap Bounds.operands

/-- Whether every operand of a clause is of a type that neither a value nor, for
an array, any of its members has. -/
def Foreign (clause : Clause) (value : Value) : Prop :=
  ∀ operand ∈ clause.operands, ∀ item ∈ QueryDocument.candidates value, operand.type ≠ item.type

/-- Whether a clause expects something that is read as null, and so is the value
or a member of it. -/
def Conflates (clause : Clause) (value : Value) : Prop :=
  (∃ operand ∈ clause.expected, operand.readsAsNull = true) ∧
    ∃ item ∈ QueryDocument.candidates value, item.readsAsNull = true

/-- Whether a clause has a range without bounds. -/
def Unbounded (clause : Clause) : Prop :=
  ∃ bounds ∈ clause.ranges, bounds.operands = []

instance (clause : Clause) (value : Value) : Decidable (clause.Foreign value) :=
  inferInstanceAs (Decidable (∀ operand ∈ clause.operands, _))

/-! ### Clauses with foreign operands -/

variable {clause : Clause} {value : Value}

theorem Foreign.expected (foreign : clause.Foreign value) :
    ∀ operand ∈ clause.expected, ∀ item ∈ QueryDocument.candidates value,
      operand.type ≠ item.type :=
  fun operand hoperand => foreign operand (List.mem_append_left _ hoperand)

theorem Foreign.ranges (foreign : clause.Foreign value) :
    ∀ bounds ∈ clause.ranges, ∀ operand ∈ bounds.operands,
      ∀ item ∈ QueryDocument.candidates value, operand.type ≠ item.type :=
  fun bounds hbounds operand hoperand =>
    foreign operand (List.mem_append_right _ (List.mem_flatMap.2 ⟨bounds, hbounds, hoperand⟩))

theorem anyItem_iff {test : Value → Bool} :
    value.anyItem test = true ↔ ∃ item ∈ QueryDocument.candidates value, test item = true := by
  rw [← QueryDocument.any_candidates, List.any_eq_true]

/-- There is always a value to meet a clause. -/
theorem exists_mem_candidates (value : Value) : ∃ item, item ∈ QueryDocument.candidates value := by
  cases value <;> exact ⟨_, List.mem_cons_self⟩

/-- A range with foreign bounds holds of some item only if it has no bound at all. -/
theorem anyItem_hold_iff {bounds : Bounds}
    (foreign : ∀ operand ∈ bounds.operands, ∀ item ∈ QueryDocument.candidates value,
      operand.type ≠ item.type) :
    value.anyItem bounds.hold = true ↔ bounds.operands = [] := by
  have hitem : ∀ item ∈ QueryDocument.candidates value,
      (bounds.hold item = true ↔ bounds.operands = []) := fun item hmem =>
    Bounds.hold_iff_of_foreign fun operand hoperand => foreign operand hoperand item hmem
  rw [anyItem_iff]
  constructor
  · rintro ⟨item, hmem, hhold⟩
    exact (hitem item hmem).1 hhold
  · intro hnone
    obtain ⟨item, hmem⟩ := exists_mem_candidates value
    exact ⟨item, hmem, (hitem item hmem).2 hnone⟩

/-- **A clause with foreign operands is met** only by conflating what is read as
null, or for want of bounds. -/
theorem holds_iff_of_foreign (foreign : clause.Foreign value) :
    clause.holds value = true ↔ clause.Conflates value ∨ clause.Unbounded := by
  have hexpected := foreign.expected
  have hranges := foreign.ranges
  cases clause with
  | equals expected =>
    have hitem : ∀ item ∈ QueryDocument.candidates value, (item.equivalent expected = true ↔
        item.readsAsNull = true ∧ expected.readsAsNull = true) := fun item hmem =>
      Value.equivalent_iff_of_type_ne
        (Ne.symm (hexpected expected (List.mem_singleton_self _) item hmem))
    rw [holds, anyItem_iff]
    constructor
    · rintro ⟨item, hmem, hequal⟩
      obtain ⟨hnull, hnull'⟩ := (hitem item hmem).1 hequal
      exact .inl ⟨⟨expected, List.mem_singleton_self _, hnull'⟩, item, hmem, hnull⟩
    · rintro (⟨⟨operand, hoperand, hnull'⟩, item, hmem, hnull⟩ | ⟨bounds, hbounds, -⟩)
      · rw [List.mem_singleton.1 hoperand] at hnull'
        exact ⟨item, hmem, (hitem item hmem).2 ⟨hnull, hnull'⟩⟩
      · cases hbounds
  | among expected =>
    rw [holds, anyItem_iff]
    constructor
    · rintro ⟨item, hmem, hany⟩
      obtain ⟨operand, hoperand, hequal⟩ := List.any_eq_true.1 hany
      obtain ⟨hnull', hnull⟩ :=
        (Value.equivalent_iff_of_type_ne (hexpected operand hoperand item hmem)).1 hequal
      exact .inl ⟨⟨operand, hoperand, hnull'⟩, item, hmem, hnull⟩
    · rintro (⟨⟨operand, hoperand, hnull'⟩, item, hmem, hnull⟩ | ⟨bounds, hbounds, -⟩)
      · exact ⟨item, hmem, List.any_eq_true.2
          ⟨operand, hoperand, Value.equivalent_of_readsAsNull hnull' hnull⟩⟩
      · cases hbounds
  | within bounds =>
    rw [holds, anyItem_hold_iff (hranges bounds (List.mem_singleton_self _))]
    constructor
    · intro hnone
      exact .inr ⟨bounds, List.mem_singleton_self _, hnone⟩
    · rintro (⟨⟨operand, hoperand, -⟩, -⟩ | ⟨other, hother, hnone⟩)
      · cases hoperand
      · rwa [List.mem_singleton.1 hother] at hnone
  | withinAny alternatives =>
    rw [holds, List.any_eq_true]
    constructor
    · rintro ⟨bounds, hbounds, hhold⟩
      exact .inr ⟨bounds, hbounds, (anyItem_hold_iff (hranges bounds hbounds)).1 hhold⟩
    · rintro (⟨⟨operand, hoperand, -⟩, -⟩ | ⟨bounds, hbounds, hnone⟩)
      · cases hoperand
      · exact ⟨bounds, hbounds, (anyItem_hold_iff (hranges bounds hbounds)).2 hnone⟩

end Clause

/-! ### Predicates with foreign operands -/

namespace Predicate

/-- The predicate that has a single clause. -/
def alone (field : String) (clause : Clause) : Predicate :=
  empty.insert field clause

/-- A predicate of one clause asks that clause alone. -/
theorem holds_alone (record : Document) (field : String) (clause : Clause) :
    (alone field clause).holds record = clause.holds (record.read field) :=
  Bool.and_true _

/-- **A predicate with foreign operands** on a field does not match a record, unless
it conflates what is read as null or has a range without bounds; and if there is
no other clause, it does match then. -/
theorem holds_alone_iff_of_foreign {record : Document} {field : String} {clause : Clause}
    (foreign : clause.Foreign (record.read field)) :
    ((alone field clause).holds record = true ↔
        clause.Conflates (record.read field) ∨ clause.Unbounded) ∧
      ∀ predicate : Predicate, predicate.get? field = some clause →
        predicate.holds record = true →
          clause.Conflates (record.read field) ∨ clause.Unbounded := by
  constructor
  · rw [holds_alone]
    exact Clause.holds_iff_of_foreign foreign
  · intro predicate hclause hholds
    exact (Clause.holds_iff_of_foreign foreign).1 (holds_iff.1 hholds field clause hclause)

/-- A record whose tag is a point of a replication log. -/
def taggedByLog : Document :=
  [("tag", .special (.timestamp 1 2))]

/-- A point of a replication log is taken for a missing tag, although null is of
another type. -/
theorem holds_alone_null_of_special :
    (Clause.equals .null).Foreign (taggedByLog.read "tag") ∧
      (alone "tag" (.equals .null)).holds taggedByLog = true := by
  have foreign : (Clause.equals .null).Foreign (taggedByLog.read "tag") := by decide
  refine ⟨foreign, (holds_alone_iff_of_foreign foreign).1.2 (.inl ⟨?_, ?_⟩)⟩
  · exact ⟨.null, List.mem_singleton_self _, rfl⟩
  · exact ⟨taggedByLog.read "tag", List.mem_singleton_self _, rfl⟩

end Predicate

end RecordStore
