import RecordStore.Proofs.Filter.Conjunction
import RecordStore.Proofs.Value.Comparison

/-!
# The forms of a condition agree

A condition says what it asks in one of four forms, and some of what it can ask
has several: to equal one of several values is to equal the first, or the second,
and so on, and to lie between a value and itself is to equal it. Each form has a
branch of its own when a filter is lowered and another when a record is tested. One
compares the value of a field with the operand, the next the operand with the value
of the field, and the last asks for an order. That they come to the same rests on
equality being symmetric and on its being what the order calls equal
(`RecordStore.Value.equivalent_comm`, `RecordStore.Value.compare?_eq_some_eq_iff`).

A filter is compared with what becomes of it when a condition is put in the place of
another (`RecordStore.Filter.passes_require_mono`), so that its other conditions
do not matter, not even one on `_id` beside one on `id`: what counts there is
whether the condition on `id` asks anything, and all forms do
(`RecordStore.Filter.forms_agree`). An empty list asks nothing and is left out.
-/

namespace RecordStore

/-! ### The clauses of the forms -/

namespace Value

variable {value : Value}

/-- Lowering keeps values within the ordered types: a text may become an identifier, and nothing
else changes. -/
theorem type_lower_mem_ordered (h : value.type ∈ ValueType.ordered) (field : String) :
    (value.lower field).type ∈ ValueType.ordered := by
  cases value with
  | string text =>
    rw [lower]
    split
    · rcases ObjectId.ofText? text with _ | id
      · exact h
      · simp [type, ValueType.ordered]
    · exact h
  | _ => exact h

/-- A lowered value is the value itself or an identifier, so it is well formed. -/
theorem wellFormed_lower (h : value.WellFormed) (field : String) :
    (value.lower field).WellFormed := by
  cases value with
  | string text =>
    rw [lower]
    split
    · rcases ObjectId.ofText? text with _ | id <;> trivial
    · trivial
  | _ => exact h

end Value

/-- Bounds that are the same leave room for nothing but what compares as equal. -/
theorem Bounds.hold_self_iff {bound item : Value} :
    (Bounds.mk (some bound) (some bound)).hold item = true ↔ item.compare? bound = some .eq := by
  rw [hold, atLeastHolds, atMostHolds, Option.all_some, Option.all_some]
  rcases item.compare? bound with _ | order
  · simp
  · rcases order <;> simp

namespace Clause

variable {value : Value}

/-- The test for membership has its operands the other way around. -/
theorem holds_among_iff {wanted : List Value} (hvalue : value.WellFormed)
    (hwanted : ∀ member ∈ wanted, member.WellFormed) :
    (among wanted).holds value = true ↔ ∃ member ∈ wanted, (equals member).holds value = true := by
  simp only [holds, anyItem_iff, List.any_eq_true]
  constructor
  · rintro ⟨item, hitem, member, hmember, hequal⟩
    rw [Value.equivalent_comm (hwanted member hmember)
      (Value.wellFormed_of_mem_candidates hvalue hitem)] at hequal
    exact ⟨member, hmember, item, hitem, hequal⟩
  · rintro ⟨member, hmember, item, hitem, hequal⟩
    rw [Value.equivalent_comm (Value.wellFormed_of_mem_candidates hvalue hitem)
      (hwanted member hmember)] at hequal
    exact ⟨item, hitem, member, hmember, hequal⟩

/-- Alternatives hold when one of them does. -/
theorem holds_withinAny_iff {alternatives : List Bounds} :
    (withinAny alternatives).holds value = true ↔
      ∃ bounds ∈ alternatives, (within bounds).holds value = true := by
  rw [holds, List.any_eq_true]
  rfl

/-- **A range of one point asks for equality**, if the point is of an ordered type. -/
theorem holds_within_self_iff {bound : Value} (hvalue : value.WellFormed)
    (hbound : bound.WellFormed) (ordered : bound.type ∈ ValueType.ordered) :
    (within ⟨some bound, some bound⟩).holds value = true ↔ (equals bound).holds value = true := by
  rw [holds, holds, anyItem_iff, anyItem_iff]
  refine exists_congr fun item => and_congr_right fun hitem => ?_
  -- the type of the bound is known and that of the item is not, so the bound goes first
  rw [Bounds.hold_self_iff, Value.compare?_swap, Option.map_eq_some_iff,
    Value.equivalent_comm (Value.wellFormed_of_mem_candidates hvalue hitem) hbound,
    ← Value.compare?_eq_some_eq_iff ordered]
  constructor
  · rintro ⟨order, horder, hswap⟩
    rw [horder, ← Ordering.swap_swap (o := order), hswap]
    rfl
  · intro h
    exact ⟨.eq, h, rfl⟩

end Clause

/-! ### The clause that a condition is lowered to -/

/-- The bounds that a range puts on a field. -/
def Range.boundsOn (field : String) (range : Range Value) : Bounds :=
  ⟨range.start.map (Value.lower field), range.stop.map (Value.lower field)⟩

/-- A range can be lowered exactly when it has a bound, and to its lowered bounds. -/
theorem Range.lower_eq_ok_iff {range : Range Value} {field : String} {bounds : Bounds} :
    range.lower field = .ok bounds ↔ range.isBounded = true ∧ bounds = range.boundsOn field := by
  rw [lower]
  split
  · rename_i h
    simp [h, boundsOn, eq_comm]
  · rename_i h
    simp [h]

namespace Condition

variable {field : String}

theorem lower_oneOf {values : List Value} (h : values ≠ []) :
    (oneOf values).lower field = .ok (some (.among (values.map (Value.lower field)))) := by
  rw [lower, if_neg (by simpa using h)]

theorem lower_within {range : Range Value} (h : range.isBounded = true) :
    (within range).lower field = .ok (some (.within (range.boundsOn field))) := by
  rw [lower, Range.lower_eq_ok_iff.2 ⟨h, rfl⟩]
  rfl

/-- A list of bounded ranges is lowered to alternatives, one for each range. -/
theorem lower_withinAny {ranges : List (Range Value)} (h : ranges ≠ [])
    (bounded : ∀ range ∈ ranges, range.isBounded = true) :
    (withinAny ranges).lower field
      = .ok (some (.withinAny (ranges.map (Range.boundsOn field)))) := by
  have hranges : ranges.mapM (Range.lower field) = .ok (ranges.map (Range.boundsOn field)) := by
    rw [Outcome.mapM_eq_ok_iff, List.forall₂_map_right_iff, List.forall₂_same]
    exact fun range hrange => Range.lower_eq_ok_iff.2 ⟨bounded range hrange, rfl⟩
  rw [lower, if_neg (by simpa using h), hranges]
  rfl

/-- Only lists of bounded ranges can be lowered. -/
theorem isBounded_of_lower_withinAny {ranges : List (Range Value)} {clause : Option Clause}
    (h : (withinAny ranges).lower field = .ok clause) :
    ∀ range ∈ ranges, range.isBounded = true := by
  intro range hrange
  rw [lower, if_neg (by simpa using List.ne_nil_of_mem hrange)] at h
  obtain ⟨alternatives, halternatives, -⟩ := Outcome.bind_eq_ok_iff.1 h
  obtain ⟨bounds, hbounds⟩ :=
    Outcome.exists_ok_of_mem (Outcome.mapM_eq_ok_iff.1 halternatives) hrange
  exact (Range.lower_eq_ok_iff.1 hbounds).1

end Condition

namespace Filter

/-! ### A condition in the place of another -/

/-- Whether a filter is accepted and a record passes it. -/
def Passes (filter : Filter) (record : Document) : Prop :=
  ∃ predicate, filter.lower = .ok predicate ∧ predicate.holds record = true

variable {rest : Filter} {record : Document} {name : String}

/-- **What a filter that can be lowered lets pass**: records that meet it on every name but the
native identifier, and on this as well if the public name asks for nothing. -/
theorem passes_iff {filter : Filter} :
    filter.Passes record ↔ (∀ entry ∈ filter.entries, Lowerable entry) ∧
      (∀ name, name ≠ FieldName.nativeId → filter.Meets record name) ∧
        (clause? filter.entries FieldName.publicId = none →
          filter.Meets record FieldName.nativeId) := by
  constructor
  · rintro ⟨predicate, accepted, hholds⟩
    exact ⟨(lower_eq_ok_iff.1 accepted).1, (holds_lower_iff accepted record).1 hholds⟩
  · rintro ⟨hlowerable, hmeets⟩
    have accepted := lower_eq_ok_iff.2 ⟨hlowerable, rfl⟩
    exact ⟨_, accepted, (holds_lower_iff accepted record).2 hmeets⟩

/-- After a condition is put on a name, the clauses of all other names are the old ones. -/
theorem clause?_require {condition : Condition} (key : String) :
    clause? (rest.require name condition).entries key
      = if name = key then condition.clause? (FieldName.native key)
        else clause? rest.entries key := by
  have hget : Entries.get? (rest.require name condition).entries key
      = if name = key then some condition else Entries.get? rest.entries key :=
    FieldMap.get?_insert rest name condition key
  rw [clause?, hget]
  split <;> rfl

/-- A filter with one condition more can be lowered exactly when the condition can, and when all
others can that it does not replace. -/
theorem forall_lowerable_require {condition : Condition} :
    (∀ entry ∈ (rest.require name condition).entries, Lowerable entry) ↔
      Lowerable (name, condition) ∧ ∀ entry ∈ rest.entries, entry.1 ≠ name → Lowerable entry := by
  have hget : ∀ key value, (rest.require name condition).get? key = some value ↔
      (key = name ∧ value = condition) ∨ (key ≠ name ∧ rest.get? key = some value) := by
    intro key value
    rw [require, FieldMap.get?_insert]
    split
    · rename_i h
      subst h
      simp [eq_comm]
    · rename_i h
      simp [Ne.symm h]
  simp only [Prod.forall, FieldMap.mem_entries_iff, hget]
  constructor
  · intro h
    exact ⟨h _ _ (.inl ⟨rfl, rfl⟩), fun key value hmem hne => h key value (.inr ⟨hne, hmem⟩)⟩
  · rintro ⟨hname, hrest⟩ key value (⟨rfl, rfl⟩ | ⟨hne, hmem⟩)
    · exact hname
    · exact hrest key value hmem hne

section Replacing

variable {condition other : Condition} {clause clause' : Clause}

/-- **A condition that asks for less lets through what the one in its place does**,
if both of them ask something. -/
theorem passes_require_mono (h : condition.lower (FieldName.native name) = .ok (some clause))
    (h' : other.lower (FieldName.native name) = .ok (some clause'))
    (hholds : clause.holds (record.read (FieldName.native name)) = true →
      clause'.holds (record.read (FieldName.native name)) = true)
    (passes : (rest.require name condition).Passes record) :
    (rest.require name other).Passes record := by
  have hmeets : ∀ key, (rest.require name condition).Meets record key →
      (rest.require name other).Meets record key := by
    intro key
    rw [Meets, Meets, clause?_require, clause?_require]
    split
    · rename_i hkey
      subst hkey
      rw [Condition.clause?_eq_of_lower h, Condition.clause?_eq_of_lower h']
      simpa using hholds
    · exact id
  rw [passes_iff, forall_lowerable_require] at passes ⊢
  obtain ⟨⟨⟨htop, -⟩, hrest⟩, hothers, hid⟩ := passes
  refine ⟨⟨⟨htop, clause', h'⟩, hrest⟩, fun key hkey => hmeets key (hothers key hkey),
    fun hnone => ?_⟩
  -- on `id`, either condition takes the place of what is asked of `_id`
  refine hmeets _ (hid ?_)
  rw [clause?_require] at hnone ⊢
  split
  · rename_i hpublic
    rw [if_pos hpublic, ← hpublic, Condition.clause?_eq_of_lower h'] at hnone
    cases hnone
  · rename_i hpublic
    rwa [if_neg hpublic] at hnone

/-- A condition can be replaced by another whose clause holds of the same field values. -/
theorem passes_require_congr (h : condition.lower (FieldName.native name) = .ok (some clause))
    (h' : other.lower (FieldName.native name) = .ok (some clause'))
    (hholds : clause.holds (record.read (FieldName.native name)) = true ↔
      clause'.holds (record.read (FieldName.native name)) = true) :
    (rest.require name condition).Passes record ↔ (rest.require name other).Passes record :=
  ⟨passes_require_mono h h' hholds.1, passes_require_mono h' h hholds.2⟩

/-- A condition on a list is met when the one on some member is. -/
theorem passes_require_iff_exists {α : Type} {items : List α} {form : α → Condition}
    {single : α → Clause} (hne : items ≠ [])
    (h : condition.lower (FieldName.native name) = .ok (some clause))
    (hsingle : ∀ item ∈ items,
      (form item).lower (FieldName.native name) = .ok (some (single item)))
    (hholds : clause.holds (record.read (FieldName.native name)) = true ↔
      ∃ item ∈ items, (single item).holds (record.read (FieldName.native name)) = true) :
    (rest.require name condition).Passes record ↔
      ∃ item ∈ items, (rest.require name (form item)).Passes record := by
  constructor
  · intro passes
    by_cases hclause : clause.holds (record.read (FieldName.native name)) = true
    · obtain ⟨item, hitem, hmet⟩ := hholds.1 hclause
      exact ⟨item, hitem, passes_require_mono h (hsingle item hitem) (fun _ => hmet) passes⟩
    · -- the record passes with the condition unmet, so it does so with any other
      obtain ⟨item, hitem⟩ := List.exists_mem_of_ne_nil items hne
      exact ⟨item, hitem, passes_require_mono h (hsingle item hitem) (absurd · hclause) passes⟩
  · rintro ⟨item, hitem, passes⟩
    exact passes_require_mono (hsingle item hitem) h (fun hmet => hholds.2 ⟨item, hitem, hmet⟩)
      passes

end Replacing

/-! ### The forms -/

/-- **A list asks for one of its members.** -/
theorem passes_oneOf_iff (wellFormed : (Value.document record).WellFormed) {values : List Value}
    (hne : values ≠ []) (hvalues : ∀ value ∈ values, value.WellFormed) :
    (rest.require name (.oneOf values)).Passes record ↔
      ∃ value ∈ values, (rest.require name (.equals value)).Passes record := by
  refine passes_require_iff_exists hne (Condition.lower_oneOf hne) (fun _ _ => rfl) ?_
  have hwanted : ∀ member ∈ values.map (Value.lower (FieldName.native name)),
      member.WellFormed := by
    intro member hmember
    obtain ⟨value, hvalue, rfl⟩ := List.mem_map.1 hmember
    exact Value.wellFormed_lower (hvalues value hvalue) _
  rw [Clause.holds_among_iff (Document.wellFormed_read wellFormed _) hwanted]
  simp only [List.mem_map, exists_exists_and_eq_and]

/-- **A list of ranges asks for one of the ranges.** -/
theorem passes_withinAny_iff {ranges : List (Range Value)} (hne : ranges ≠ [])
    (bounded : ∀ range ∈ ranges, range.isBounded = true) :
    (rest.require name (.withinAny ranges)).Passes record ↔
      ∃ range ∈ ranges, (rest.require name (.within range)).Passes record := by
  refine passes_require_iff_exists hne (Condition.lower_withinAny hne bounded)
    (fun range hrange => Condition.lower_within (bounded range hrange)) ?_
  rw [Clause.holds_withinAny_iff]
  simp only [List.mem_map, exists_exists_and_eq_and]

/-- **A range from a value to itself asks for the value.** -/
theorem passes_within_self_iff (wellFormed : (Value.document record).WellFormed) {value : Value}
    (ordered : value.type ∈ ValueType.ordered) :
    (rest.require name (.within (.between value value))).Passes record ↔
      (rest.require name (.equals value)).Passes record := by
  have ordered' := Value.type_lower_mem_ordered ordered (FieldName.native name)
  refine passes_require_congr (Condition.lower_within rfl) rfl ?_
  exact Clause.holds_within_self_iff (Document.wellFormed_read wellFormed _)
    (Value.wellFormed_of_ordered ordered') ordered'

/-- A list of ranges lets something pass only if all of its ranges are bounded. -/
theorem isBounded_of_passes_withinAny {ranges : List (Range Value)}
    (passes : (rest.require name (.withinAny ranges)).Passes record) :
    ∀ range ∈ ranges, range.isBounded = true := by
  obtain ⟨⟨-, clause, hclause⟩, -⟩ := forall_lowerable_require.1 (passes_iff.1 passes).1
  exact Condition.isBounded_of_lower_withinAny hclause

/-! ### Lists with the same members -/

section Same

variable {α : Type} {items others : List α}

theorem eq_nil_iff_of_same (same : ∀ item, item ∈ items ↔ item ∈ others) :
    items = [] ↔ others = [] := by
  simp only [List.eq_nil_iff_forall_not_mem, same]

theorem exists_mem_congr (same : ∀ item, item ∈ items ↔ item ∈ others) (p : α → Prop) :
    (∃ item ∈ items, p item) ↔ ∃ item ∈ others, p item := by
  simp only [same]

end Same

/-- The order and the repetitions of a list do not count. -/
theorem passes_oneOf_congr (wellFormed : (Value.document record).WellFormed)
    {values others : List Value} (same : ∀ value, value ∈ values ↔ value ∈ others)
    (hvalues : ∀ value ∈ values, value.WellFormed) :
    (rest.require name (.oneOf values)).Passes record ↔
      (rest.require name (.oneOf others)).Passes record := by
  by_cases hnil : values = []
  · rw [hnil, (eq_nil_iff_of_same same).1 hnil]
  · have hnil' : others ≠ [] := fun h => hnil ((eq_nil_iff_of_same same).2 h)
    have hothers : ∀ value ∈ others, value.WellFormed := fun value hvalue =>
      hvalues value ((same value).2 hvalue)
    rw [passes_oneOf_iff wellFormed hnil hvalues, passes_oneOf_iff wellFormed hnil' hothers,
      exists_mem_congr same]

/-- A list of ranges is refused for an unbounded one, wherever it stands. -/
theorem passes_withinAny_congr {ranges others : List (Range Value)}
    (same : ∀ range, range ∈ ranges ↔ range ∈ others) :
    (rest.require name (.withinAny ranges)).Passes record ↔
      (rest.require name (.withinAny others)).Passes record := by
  by_cases hnil : ranges = []
  · rw [hnil, (eq_nil_iff_of_same same).1 hnil]
  · have hnil' : others ≠ [] := fun h => hnil ((eq_nil_iff_of_same same).2 h)
    by_cases bounded : ∀ range ∈ ranges, range.isBounded = true
    · have bounded' : ∀ range ∈ others, range.isBounded = true := fun range hrange =>
        bounded range ((same range).2 hrange)
      rw [passes_withinAny_iff hnil bounded, passes_withinAny_iff hnil' bounded',
        exists_mem_congr same]
    · refine iff_of_false (fun passes => bounded (isBounded_of_passes_withinAny passes))
        fun passes => bounded fun range hrange => ?_
      exact isBounded_of_passes_withinAny passes range ((same range).1 hrange)

/-- **The forms of a condition agree** on every field: to equal one of several values
is to equal some of them, to lie in one of several ranges is to lie in some of them,
and to lie between a value of an ordered type and itself is to equal it. What a list
has more than once, and in which order, therefore does not matter. -/
theorem forms_agree (rest : Filter) (name : String)
    (wellFormed : (Value.document record).WellFormed) :
    (∀ values : List Value, values ≠ [] → (∀ value ∈ values, value.WellFormed) →
      ((rest.require name (.oneOf values)).Passes record ↔
        ∃ value ∈ values, (rest.require name (.equals value)).Passes record)) ∧
    (∀ ranges : List (Range Value), ranges ≠ [] → (∀ range ∈ ranges, range.isBounded = true) →
      ((rest.require name (.withinAny ranges)).Passes record ↔
        ∃ range ∈ ranges, (rest.require name (.within range)).Passes record)) ∧
    (∀ value : Value, value.type ∈ ValueType.ordered →
      ((rest.require name (.within (.between value value))).Passes record ↔
        (rest.require name (.equals value)).Passes record)) ∧
    (∀ values others : List Value, (∀ value, value ∈ values ↔ value ∈ others) →
      (∀ value ∈ values, value.WellFormed) →
      ((rest.require name (.oneOf values)).Passes record ↔
        (rest.require name (.oneOf others)).Passes record)) ∧
    (∀ ranges others : List (Range Value), (∀ range, range ∈ ranges ↔ range ∈ others) →
      ((rest.require name (.withinAny ranges)).Passes record ↔
        (rest.require name (.withinAny others)).Passes record)) := by
  refine ⟨?_, ?_, ?_, ?_, ?_⟩
  · intro values hne hvalues
    exact passes_oneOf_iff wellFormed hne hvalues
  · intro ranges hne bounded
    exact passes_withinAny_iff hne bounded
  · intro value ordered
    exact passes_within_self_iff wellFormed ordered
  · intro values others same hvalues
    exact passes_oneOf_congr wellFormed same hvalues
  · intro ranges others same
    exact passes_withinAny_congr same

/-- A box that comes in two sizes, one of them given as a double. -/
def sizedBox : Document :=
  [(FieldName.nativeId, .objectId ⟨0xb0, by decide⟩),
    ("sizes", .array [.int32 1, .double (Double.ofInt 2)])]

/-- The box is among those of either identifier, and has a size between two and
two. -/
theorem forms_agree_sizedBox :
    ((empty.require "sizes" (.equals (.int64 1))).require FieldName.publicId
        (.oneOf [.string "0000000000000000000000a0", .string "0000000000000000000000B0"])).Passes
          sizedBox ∧
      (empty.require "sizes" (.within (.between (.int64 2) (.int64 2)))).Passes sizedBox := by
  have wellFormed : (Value.document sizedBox).WellFormed := by
    simp [sizedBox, Value.WellFormed, Value.WellFormedEntries, Value.WellFormedItems,
      FieldName.nativeId]
  constructor
  · refine ((forms_agree (empty.require "sizes" (.equals (.int64 1))) FieldName.publicId
      wellFormed).1 _ (by decide) ?_).2 ⟨.string "0000000000000000000000B0", by simp, ?_⟩
    · simp [Value.WellFormed]
    · exact ⟨_, rfl, by decide⟩
  · refine ((forms_agree empty "sizes" wellFormed).2.2.1 (.int64 2) (by decide)).2 ?_
    exact ⟨_, rfl, by decide⟩

end Filter

end RecordStore
