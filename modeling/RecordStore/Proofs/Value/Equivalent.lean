import RecordStore.Proofs.Sorting.Transitivity
import RecordStore.Proofs.Value.Comparison

/-!
# Values that equal themselves

A store compares arrays member by member, documents by what they have under each
name, and all else by content. A NaN differs from every number, itself included,
and this is felt through every array and document around it: a value equals itself
exactly when there is no NaN within it, at any depth
(`RecordStore.Value.equivalent_self_iff`).

Under each name a document has one value to compare with, its own, because its
names are distinct.
-/

namespace RecordStore

/-- A double equals itself exactly when it is a number. -/
theorem Double.equals_self_iff {d : Double} : d.equals d = true ↔ d.isNaN = false := by
  rcases hrank : d.rank? with _ | place
  · rw [rank?_eq_none_iff.1 hrank, equals, compare?, hrank]
    decide
  · have hnumber : d.isNaN ≠ true := by
      rw [ne_eq, ← rank?_eq_none_iff, hrank]
      exact Option.some_ne_none place
    exact iff_of_true ((equals_iff hrank hrank).2 rfl) (Bool.eq_false_iff.2 hnumber)

namespace Value

mutual

/-- No double within the value, the value itself included, is a NaN. -/
def NaNFree : Value → Prop
  | double d => d.isNaN = false
  | array items => NaNFreeItems items
  | document entries => NaNFreeEntries entries
  | _ => True

/-- No member of an array has a NaN within it. -/
def NaNFreeItems : List Value → Prop
  | [] => True
  | item :: rest => NaNFree item ∧ NaNFreeItems rest

/-- No value of a document has a NaN within it. -/
def NaNFreeEntries : List (String × Value) → Prop
  | [] => True
  | (_, value) :: rest => NaNFree value ∧ NaNFreeEntries rest

end

theorem nanFreeItems_iff {items : List Value} :
    NaNFreeItems items ↔ ∀ item ∈ items, NaNFree item := by
  induction items with
  | nil => simp [NaNFreeItems]
  | cons item rest ih => simp [NaNFreeItems, ih]

theorem nanFreeEntries_iff {entries : List (String × Value)} :
    NaNFreeEntries entries ↔ ∀ entry ∈ entries, NaNFree entry.2 := by
  induction entries with
  | nil => simp [NaNFreeEntries]
  | cons entry rest ih => simp [NaNFreeEntries, ih]

/-- **A value equals itself exactly when there is no NaN within it.** -/
theorem equivalent_self_iff (value : Value) (wellFormed : value.WellFormed) :
    value.equivalent value = true ↔ value.NaNFree := by
  induction value using nestedInduction with
  | scalar value x hx _ =>
    cases value with
    | double d =>
      rw [NaNFree, ← Double.equals_self_iff]
      rfl
    | array _ | document _ => cases hx
    | null | special _ | codeWithScope _ _ => exact iff_of_true rfl trivial
    | _ => exact iff_of_true (decide_eq_true rfl) trivial
  | array items ih =>
    rw [equivalent_array_iff, NaNFree, nanFreeItems_iff]
    simp only [array.injEq, exists_eq_left', List.forall₂_same]
    exact forall₂_congr fun item hitem =>
      ih item hitem (wellFormedItems_iff.1 wellFormed item hitem)
  | document entries ih =>
    rw [equivalent_document_iff, NaNFree, nanFreeEntries_iff]
    simp only [document.injEq, exists_eq_left', true_and]
    refine forall₂_congr fun entry hentry => ?_
    -- under its name the document has the value of the entry and no other
    rw [(Entries.get?_eq_some_iff_mem wellFormed.1).2 hentry]
    simpa using ih entry hentry (wellFormedEntries_iff.1 wellFormed.2 entry hentry)

end Value

end RecordStore
