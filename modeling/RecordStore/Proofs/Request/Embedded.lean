import RecordStore.Proofs.Request.Reading
import RecordStore.Proofs.Request.Written

/-!
# Documents among the operands of a filter

In a filter that arrives as a document, another document is a range or has no
business there, and is refused where it stands for a condition of its own. It is
not looked for anywhere else, though: a list is only asked whether its members
are ranges, and a range not at all what its bounds are. So a document that is
accepted as an operand is always found in one of two places – as a member of a
list, or as a bound of a range – and every document that is found there is
accepted (`RecordStore.Value.harborsDocument`,
`RecordStore.Lookup.exists_document_operand_iff`).
-/

namespace RecordStore

/-! ### Where documents are not looked for -/

/-- Whether a value is a document. -/
def Value.isDocument : Value → Bool
  | document _ => true
  | _ => false

/-- Whether a document that spells a range gives a document for a bound. -/
def Range.hasDocumentBound (entries : Document) : Bool :=
  entries.any fun entry => entry.2.isDocument

namespace Value

/-- Whether a member of a list is a document that is no range, or a range with a
document for a bound. -/
def isUnreadMember : Value → Bool
  | document entries => !Range.isSpelledBy entries || Range.hasDocumentBound entries
  | _ => false

/-- Whether a value that spells a condition has a document where none is looked
for: in a list, or in a range. -/
def harborsDocument : Value → Bool
  | array items => items.any isUnreadMember
  | document entries => Range.hasDocumentBound entries
  | _ => false

end Value

/-! ### Documents among the operands of a condition -/

namespace Range

/-- A range has a document for a bound exactly when its document holds one under a name of a
bound. -/
theorem exists_document_bound_iff {entries : Document} (distinct : entries.keys.Nodup)
    (spelled : isSpelledBy entries = true) :
    (∃ bound ∈ (ofDocument entries).bounds, bound.isDocument = true) ↔
      hasDocumentBound entries = true := by
  rw [hasDocumentBound, List.any_eq_true]
  constructor
  · rintro ⟨bound, hbound, hdocument⟩
    obtain ⟨-, key, hmem⟩ := (mem_bounds_ofDocument distinct spelled).1 hbound
    exact ⟨(key, bound), hmem, hdocument⟩
  · rintro ⟨⟨key, bound⟩, hmem, hdocument⟩
    have hnull : bound.isNull = false := by
      cases bound with
      | document _ => rfl
      | _ => cases hdocument
    exact ⟨bound, (mem_bounds_ofDocument distinct spelled).2 ⟨hnull, key, hmem⟩, hdocument⟩

/-- A member that is a range has a document for a bound exactly when it is unread for that. -/
theorem exists_document_bound_iff_of_ofValue? {item : Value} {range : Range Value}
    (wellFormed : item.WellFormed) (h : ofValue? item = some range) :
    (∃ bound ∈ range.bounds, bound.isDocument = true) ↔ item.isUnreadMember = true := by
  obtain ⟨entries, rfl, hspelled, rfl⟩ := ofValue?_eq_some_iff.1 h
  rw [exists_document_bound_iff wellFormed.1 hspelled, Value.isUnreadMember, hspelled,
    Bool.not_true, Bool.false_or]

end Range

/-- A member that is no range is unread exactly when it is a document. -/
theorem Value.isUnreadMember_of_isRange_eq_false {item : Value} (h : Range.isRange item = false) :
    item.isUnreadMember = item.isDocument := by
  cases item with
  | document entries =>
    have hspelled : Range.isSpelledBy entries = false := h
    rw [isUnreadMember, hspelled]
    rfl
  | _ => rfl

namespace Condition

variable {field : String} {condition : Condition}

/-- **A list brings in a document as an operand** through a member that is a document without
being a range, or through a range with a document for a bound. If the first member is a range
all are, and otherwise none is, so the two ways never mix. -/
theorem exists_document_operand_iff_of_ofList {items : List Value}
    (wellFormed : ∀ item ∈ items, item.WellFormed) (h : ofList field items = .ok condition) :
    (∃ operand ∈ condition.operands, operand.isDocument = true) ↔
      items.any Value.isUnreadMember = true := by
  rw [ofList_eq] at h
  rw [List.any_eq_true]
  split at h
  · -- all members are ranges, and the operands are their bounds
    rename_i hranges
    rw [← Except.ok.inj h]
    constructor
    · rintro ⟨operand, hoperand, hdocument⟩
      obtain ⟨range, hrange, hbound⟩ := List.mem_flatMap.1 hoperand
      obtain ⟨item, hmem, hread⟩ := List.mem_filterMap.1 hrange
      exact ⟨item, hmem, (Range.exists_document_bound_iff_of_ofValue? (wellFormed item hmem)
        hread).1 ⟨operand, hbound, hdocument⟩⟩
    · rintro ⟨item, hmem, hunread⟩
      obtain ⟨range, hread⟩ := Range.exists_ofValue?_of_all hranges.2 hmem
      obtain ⟨bound, hbound, hdocument⟩ :=
        (Range.exists_document_bound_iff_of_ofValue? (wellFormed item hmem) hread).2 hunread
      exact ⟨bound, List.mem_flatMap.2 ⟨range, List.mem_filterMap.2 ⟨item, hmem, hread⟩, hbound⟩,
        hdocument⟩
  · split at h
    · cases h
    · -- no member is a range, and the operands are the members
      rename_i hnone
      have hitem : ∀ item ∈ items, item.isUnreadMember = item.isDocument := fun item hmem =>
        Value.isUnreadMember_of_isRange_eq_false (Bool.eq_false_iff.2 fun hrange =>
          hnone (List.any_eq_true.2 ⟨item, hmem, hrange⟩))
      rw [← Except.ok.inj h]
      constructor
      · rintro ⟨operand, hoperand, hdocument⟩
        exact ⟨operand, hoperand, (hitem operand hoperand).trans hdocument⟩
      · rintro ⟨item, hmem, hunread⟩
        exact ⟨item, hmem, (hitem item hmem).symm.trans hunread⟩

/-- **A condition compares with a document** exactly when the value that spells it
harbors one. -/
theorem exists_document_operand_iff_of_ofValue {value : Value} (wellFormed : value.WellFormed)
    (h : ofValue field value = .ok condition) :
    (∃ operand ∈ condition.operands, operand.isDocument = true) ↔
      value.harborsDocument = true := by
  cases value with
  | array items =>
    exact exists_document_operand_iff_of_ofList (Value.wellFormedItems_iff.1 wellFormed) h
  | document entries =>
    rw [ofValue] at h
    split at h
    · rename_i range hrange
      obtain ⟨_, heq, hspelled, rfl⟩ := Range.ofValue?_eq_some_iff.1 hrange
      obtain rfl := Value.document.inj heq
      rw [← Except.ok.inj h]
      exact Range.exists_document_bound_iff wellFormed.1 hspelled
    · cases h
  | _ =>
    rw [← Except.ok.inj h]
    exact iff_of_false (by simp [operands, Value.isDocument]) Bool.false_ne_true

end Condition

/-! ### Documents among the operands of a lookup -/

namespace Lookup

variable {κ : Type}

/-- The filter of a lookup, if it has one. -/
def filter? : Lookup κ → Option Filter
  | byFilter filter => some filter
  | byQuery query => query.filter
  | _ => none

/-- The document whose entries are the conditions of a request: the filter of a
query, or the whole of a filter. -/
def conditionsIn (request : Document) : Document :=
  if Query.isSpelledBy request then
    match request.get? Query.filterKey with
    | some (.document conditions) => conditions
    | _ => []
  else request

variable [EntityKey κ] {request : Document} {lookup : Lookup κ} {filter : Filter}

/-- The filter of a lookup is read off the conditions in the request, wherever the shape of the
request puts them. -/
theorem ofDocument_conditionsIn (accepted : ofValue (.document request) = .ok lookup)
    (hfilter : lookup.filter? = some filter) :
    Filter.ofDocument (conditionsIn request) = .ok filter := by
  rw [ofValue] at accepted
  rw [conditionsIn]
  split at accepted
  · rename_i hquery
    rw [if_pos hquery]
    obtain ⟨query, hread, rfl⟩ := Outcome.map_eq_ok_iff.1 accepted
    have hfilter : query.filter = some filter := hfilter
    obtain ⟨-, hpart, -⟩ := Query.ofDocument_eq_ok_iff.1 hread
    rw [hfilter, Query.part_eq_ok_iff, Document.read] at hpart
    rcases hpart with ⟨-, hnone⟩ | ⟨conditions, whole, hget, hwhole, hsome⟩
    · cases hnone
    · obtain rfl := Option.some.inj hsome
      rcases hvalue : Entries.get? request Query.filterKey with _ | value
      · rw [hvalue] at hget
        cases hget
      · rw [hvalue] at hget
        obtain rfl : value = .document conditions := hget
        exact hwhole
  · rename_i hquery
    rw [if_neg hquery]
    obtain ⟨other, hread, rfl⟩ := Outcome.map_eq_ok_iff.1 accepted
    exact Option.some.inj hfilter ▸ hread

/-- A request that spells conditions asks for a lookup that has a filter. -/
theorem exists_filter? (accepted : ofValue (.document request) = .ok lookup)
    (hne : conditionsIn request ≠ []) : ∃ filter, lookup.filter? = some filter := by
  rw [ofValue] at accepted
  rw [conditionsIn] at hne
  split at accepted
  · rename_i hquery
    rw [if_pos hquery] at hne
    obtain ⟨query, hread, rfl⟩ := Outcome.map_eq_ok_iff.1 accepted
    obtain ⟨-, hpart, -⟩ := Query.ofDocument_eq_ok_iff.1 hread
    rcases Query.part_eq_ok_iff.1 hpart with ⟨hnull, -⟩ | ⟨-, filter, -, -, hfilter⟩
    · -- a filter that is null has no conditions
      rw [Document.read] at hnull
      split at hne
      · rename_i hget
        rw [hget] at hnull
        cases hnull
      · exact absurd rfl hne
    · exact ⟨filter, hfilter⟩
  · obtain ⟨filter, -, rfl⟩ := Outcome.map_eq_ok_iff.1 accepted
    exact ⟨filter, rfl⟩

/-- The conditions in a well-formed request are well formed. -/
theorem wellFormed_conditionsIn (wellFormed : (Value.document request).WellFormed) :
    (Value.document (conditionsIn request)).WellFormed := by
  rw [conditionsIn]
  split
  · split
    · rename_i conditions hget
      exact Value.wellFormedEntries_iff.1 wellFormed.2 _ (Entries.mem_of_get?_eq_some hget)
    · exact ⟨List.nodup_nil, trivial⟩
  · exact wellFormed

/-- **A filter that was read compares with a document** on exactly those fields
whose conditions harbor one, in a list or in a range; it never asks a field to
equal a document. -/
theorem exists_document_operand_iff (wellFormed : (Value.document request).WellFormed)
    (accepted : ofValue (.document request) = .ok lookup)
    (hfilter : lookup.filter? = some filter) {field : String} {condition : Condition}
    (asked : filter.get? field = some condition) :
    ((∃ operand ∈ condition.operands, operand.isDocument = true) ↔
        ∃ value, (conditionsIn request).get? field = some value ∧
          value.harborsDocument = true) ∧
      ∀ value, condition = .equals value → value.isDocument = false := by
  have hread := ofDocument_conditionsIn accepted hfilter
  have hwellFormed := wellFormed_conditionsIn wellFormed
  obtain ⟨value, hget, hvalue⟩ := (Filter.get?_ofDocument hwellFormed.1 hread).1 asked
  have hvalueWellFormed : value.WellFormed :=
    Value.wellFormedEntries_iff.1 hwellFormed.2 _ (Entries.mem_of_get?_eq_some hget)
  constructor
  · rw [Condition.exists_document_operand_iff_of_ofValue hvalueWellFormed hvalue]
    constructor
    · intro hharbors
      exact ⟨value, hget, hharbors⟩
    · rintro ⟨other, hother, hharbors⟩
      rw [hget] at hother
      exact Option.some.inj hother ▸ hharbors
  · rintro operand rfl
    have hscalar : operand.isScalar = true := Condition.legible_of_ofValue hvalue
    cases operand with
    | document entries => cases hscalar
    | _ => rfl

/-- Tags, one of which is a document. -/
def tagsWithDocument : List Value :=
  [.int32 5, .document [("gte", .int32 3)]]

/-- A document that is no range is accepted as a member of a list. -/
theorem exists_document_operand_tags :
    ofValue (.document [("tags", .array tagsWithDocument)])
        = .ok (byFilter (Filter.empty.require "tags" (.oneOf tagsWithDocument)) : Lookup String) ∧
      ∃ operand ∈ (Condition.oneOf tagsWithDocument).operands, operand.isDocument = true := by
  have wellFormed : (Value.document [("tags", .array tagsWithDocument)]).WellFormed := by
    simp [tagsWithDocument, Value.WellFormed, Value.WellFormedEntries, Value.WellFormedItems]
  have accepted : ofValue (.document [("tags", .array tagsWithDocument)])
      = .ok (byFilter (Filter.empty.require "tags" (.oneOf tagsWithDocument)) : Lookup String) :=
    rfl
  have asked : (Filter.empty.require "tags" (.oneOf tagsWithDocument)).get? "tags"
      = some (.oneOf tagsWithDocument) := rfl
  refine ⟨accepted, (exists_document_operand_iff wellFormed accepted rfl asked).1.2 ?_⟩
  exact ⟨.array tagsWithDocument, rfl, rfl⟩

end Lookup

end RecordStore
