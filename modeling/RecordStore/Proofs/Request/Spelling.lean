import RecordStore.Proofs.FieldMap
import RecordStore.Proofs.Request.Lists
import RecordStore.Request.Lookup

/-!
# Queries written as documents

The inverse of reading a request: how a program that holds a query writes it
down as a document. A value stands for its equality, a list for its members, a
range for a document of its bounds; a filter becomes a document of its
conditions, and a sort one of its parts.

What is written is read back (`RecordStore.Query.ofValue_spelling`), provided
that no value can be taken for something else: a value that is itself an array
or a document would be read as a list or a range, and a null bound as a missing
one. Queries without such values are plain (`RecordStore.Query.Plain`). One
thing is lost, and means nothing: an empty list of ranges comes back as an empty
list of values (`RecordStore.Condition.listed`).
-/

namespace RecordStore

/-- Whether a value is neither an array nor a document. -/
def Value.isScalar : Value → Bool
  | array _ => false
  | document _ => false
  | _ => true

/-- A scalar spells no range. -/
theorem Range.isRange_of_isScalar {value : Value} (h : value.isScalar = true) :
    Range.isRange value = false := by
  cases value with
  | document entries => exact absurd h Bool.false_ne_true
  | _ => rfl

/-! ### Ranges -/

namespace Range

variable {α β : Type}

/-- The bounds that a range has, the lower one first. -/
def bounds (range : Range α) : List α :=
  range.start.toList ++ range.stop.toList

theorem bounds_map (f : α → β) (range : Range α) :
    (range.map f).bounds = range.bounds.map f := by
  obtain ⟨start, stop⟩ := range
  cases start <;> cases stop <;> rfl

theorem map_map {γ : Type} (g : β → γ) (f : α → β) (range : Range α) :
    (range.map f).map g = range.map (g ∘ f) := by
  rw [map, map, map, Option.map_map, Option.map_map]

/-- A range is changed by what happens to its bounds. -/
theorem map_congr {f g : α → β} {range : Range α} (h : ∀ bound ∈ range.bounds, f bound = g bound) :
    range.map f = range.map g := by
  obtain ⟨start, stop⟩ := range
  have hstart : start.map f = start.map g :=
    Option.map_congr fun bound hbound => h bound (List.mem_append_left _ (by simpa using hbound))
  have hstop : stop.map f = stop.map g :=
    Option.map_congr fun bound hbound => h bound (List.mem_append_right _ (by simpa using hbound))
  rw [map, map, hstart, hstop]

/-- The document that spells a range. The range that has neither bound is spelled
by a null one. -/
def spelling : Range Value → Document
  | ⟨none, none⟩ => [(startKey, .null)]
  | ⟨start, stop⟩ =>
    (start.toList.map fun bound => (startKey, bound)) ++ stop.toList.map fun bound => (endKey, bound)

/-- **The document of a range spells the range**, unless a bound is null. -/
theorem ofValue?_spelling {range : Range Value} (h : ∀ bound ∈ range.bounds, bound.isNull = false) :
    ofValue? (.document range.spelling) = some range := by
  obtain ⟨start, stop⟩ := range
  have hne : startKey ≠ endKey := by decide
  cases start with
  | none =>
    cases stop with
    | none => rfl
    | some last =>
      have hlast : last.isNull = false := h last (by simp [bounds])
      simp [ofValue?, spelling, isSpelledBy, ofDocument, bound?, Entries.get?, hlast, Ne.symm hne]
  | some first =>
    have hfirst : first.isNull = false := h first (by simp [bounds])
    cases stop with
    | none =>
      simp [ofValue?, spelling, isSpelledBy, ofDocument, bound?, Entries.get?, hfirst, hne]
    | some last =>
      have hlast : last.isNull = false := h last (by simp [bounds])
      simp [ofValue?, spelling, isSpelledBy, ofDocument, bound?, Entries.get?, hfirst, hlast, hne]

end Range

/-! ### Conditions -/

namespace Condition

/-- The ranges of a condition. -/
def ranges : Condition → List (Range Value)
  | within range => [range]
  | withinAny ranges => ranges
  | _ => []

/-- The values that a condition compares with, bounds of ranges included. -/
def operands : Condition → List Value
  | equals value => [value]
  | oneOf values => values
  | within range => range.bounds
  | withinAny ranges => ranges.flatMap Range.bounds

/-- The value that spells a condition. -/
def spelling : Condition → Value
  | equals value => value
  | oneOf values => .array values
  | within range => .document range.spelling
  | withinAny ranges => .array (ranges.map fun range => .document range.spelling)

/-- The same condition, where an empty list is one of values. -/
def listed : Condition → Condition
  | withinAny [] => oneOf []
  | condition => condition

/-- Whether a condition can be told from its spelling: its values are scalars, and
no bound is null. -/
structure Plain (condition : Condition) : Prop where
  scalar : ∀ value ∈ condition.operands, value.isScalar = true
  bounded : ∀ range ∈ condition.ranges, ∀ bound ∈ range.bounds, bound.isNull = false

/-- The bounds of the ranges of a condition are operands of it. -/
theorem mem_operands {condition : Condition} {range : Range Value} (hrange : range ∈ condition.ranges)
    {bound : Value} (hbound : bound ∈ range.bounds) : bound ∈ condition.operands := by
  cases condition with
  | equals value => cases hrange
  | oneOf values => cases hrange
  | within only => exact List.mem_singleton.1 hrange ▸ hbound
  | withinAny ranges => exact List.mem_flatMap.2 ⟨range, hrange, hbound⟩

/-- A condition is plain if its operands are scalars and none of them is null. -/
theorem plain_of_operands {condition : Condition}
    (h : ∀ value ∈ condition.operands, value.isScalar = true ∧ value.isNull = false) :
    condition.Plain where
  scalar value hvalue := (h value hvalue).1
  bounded _ hrange bound hbound := (h bound (mem_operands hrange hbound)).2

/-- A list of spelled ranges spells the condition on these. -/
theorem ofList_ranges (field : String) {ranges : List (Range Value)}
    {spell : Range Value → Document} (hne : ranges ≠ [])
    (h : ∀ range ∈ ranges, Range.ofValue? (.document (spell range)) = some range) :
    ofList field (ranges.map fun range => .document (spell range)) = .ok (withinAny ranges) :=
  ofList_eq_withinAny_iff.2
    ⟨by simpa using hne, List.forall₂_map_left_iff.2 (List.forall₂_same.2 h)⟩

/-- **A plain condition is read back from its spelling.** -/
theorem ofValue_spelling (field : String) {condition : Condition} (plain : condition.Plain) :
    ofValue field condition.spelling = .ok condition.listed := by
  cases condition with
  | equals value =>
    have hscalar : value.isScalar = true := plain.scalar value (List.mem_singleton_self _)
    cases value with
    | array items => exact absurd hscalar Bool.false_ne_true
    | document entries => exact absurd hscalar Bool.false_ne_true
    | _ => rfl
  | oneOf values =>
    exact ofList_eq_oneOf_iff.2
      ⟨fun value hvalue => Range.isRange_of_isScalar (plain.scalar value hvalue), rfl⟩
  | within range =>
    have hread : Range.ofValue? (.document range.spelling) = some range :=
      Range.ofValue?_spelling (plain.bounded range (List.mem_singleton_self _))
    rw [spelling, ofValue, hread]
    rfl
  | withinAny ranges =>
    cases ranges with
    | nil => rfl
    | cons range rest =>
      exact ofList_ranges field (List.cons_ne_nil _ _) fun range hrange =>
        Range.ofValue?_spelling (plain.bounded range hrange)

end Condition

/-! ### Filters -/

namespace Filter

/-- Whether a filter can be told from its spelling. -/
def Plain (filter : Filter) : Prop :=
  ∀ entry ∈ filter.entries, FieldName.isTopLevel entry.1 = true ∧ entry.2.Plain

/-- The document that spells a filter, with an entry for each condition. -/
def spelling (filter : Filter) : Document :=
  (filter.mapEntries fun _ condition => condition.spelling).entries

/-- The same filter, where empty lists are lists of values. -/
def listed (filter : Filter) : Filter :=
  filter.mapEntries fun _ condition => condition.listed

/-- A filter is read off any document that spells its conditions one by one. -/
theorem ofDocument_mapEntries {filter : Filter} {spell : Condition → Value}
    {result : Condition → Condition}
    (h : ∀ entry ∈ filter.entries, FieldName.isTopLevel entry.1 = true ∧
      Condition.ofValue entry.1 (spell entry.2) = .ok (result entry.2)) :
    ofDocument (filter.mapEntries fun _ condition => spell condition).entries
      = .ok (filter.mapEntries fun _ condition => result condition) := by
  have hread : ∀ entry ∈ filter.entries, ∀ other,
      requireSpelled other (entry.1, spell entry.2)
        = .ok (other.insert entry.1 (result entry.2)) := by
    intro entry hentry other
    obtain ⟨hname, hcondition⟩ := h entry hentry
    rw [requireSpelled, FieldName.check_eq_ok_iff.2 hname, Outcome.ok_bind, hcondition]
    rfl
  rw [ofDocument, FieldMap.mapEntries, List.foldlM_map]
  exact FieldMap.foldlM_insert hread

/-- **A plain filter is read back from its spelling.** -/
theorem ofDocument_spelling {filter : Filter} (plain : filter.Plain) :
    ofDocument filter.spelling = .ok filter.listed :=
  ofDocument_mapEntries fun entry hentry =>
    ⟨(plain entry hentry).1, Condition.ofValue_spelling entry.1 (plain entry hentry).2⟩

end Filter

/-! ### Sorts -/

namespace Sorting

/-- Whether a sort can be told from its spelling: its properties are top-level
fields, and its counts are integers of 64 bits. -/
structure Plain (sort : Sorting) : Prop where
  named : ∀ property ∈ sort.properties, FieldName.isTopLevel property = true
  offset : ∀ count, sort.offset = some count → count ≤ Value.largestCount
  limit : ∀ count, sort.limit = some count → count ≤ Value.largestCount

/-- The entry of a count. -/
def countEntry (key : String) (count : Nat) : String × Value :=
  (key, .int64 (.ofNat count))

/-- The document that spells a sort, with an entry for each part that is not
open. -/
def spelling (sort : Sorting) : Document :=
  ("property", .array (sort.properties.map .string)) ::
    ((sort.order.toList.map fun order => ("order", .string order.name)) ++
      (sort.offset.toList.map (countEntry "offset") ++
        sort.limit.toList.map (countEntry "limit")))

/-- The names of top-level fields are read back as properties, in their order. -/
theorem foldlM_addProperty {properties : List String}
    (h : ∀ property ∈ properties, FieldName.isTopLevel property = true) (sort : Sorting) :
    (properties.map Value.string).foldlM addProperty sort
      = .ok { sort with properties := sort.properties ++ properties } := by
  induction properties generalizing sort with
  | nil => rw [List.append_nil]; rfl
  | cons property rest ih =>
    have hadd : addProperty sort (.string property) = .ok (sort.thenBy property) := by
      rw [addProperty, FieldName.check_eq_ok_iff.2 (h property List.mem_cons_self)]
      rfl
    rw [List.map_cons, List.foldlM_cons, hadd, Outcome.ok_bind,
      ih fun other hother => h other (List.mem_cons_of_mem _ hother)]
    simp [thenBy]

/-- A count is read back from its integer, unless it is larger than any. -/
theorem count_int64 (key : String) {count : Nat} (h : count ≤ Value.largestCount) :
    Sorting.count key (.int64 (.ofNat count)) = .ok count := by
  have hread : (Int64.ofNat count).toInt = count := Int64.toInt_ofNat_of_lt (by
    rw [Value.largestCount] at h
    omega)
  rw [Sorting.count, Value.count?, hread]
  rfl

theorem takeEntry_properties (sort : Sorting) (properties : List Value) :
    sort.takeEntry ("property", .array properties) = properties.foldlM addProperty sort := rfl

theorem takeEntry_order (sort : Sorting) (order : SortOrder) :
    sort.takeEntry ("order", .string order.name) = .ok { sort with order := some order } := by
  cases order <;> rfl

theorem takeEntry_offset (sort : Sorting) {count : Nat} (h : count ≤ Value.largestCount) :
    sort.takeEntry (countEntry "offset" count) = .ok { sort with offset := some count } := by
  show (do return { sort with offset := some (← Sorting.count "offset" (.int64 (.ofNat count))) })
    = (.ok { sort with offset := some count } : Outcome Sorting)
  rw [count_int64 "offset" h]
  rfl

theorem takeEntry_limit (sort : Sorting) {count : Nat} (h : count ≤ Value.largestCount) :
    sort.takeEntry (countEntry "limit" count) = .ok { sort with limit := some count } := by
  show (do return { sort with limit := some (← Sorting.count "limit" (.int64 (.ofNat count))) })
    = (.ok { sort with limit := some count } : Outcome Sorting)
  rw [count_int64 "limit" h]
  rfl

/-- **A plain sort is read back from its spelling.** -/
theorem ofDocument_spelling {sort : Sorting} (plain : sort.Plain) :
    ofDocument sort.spelling = .ok sort := by
  obtain ⟨properties, order, offset, limit⟩ := sort
  have hproperties : empty.takeEntry ("property", .array (properties.map .string))
      = .ok ⟨properties, none, none, none⟩ := by
    rw [takeEntry_properties, foldlM_addProperty plain.named]
    rfl
  -- each of the other entries is there if its part is not open
  have horder : (order.toList.map fun order => ("order", Value.string order.name)).foldlM takeEntry
      ⟨properties, none, none, none⟩ = .ok ⟨properties, order, none, none⟩ := by
    cases order with
    | none => rfl
    | some order =>
      rw [Option.toList_some, List.map_singleton, List.foldlM_cons, takeEntry_order]
      rfl
  have hoffset : (offset.toList.map (countEntry "offset")).foldlM takeEntry
      ⟨properties, order, none, none⟩ = .ok ⟨properties, order, offset, none⟩ := by
    cases offset with
    | none => rfl
    | some count =>
      rw [Option.toList_some, List.map_singleton, List.foldlM_cons,
        takeEntry_offset _ (plain.offset count rfl)]
      rfl
  have hlimit : (limit.toList.map (countEntry "limit")).foldlM takeEntry
      ⟨properties, order, offset, none⟩ = .ok ⟨properties, order, offset, limit⟩ := by
    cases limit with
    | none => rfl
    | some count =>
      rw [Option.toList_some, List.map_singleton, List.foldlM_cons,
        takeEntry_limit _ (plain.limit count rfl)]
      rfl
  rw [ofDocument, spelling, List.foldlM_cons, hproperties, Outcome.ok_bind, List.foldlM_append,
    horder, Outcome.ok_bind, List.foldlM_append, hoffset, Outcome.ok_bind, hlimit]

end Sorting

/-! ### Queries -/

namespace Query

/-- Whether a query can be told from its spelling. -/
structure Plain (query : Query) : Prop where
  filter : ∀ filter, query.filter = some filter → filter.Plain
  sort : ∀ sort, query.sort = some sort → sort.Plain

/-- The value that spells a part of a query. A missing part is null. -/
def partSpelling {α : Type} (spell : α → Document) (part : Option α) : Value :=
  (part.map fun whole => Value.document (spell whole)).getD .null

/-- The document that spells a query. -/
def spelling (query : Query) : Document :=
  [(filterKey, partSpelling Filter.spelling query.filter),
    (sortKey, partSpelling Sorting.spelling query.sort)]

/-- A part of a query is read back from its spelling, where a missing part is null. -/
theorem part_eq_ok {α β : Type} {document : Document} {key : String} {otherwise : ShapeCause}
    {read : Document → Outcome β} {spell : α → Document} {result : α → β} {whole : Option α}
    (found : document.get? key = some (partSpelling spell whole))
    (h : ∀ a, whole = some a → read (spell a) = .ok (result a)) :
    part document key otherwise read = .ok (whole.map result) := by
  rw [part, found]
  cases whole with
  | none => rfl
  | some a =>
    show some <$> read (spell a) = _
    rw [h a rfl]
    rfl

/-- A query is read off any document that spells its two parts. -/
theorem ofValue_parts {κ : Type} [EntityKey κ] {query : Query} {spell : Filter → Document}
    {result : Filter → Filter}
    (hfilter : ∀ filter, query.filter = some filter →
      Filter.ofDocument (spell filter) = .ok (result filter))
    (hsort : ∀ sort, query.sort = some sort → sort.Plain) :
    (Lookup.ofValue (.document [(filterKey, partSpelling spell query.filter),
        (sortKey, partSpelling Sorting.spelling query.sort)]) : Outcome (Lookup κ))
      = .ok (.byQuery ⟨query.filter.map result, query.sort⟩) := by
  generalize hdocument : [(filterKey, partSpelling spell query.filter),
    (sortKey, partSpelling Sorting.spelling query.sort)] = document
  have hfilterPart : part document filterKey .filterNotADocument Filter.ofDocument
      = .ok (query.filter.map result) := by
    subst hdocument
    exact part_eq_ok rfl hfilter
  have hsortPart : part document sortKey .sortNotADocument Sorting.ofDocument
      = .ok (query.sort.map id) := by
    subst hdocument
    exact part_eq_ok rfl fun sort h => Sorting.ofDocument_spelling (hsort sort h)
  have hstray : strayKey? document = none := by
    subst hdocument
    rfl
  have hspelled : isSpelledBy document = true := by
    subst hdocument
    rfl
  have hquery : ofDocument document = .ok ⟨query.filter.map result, query.sort⟩ := by
    rw [ofDocument, hstray]
    simp only [hfilterPart, hsortPart, Outcome.ok_bind, Option.map_id, id_eq, Outcome.pure_eq_ok]
  rw [Lookup.ofValue, if_pos hspelled, hquery]
  rfl

/-- **A plain query is read back from its spelling**, as a query whatever its
parts. -/
theorem ofValue_spelling {κ : Type} [EntityKey κ] {query : Query} (plain : query.Plain) :
    (Lookup.ofValue (.document query.spelling) : Outcome (Lookup κ))
      = .ok (.byQuery ⟨query.filter.map Filter.listed, query.sort⟩) :=
  ofValue_parts (fun filter hfilter => Filter.ofDocument_spelling (plain.filter filter hfilter))
    plain.sort

end Query

end RecordStore
