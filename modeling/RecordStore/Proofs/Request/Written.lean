import RecordStore.Proofs.Request.Spelling

/-!
# Lookups written back as values

Whatever a value asks for can be written down again: a lookup that was read off a
value is written as a value of its own, in one form for each way of asking
(`RecordStore.Lookup.written`), and that value asks for the same lookup
(`RecordStore.Lookup.ofValue_written`).

Requests are told apart by what they hold and by nothing else, so this is not
true of all lookups. It is true of those that a value can ask for, because of
what reading leaves out: a condition that was read compares with no value that
would itself be read as a range or a list, and none of its bounds is null
(`RecordStore.Condition.Legible`); a filter that was read as one has no field that
would make it a query (`RecordStore.Lookup.Legible`).
-/

namespace RecordStore

/-! ### Ranges -/

namespace Range

/-- The document of both bounds of a range. A bound that it does not have is
null. -/
def written (range : Range Value) : Document :=
  [(startKey, range.start.getD .null), (endKey, range.stop.getD .null)]

/-- Whether a bound can be told from a missing one. -/
def Legible (range : Range Value) : Prop :=
  ∀ bound ∈ range.bounds, bound.isNull = false

/-- A bound is read back if it is written as null when it is missing. -/
theorem bound?_of_getD {document : Document} {key : String} {bound : Option Value}
    (written : document.get? key = some (bound.getD .null))
    (h : ∀ value, bound = some value → value.isNull = false) : bound? document key = bound := by
  rw [bound?, written]
  rcases bound with _ | value
  · rfl
  · rw [Option.getD_some, Option.filter_some, h value rfl]
    rfl

/-- A legible range is read back from what is written. -/
theorem ofValue?_written {range : Range Value} (h : range.Legible) :
    ofValue? (.document range.written) = some range := by
  have hstart : bound? range.written startKey = range.start :=
    bound?_of_getD rfl fun value hvalue => h value (by simp [bounds, hvalue])
  have hstop : bound? range.written endKey = range.stop :=
    bound?_of_getD rfl fun value hvalue => h value (by simp [bounds, hvalue])
  have hspelled : isSpelledBy range.written = true := rfl
  rw [ofValue?, if_pos hspelled, ofDocument, hstart, hstop]

/-- The bounds that a document spells are not null. -/
theorem legible_ofDocument (document : Document) : (ofDocument document).Legible := by
  intro bound hbound
  have hkey : ∃ key, bound? document key = some bound := by
    rcases List.mem_append.1 hbound with h | h
    · exact ⟨startKey, Option.mem_toList.1 h⟩
    · exact ⟨endKey, Option.mem_toList.1 h⟩
  obtain ⟨key, hkey⟩ := hkey
  have hnull := (Option.filter_eq_some_iff.1 hkey).2
  simpa using hnull

/-- Only legible ranges are read. -/
theorem legible_of_ofValue? {value : Value} {range : Range Value}
    (h : ofValue? value = some range) : range.Legible := by
  cases value with
  | document entries =>
    rw [ofValue?] at h
    split at h
    · rw [← Option.some.inj h]
      exact legible_ofDocument entries
    · cases h
  | _ => cases h

end Range

/-! ### Conditions -/

namespace Condition

/-- The value that a condition is written as. -/
def written : Condition → Value
  | equals value => value
  | oneOf values => .array values
  | within range => .document range.written
  | withinAny ranges => .array (ranges.map fun range => .document range.written)

/-- Whether a condition can be told from what it is written as: a value to be
equalled is neither an array nor a document, no member of a list of values is a
range, and there is a range in a list of ranges. -/
def Legible : Condition → Prop
  | equals value => value.isScalar = true
  | oneOf values => ∀ value ∈ values, Range.isRange value = false
  | within range => range.Legible
  | withinAny ranges => ranges ≠ [] ∧ ∀ range ∈ ranges, range.Legible

/-- **A legible condition is read back.** -/
theorem ofValue_written (field : String) {condition : Condition} (h : condition.Legible) :
    ofValue field condition.written = .ok condition := by
  cases condition with
  | equals value =>
    cases value with
    | array items => exact absurd h Bool.false_ne_true
    | document entries => exact absurd h Bool.false_ne_true
    | _ => rfl
  | oneOf values => exact ofList_eq_oneOf_iff.2 ⟨h, rfl⟩
  | within range =>
    rw [written, ofValue, Range.ofValue?_written h]
  | withinAny ranges =>
    exact ofList_ranges field h.1 fun range hrange => Range.ofValue?_written (h.2 range hrange)

/-- Only legible conditions are read off lists: a list that starts with a range spells ranges,
and any other has none. -/
theorem legible_of_ofList {field : String} {items : List Value} {condition : Condition}
    (h : ofList field items = .ok condition) : condition.Legible := by
  rw [ofList_eq] at h
  split at h
  · rename_i hranges
    obtain ⟨hne, hall⟩ := hranges
    rw [← Except.ok.inj h]
    refine ⟨fun hnil => ?_, fun range hrange => ?_⟩
    · -- the first member is a range
      obtain ⟨value, hvalue⟩ := List.exists_mem_of_ne_nil items hne
      have hsome := List.all_eq_true.1 hall value hvalue
      rw [← Range.isSome_ofValue?, List.filterMap_eq_nil_iff.1 hnil value hvalue] at hsome
      exact Bool.false_ne_true hsome
    · obtain ⟨value, -, hvalue⟩ := List.mem_filterMap.1 hrange
      exact Range.legible_of_ofValue? hvalue
  · split at h
    · cases h
    · rename_i hnone
      rw [← Except.ok.inj h]
      intro value hvalue
      exact Bool.eq_false_iff.2 fun hrange => hnone (List.any_eq_true.2 ⟨value, hvalue, hrange⟩)

/-- **What is read is legible.** -/
theorem legible_of_ofValue {field : String} {value : Value} {condition : Condition}
    (h : ofValue field value = .ok condition) : condition.Legible := by
  cases value with
  | array items => exact legible_of_ofList h
  | document entries =>
    rw [ofValue] at h
    split at h
    · rename_i hrange
      rw [← Except.ok.inj h]
      exact Range.legible_of_ofValue? hrange
    · cases h
  | _ =>
    rw [← Except.ok.inj h]
    rfl

end Condition

/-! ### Filters -/

namespace Filter

/-- The document of the conditions of a filter. -/
def written (filter : Filter) : Document :=
  (filter.mapEntries fun _ condition => condition.written).entries

/-- Whether a filter can be told from what it is written as. -/
def Legible (filter : Filter) : Prop :=
  ∀ entry ∈ filter.entries, FieldName.isTopLevel entry.1 = true ∧ entry.2.Legible

/-- A legible filter is read back from what is written. -/
theorem ofDocument_written {filter : Filter} (h : filter.Legible) :
    ofDocument filter.written = .ok filter := by
  have hread : ofDocument filter.written = .ok (filter.mapEntries fun _ condition => condition) :=
    ofDocument_mapEntries fun entry hentry =>
      ⟨(h entry hentry).1, Condition.ofValue_written entry.1 (h entry hentry).2⟩
  have hsame : filter.mapEntries (fun _ condition => condition) = filter :=
    FieldMap.ext_entries (List.map_id' filter.entries)
  rw [hread, hsame]

theorem keys_written (filter : Filter) : filter.written.keys = filter.entries.keys :=
  List.map_map

/-- An entry of a filter that is accepted puts a legible condition on a top-level field. -/
theorem exists_of_requireSpelled {filter next : Filter} {entry : String × Value}
    (h : requireSpelled filter entry = .ok next) :
    FieldName.isTopLevel entry.1 = true ∧ ∃ condition : Condition, condition.Legible ∧
      next = filter.require entry.1 condition := by
  obtain ⟨_, hname, hcondition⟩ := Outcome.bind_eq_ok_iff.1 h
  obtain ⟨condition, hread, hnext⟩ := Outcome.bind_eq_ok_iff.1 hcondition
  exact ⟨FieldName.check_eq_ok_iff.1 hname, condition, Condition.legible_of_ofValue hread,
    (Except.ok.inj hnext).symm⟩

/-- Whether a filter is legible, and has no fields but some of given names. -/
def LegibleWithin (names : List String) (filter : Filter) : Prop :=
  ∀ entry ∈ filter.entries,
    FieldName.isTopLevel entry.1 = true ∧ entry.2.Legible ∧ entry.1 ∈ names

/-- **What is read is legible**, and has no fields but those of the document. -/
theorem legibleWithin_of_ofDocument {document : Document} {filter : Filter}
    (h : ofDocument document = .ok filter) : filter.LegibleWithin document.keys := by
  have hempty : LegibleWithin document.keys empty := fun entry hentry => nomatch hentry
  refine Outcome.of_foldlM_eq_ok h hempty ?_
  intro item hitem before after hbefore hstep entry hentry
  obtain ⟨hname, condition, hlegible, rfl⟩ := exists_of_requireSpelled hstep
  rcases FieldMap.mem_insertSorted hentry with rfl | hold
  · exact ⟨hname, hlegible, List.mem_map_of_mem hitem⟩
  · exact hbefore entry hold

theorem LegibleWithin.legible {names : List String} {filter : Filter}
    (h : filter.LegibleWithin names) : filter.Legible :=
  fun entry hentry => ⟨(h entry hentry).1, (h entry hentry).2.1⟩

end Filter

/-! ### Sorts -/

/-- No value stands for a larger count than an integer of 64 bits holds. -/
theorem Value.count?_le {value : Value} {count : Nat} (h : value.count? = some count) :
    count ≤ largestCount := by
  cases value with
  | int32 n =>
    have hlt := n.toInt_lt
    have hcount := Int.mem_toNat?.1 h
    rw [largestCount]
    omega
  | int64 n =>
    have hlt := n.toInt_lt
    have hcount := Int.mem_toNat?.1 h
    rw [largestCount]
    omega
  | double d =>
    obtain ⟨n, -, hn⟩ := Option.bind_eq_some_iff.1 h
    obtain ⟨m, -, rfl⟩ := Option.map_eq_some_iff.1 hn
    exact Nat.min_le_right _ _
  | _ => cases h

namespace Sorting

/-- No count that is read is larger than an integer of 64 bits holds. -/
theorem le_of_count {key : String} {value : Value} {count : Nat}
    (h : Sorting.count key value = .ok count) : count ≤ Value.largestCount := by
  rw [Sorting.count] at h
  split at h
  · rename_i hcount
    rw [← Except.ok.inj h]
    exact Value.count?_le hcount
  · cases h

/-- A property that is added has the name of a top-level field. -/
theorem Plain.addProperty {sort next : Sorting} {value : Value} (plain : sort.Plain)
    (h : sort.addProperty value = .ok next) : next.Plain := by
  unfold Sorting.addProperty at h
  split at h
  · obtain ⟨_, hname, hnext⟩ := Outcome.bind_eq_ok_iff.1 h
    rw [← Except.ok.inj hnext]
    refine ⟨fun property hproperty => ?_, plain.offset, plain.limit⟩
    rcases List.mem_append.1 hproperty with hold | hnew
    · exact plain.named property hold
    · rw [List.mem_singleton.1 hnew]
      exact FieldName.check_eq_ok_iff.1 hname
  · cases h

/-- **Sorts remain plain while they are read.** -/
theorem Plain.takeEntry {sort next : Sorting} {entry : String × Value} (plain : sort.Plain)
    (h : sort.takeEntry entry = .ok next) : next.Plain := by
  unfold Sorting.takeEntry at h
  split at h
  · exact Except.ok.inj h ▸ plain
  · exact plain.addProperty h
  · exact Outcome.of_foldlM_eq_ok h plain fun _ _ _ _ hbefore hstep => hbefore.addProperty hstep
  · split at h
    · rw [← Except.ok.inj h]
      exact ⟨plain.named, plain.offset, plain.limit⟩
    · cases h
  · obtain ⟨count, hcount, hnext⟩ := Outcome.bind_eq_ok_iff.1 h
    rw [← Except.ok.inj hnext]
    exact ⟨plain.named, fun other hother => Option.some.inj hother ▸ le_of_count hcount, plain.limit⟩
  · obtain ⟨count, hcount, hnext⟩ := Outcome.bind_eq_ok_iff.1 h
    rw [← Except.ok.inj hnext]
    exact ⟨plain.named, plain.offset, fun other hother => Option.some.inj hother ▸ le_of_count hcount⟩
  · cases h

/-- **What is read is plain.** -/
theorem plain_of_ofDocument {document : Document} {sort : Sorting}
    (h : ofDocument document = .ok sort) : sort.Plain := by
  have hempty : Sorting.empty.Plain := ⟨nofun, nofun, nofun⟩
  exact Outcome.of_foldlM_eq_ok h hempty fun _ _ _ _ plain hstep => plain.takeEntry hstep

end Sorting

/-! ### Queries -/

namespace Query

/-- The document of the two parts of a query. A part that it does not have is
null. -/
def written (query : Query) : Document :=
  [(filterKey, partSpelling Filter.written query.filter),
    (sortKey, partSpelling Sorting.spelling query.sort)]

/-- Whether a query can be told from what it is written as. -/
structure Legible (query : Query) : Prop where
  filter : ∀ filter, query.filter = some filter → filter.Legible
  sort : ∀ sort, query.sort = some sort → sort.Plain

/-- A legible query is read back from what is written. -/
theorem ofValue_written {κ : Type} [EntityKey κ] {query : Query} (h : query.Legible) :
    (Lookup.ofValue (.document query.written) : Outcome (Lookup κ)) = .ok (.byQuery query) := by
  have hread : (Lookup.ofValue (.document query.written) : Outcome (Lookup κ))
      = .ok (.byQuery ⟨query.filter.map id, query.sort⟩) :=
    ofValue_parts (fun filter hfilter => Filter.ofDocument_written (h.filter filter hfilter)) h.sort
  rwa [Option.map_id_fun, id_eq] at hread

/-- A part of a query that is there was read off a document. -/
theorem exists_of_part {α : Type} {document : Document} {key : String} {otherwise : ShapeCause}
    {read : Document → Outcome α} {result : α}
    (h : part document key otherwise read = .ok (some result)) :
    ∃ entries, read entries = .ok result := by
  rw [part] at h
  split at h
  · cases h
  · cases h
  · rename_i entries _
    refine ⟨entries, ?_⟩
    rcases hread : read entries with failure | other
    · rw [hread] at h
      cases h
    · rw [hread] at h
      rw [Option.some.inj (Except.ok.inj h)]
  · cases h

/-- **What is read is legible.** -/
theorem legible_of_ofDocument {document : Document} {query : Query}
    (h : ofDocument document = .ok query) : query.Legible := by
  rw [ofDocument] at h
  split at h
  · cases h
  · obtain ⟨filter?, hfilter, hrest⟩ := Outcome.bind_eq_ok_iff.1 h
    obtain ⟨sort?, hsort, hquery⟩ := Outcome.bind_eq_ok_iff.1 hrest
    rw [← Except.ok.inj hquery]
    constructor
    · rintro filter rfl
      obtain ⟨entries, hread⟩ := exists_of_part hfilter
      exact (Filter.legibleWithin_of_ofDocument hread).legible
    · rintro sort rfl
      obtain ⟨entries, hread⟩ := exists_of_part hsort
      exact Sorting.plain_of_ofDocument hread

end Query

/-! ### Lookups -/

/-- Whether keys of a type are read back from the values that carry them, which
are none of those that ask for something else than a key. -/
class EntityKey.Legible (κ : Type) [EntityKey κ] : Prop where
  ofNative_toValue (key : κ) : EntityKey.ofNative (EntityKey.toValue key) = .ok key
  isScalar_toValue (key : κ) : (EntityKey.toValue key).isScalar = true
  isNull_toValue (key : κ) : (EntityKey.toValue key).isNull = false

instance : EntityKey.Legible String := ⟨fun _ => rfl, fun _ => rfl, fun _ => rfl⟩

instance : EntityKey.Legible ObjectId := ⟨fun _ => rfl, fun _ => rfl, fun _ => rfl⟩

namespace Lookup

variable {κ : Type} [EntityKey κ]

/-- **The value that a lookup is written as.** -/
def written : Lookup κ → Value
  | byId key => EntityKey.toValue key
  | byIds keys => .array (keys.map EntityKey.toValue)
  | byFilter filter => .document filter.written
  | byQuery query => .document query.written

/-- Whether a lookup can be told from what it is written as: the fields of a filter
do not make it a query. -/
def Legible : Lookup κ → Prop
  | byFilter filter =>
    filter.Legible ∧ ∀ entry ∈ filter.entries, entry.1 ≠ Query.filterKey ∧ entry.1 ≠ Query.sortKey
  | byQuery query => query.Legible
  | _ => True

/-- A document is no query when it has neither of the two names of one. -/
theorem isSpelledBy_eq_false_iff {document : Document} :
    Query.isSpelledBy document = false ↔
      ∀ name ∈ document.keys, name ≠ Query.filterKey ∧ name ≠ Query.sortKey := by
  rw [Query.isSpelledBy, Bool.or_eq_false_iff, Bool.eq_false_iff, Bool.eq_false_iff,
    Ne, Ne, Entries.contains_iff, Entries.contains_iff]
  constructor
  · rintro ⟨hfilter, hsort⟩ name hname
    refine ⟨?_, ?_⟩
    · rintro rfl
      exact hfilter hname
    · rintro rfl
      exact hsort hname
  · intro h
    exact ⟨fun hfilter => (h _ hfilter).1 rfl, fun hsort => (h _ hsort).2 rfl⟩

/-- **What is read is legible.** -/
theorem legible_of_ofValue {value : Value} {lookup : Lookup κ}
    (h : ofValue value = .ok lookup) : lookup.Legible := by
  cases value with
  | null =>
    rw [← Except.ok.inj h]
    exact ⟨nofun, nofun⟩
  | array items =>
    obtain ⟨keys, -, rfl⟩ := Outcome.map_eq_ok_iff.1 h
    trivial
  | document entries =>
    rw [ofValue] at h
    split at h
    · obtain ⟨query, hquery, rfl⟩ := Outcome.map_eq_ok_iff.1 h
      exact Query.legible_of_ofDocument hquery
    · rename_i hspelled
      obtain ⟨filter, hfilter, rfl⟩ := Outcome.map_eq_ok_iff.1 h
      have hwithin := Filter.legibleWithin_of_ofDocument hfilter
      have hnames := isSpelledBy_eq_false_iff.1 (Bool.eq_false_iff.2 hspelled)
      exact ⟨hwithin.legible, fun entry hentry => hnames entry.1 (hwithin entry hentry).2.2⟩
  | _ =>
    obtain ⟨key, -, rfl⟩ := Outcome.map_eq_ok_iff.1 h
    trivial

section Legible

variable [EntityKey.Legible κ]

/-- A key that can be written reads back as itself. -/
theorem keyOf_toValue (key : κ) : keyOf (EntityKey.toValue key) = .ok key := by
  rw [keyOf, EntityKey.Legible.ofNative_toValue]
  rfl

/-- The value of a key asks for the key. -/
theorem ofValue_toValue (key : κ) : ofValue (EntityKey.toValue key) = .ok (byId key) := by
  have hkey := keyOf_toValue key
  have hscalar := EntityKey.Legible.isScalar_toValue key
  have hnull := EntityKey.Legible.isNull_toValue key
  generalize EntityKey.toValue key = value at hkey hscalar hnull
  unfold ofValue
  split
  · cases hnull
  · cases hscalar
  · cases hscalar
  · rw [hkey]
    rfl

/-- **A legible lookup is read back.** -/
theorem ofValue_written {lookup : Lookup κ} (h : lookup.Legible) :
    ofValue lookup.written = .ok lookup := by
  rcases lookup with key | keys | filter | query
  · exact ofValue_toValue key
  · have hkeys : (keys.map EntityKey.toValue).mapM keyOf = .ok (keys.map id) :=
      Outcome.mapM_map_eq_ok fun key _ => keyOf_toValue key
    rw [written, ofValue, hkeys, List.map_id]
    rfl
  · obtain ⟨hlegible, hnames⟩ := h
    have hspelled : Query.isSpelledBy filter.written = false := by
      rw [isSpelledBy_eq_false_iff, Filter.keys_written]
      exact List.forall_mem_map.2 hnames
    rw [written, ofValue, hspelled, if_neg Bool.false_ne_true, Filter.ofDocument_written hlegible]
    rfl
  · exact Query.ofValue_written h

end Legible

/-- **A value that is accepted says no more than the lookup it asks for**: written
as a value, the lookup is asked for again, be its keys texts or identifiers. -/
theorem ofValue?_written_of_ofValue? :
    (∀ (request : Option Value) (lookup : Lookup String),
      ofValue? request = .ok lookup → ofValue? (some lookup.written) = .ok lookup) ∧
    ∀ (request : Option Value) (lookup : Lookup ObjectId),
      ofValue? request = .ok lookup → ofValue? (some lookup.written) = .ok lookup :=
  ⟨fun _ _ h => ofValue_written (legible_of_ofValue h),
    fun _ _ h => ofValue_written (legible_of_ofValue h)⟩

/-- A query whose parts could be taken for others: a field named as a part of a
query, a bound that is a document, a list that holds a list and a document. -/
def entangled : Value :=
  .document
    [("sort", .document
      [("limit", .double (.ofInt 2)), ("order", .null), ("property", .string "rank")]),
    ("filter", .document
      [("tags", .array [.array [], .null, .document [("x", .bool true)]]),
      ("filter", .array
        [.document [("end", .int32 3)],
        .document [("start", .document [("end", .null)]), ("end", .null)]])])]

/-- The same query with all parts in their places. -/
def disentangled : Value :=
  .document
    [("filter", .document
      [("filter", .array
        [.document [("start", .null), ("end", .int32 3)],
        .document [("start", .document [("end", .null)]), ("end", .null)]]),
      ("tags", .array [.array [], .null, .document [("x", .bool true)]])]),
    ("sort", .document [("property", .array [.string "rank"]), ("limit", .int64 2)])]

/-- A query with entangled parts is written in order, and asked for again. -/
theorem ofValue?_disentangled :
    ∃ lookup : Lookup String, ofValue? (some entangled) = .ok lookup ∧
      lookup.written = disentangled ∧ ofValue? (some disentangled) = .ok lookup := by
  have hread : ∃ lookup : Lookup String, ofValue? (some entangled) = .ok lookup ∧
      lookup.written = disentangled := ⟨_, rfl, rfl⟩
  obtain ⟨lookup, hread, hwritten⟩ := hread
  have hagain := ofValue?_written_of_ofValue?.1 (some entangled) lookup hread
  rw [hwritten] at hagain
  exact ⟨lookup, hread, hwritten, hagain⟩

end Lookup

end RecordStore
