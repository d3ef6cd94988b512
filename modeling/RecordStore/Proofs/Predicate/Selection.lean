import RecordStore.Predicate.Match
import RecordStore.Proofs.Filter.Lowering
import RecordStore.Proofs.Predicate.Joined

/-!
# What a query document selects

A query document means something of its own, quite apart from the predicate it
was rendered from: its entries are conjoined, `$or` and `$and` join the
documents under them, and an entry on a field holds when each of its operators
is met by the value of the field or, when that is an array, by one of its
members. `RecordStore.QueryDocument.selects` is that meaning, and this file
compares it with what the predicate itself asks of a record.

The two differ in one point. A predicate wants both bounds of a range to be met
by the same member of an array, whereas a document has an operator for each
bound, and two members may share the work. Such a range is *straddled* by the
array (`RecordStore.Bounds.straddled`), and that is all there is to it: a record
that meets the predicate is always selected, and a record is selected wrongly
exactly when every clause is met or straddled, and not every one is met
(`RecordStore.Filter.selects_query_eq_holds_iff`).
-/

namespace RecordStore

namespace QueryDocument

/-! ### The meaning of a query document -/

/-- The values one of which has to meet an operator: the value of the field and,
if that is an array, its members. -/
def candidates : Value → List Value
  | .array items => .array items :: items
  | value => [value]

/-- Whether a single value meets an operator. -/
def operatorMet (operator : String) (operand item : Value) : Bool :=
  if operator = Operator.eq then item.equivalent operand
  else if operator = Operator.among then
    match operand with
    | .array members => members.any fun member => member.equivalent item
    | _ => false
  else if operator = Operator.atLeast then (item.compare? operand).any Ordering.isGE
  else if operator = Operator.atMost then (item.compare? operand).any Ordering.isLE
  else false

/-- Whether the value of a field meets a document of operators, each of them on
its own. -/
def fieldMet (value : Value) : Value → Bool
  | .document operators =>
    operators.all fun (operator, operand) => (candidates value).any (operatorMet operator operand)
  | _ => false

mutual

/-- Whether a record meets an entry of a query document. -/
def entrySelects (record : Document) (key : String) : Value → Bool
  | .array queries =>
    if key = Operator.or then (eachSelects record queries).any id
    else if key = Operator.and then (eachSelects record queries).all id
    else false
  | operand => key ≠ Operator.or && key ≠ Operator.and && fieldMet (record.read key) operand

/-- Whether a record meets every entry of a query document. -/
def entriesSelect (record : Document) : List (String × Value) → Bool
  | [] => true
  | (key, operand) :: rest => entrySelects record key operand && entriesSelect record rest

/-- Whether a value is a query document that selects a record. -/
def valueSelects (record : Document) : Value → Bool
  | .document query => entriesSelect record query
  | _ => false

/-- Which of some query documents select a record. -/
def eachSelects (record : Document) : List Value → List Bool
  | [] => []
  | query :: rest => valueSelects record query :: eachSelects record rest

end

/-- **The meaning of a query document**: whether it selects a record. -/
def selects (query record : Document) : Bool :=
  entriesSelect record query

/-! ### Reading the parts of a query document -/

variable {record : Document}

theorem eachSelects_eq_map (queries : List Value) :
    eachSelects record queries = queries.map (valueSelects record) := by
  induction queries with
  | nil => rfl
  | cons query rest ih => simp [eachSelects, ih]

/-- **A server selects what meets every entry of a query.** -/
theorem selects_eq_all (query : Document) :
    selects query record = query.all fun (key, operand) => entrySelects record key operand := by
  rw [selects]
  induction query with
  | nil => rfl
  | cons entry rest ih =>
    obtain ⟨key, operand⟩ := entry
    rw [entriesSelect, ih]
    rfl

/-- The entries of a query document are asked one by one. -/
theorem selects_append (query more : Document) :
    selects (query ++ more) record = (selects query record && selects more record) := by
  simp [selects_eq_all]

theorem selects_singleton (key : String) (operand : Value) :
    selects [(key, operand)] record = entrySelects record key operand := by
  simp [selects_eq_all]

/-- `$or` asks for one of the documents under it. -/
theorem entrySelects_or (queries : List Document) :
    entrySelects record Operator.or (.array (queries.map .document))
      = queries.any fun query => selects query record := by
  rw [entrySelects, if_pos rfl, eachSelects_eq_map]
  simp [List.any_map, Function.comp_def, valueSelects, selects]

/-- `$and` asks for all of the documents under it. -/
theorem entrySelects_and (queries : List Document) :
    entrySelects record Operator.and (.array (queries.map .document))
      = queries.all fun query => selects query record := by
  have hne : Operator.and ≠ Operator.or := by decide
  rw [entrySelects, if_neg hne, if_pos rfl, eachSelects_eq_map]
  simp [List.all_map, Function.comp_def, valueSelects, selects]

/-- An entry that is no operator asks for a field. -/
theorem entrySelects_field {field : String} (hor : field ≠ Operator.or)
    (hand : field ≠ Operator.and) (operators : Document) :
    entrySelects record field (.document operators)
      = fieldMet (record.read field) (.document operators) := by
  simp [entrySelects, hor, hand]

/-- A joined query is met when its parts are. -/
theorem selects_flatten (queries : List Document) :
    selects queries.flatten record = queries.all fun query => selects query record := by
  induction queries with
  | nil => rfl
  | cons query rest ih => rw [List.flatten_cons, selects_append, ih, List.all_cons]

/-- A server tests the items of a value that a store in memory tests. -/
theorem any_candidates (test : Value → Bool) (value : Value) :
    (candidates value).any test = value.anyItem test := by
  cases value with
  | array items => rfl
  | _ => exact Bool.or_false _

end QueryDocument

/-! ### Ranges that an array straddles -/

namespace Bounds

/-- Whether an array has a member that meets the one bound and a member that
meets the other, and none that meets both. -/
def straddled (bounds : Bounds) : Value → Bool
  | .array items =>
    items.any bounds.atLeastHolds && items.any bounds.atMostHolds && !items.any bounds.hold
  | _ => false

/-- A lower bound holds of an array only if there is none, so of every value then. -/
theorem atLeastHolds_of_array {bounds : Bounds} {items : List Value}
    (h : bounds.atLeastHolds (.array items) = true) (value : Value) :
    bounds.atLeastHolds value = true := by
  obtain ⟨atLeast, atMost⟩ := bounds
  cases atLeast with
  | none => rfl
  | some bound => exact absurd h (by simp [atLeastHolds, Value.compare?, Value.scalar?])

/-- An upper bound holds of an array only if there is none, so of every value then. -/
theorem atMostHolds_of_array {bounds : Bounds} {items : List Value}
    (h : bounds.atMostHolds (.array items) = true) (value : Value) :
    bounds.atMostHolds value = true := by
  obtain ⟨atLeast, atMost⟩ := bounds
  cases atMost with
  | none => rfl
  | some bound => exact absurd h (by simp [atMostHolds, Value.compare?, Value.scalar?])

/-- **Meeting the bounds one by one** is meeting them both at once, or
straddling them. An array itself compares with nothing, so it can stand in for a
member only where there is no bound to meet. -/
theorem anyItem_and_anyItem (bounds : Bounds) (value : Value) :
    (value.anyItem bounds.atLeastHolds && value.anyItem bounds.atMostHolds)
      = (value.anyItem bounds.hold || bounds.straddled value) := by
  cases value with
  | array items =>
    rw [Bool.eq_iff_iff]
    simp only [Value.anyItem, straddled, Bool.and_eq_true, Bool.or_eq_true, List.any_eq_true,
      Bool.not_eq_true', List.any_eq_false, hold]
    constructor
    · -- where the array itself meets a bound, there is none, and every member meets it
      rintro ⟨hleast, hmost⟩
      rcases hleast with hleast | ⟨low, hlow, hleast⟩
      · rcases hmost with hmost | ⟨high, hhigh, hmost⟩
        · exact .inl (.inl ⟨hleast, hmost⟩)
        · exact .inl (.inr ⟨high, hhigh, atLeastHolds_of_array hleast high, hmost⟩)
      · rcases hmost with hmost | ⟨high, hhigh, hmost⟩
        · exact .inl (.inr ⟨low, hlow, hleast, atMostHolds_of_array hmost low⟩)
        · -- two members meet one bound each; the array straddles unless one meets both
          by_cases hboth : ∃ item ∈ items,
              bounds.atLeastHolds item = true ∧ bounds.atMostHolds item = true
          · exact .inl (.inr hboth)
          · refine .inr ⟨⟨⟨low, hlow, hleast⟩, high, hhigh, hmost⟩, fun item hitem h => ?_⟩
            exact hboth ⟨item, hitem, h⟩
    · rintro ((⟨hleast, hmost⟩ | ⟨item, hitem, hleast, hmost⟩) | ⟨⟨hleast, hmost⟩, -⟩)
      · exact ⟨.inl hleast, .inl hmost⟩
      · exact ⟨.inr ⟨item, hitem, hleast⟩, .inr ⟨item, hitem, hmost⟩⟩
      · exact ⟨.inr hleast, .inr hmost⟩
  | _ => exact (Bool.or_false _).symm

end Bounds

namespace Clause

/-- Whether an array straddles a range of the clause. -/
def straddled : Clause → Value → Bool
  | within bounds, value => bounds.straddled value
  | withinAny alternatives, value => alternatives.any fun bounds => bounds.straddled value
  | _, _ => false

end Clause

/-! ### The query document of a clause -/

namespace QueryDocument

variable {record : Document}

/-- The operator of a lower bound is met when some item lies above the bound. -/
theorem any_operatorMet_atLeast (bound : Value) (bounds : Bounds) (value : Value)
    (h : bounds.atLeast = some bound) :
    (candidates value).any (operatorMet Operator.atLeast bound)
      = value.anyItem bounds.atLeastHolds := by
  have htest : operatorMet Operator.atLeast bound = bounds.atLeastHolds := by
    funext item
    rw [Bounds.atLeastHolds, h, Option.all_some]
    show (item.compare? bound).any Ordering.isGE = _
    rcases item.compare? bound with _ | _ | _ | _ <;> rfl
  rw [htest, any_candidates]

/-- The operator of an upper bound is met when some item lies below the bound. -/
theorem any_operatorMet_atMost (bound : Value) (bounds : Bounds) (value : Value)
    (h : bounds.atMost = some bound) :
    (candidates value).any (operatorMet Operator.atMost bound)
      = value.anyItem bounds.atMostHolds := by
  have htest : operatorMet Operator.atMost bound = bounds.atMostHolds := by
    funext item
    rw [Bounds.atMostHolds, h, Option.all_some]
    show (item.compare? bound).any Ordering.isLE = _
    rcases item.compare? bound with _ | _ | _ | _ <;> rfl
  rw [htest, any_candidates]

theorem anyItem_true {test : Value → Bool} (h : ∀ item, test item = true) (value : Value) :
    value.anyItem test = true := by
  cases value with
  | array items => rw [Value.anyItem, h, Bool.true_or]
  | _ => exact h _

/-- The operators of bounds are met by what meets the bounds one by one. -/
theorem fieldMet_operators (bounds : Bounds) (value : Value) :
    fieldMet value (.document bounds.operators)
      = (value.anyItem bounds.atLeastHolds && value.anyItem bounds.atMostHolds) := by
  have hleast : (bounds.atLeast.toList.map fun bound => (Operator.atLeast, bound)).all
      (fun (operator, operand) => (candidates value).any (operatorMet operator operand))
        = value.anyItem bounds.atLeastHolds := by
    cases h : bounds.atLeast with
    | none =>
      refine (anyItem_true (fun item => ?_) value).symm
      rw [Bounds.atLeastHolds, h]
      rfl
    | some bound =>
      rw [← any_operatorMet_atLeast bound bounds value h]
      exact Bool.and_true _
  have hmost : (bounds.atMost.toList.map fun bound => (Operator.atMost, bound)).all
      (fun (operator, operand) => (candidates value).any (operatorMet operator operand))
        = value.anyItem bounds.atMostHolds := by
    cases h : bounds.atMost with
    | none =>
      refine (anyItem_true (fun item => ?_) value).symm
      rw [Bounds.atMostHolds, h]
      rfl
    | some bound =>
      rw [← any_operatorMet_atMost bound bounds value h]
      exact Bool.and_true _
  rw [fieldMet, Bounds.operators, List.all_append, hleast, hmost]

/-- **A server meets each bound by itself.** It selects what a single item lies within, and
besides what only straddles the range. -/
theorem selects_bounds {field : String} (hor : field ≠ Operator.or) (hand : field ≠ Operator.and)
    (bounds : Bounds) :
    selects [(field, .document bounds.operators)] record
      = ((record.read field).anyItem bounds.hold || bounds.straddled (record.read field)) := by
  rw [selects_singleton, entrySelects_field hor hand, fieldMet_operators,
    Bounds.anyItem_and_anyItem]

/-- **The query document of a clause** selects the records whose field meets the
clause, and those whose field straddles one of its ranges. -/
theorem selects_query {field : String} (hor : field ≠ Operator.or) (hand : field ≠ Operator.and)
    (clause : Clause) :
    selects (clause.query field) record
      = (clause.holds (record.read field) || clause.straddled (record.read field)) := by
  cases clause with
  | equals expected =>
    have hstraddled : (Clause.equals expected).straddled (record.read field) = false := rfl
    rw [Clause.query, selects_singleton, entrySelects_field hor hand, hstraddled, Bool.or_false,
      Clause.holds, ← any_candidates]
    exact Bool.and_true _
  | among expected =>
    have hstraddled : (Clause.among expected).straddled (record.read field) = false := rfl
    rw [Clause.query, selects_singleton, entrySelects_field hor hand, hstraddled, Bool.or_false,
      Clause.holds, ← any_candidates]
    exact Bool.and_true _
  | within bounds => exact selects_bounds hor hand bounds
  | withinAny alternatives =>
    have hqueries : (alternatives.map fun bounds =>
          Value.document [(field, .document bounds.operators)])
        = (alternatives.map fun bounds => [(field, .document bounds.operators)]).map
            Value.document := by
      rw [List.map_map]
      rfl
    rw [Clause.query, selects_singleton, hqueries, entrySelects_or, List.any_map, Clause.holds,
      Clause.straddled, Bool.eq_iff_iff]
    simp only [Function.comp_def, selects_bounds hor hand, List.any_eq_true, Bool.or_eq_true,
      and_or_left, exists_or]

/-! ### Joined query documents -/

/-- A test of all items can be split by any other test. -/
theorem all_filter_and_all_filter {α : Type} (p q : α → Bool) (items : List α) :
    ((items.filter fun item => !p item).all q && (items.filter p).all q) = items.all q := by
  rw [Bool.eq_iff_iff]
  simp only [Bool.and_eq_true, List.all_eq_true, List.mem_filter, Bool.not_eq_true']
  constructor
  · rintro ⟨hfalse, htrue⟩ item hitem
    cases h : p item with
    | false => exact hfalse item ⟨hitem, h⟩
    | true => exact htrue item ⟨hitem, h⟩
  · intro h
    exact ⟨fun item hitem => h item hitem.1, fun item hitem => h item hitem.1⟩

/-- Joined alternatives are met when each of them is. -/
theorem selects_joinedAlternatives (queries : List Document) :
    selects (joinedAlternatives queries) record = queries.all fun query => selects query record := by
  match queries with
  | [] => rfl
  | [single] => exact (Bool.and_true _).symm
  | first :: second :: rest =>
    show selects [(Operator.and, .array ((first :: second :: rest).map .document))] record = _
    rw [selects_singleton, entrySelects_and]

/-- **Joining loses nothing**: the query document of a predicate on top-level
fields selects what the documents of its clauses all select. -/
theorem selects_query_eq_all {predicate : Predicate}
    (hfields : ∀ entry ∈ predicate.entries, FieldName.isTopLevel entry.1 = true) :
    selects predicate.query record
      = predicate.clauseQueries.all fun query => selects query record := by
  rw [query_eq_append hfields, selects_append, selects_joinedAlternatives, plainEntries,
    selects_flatten, alternativeQueries]
  exact all_filter_and_all_filter _ _ _

/-! ### The query document of a predicate -/

/-- **The query document of a predicate on top-level fields** selects the
records that meet or straddle each of its clauses. -/
theorem selects_query_iff {predicate : Predicate}
    (hfields : ∀ entry ∈ predicate.entries, FieldName.isTopLevel entry.1 = true)
    (record : Document) :
    selects predicate.query record = true ↔
      ∀ entry ∈ predicate.entries, entry.2.holds (record.read entry.1) = true ∨
        entry.2.straddled (record.read entry.1) = true := by
  rw [selects_query_eq_all hfields, Predicate.clauseQueries, List.all_map, List.all_eq_true]
  refine forall₂_congr fun entry hentry => ?_
  obtain ⟨hor, hand⟩ := ne_operators (hfields entry hentry)
  rw [Function.comp_apply, selects_query hor hand, Bool.or_eq_true]

end QueryDocument

namespace Predicate

/-- Whether a record straddles a predicate: not every clause is met, and those
that are not have a range that an array straddles. -/
structure Straddled (predicate : Predicate) (record : Document) : Prop where
  /-- A clause is not met. -/
  failed : ∃ entry ∈ predicate.entries, entry.2.holds (record.read entry.1) = false
  /-- A clause that is not met is straddled. -/
  straddled : ∀ entry ∈ predicate.entries, entry.2.holds (record.read entry.1) = false →
    entry.2.straddled (record.read entry.1) = true

/-- A predicate fails on a record when one of its clauses does. -/
theorem not_holds_iff {predicate : Predicate} {record : Document} :
    ¬ predicate.holds record = true ↔
      ∃ entry ∈ predicate.entries, entry.2.holds (record.read entry.1) = false := by
  rw [holds, List.all_eq_true]
  push Not
  simp

end Predicate

namespace Filter

/-- **A query document selects what its filter asks for, unless a record
straddles it.** The document rendered from an accepted filter selects every
record that meets the predicate of the filter, and it selects no others exactly
when they do not straddle the predicate. -/
theorem selects_query_eq_holds_iff {filter : Filter} {predicate : Predicate}
    (accepted : filter.lower = .ok predicate) (record : Document) :
    (QueryDocument.selects predicate.query record = predicate.holds record ↔
        ¬ predicate.Straddled record) ∧
      (predicate.holds record = true → QueryDocument.selects predicate.query record = true) := by
  have hselects := QueryDocument.selects_query_iff
    (fun _ hentry => isTopLevel_of_mem_lower accepted hentry) record
  have hholds : predicate.holds record = true →
      QueryDocument.selects predicate.query record = true := by
    intro h
    rw [hselects]
    intro entry hentry
    exact .inl (List.all_eq_true.1 h entry hentry)
  refine ⟨⟨fun hagree hstraddled => ?_, fun hnot => ?_⟩, hholds⟩
  · refine Predicate.not_holds_iff.2 hstraddled.failed (hagree ▸ hselects.2 fun entry hentry => ?_)
    cases h : entry.2.holds (record.read entry.1) with
    | true => exact .inl rfl
    | false => exact .inr (hstraddled.straddled entry hentry h)
  · rw [Bool.eq_iff_iff]
    refine ⟨fun h => ?_, hholds⟩
    by_contra hfails
    refine hnot ⟨Predicate.not_holds_iff.1 hfails, fun entry hentry hentryFails => ?_⟩
    refine (hselects.1 h entry hentry).resolve_left fun hmet => ?_
    rw [hmet] at hentryFails
    exact Bool.noConfusion hentryFails

/-- The filter on a range of numbers in the field `tags`. -/
def tagsBetween (start stop : Int32) : Filter :=
  empty.require "tags" (.within (.between (.int32 start) (.int32 stop)))

/-- The tags one and ten lie on both sides of the range from four to six: its
query document selects them, and its predicate does not. -/
theorem tagsBetween_straddled :
    ∃ predicate, (tagsBetween 4 6).lower = .ok predicate ∧
      QueryDocument.selects predicate.query [("tags", .array [.int32 1, .int32 10])]
        ≠ predicate.holds [("tags", .array [.int32 1, .int32 10])] := by
  have accepted : (tagsBetween 4 6).lower
      = .ok (Predicate.empty.insert "tags" (.within ⟨some (.int32 4), some (.int32 6)⟩)) := rfl
  refine ⟨_, accepted, fun hagree => ?_⟩
  refine (selects_query_eq_holds_iff accepted _).1.1 hagree ⟨?_, ?_⟩
  · exact ⟨_, List.mem_singleton_self _, by decide⟩
  · intro entry hentry _
    rw [List.mem_singleton.1 hentry]
    decide

end Filter

end RecordStore
