import RecordStore.Proofs.FieldMap
import RecordStore.Proofs.Filter.Lowering
import RecordStore.Proofs.Predicate.Joined

/-!
# The grammar of query documents

Not every document is the query document of a filter. One that is has entries on
top-level fields, each with a document of operators of one of three shapes, and
after them at most one entry more, for the alternatives
(`RecordStore.QueryDocument.Grammatical`). No name that a caller chose stands
where an operator is looked for.

A document of this form says which clauses it was rendered from.
`RecordStore.QueryDocument.read?` reads them back, entry by entry, and what it
gives for the query document of a filter is the predicate that was rendered
(`RecordStore.Filter.grammatical_and_read_query`), so rendering loses nothing
either.
-/

namespace RecordStore

/-! ### Clauses that filters come to -/

/-- Whether there is a bound. -/
def Bounds.isBounded (bounds : Bounds) : Bool :=
  bounds.atLeast.isSome || bounds.atMost.isSome

/-- A clause has something to compare with: its lists have members, and its
ranges have bounds. -/
def Clause.Proper : Clause → Prop
  | equals _ => True
  | among values => values ≠ []
  | within bounds => bounds.isBounded
  | withinAny alternatives => alternatives ≠ [] ∧ ∀ bounds ∈ alternatives, bounds.isBounded

/-- A range that can be lowered has a bound. -/
theorem Range.isBounded_of_lower {field : String} {range : Range Value} {bounds : Bounds}
    (h : range.lower field = .ok bounds) : bounds.isBounded := by
  rw [Range.lower] at h
  split at h
  · rename_i hbounded
    obtain rfl := Except.ok.inj h
    rw [Bounds.isBounded, Option.isSome_map, Option.isSome_map]
    exact hbounded
  · cases h

/-- The clauses that conditions are lowered to have a bound in each of their ranges, and no list
of ranges is empty. -/
theorem Condition.proper_of_lower {field : String} {condition : Condition} {clause : Clause}
    (h : condition.lower field = .ok (some clause)) : clause.Proper := by
  cases condition with
  | equals value =>
    obtain rfl := Option.some.inj (Except.ok.inj h)
    trivial
  | oneOf values =>
    cases values with
    | nil => cases h
    | cons value rest =>
      obtain rfl := Option.some.inj (Except.ok.inj h)
      exact List.cons_ne_nil _ _
  | within range =>
    obtain ⟨bounds, hbounds, h⟩ := Outcome.bind_eq_ok_iff.1 h
    obtain rfl := Option.some.inj (Except.ok.inj h)
    exact Range.isBounded_of_lower hbounds
  | withinAny ranges =>
    cases ranges with
    | nil => cases h
    | cons range rest =>
      obtain ⟨alternatives, halternatives, h⟩ := Outcome.bind_eq_ok_iff.1 h
      obtain rfl := Option.some.inj (Except.ok.inj h)
      refine ⟨?_, fun bounds hmem => ?_⟩
      · rintro rfl
        cases Outcome.mapM_eq_ok_iff.1 halternatives
      · obtain ⟨range, -, hrange⟩ := Outcome.exists_of_mem_mapM halternatives hmem
        exact Range.isBounded_of_lower hrange

/-- A name that a clause may be put on: that of a top-level field – it is not
empty, has no dot and no leading dollar sign – and not the public name of the
identifier. -/
def FieldName.IsNative (name : String) : Prop :=
  isTopLevel name = true ∧ name ≠ publicId

/-- Every clause is proper, and put on a field as records name it. -/
def Predicate.Proper (predicate : Predicate) : Prop :=
  ∀ entry ∈ predicate.entries, FieldName.IsNative entry.1 ∧ entry.2.Proper

namespace Filter

/-- The clauses that an accepted filter asks for are proper. -/
theorem proper_of_clause? {filter : Filter} {predicate : Predicate}
    (accepted : filter.lower = .ok predicate) {name : String} {clause : Clause}
    (h : clause? filter.entries name = some clause) : clause.Proper := by
  obtain ⟨condition, hcondition, h⟩ := Option.bind_eq_some_iff.1 h
  obtain ⟨-, lowered, hlowered⟩ :=
    (lower_eq_ok_iff.1 accepted).1 _ (FieldMap.mem_entries_iff.2 hcondition)
  rw [Condition.clause?_eq_of_lower hlowered] at h
  exact Condition.proper_of_lower (h ▸ hlowered)

/-- **Filters are lowered to proper predicates.** -/
theorem proper_of_lower {filter : Filter} {predicate : Predicate}
    (accepted : filter.lower = .ok predicate) : predicate.Proper := by
  intro entry hentry
  have hget : predicate.get? entry.1 = some entry.2 := FieldMap.mem_entries_iff.1 hentry
  rw [get?_lower accepted] at hget
  split at hget
  · cases hget
  · rename_i hpublic
    refine ⟨⟨isTopLevel_of_mem_lower accepted hentry, hpublic⟩, ?_⟩
    -- whichever condition the clause is from, it was accepted
    split at hget
    · rcases Option.or_eq_some_iff.1 hget with h | ⟨-, h⟩
      · exact proper_of_clause? accepted h
      · exact proper_of_clause? accepted h
    · exact proper_of_clause? accepted hget

end Filter

namespace QueryDocument

/-! ### The grammar -/

/-- A lower bound, an upper bound, or both in this order. -/
def IsBounds (operators : Document) : Prop :=
  operators ≠ [] ∧ operators.keys.Sublist [Operator.atLeast, Operator.atMost]

/-- What a field may be mapped to: exactly one equality, exactly one list with
members, or bounds. -/
inductive IsOperators : Document → Prop where
  | eq (value : Value) : IsOperators [(Operator.eq, value)]
  | among {values : List Value} (nonempty : values ≠ []) :
    IsOperators [(Operator.among, .array values)]
  | bounds {operators : Document} (h : IsBounds operators) : IsOperators operators

/-- An entry on a field. -/
inductive IsFieldEntry : String × Value → Prop where
  | mk {field : String} {operators : Document} (hfield : FieldName.IsNative field)
    (hoperators : IsOperators operators) : IsFieldEntry (field, .document operators)

/-- Alternatives: some documents under `$or`, each of them with bounds on the one
field that the alternatives are about. -/
inductive IsAlternatives : Document → Prop where
  | mk {field : String} {alternatives : List Document} (hfield : FieldName.IsNative field)
    (nonempty : alternatives ≠ []) (hbounds : ∀ operators ∈ alternatives, IsBounds operators) :
    IsAlternatives
      [(Operator.or, .array (alternatives.map fun operators =>
        .document [(field, .document operators)]))]

/-- What may follow the entries on fields: nothing, alternatives, or an entry that
has two or more documents of alternatives under `$and`. -/
inductive IsEnd : Document → Prop where
  | nothing : IsEnd []
  | single {query : Document} (h : IsAlternatives query) : IsEnd query
  | several {queries : List Document} (length : 2 ≤ queries.length)
    (h : ∀ query ∈ queries, IsAlternatives query) :
    IsEnd [(Operator.and, .array (queries.map .document))]

/-- **The form of a query document**: entries on fields and at most one entry
more, none of the names twice. -/
inductive Grammatical : Document → Prop where
  | mk {fields last : Document} (hfields : ∀ entry ∈ fields, IsFieldEntry entry)
    (hlast : IsEnd last) (nodup : (fields ++ last).keys.Nodup) : Grammatical (fields ++ last)

/-! ### Reading a query document -/

/-- The bounds that some operators stand for. -/
def readBounds? : Document → Option Bounds
  | [(operator, value)] =>
    if operator = Operator.atLeast then some ⟨some value, none⟩
    else if operator = Operator.atMost then some ⟨none, some value⟩
    else none
  | [(first, start), (second, stop)] =>
    if first = Operator.atLeast ∧ second = Operator.atMost then some ⟨some start, some stop⟩
    else none
  | _ => none

/-- The clause that some operators on a field stand for. -/
def readOperators? : Value → Option Clause
  | .document [(operator, value)] =>
    if operator = Operator.eq then some (.equals value)
    else if operator = Operator.among then
      match value with
      | .array values => some (.among values)
      | _ => none
    else (readBounds? [(operator, value)]).map .within
  | .document operators => (readBounds? operators).map .within
  | _ => none

/-- The field and the bounds of one of several alternatives. -/
def readAlternative? : Value → Option (String × Bounds)
  | .document [(field, .document operators)] =>
    (readBounds? operators).map fun bounds => (field, bounds)
  | _ => none

/-- The field and the clause that the documents under `$or` stand for. All of them
have to be about the same field. -/
def readAlternatives? : Value → Option (String × Clause)
  | .array queries =>
    match queries.mapM readAlternative? with
    | some ((field, bounds) :: rest) =>
      if rest.all fun alternative => alternative.1 = field then
        some (field, .withinAny (bounds :: rest.map Prod.snd))
      else none
    | _ => none
  | _ => none

/-- The field and the clause of a document under `$and`. -/
def readJoined? : Value → Option (String × Clause)
  | .document [(operator, queries)] =>
    if operator = Operator.or then readAlternatives? queries else none
  | _ => none

/-- The fields and clauses that an entry of a query document stands for. -/
def readItem? (entry : String × Value) : Option (List (String × Clause)) :=
  if entry.1 = Operator.or then (readAlternatives? entry.2).map fun clause => [clause]
  else if entry.1 = Operator.and then
    match entry.2 with
    | .array queries => queries.mapM readJoined?
    | _ => none
  else (readOperators? entry.2).map fun clause => [(entry.1, clause)]

/-- The fields and clauses that the entries of a query document stand for. -/
def readEntries? (query : Document) : Option (List (String × Clause)) :=
  (query.mapM readItem?).map List.flatten

/-- **The predicate that a query document stands for.** -/
def read? (query : Document) : Option Predicate :=
  (readEntries? query).map FieldMap.ofList

/-! ### Query documents are of this form -/

/-- The operators of bounds make up a document of bounds. -/
theorem isBounds_operators {bounds : Bounds} (h : bounds.isBounded) :
    IsBounds bounds.operators := by
  match bounds, h with
  | ⟨some _, none⟩, _ => exact ⟨List.cons_ne_nil _ _, .cons_cons _ (.cons _ .slnil)⟩
  | ⟨none, some _⟩, _ => exact ⟨List.cons_ne_nil _ _, .cons _ (.cons_cons _ .slnil)⟩
  | ⟨some _, some _⟩, _ => exact ⟨List.cons_ne_nil _ _, .cons_cons _ (.cons_cons _ .slnil)⟩

/-- A clause is written with a disjunction exactly when it is one of alternative ranges. -/
theorem contains_or_query_iff {field : String} (hfield : FieldName.IsNative field)
    (clause : Clause) :
    (clause.query field).contains Operator.or = true ↔
      ∃ alternatives, clause = .withinAny alternatives := by
  rw [Entries.contains_iff]
  cases clause with
  | withinAny alternatives => exact ⟨fun _ => ⟨alternatives, rfl⟩, fun _ => List.mem_cons_self⟩
  | _ =>
    refine ⟨fun h => ?_, fun h => ?_⟩
    · exact absurd (List.mem_singleton.1 h).symm (ne_operators hfield.1).1
    · obtain ⟨alternatives, h⟩ := h
      cases h

/-- What joins alternatives makes up the end of a query: nothing, the one disjunction, or a
conjunction of several. -/
theorem isEnd_joinedAlternatives {queries : List Document}
    (h : ∀ query ∈ queries, IsAlternatives query) : IsEnd (joinedAlternatives queries) := by
  match queries with
  | [] => exact .nothing
  | [single] => exact .single (h single List.mem_cons_self)
  | first :: second :: rest => exact .several (by simp) h

/-- A joined query has no name twice: fields come once each, and a single operator follows them.
-/
theorem nodup_keys_joinQueries (queries : List Document) :
    (Predicate.joinQueries queries).keys.Nodup := by
  have hplain (pairs : List (String × Value)) : (Entries.ofList pairs).keys.Nodup :=
    Entries.nodup_keys_ofList pairs
  rw [Predicate.joinQueries]
  dsimp only
  split
  · exact hplain _
  · exact Entries.nodup_keys_insertAll (hplain _) _
  · exact Entries.nodup_keys_insert (hplain _) _ _

section Proper

variable {predicate : Predicate} (proper : predicate.Proper)
include proper

/-- What is not joined is a field and what is asked of it. -/
theorem isFieldEntry_of_mem_plainEntries :
    ∀ entry ∈ plainEntries predicate.clauseQueries, IsFieldEntry entry := by
  intro entry hentry
  obtain ⟨query, hquery, hentry⟩ := List.mem_flatten.1 hentry
  obtain ⟨hquery, hplain⟩ := List.mem_filter.1 hquery
  obtain ⟨⟨field, clause⟩, hclause, rfl⟩ := List.mem_map.1 hquery
  obtain ⟨hfield, hproper⟩ := proper _ hclause
  cases clause with
  | equals value =>
    obtain rfl := List.mem_singleton.1 hentry
    exact .mk hfield (.eq value)
  | among values =>
    obtain rfl := List.mem_singleton.1 hentry
    exact .mk hfield (.among hproper)
  | within bounds =>
    obtain rfl := List.mem_singleton.1 hentry
    exact .mk hfield (.bounds (isBounds_operators hproper))
  | withinAny alternatives => cases hplain

/-- What is joined are disjunctions on one field each. -/
theorem isAlternatives_of_mem_alternativeQueries :
    ∀ query ∈ alternativeQueries predicate.clauseQueries, IsAlternatives query := by
  intro query hquery
  obtain ⟨hquery, hor⟩ := List.mem_filter.1 hquery
  obtain ⟨⟨field, clause⟩, hclause, rfl⟩ := List.mem_map.1 hquery
  obtain ⟨hfield, hproper⟩ := proper _ hclause
  obtain ⟨alternatives, rfl⟩ := (contains_or_query_iff hfield clause).1 hor
  have hbounds : ∀ operators ∈ alternatives.map Bounds.operators, IsBounds operators := by
    intro operators hoperators
    obtain ⟨bounds, hmem, rfl⟩ := List.mem_map.1 hoperators
    exact isBounds_operators (hproper.2 bounds hmem)
  have h := IsAlternatives.mk hfield (mt List.map_eq_nil_iff.1 hproper.1) hbounds
  rw [List.map_map] at h
  exact h

/-- **What a proper predicate is written as follows the grammar.** -/
theorem grammatical_query : Grammatical predicate.query := by
  have hnodup := nodup_keys_joinQueries predicate.clauseQueries
  have hquery := query_eq_append fun entry hentry => (proper entry hentry).1.1
  rw [← Predicate.query, hquery] at hnodup
  rw [hquery]
  exact .mk (isFieldEntry_of_mem_plainEntries proper)
    (isEnd_joinedAlternatives (isAlternatives_of_mem_alternativeQueries proper)) hnodup

end Proper

/-! ### Reading back what was rendered -/

/-- A list of images is read off if each image is. -/
theorem mapM_map_eq_some {α β γ : Type} {f : γ → α} {step : α → Option β} {result : γ → β}
    {items : List γ} (h : ∀ item ∈ items, step (f item) = some (result item)) :
    (items.map f).mapM step = some (items.map result) := by
  induction items with
  | nil => rfl
  | cons item rest ih =>
    rw [List.map_cons, List.mapM_cons, h item List.mem_cons_self,
      ih fun other hother => h other (List.mem_cons_of_mem _ hother)]
    rfl

/-- Bounds are read back from their operators. -/
theorem readBounds?_operators {bounds : Bounds} (h : bounds.isBounded) :
    readBounds? bounds.operators = some bounds := by
  match bounds, h with
  | ⟨some _, none⟩, _ => rfl
  | ⟨none, some _⟩, _ => rfl
  | ⟨some _, some _⟩, _ => rfl

/-- A range is read back from its operators: an operator of equality or membership is none of
them. -/
theorem readOperators?_operators {bounds : Bounds} (h : bounds.isBounded) :
    readOperators? (.document bounds.operators) = some (.within bounds) := by
  match bounds, h with
  | ⟨some _, none⟩, _ => rfl
  | ⟨none, some _⟩, _ => rfl
  | ⟨some _, some _⟩, _ => rfl

/-- Alternatives are read back from their disjunction, all of them on one field. -/
theorem readAlternatives?_withinAny (field : String) {alternatives : List Bounds}
    (h : (Clause.withinAny alternatives).Proper) :
    readAlternatives? (.array (alternatives.map fun bounds =>
        .document [(field, .document bounds.operators)]))
      = some (field, .withinAny alternatives) := by
  obtain ⟨hnonempty, hbounds⟩ := h
  have hread : (alternatives.map fun bounds =>
        Value.document [(field, .document bounds.operators)]).mapM readAlternative?
      = some (alternatives.map fun bounds => (field, bounds)) :=
    mapM_map_eq_some fun bounds hmem => by
      rw [readAlternative?, readBounds?_operators (hbounds bounds hmem)]
      rfl
  rw [readAlternatives?, hread]
  cases alternatives with
  | nil => exact absurd rfl hnonempty
  | cons bounds rest =>
    have hfield : (rest.map fun bounds => (field, bounds)).all
        (fun alternative => alternative.1 = field) = true := by
      simp
    have hrest : (rest.map fun bounds => (field, bounds)).map Prod.snd = rest := by
      rw [List.map_map]
      exact List.map_id rest
    rw [List.map_cons]
    dsimp only
    rw [if_pos hfield, hrest]

theorem readEntries?_singleton (entry : String × Value) :
    readEntries? [entry] = readItem? entry := by
  rw [readEntries?, List.mapM_cons]
  cases readItem? entry with
  | none => rfl
  | some clauses => exact congrArg some (List.append_nil clauses)

theorem readItem?_or (queries : Value) :
    readItem? (Operator.or, queries) = (readAlternatives? queries).map fun clause => [clause] :=
  if_pos rfl

theorem readItem?_and (queries : List Value) :
    readItem? (Operator.and, .array queries) = queries.mapM readJoined? := by
  have hne : Operator.and ≠ Operator.or := by decide
  rw [readItem?, if_neg hne, if_pos rfl]

/-- An entry on a field reads as the clause that it was rendered from. -/
theorem readEntries?_query_plain {field : String} {clause : Clause}
    (hfield : FieldName.IsNative field) (hproper : clause.Proper)
    (hplain : (clause.query field).contains Operator.or = false) :
    readEntries? (clause.query field) = some [(field, clause)] := by
  obtain ⟨hor, hand⟩ := ne_operators hfield.1
  have hentry (operators : Document)
      (hread : readOperators? (.document operators) = some clause) :
      readEntries? [(field, .document operators)] = some [(field, clause)] := by
    rw [readEntries?_singleton, readItem?, if_neg hor, if_neg hand, hread]
    rfl
  cases clause with
  | equals value => exact hentry _ rfl
  | among values => exact hentry _ rfl
  | within bounds => exact hentry _ (readOperators?_operators hproper)
  | withinAny alternatives => cases hplain

/-- A clause is read back from a query that is joined with others. -/
theorem readJoined?_query {field : String} {clause : Clause}
    (hfield : FieldName.IsNative field) (hproper : clause.Proper)
    (hor : (clause.query field).contains Operator.or = true) :
    readJoined? (.document (clause.query field)) = some (field, clause) := by
  obtain ⟨alternatives, rfl⟩ := (contains_or_query_iff hfield clause).1 hor
  exact readAlternatives?_withinAny field hproper

/-- Two parts of a query are read one after the other. -/
theorem readEntries?_append {fields last : Document} {clauses more : List (String × Clause)}
    (hfields : readEntries? fields = some clauses) (hlast : readEntries? last = some more) :
    readEntries? (fields ++ last) = some (clauses ++ more) := by
  obtain ⟨read, hread, rfl⟩ := Option.map_eq_some_iff.1 hfields
  obtain ⟨read', hread', rfl⟩ := Option.map_eq_some_iff.1 hlast
  rw [readEntries?, List.mapM_append, hread, hread']
  exact congrArg some List.flatten_append

/-- The query document of an entry of a predicate. -/
def entryQuery (entry : String × Clause) : Document := entry.2.query entry.1

/-- Fields are read back entry by entry. -/
theorem readEntries?_fields {entries : List (String × Clause)}
    (h : ∀ entry ∈ entries, readEntries? (entryQuery entry) = some [entry]) :
    readEntries? (entries.map entryQuery).flatten = some entries := by
  induction entries with
  | nil => rfl
  | cons entry rest ih =>
    rw [List.map_cons, List.flatten_cons]
    exact readEntries?_append (h entry List.mem_cons_self)
      (ih fun other hother => h other (List.mem_cons_of_mem _ hother))

/-- Alternatives read the same, whether they stand alone or under `$and`. -/
theorem readEntries?_of_readJoined? {query : Document} {entry : String × Clause}
    (h : readJoined? (.document query) = some entry) : readEntries? query = some [entry] := by
  match query, h with
  | [(operator, queries)], h =>
    rw [readJoined?] at h
    split at h
    · rename_i hor
      rw [hor, readEntries?_singleton, readItem?_or, h]
      rfl
    · cases h

/-- Alternatives are read back from what joins them, in each of the three ways. -/
theorem readEntries?_joinedAlternatives {entries : List (String × Clause)}
    (h : ∀ entry ∈ entries, readJoined? (.document (entryQuery entry)) = some entry) :
    readEntries? (joinedAlternatives (entries.map entryQuery)) = some entries := by
  match entries with
  | [] => rfl
  | [single] => exact readEntries?_of_readJoined? (h single List.mem_cons_self)
  | first :: second :: rest =>
    have hread : (((first :: second :: rest).map entryQuery).map Value.document).mapM readJoined?
        = some ((first :: second :: rest).map id) := by
      rw [List.map_map]
      exact mapM_map_eq_some h
    rw [List.map_id] at hread
    exact (readEntries?_singleton _).trans ((readItem?_and _).trans hread)

section Proper

variable {predicate : Predicate} (proper : predicate.Proper)
include proper

/-- Reading the query document of a predicate gives its clauses, those without
alternatives first. -/
theorem readEntries?_query :
    readEntries? predicate.query = some
      ((predicate.entries.filter fun entry => !(entryQuery entry).contains Operator.or)
        ++ predicate.entries.filter fun entry => (entryQuery entry).contains Operator.or) := by
  rw [query_eq_append fun entry hentry => (proper entry hentry).1.1]
  refine readEntries?_append ?_ ?_
  · rw [plainEntries, Predicate.clauseQueries, List.filter_map]
    refine readEntries?_fields fun entry hentry => ?_
    obtain ⟨hentry, hplain⟩ := List.mem_filter.1 hentry
    obtain ⟨hfield, hproper⟩ := proper entry hentry
    exact readEntries?_query_plain hfield hproper (by simpa using hplain)
  · rw [alternativeQueries, Predicate.clauseQueries, List.filter_map]
    refine readEntries?_joinedAlternatives fun entry hentry => ?_
    obtain ⟨hentry, hor⟩ := List.mem_filter.1 hentry
    obtain ⟨hfield, hproper⟩ := proper entry hentry
    exact readJoined?_query hfield hproper hor

/-- **Reading is the inverse of rendering.** -/
theorem read?_query : read? predicate.query = some predicate := by
  rw [read?, readEntries?_query proper]
  refine congrArg some (FieldMap.ofList_eq_of_perm ?_)
  exact List.perm_append_comm.trans (List.filter_append_perm _ _)

end Proper

end QueryDocument

namespace Filter

/-- **Rendering injects nothing and loses nothing.** The query document of a
filter has only the entries of the grammar, and reading it gives the predicate
that the filter was lowered to, so no other predicate of a filter has the same
query document. -/
theorem grammatical_and_read_query {filter : Filter} {predicate : Predicate}
    (accepted : filter.lower = .ok predicate) :
    QueryDocument.Grammatical predicate.query ∧
      QueryDocument.read? predicate.query = some predicate ∧
      ∀ {filter' : Filter} {predicate' : Predicate}, filter'.lower = .ok predicate' →
        predicate' ≠ predicate → predicate'.query ≠ predicate.query := by
  have hproper := proper_of_lower accepted
  have hread := QueryDocument.read?_query hproper
  refine ⟨QueryDocument.grammatical_query hproper, hread, fun accepted' hne hquery => hne ?_⟩
  have hread' := QueryDocument.read?_query (proper_of_lower accepted')
  rw [hquery, hread] at hread'
  exact (Option.some.inj hread').symm

/-- The filter on a name and some bands of prices, and on the stock if asked. -/
def onOffer (stock : List (Range Value)) : Filter :=
  ((empty.require "name" (.equals (.string "lamp"))).require "price"
    (.withinAny [.endingAt (.int32 5), .between (.int32 10) (.int32 20)])).require "stock"
      (.withinAny stock)

/-- Two fields with alternatives share an entry, and the document tells them
apart again; it is not the one that is rendered when the stock is not asked for. -/
theorem grammatical_and_read_query_onOffer :
    ∃ predicate unasked, (onOffer [.startingAt (.int32 1)]).lower = .ok predicate ∧
      (onOffer []).lower = .ok unasked ∧
      predicate.query
        = [("name", .document [("$eq", .string "lamp")]),
            ("$and", .array [
              .document [("$or", .array [
                .document [("price", .document [("$lte", .int32 5)])],
                .document [("price", .document [("$gte", .int32 10), ("$lte", .int32 20)])]])],
              .document [("$or", .array [
                .document [("stock", .document [("$gte", .int32 1)])]])]])] ∧
      QueryDocument.Grammatical predicate.query ∧
      QueryDocument.read? predicate.query = some predicate ∧
      unasked.query ≠ predicate.query := by
  have accepted : (onOffer [.startingAt (.int32 1)]).lower
      = .ok (((Predicate.empty.insert "name" (.equals (.string "lamp"))).insert "price"
          (.withinAny [⟨none, some (.int32 5)⟩, ⟨some (.int32 10), some (.int32 20)⟩])).insert
            "stock" (.withinAny [⟨some (.int32 1), none⟩])) := rfl
  have hunasked : (onOffer []).lower
      = .ok ((Predicate.empty.insert "name" (.equals (.string "lamp"))).insert "price"
          (.withinAny [⟨none, some (.int32 5)⟩, ⟨some (.int32 10), some (.int32 20)⟩])) := rfl
  obtain ⟨hgrammatical, hread, hdistinct⟩ := grammatical_and_read_query accepted
  refine ⟨_, _, accepted, hunasked, rfl, hgrammatical, hread, hdistinct hunasked fun h => ?_⟩
  exact absurd (congrArg (fun predicate => predicate.entries.length) h) (by decide)

end Filter

end RecordStore
