import RecordStore.Proofs.Filter.Conjunction
import RecordStore.Proofs.Predicate.Selection
import RecordStore.Proofs.Store.Find
import RecordStore.Proofs.Value.Equivalent

/-!
# What is stored is found by its own values

A caller who knows what a field of a record holds can ask for the records with
this value in the field, and the record is among them. Three things have to go
together for this. The names that a schema admits are names that a filter admits,
and so are those of the attributes that a store assigns
(`RecordStore.Document.Shaped.isTopLevel`). The value is not changed when the filter
is lowered: only a text on the identifier would be, and an identifier is never held
as a text. And the value equals itself, as long as there is no NaN within it.

So the filter is accepted, and the record passes it
(`RecordStore.Document.Shaped.metAlone_equals`). Since a store in memory keeps its
records, the record is found from then on
(`RecordStore.MemoryStore.exec_find_own_value`); where the field holds an array, it is
found by each member of the array too.
-/

namespace RecordStore

namespace Document

variable {schema : Schema} {record : Document}

/-- **The attributes of a record are top-level fields.** -/
theorem Shaped.isTopLevel (shaped : record.Shaped schema) (checked : schema.check = .ok ())
    {name : String} (h : name ∈ record.keys) : FieldName.isTopLevel name = true := by
  have hreserved : ∀ name ∈ FieldName.reserved, FieldName.isTopLevel name = true := by decide
  rw [shaped.keys] at h
  rcases List.mem_append.1 h with hfront | htrailer
  · rcases List.mem_cons.1 hfront with rfl | hdeclared
    · exact hreserved _ (by decide)
    · exact ((Schema.check_eq_ok_iff.1 checked).1 name (List.mem_of_mem_filter hdeclared)).1
  · exact hreserved name (Collection.names_trailer_subset htrailer)

/-- What a record holds is not changed by lowering. -/
theorem Shaped.lower_eq_self (shaped : record.Shaped schema) {field : String}
    {value wanted : Value} (held : record.get? field = some value)
    (h : wanted ∈ QueryDocument.candidates value) : wanted.lower field = wanted := by
  by_cases hfield : field = FieldName.nativeId
  · -- the identifier of a record is no text
    obtain ⟨id, hid⟩ := shaped.identified
    rw [hfield, hid] at held
    obtain rfl := Option.some.inj held
    rw [List.mem_singleton.1 h]
    rfl
  · cases wanted with
    | string text => rw [Value.lower, if_neg hfield]
    | _ => rfl

end Document

namespace Value

variable {value wanted : Value}

/-- A value without a NaN equals itself, and so does each member of it. -/
theorem equivalent_self_of_mem_candidates (wellFormed : value.WellFormed)
    (nanFree : value.NaNFree) (h : wanted ∈ QueryDocument.candidates value) :
    wanted.equivalent wanted = true := by
  cases value with
  | array items =>
    rcases List.mem_cons.1 h with rfl | hmem
    · exact (equivalent_self_iff _ wellFormed).2 nanFree
    · exact (equivalent_self_iff wanted (wellFormedItems_iff.1 wellFormed wanted hmem)).2
        (nanFreeItems_iff.1 nanFree wanted hmem)
  | _ =>
    rw [List.mem_singleton.1 h]
    exact (equivalent_self_iff _ wellFormed).2 nanFree

end Value

/-- **A record passes the filter that asks for what it holds.** -/
theorem Document.Shaped.metAlone_equals {schema : Schema} {record : Document}
    (shaped : record.Shaped schema) (checked : schema.check = .ok ()) {field : String}
    {value wanted : Value} (held : record.get? (FieldName.native field) = some value)
    (wellFormed : value.WellFormed) (nanFree : value.NaNFree)
    (h : wanted ∈ QueryDocument.candidates value) :
    Filter.MetAlone record field (.equals wanted) := by
  have hname : FieldName.isTopLevel field = true := by
    by_cases hpublic : field = FieldName.publicId
    · rw [hpublic]
      decide
    · have hkey := Entries.mem_keys_of_mem (Entries.mem_of_get?_eq_some held)
      rw [Filter.native_eq_self hpublic] at hkey
      exact shaped.isTopLevel checked hkey
  refine ⟨_, Filter.lower_alone.2 ⟨⟨hname, _, rfl⟩, rfl⟩,
    (Filter.holds_addClause_empty record field _).2 fun clause hclause => ?_⟩
  obtain rfl : Clause.equals wanted = clause := by
    have hlower : (Condition.equals wanted).lower (FieldName.native field)
        = .ok (some (.equals wanted)) := by
      rw [Condition.lower, shaped.lower_eq_self held h]
    exact Option.some.inj ((Condition.clause?_eq_of_lower hlower).symm.trans hclause)
  rw [Document.read, held, Option.getD_some, Clause.holds, ← QueryDocument.any_candidates,
    List.any_eq_true]
  exact ⟨wanted, h, Value.equivalent_self_of_mem_candidates wellFormed nanFree h⟩

namespace Collection

/-- What a payload of well-formed values turns into has well-formed values. -/
theorem wellFormed_of_prepare {schema : Schema} (checked : schema.check = .ok ()) {stamp : Stamp}
    {payload record : Document} (prepared : prepare schema stamp payload = .ok record)
    (wellFormed : (Value.document payload).WellFormed) {name : String} {value : Value}
    (held : record.get? name = some value) : value.WellFormed := by
  obtain ⟨-, rfl⟩ := (prepare_eq_ok_iff checked).1 prepared
  rcases List.mem_cons.1 (Entries.mem_of_get?_eq_some held) with hid | hmem
  · cases hid
    trivial
  · rcases List.mem_append.1 hmem with hdeclared | htrailer
    · obtain ⟨field, -, hsupplied⟩ := List.mem_filterMap.1 hdeclared
      obtain ⟨supplied, hget, hentry⟩ := Option.map_eq_some_iff.1 hsupplied
      cases hentry
      have hpayload := (Option.filter_eq_some_iff.1 hget).1
      exact Value.wellFormedEntries_iff.1 wellFormed.2 _ (Entries.mem_of_get?_eq_some hpayload)
    · -- two dates and a number
      simp only [trailer, List.mem_cons, List.not_mem_nil, or_false, Prod.mk.injEq] at htrailer
      rcases htrailer with ⟨-, rfl⟩ | ⟨-, rfl⟩ | ⟨-, rfl⟩ <;> trivial

/-- A find without a window returns every record that meets the predicate. -/
theorem mem_find_iff {collection : Collection} {predicate : Predicate}
    {sort : List (String × SortOrder)} {record : Document} :
    record ∈ collection.find predicate ⟨sort, none, none⟩ ↔
      record ∈ collection.records ∧ predicate.holds record = true := by
  have harrange : record ∈ FindOptions.arrange ⟨sort, none, none⟩ (collection.matching predicate) ↔
      record ∈ collection.matching predicate := by
    rw [FindOptions.arrange]
    split
    · rfl
    · exact List.mem_mergeSort
  rw [← List.mem_filter]
  exact harrange

end Collection

namespace MemoryStore

/-- **What was inserted stays** in the collection, whatever is called later. -/
theorem exists_bound_of_insertOne {store next : MemoryStore} (checked : store.Checked)
    {name : String} {stamp : Stamp} {payload record : Document}
    (inserted : (insertOne name stamp payload).exec store = (.ok record, next))
    (later : List Call) :
    ∃ collection, (next.afterAll later).bound? name = some collection ∧
      collection.schema.check = .ok () ∧
      Collection.prepare collection.schema stamp payload = .ok record ∧
      record ∈ collection.records := by
  rcases insertOne_cases checked name stamp payload with
    ⟨failure, h⟩ | ⟨collection, made, grown, found, prepared, pushed, h⟩
  · rw [h] at inserted
    cases inserted
  · rw [h] at inserted
    cases inserted
    obtain ⟨hschema, hrecords⟩ := Collection.schema_and_records_of_pushAll pushed
    have hcheck : grown.schema.check = .ok () := hschema ▸ checked name collection found
    obtain ⟨final, hfinal, hkept, hprefix⟩ := extends_afterAll (checked.set name hcheck) later name
      grown (bound?_set_self store name grown)
    have hschemas : final.schema = collection.schema := hkept.trans hschema
    refine ⟨final, hfinal, ?_, ?_, hprefix.subset ?_⟩
    · rw [hschemas]
      exact checked name collection found
    · rw [hschemas]
      obtain ⟨hprepare, -⟩ := List.forall₂_cons.1 (Collection.prepareAll_eq_ok_iff.1 prepared)
      exact hprepare
    · rw [hrecords]
      exact List.mem_append_right _ (List.mem_singleton_self record)

/-- **A record is found by its own values.** From when it was inserted on, the
filter that asks for what one of its fields holds, or for a member of the array that
it holds, is accepted and finds the record among others; unless there is a NaN within
the value. -/
theorem exec_find_own_value {earlier : List Call} {next : MemoryStore} {name : String}
    {stamp : Stamp} {payload record : Document}
    (wellFormed : (Value.document payload).WellFormed)
    (inserted : (insertOne name stamp payload).exec (empty.afterAll earlier) = (.ok record, next))
    (later : List Call) {field : String} {value wanted : Value}
    (held : record.get? (FieldName.native field) = some value) (nanFree : value.NaNFree)
    (h : wanted ∈ QueryDocument.candidates value) (sort : List (String × SortOrder)) :
    ∃ predicate records, (Filter.alone field (.equals wanted)).lower = .ok predicate ∧
      (find name predicate ⟨sort, none, none⟩).exec (next.afterAll later)
        = (.ok records, next.afterAll later) ∧
      record ∈ records := by
  obtain ⟨collection, found, checked, prepared, hmem⟩ :=
    exists_bound_of_insertOne (checked_afterAll checked_empty earlier) inserted later
  have hvalue := Collection.wellFormed_of_prepare checked prepared wellFormed held
  obtain ⟨predicate, hlower, hholds⟩ := (Collection.shaped_of_prepare_eq_ok checked
    prepared).metAlone_equals checked held hvalue nanFree h
  exact ⟨predicate, _, hlower, exec_find_of_bound found predicate ⟨sort, none, none⟩,
    Collection.mem_find_iff.2 ⟨hmem, hholds⟩⟩

/-- The document that stands for a corner of a shape. -/
def corner : Value := .document [("x", .int32 1), ("y", .double ⟨0⟩)]

/-- The payload of a shape that has a name and a corner for its parts. -/
def shape : Document := [("parts", .array [.string "frame", corner])]

/-- A run that binds a collection of shapes. -/
def noShapes : List Call := [.bindModel "shapes" ⟨[⟨"parts", .array, true⟩]⟩]

/-- A run that stores another shape. -/
def anotherShape : List Call := [.insertOne "shapes" ⟨.ofParts 0 2, ⟨0⟩⟩ shape]

/-- A shape is found by its identifier, and by a document among its parts, also once
another shape has been stored. -/
theorem exec_find_shape :
    ∃ record next, (insertOne "shapes" ⟨.ofParts 0 1, ⟨0⟩⟩ shape).exec (empty.afterAll noShapes)
        = (.ok record, next) ∧
      ∀ asked ∈ [("id", Value.objectId (.ofParts 0 1)), ("parts", corner)],
        ∃ predicate records, (Filter.alone asked.1 (.equals asked.2)).lower = .ok predicate ∧
          (find "shapes" predicate .all).exec (next.afterAll anotherShape)
            = (.ok records, next.afterAll anotherShape) ∧
          record ∈ records := by
  have wellFormed : (Value.document shape).WellFormed := by
    simp [shape, corner, Value.WellFormed, Value.WellFormedEntries, Value.WellFormedItems]
  have nanFree : (Value.array [.string "frame", corner]).NaNFree := by
    simp only [corner, Value.NaNFree, Value.NaNFreeItems, Value.NaNFreeEntries]
    decide
  have stored : ∃ record next,
      (insertOne "shapes" ⟨.ofParts 0 1, ⟨0⟩⟩ shape).exec (empty.afterAll noShapes)
        = (.ok record, next) ∧
      record.get? (FieldName.native "id") = some (.objectId (.ofParts 0 1)) ∧
      record.get? (FieldName.native "parts") = some (.array [.string "frame", corner]) :=
    ⟨_, _, rfl, rfl, rfl⟩
  obtain ⟨record, next, inserted, hid, hparts⟩ := stored
  refine ⟨record, next, inserted, List.forall_mem_cons.2 ⟨?_, List.forall_mem_singleton.2 ?_⟩⟩
  · exact exec_find_own_value wellFormed inserted anotherShape hid (by trivial) (.head _) []
  · exact exec_find_own_value wellFormed inserted anotherShape hparts nanFree
      (.tail _ (.tail _ (.head _))) []

end MemoryStore

end RecordStore
