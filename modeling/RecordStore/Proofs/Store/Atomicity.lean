import RecordStore.Proofs.Store.Calls

/-!
# All or nothing

An operation on a store in memory is not undone when it fails, and need not be:
in a store that calls have reached, it fails before it has changed anything.
What an operation does otherwise is gathered in
`RecordStore.MemoryStore.Transactional` and proved in
`RecordStore.MemoryStore.transactional_afterAll`. Insertions append to one
collection (`RecordStore.MemoryStore.Appended`), bindings add an empty one, and
a batch is stored exactly when each of its payloads could be stored alone: then
it ends as the single insertions do, and otherwise it fails as the first payload
that is refused (`RecordStore.Collection.refusal?`).
-/

namespace RecordStore

namespace Collection

/-- How the first payload of a batch that does not conform is refused. -/
def refusal? (collection : Collection) (payloads : List (Stamp × Document)) : Option Failure :=
  payloads.findSome? fun item => (collection.schema.conform item.2).failure?

/-- A payload fails to become a record as it fails to conform. -/
theorem failure?_prepare (schema : Schema) (stamp : Stamp) (payload : Document) :
    (prepare schema stamp payload).failure? = (schema.conform payload).failure? := by
  rw [prepare]
  cases schema.conform payload <;> rfl

/-- A batch is refused as a whole exactly when some payload is refused, and as the first one is.
-/
theorem prepareAll_eq_error_iff_refusal? {collection : Collection}
    {payloads : List (Stamp × Document)} {failure : Failure} :
    prepareAll collection.schema payloads = .error failure ↔
      collection.refusal? payloads = some failure := by
  rw [prepareAll_eq_error_iff, refusal?]
  simp only [failure?_prepare]

/-- A batch without a refused payload is prepared. -/
theorem exists_prepareAll_of_refusal?_eq_none {collection : Collection}
    {payloads : List (Stamp × Document)} (h : collection.refusal? payloads = none) :
    ∃ records, prepareAll collection.schema payloads = .ok records := by
  cases hprepared : prepareAll collection.schema payloads with
  | ok records => exact ⟨records, rfl⟩
  | error failure =>
    rw [prepareAll_eq_error_iff_refusal?.1 hprepared] at h
    exact absurd h (by simp)

end Collection

namespace MemoryStore

/-- Whether the records of some payloads were added to a collection, and nothing
else was done: the collection keeps its schema, its records are the old ones
followed by one for each payload, and the other collections are the same. -/
def Appended (store : MemoryStore) (name : String) (payloads : List (Stamp × Document))
    (records : List Document) (next : MemoryStore) : Prop :=
  ∃ collection grown, store.bound? name = some collection ∧ next.bound? name = some grown ∧
    grown.schema = collection.schema ∧ grown.records = collection.records ++ records ∧
    List.Forall₂ (fun item record =>
      Collection.prepare collection.schema item.1 item.2 = .ok record) payloads records ∧
    ∀ other, other ≠ name → next.bound? other = store.bound? other

/-- What a store in memory promises of each operation. -/
structure Transactional (store : MemoryStore) : Prop where
  /-- An operation that fails changes nothing. -/
  failed : ∀ (call : Call) failure next, call.action.exec store = (.error failure, next) →
    next = store
  /-- A payload that is inserted adds its record. -/
  insertedOne : ∀ name stamp payload record next,
    (insertOne name stamp payload).exec store = (.ok record, next) →
      store.Appended name [(stamp, payload)] [record] next
  /-- A batch that is inserted adds its records. -/
  insertedMany : ∀ name payloads records next,
    (insertMany name payloads).exec store = (.ok records, next) →
      store.Appended name payloads records next
  /-- A name that is bound was free, has an empty collection then, and keeps the
  schema of it. -/
  bound : ∀ name schema next, (bindModel name schema).exec store = (.ok (), next) →
    store.bound? name = none ∧ next.bound? name = some (.empty schema) ∧
      (∀ other, other ≠ name → next.bound? other = store.bound? other) ∧
      ∀ calls, ∃ collection, (next.afterAll calls).bound? name = some collection ∧
        collection.schema = schema
  /-- A batch of payloads that all conform is stored, and stored as they are one
  after the other. -/
  conforming : ∀ name collection payloads, store.bound? name = some collection →
    collection.refusal? payloads = none →
      (∃ records, ((insertMany name payloads).exec store).1 = .ok records) ∧
        (insertMany name payloads).exec store
          = (payloads.mapM fun item => insertOne name item.1 item.2).exec store
  /-- Any other batch fails as the first payload that does not conform. -/
  refused : ∀ name collection payloads failure, store.bound? name = some collection →
    collection.refusal? payloads = some failure →
      (insertMany name payloads).exec store = (.error failure, store)

variable {store next : MemoryStore} {name : String}

/-! ### Operations that fail -/

/-- A call that fails changes nothing. -/
theorem Change.eq_of_error {call : Call} {failure : Failure}
    (h : Change store call (.error failure) next) : next = store := by
  cases h
  rfl

/-! ### Operations that store -/

/-- The records of a prepared batch are appended to their collection, and to no other. -/
theorem appended_set {collection grown : Collection} (found : store.bound? name = some collection)
    {payloads : List (Stamp × Document)} {records : List Document}
    (prepared : Collection.prepareAll collection.schema payloads = .ok records)
    (pushed : collection.pushAll records = .ok grown) :
    store.Appended name payloads records (store.set name grown) := by
  obtain ⟨hschema, hrecords⟩ := Collection.schema_and_records_of_pushAll pushed
  exact ⟨collection, grown, found, bound?_set_self store name grown, hschema, hrecords,
    Collection.prepareAll_eq_ok_iff.1 prepared, bound?_set_of_ne store grown⟩

/-- **A payload that is stored is appended.** -/
theorem appended_of_insertOne (checked : store.Checked) {stamp : Stamp}
    {payload record : Document}
    (h : (insertOne name stamp payload).exec store = (.ok record, next)) :
    store.Appended name [(stamp, payload)] [record] next := by
  rcases insertOne_cases checked name stamp payload with
    ⟨failure, hfailed⟩ | ⟨collection, made, grown, found, prepared, pushed, hstored⟩
  · exact absurd (congrArg Prod.fst (h.symm.trans hfailed)) (by simp)
  · obtain ⟨hrecord, rfl⟩ := Prod.mk.inj (h.symm.trans hstored)
    rw [Except.ok.inj hrecord]
    exact appended_set found prepared pushed

/-- **A batch that is stored is appended**, record by record. -/
theorem appended_of_insertMany (checked : store.Checked) {payloads : List (Stamp × Document)}
    {records : List Document}
    (h : (insertMany name payloads).exec store = (.ok records, next)) :
    store.Appended name payloads records next := by
  rcases insertMany_cases checked name payloads with
    ⟨failure, hfailed⟩ | ⟨collection, made, grown, found, prepared, pushed, hstored⟩
  · exact absurd (congrArg Prod.fst (h.symm.trans hfailed)) (by simp)
  · obtain ⟨hrecords, rfl⟩ := Prod.mk.inj (h.symm.trans hstored)
    rw [Except.ok.inj hrecords]
    exact appended_set found prepared pushed

/-! ### Operations that bind -/

/-- A collection is bound empty, under a schema that was checked, and was not bound before. -/
theorem eq_set_of_bindModel {schema : Schema}
    (h : (bindModel name schema).exec store = (.ok (), next)) :
    schema.check = .ok () ∧ store.bound? name = none ∧ next = store.set name (.empty schema) := by
  rcases bindModel_cases store name schema with ⟨failure, hfailed⟩ | ⟨hcheck, free, hbound⟩
  · exact absurd (congrArg Prod.fst (h.symm.trans hfailed)) (by simp)
  · exact ⟨hcheck, free, (Prod.mk.inj (h.symm.trans hbound)).2⟩

/-! ### Batches -/

/-- **A batch of conforming payloads is stored**, and as if one payload was stored after the
other. -/
theorem insertMany_conforming (checked : store.Checked) {collection : Collection}
    (found : store.bound? name = some collection) {payloads : List (Stamp × Document)}
    (h : collection.refusal? payloads = none) :
    (∃ records, ((insertMany name payloads).exec store).1 = .ok records) ∧
      (insertMany name payloads).exec store
        = (payloads.mapM fun item => insertOne name item.1 item.2).exec store := by
  obtain ⟨records, prepared⟩ := Collection.exists_prepareAll_of_refusal?_eq_none h
  obtain ⟨grown, pushed⟩ := Collection.exists_pushAll_of_prepareAll
    (checked name collection found) prepared collection
  rw [exec_insertMany_of_ok found prepared pushed, exec_mapM_insertOne_of_ok found prepared pushed]
  exact ⟨⟨records, rfl⟩, rfl⟩

/-! ### Every run -/

/-- **In every reachable store, operations are all or nothing**: one that fails
leaves the store as it was, one that succeeds adds what it says and nothing
else, and a batch is as good as its payloads one after the other. -/
theorem transactional_afterAll (calls : List Call) : (empty.afterAll calls).Transactional := by
  -- all that reachability gives, and all that is needed, is that schemas are checked
  have checked := checked_afterAll checked_empty calls
  generalize empty.afterAll calls = store at checked
  constructor
  case failed =>
    intro call failure next h
    have hchange := change checked call
    rw [h] at hchange
    exact hchange.eq_of_error
  case insertedOne => exact fun _ _ _ _ _ h => appended_of_insertOne checked h
  case insertedMany => exact fun _ _ _ _ h => appended_of_insertMany checked h
  case bound =>
    intro name schema next h
    obtain ⟨hcheck, hfree, rfl⟩ := eq_set_of_bindModel h
    -- later calls only extend the store, the empty collection included
    refine ⟨hfree, bound?_set_self store name _, bound?_set_of_ne store _, fun later => ?_⟩
    have hchecked : (store.set name (.empty schema)).Checked := checked.set name hcheck
    obtain ⟨collection, hfound, hschema, -⟩ :=
      extends_afterAll hchecked later name _ (bound?_set_self store name _)
    exact ⟨collection, hfound, hschema⟩
  case conforming => exact fun _ _ _ found h => insertMany_conforming checked found h
  case refused =>
    intro name collection payloads failure found h
    exact exec_insertMany_of_error found (Collection.prepareAll_eq_error_iff_refusal?.2 h)

/-- The run that binds a collection of names. -/
def peopleBound : List Call :=
  [.bindModel "people" ⟨[⟨"name", .string, true⟩]⟩]

/-- Two payloads, the second one without a name. -/
def oneUnnamed : List (Stamp × Document) :=
  [(⟨.ofParts 0 0, .ofMillis 1700000000000⟩, [("name", .string "a")]),
    (⟨.ofParts 0 1, .ofMillis 1700000000000⟩, [])]

/-- A payload without a name keeps the whole batch out. -/
theorem exec_insertMany_oneUnnamed :
    (insertMany "people" oneUnnamed).exec (empty.afterAll peopleBound)
      = (.error (.validation (.required "name")), empty.afterAll peopleBound) := by
  have hbound : ∃ collection, (empty.afterAll peopleBound).bound? "people" = some collection ∧
      collection.refusal? oneUnnamed = some (.validation (.required "name")) := ⟨_, rfl, rfl⟩
  obtain ⟨collection, found, hrefused⟩ := hbound
  exact (transactional_afterAll peopleBound).refused "people" collection oneUnnamed _ found hrefused

end MemoryStore

end RecordStore
