import RecordStore.Proofs.Action
import RecordStore.Proofs.Entries
import RecordStore.Proofs.Record.Prepared

/-!
# The operations of a store in memory

What each operation comes to in a store, and what it leaves behind. An operation
on an unbound collection fails at once, and so does one whose schema or payload
is refused; each of these failures comes before the first write. A payload that
was made into a record is then stored without fail, because the record carries
an identifier under which it is indexed
(`RecordStore.Collection.exists_pushAll`). This is where a batch might stop half
way, and does not (`RecordStore.MemoryStore.exec_insertMany_of_ok`).

The last section inserts payloads one after the other, and comes to the same
(`RecordStore.MemoryStore.exec_mapM_insertOne_of_ok`).
-/

namespace RecordStore

namespace Collection

/-- The records that payloads turn into, each under its own stamp. -/
def prepareAll (schema : Schema) (payloads : List (Stamp × Document)) : Outcome (List Document) :=
  payloads.mapM fun (stamp, payload) => prepare schema stamp payload

/-- Adds records at the end, one after the other. -/
def pushAll (collection : Collection) (records : List Document) : Outcome Collection :=
  records.foldlM push collection

/-- A batch is prepared payload by payload. -/
theorem prepareAll_eq_ok_iff {schema : Schema} {payloads : List (Stamp × Document)}
    {records : List Document} :
    prepareAll schema payloads = .ok records ↔
      List.Forall₂ (fun item record => prepare schema item.1 item.2 = .ok record)
        payloads records :=
  Outcome.mapM_eq_ok_iff

/-- A batch is refused as the first of its payloads that is. -/
theorem prepareAll_eq_error_iff {schema : Schema} {payloads : List (Stamp × Document)}
    {failure : Failure} :
    prepareAll schema payloads = .error failure ↔
      (payloads.findSome? fun item => (prepare schema item.1 item.2).failure?) = some failure :=
  Outcome.mapM_eq_error_iff

/-! ### Adding records -/

/-- A record is stored when it has an identifier: at the end, and its place is entered under the
identifier. -/
theorem push_eq_ok_iff {collection grown : Collection} {record : Document} :
    collection.push record = .ok grown ↔ ∃ id, record.identifier? = some id ∧
      grown = { collection with
        records := collection.records ++ [record]
        index := (id, collection.records.length) :: collection.index } := by
  rw [push]
  split
  · rename_i id hget
    have hid := Document.identifier?_eq_some_iff.2 hget
    constructor
    · intro h
      exact ⟨id, hid, (Except.ok.inj h).symm⟩
    · rintro ⟨other, hother, rfl⟩
      rw [Option.some.inj (hid.symm.trans hother)]
  · rename_i hnone
    constructor
    · intro h
      exact absurd h (by simp)
    · rintro ⟨id, hid, -⟩
      exact absurd (Document.identifier?_eq_some_iff.1 hid) (hnone id)

@[simp] theorem pushAll_nil (collection : Collection) : collection.pushAll [] = .ok collection :=
  rfl

/-- Records are stored one after the other. -/
theorem pushAll_cons_eq_ok_iff {collection grown : Collection} {record : Document}
    {rest : List Document} :
    collection.pushAll (record :: rest) = .ok grown ↔
      ∃ next, collection.push record = .ok next ∧ next.pushAll rest = .ok grown := by
  rw [pushAll, List.foldlM_cons, Outcome.bind_eq_ok_iff]
  rfl

/-- Storing one record is storing a list of it. -/
theorem pushAll_singleton {collection grown : Collection} {record : Document} :
    collection.pushAll [record] = .ok grown ↔ collection.push record = .ok grown := by
  rw [pushAll_cons_eq_ok_iff]
  constructor
  · rintro ⟨next, hnext, h⟩
    rw [hnext]
    exact h
  · intro h
    exact ⟨grown, h, rfl⟩

/-- **Records that carry identifiers can always be added.** -/
theorem exists_pushAll {records : List Document}
    (h : ∀ record ∈ records, ∃ id, record.identifier? = some id) (collection : Collection) :
    ∃ grown, collection.pushAll records = .ok grown := by
  induction records generalizing collection with
  | nil => exact ⟨collection, rfl⟩
  | cons record rest ih =>
    obtain ⟨id, hid⟩ := h record List.mem_cons_self
    have hpush : collection.push record = .ok _ := push_eq_ok_iff.2 ⟨id, hid, rfl⟩
    obtain ⟨grown, hgrown⟩ := ih (fun other hother => h other (List.mem_cons_of_mem _ hother)) _
    exact ⟨grown, pushAll_cons_eq_ok_iff.2 ⟨_, hpush, hgrown⟩⟩

/-- Adding records leaves the schema and the records that are there. -/
theorem schema_and_records_of_pushAll {collection grown : Collection} {records : List Document}
    (h : collection.pushAll records = .ok grown) :
    grown.schema = collection.schema ∧ grown.records = collection.records ++ records := by
  induction records generalizing collection with
  | nil =>
    rw [pushAll_nil] at h
    rw [← Except.ok.inj h, List.append_nil]
    exact ⟨rfl, rfl⟩
  | cons record rest ih =>
    obtain ⟨next, hnext, hrest⟩ := pushAll_cons_eq_ok_iff.1 h
    obtain ⟨id, -, rfl⟩ := push_eq_ok_iff.1 hnext
    obtain ⟨hschema, hrecords⟩ := ih hrest
    refine ⟨hschema, hrecords.trans ?_⟩
    rw [List.append_assoc, List.singleton_append]

/-! ### Adding what was made out of payloads -/

/-- Every prepared record comes from a payload. -/
theorem exists_of_mem_prepareAll {schema : Schema} {payloads : List (Stamp × Document)}
    {records : List Document} (h : prepareAll schema payloads = .ok records)
    {record : Document} (hrecord : record ∈ records) :
    ∃ item ∈ payloads, prepare schema item.1 item.2 = .ok record := by
  have hprepared := prepareAll_eq_ok_iff.1 h
  clear h
  induction hprepared with
  | nil => exact absurd hrecord List.not_mem_nil
  | cons hfirst _ ih =>
    rcases List.mem_cons.1 hrecord with rfl | hrest
    · exact ⟨_, List.mem_cons_self, hfirst⟩
    · obtain ⟨item, hitem, hprepare⟩ := ih hrest
      exact ⟨item, List.mem_cons_of_mem _ hitem, hprepare⟩

/-- The records made out of payloads carry the identifiers of their stamps. -/
theorem identifiers_of_prepareAll {schema : Schema} (checked : schema.check = .ok ())
    {payloads : List (Stamp × Document)} {records : List Document}
    (h : prepareAll schema payloads = .ok records) :
    records.filterMap Document.identifier? = payloads.map fun item => item.1.id := by
  have hprepared := prepareAll_eq_ok_iff.1 h
  clear h
  induction hprepared with
  | nil => rfl
  | cons hrecord _ ih =>
    rw [List.filterMap_cons_some (identifier?_of_prepare_eq_ok checked hrecord), ih, List.map_cons]

/-- What a checked schema admits can be added. -/
theorem exists_pushAll_of_prepareAll {schema : Schema} (checked : schema.check = .ok ())
    {payloads : List (Stamp × Document)} {records : List Document}
    (h : prepareAll schema payloads = .ok records) (collection : Collection) :
    ∃ grown, collection.pushAll records = .ok grown := by
  refine exists_pushAll (fun record hrecord => ?_) collection
  obtain ⟨item, -, hprepare⟩ := exists_of_mem_prepareAll h hrecord
  exact ⟨item.1.id, identifier?_of_prepare_eq_ok checked hprepare⟩

end Collection

namespace MemoryStore

variable {store : MemoryStore} {name : String} {collection grown : Collection}

/-- The collection that a store has under a name. -/
def bound? (store : MemoryStore) (name : String) : Option Collection :=
  store.collections.get? name

/-- The store with a collection under a name. -/
def set (store : MemoryStore) (name : String) (collection : Collection) : MemoryStore :=
  ⟨store.collections.insert name collection⟩

@[simp] theorem bound?_set_self (store : MemoryStore) (name : String) (collection : Collection) :
    (store.set name collection).bound? name = some collection :=
  Entries.get?_insert_self _ _ _

theorem bound?_set_of_ne (store : MemoryStore) (collection : Collection) (other : String)
    (h : other ≠ name) : (store.set name collection).bound? other = store.bound? other :=
  Entries.get?_insert_of_ne _ _ (Ne.symm h)

/-- What a store has after a collection was put under a name is this collection,
or was there before. -/
theorem bound?_set_eq_some {other : String} {found : Collection}
    (h : (store.set name collection).bound? other = some found) :
    other = name ∧ found = collection ∨ store.bound? other = some found := by
  by_cases hname : other = name
  · subst hname
    rw [bound?_set_self] at h
    exact .inl ⟨rfl, (Option.some.inj h).symm⟩
  · rw [bound?_set_of_ne store collection other hname] at h
    exact .inr h

theorem set_eq_self (h : store.bound? name = some collection) :
    store.set name collection = store := by
  rw [set, Entries.insert_eq_self h]

theorem set_set (store : MemoryStore) (name : String) (collection grown : Collection) :
    (store.set name collection).set name grown = store.set name grown := by
  rw [set, set, Entries.insert_insert]
  rfl

/-! ### Reaching a collection -/

theorem exec_collection_of_bound (h : store.bound? name = some collection) :
    (MemoryStore.collection name).exec store = (.ok collection, store) := by
  rw [MemoryStore.collection, Action.exec_bind_of_ok (Action.exec_get store),
    show store.collections.get? name = some collection from h]
  rfl

theorem exec_collection_of_unbound (h : store.bound? name = none) :
    (MemoryStore.collection name).exec store = (.error (.unbound name), store) := by
  rw [MemoryStore.collection, Action.exec_bind_of_ok (Action.exec_get store),
    show store.collections.get? name = none from h]
  exact Action.exec_throw (.unbound name) store

/-! ### Binding -/

/-- A schema that fails its check is not bound. -/
theorem exec_bindModel_of_refused {schema : Schema} {failure : Failure}
    (h : schema.check = .error failure) :
    (bindModel name schema).exec store = (.error failure, store) := by
  rw [bindModel, h]
  rfl

/-- A name is not bound twice. -/
theorem exec_bindModel_of_bound {schema : Schema} (checked : schema.check = .ok ())
    (h : store.bound? name = some collection) :
    (bindModel name schema).exec store = (.error (.alreadyBound name), store) := by
  have hcontains : store.collections.contains name = true := by
    rw [Entries.contains, show store.collections.get? name = some collection from h]
    rfl
  rw [bindModel, checked, Action.exec_bind_of_ok (Action.exec_ofOutcome _ store),
    Action.exec_bind_of_ok (Action.exec_get store), if_pos hcontains]
  exact Action.exec_throw (.alreadyBound name) store

/-- A checked schema is bound under a free name, to an empty collection. -/
theorem exec_bindModel_of_free {schema : Schema} (checked : schema.check = .ok ())
    (h : store.bound? name = none) :
    (bindModel name schema).exec store = (.ok (), store.set name (.empty schema)) := by
  have hcontains : ¬ store.collections.contains name = true := by
    rw [Entries.contains, show store.collections.get? name = none from h]
    exact Bool.false_ne_true
  rw [bindModel, checked, Action.exec_bind_of_ok (Action.exec_ofOutcome _ store),
    Action.exec_bind_of_ok (Action.exec_get store), if_neg hcontains]
  exact Action.exec_modify _ store

/-! ### Adding records to a collection -/

/-- A record is stored in its collection. -/
theorem exec_push (h : store.bound? name = some collection) {record : Document}
    (pushed : collection.push record = .ok grown) :
    (push name record).exec store = (.ok (), store.set name grown) := by
  rw [push, Action.exec_bind_of_ok (exec_collection_of_bound h), pushed]
  rfl

/-- Records are stored in their collection, one after the other. -/
theorem exec_forM_push (h : store.bound? name = some collection) {records : List Document}
    (pushed : collection.pushAll records = .ok grown) :
    (records.forM (push name)).exec store = (.ok (), store.set name grown) := by
  induction records generalizing store collection with
  | nil =>
    rw [Collection.pushAll_nil] at pushed
    rw [← Except.ok.inj pushed, set_eq_self h]
    rfl
  | cons record rest ih =>
    obtain ⟨next, hnext, hrest⟩ := Collection.pushAll_cons_eq_ok_iff.1 pushed
    -- every push finds the collection that the one before it put there
    show Action.exec (push name record >>= fun _ => rest.forM (push name)) store = _
    rw [Action.exec_bind_of_ok (exec_push h hnext),
      ih (bound?_set_self store name next) hrest, set_set]

/-! ### Inserting one payload -/

theorem exec_insertOne_of_unbound (h : store.bound? name = none) (stamp : Stamp)
    (payload : Document) :
    (insertOne name stamp payload).exec store = (.error (.unbound name), store) := by
  rw [insertOne, Action.exec_bind_of_error (exec_collection_of_unbound h)]

/-- A payload that is refused is not stored. -/
theorem exec_insertOne_of_error (h : store.bound? name = some collection) {stamp : Stamp}
    {payload : Document} {failure : Failure}
    (refused : Collection.prepare collection.schema stamp payload = .error failure) :
    (insertOne name stamp payload).exec store = (.error failure, store) := by
  rw [insertOne, Action.exec_bind_of_ok (exec_collection_of_bound h), refused]
  rfl

/-- A payload that was made into a record is stored. -/
theorem exec_insertOne_of_ok (h : store.bound? name = some collection) {stamp : Stamp}
    {payload record : Document}
    (prepared : Collection.prepare collection.schema stamp payload = .ok record)
    (pushed : collection.push record = .ok grown) :
    (insertOne name stamp payload).exec store = (.ok record, store.set name grown) := by
  rw [insertOne, Action.exec_bind_of_ok (exec_collection_of_bound h), prepared,
    Action.exec_bind_of_ok (Action.exec_ofOutcome _ store),
    Action.exec_bind_of_ok (exec_push h pushed)]
  rfl

/-! ### Inserting a batch -/

theorem insertMany_eq (name : String) (payloads : List (Stamp × Document)) :
    insertMany name payloads = do
      let collection ← MemoryStore.collection name
      let records ← Action.ofOutcome (Collection.prepareAll collection.schema payloads)
      records.forM (push name)
      return records := rfl

theorem exec_insertMany_of_unbound (h : store.bound? name = none)
    (payloads : List (Stamp × Document)) :
    (insertMany name payloads).exec store = (.error (.unbound name), store) := by
  rw [insertMany_eq, Action.exec_bind_of_error (exec_collection_of_unbound h)]

/-- A batch that is refused is not stored. -/
theorem exec_insertMany_of_error (h : store.bound? name = some collection)
    {payloads : List (Stamp × Document)} {failure : Failure}
    (refused : Collection.prepareAll collection.schema payloads = .error failure) :
    (insertMany name payloads).exec store = (.error failure, store) := by
  rw [insertMany_eq, Action.exec_bind_of_ok (exec_collection_of_bound h), refused]
  rfl

/-- **A batch that was made into records is stored as a whole.** -/
theorem exec_insertMany_of_ok (h : store.bound? name = some collection)
    {payloads : List (Stamp × Document)} {records : List Document}
    (prepared : Collection.prepareAll collection.schema payloads = .ok records)
    (pushed : collection.pushAll records = .ok grown) :
    (insertMany name payloads).exec store = (.ok records, store.set name grown) := by
  rw [insertMany_eq, Action.exec_bind_of_ok (exec_collection_of_bound h), prepared,
    Action.exec_bind_of_ok (Action.exec_ofOutcome _ store),
    Action.exec_bind_of_ok (exec_forM_push h pushed)]
  rfl

/-! ### Inserting one payload after the other -/

/-- **Payloads that are inserted one after the other end as a batch does.** -/
theorem exec_mapM_insertOne_of_ok (h : store.bound? name = some collection)
    {payloads : List (Stamp × Document)} {records : List Document}
    (prepared : Collection.prepareAll collection.schema payloads = .ok records)
    (pushed : collection.pushAll records = .ok grown) :
    (payloads.mapM fun item => insertOne name item.1 item.2).exec store
      = (.ok records, store.set name grown) := by
  have hprepared := Collection.prepareAll_eq_ok_iff.1 prepared
  clear prepared
  induction payloads generalizing store collection records with
  | nil =>
    rw [List.forall₂_nil_left_iff.1 hprepared] at pushed ⊢
    rw [Collection.pushAll_nil] at pushed
    rw [← Except.ok.inj pushed, set_eq_self h, List.mapM_nil, Action.exec_pure]
  | cons item rest ih =>
    obtain ⟨record, others, hrecord, hothers, rfl⟩ := List.forall₂_cons_left_iff.1 hprepared
    obtain ⟨next, hnext, hrest⟩ := Collection.pushAll_cons_eq_ok_iff.1 pushed
    -- the schema is the one that the first insertion found
    obtain ⟨_, -, rfl⟩ := Collection.push_eq_ok_iff.1 hnext
    rw [List.mapM_cons, Action.exec_bind_of_ok (exec_insertOne_of_ok h hrecord hnext),
      Action.exec_bind_of_ok (ih (bound?_set_self store name _) hrest hothers), set_set]
    rfl

/-! ### Searching -/

/-- A lookup in a collection that is not bound fails and changes nothing. -/
theorem exec_findById_of_unbound (h : store.bound? name = none) (id : Value) :
    (findById name id).exec store = (.error (.unbound name), store) := by
  rw [findById, Action.exec_bind_of_error (exec_collection_of_unbound h)]

theorem exec_find_of_unbound (h : store.bound? name = none) (predicate : Predicate)
    (options : FindOptions) :
    (find name predicate options).exec store = (.error (.unbound name), store) := by
  rw [find, Action.exec_bind_of_error (exec_collection_of_unbound h)]

/-- Looking for a record changes nothing. -/
theorem exec_findById_state (store : MemoryStore) (name : String) (id : Value) :
    ((findById name id).exec store).2 = store := by
  cases h : store.bound? name with
  | none => rw [exec_findById_of_unbound h]
  | some collection =>
    rw [findById, Action.exec_bind_of_ok (exec_collection_of_bound h)]
    cases id <;> rfl

/-- A find changes nothing. -/
theorem exec_find_state (store : MemoryStore) (name : String) (predicate : Predicate)
    (options : FindOptions) : ((find name predicate options).exec store).2 = store := by
  cases h : store.bound? name with
  | none => rw [exec_find_of_unbound h]
  | some collection =>
    rw [find, Action.exec_bind_of_ok (exec_collection_of_bound h)]
    rfl

end MemoryStore

end RecordStore
