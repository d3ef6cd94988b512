import RecordStore.Predicate.Match
import RecordStore.Store.Backend

/-!
# A store in memory

Each collection has a schema, its records in the order in which they were
stored, and an index from identifiers to places in that list. Searching for one
record goes through the index; every other search tests the records one by one.

A batch of payloads is made into records before any of them is stored, so that a
payload that does not conform keeps the whole batch out.
-/

namespace RecordStore

/-- A collection of records with a schema. -/
structure Collection where
  schema : Schema
  /-- The records, in the order in which they were stored. -/
  records : List Document
  /-- The place of each record, by identifier; the latest entry counts. -/
  index : List (ObjectId × Nat)

namespace Collection

/-- The collection without records. -/
def empty (schema : Schema) : Collection := ⟨schema, [], []⟩

/-- The record that a payload turns into under a stamp. -/
def prepare (schema : Schema) (stamp : Stamp) (payload : Document) : Outcome Document := do
  let conformed ← schema.conform payload
  let record := Entries.insert [] FieldName.nativeId (.objectId stamp.id)
  let record := record.insertAll conformed
  let record := record.insert FieldName.createdAt (.date stamp.now)
  let record := record.insert FieldName.updatedAt (.date stamp.now)
  return record.insert FieldName.version (.int32 0)

/-- Adds a record at the end. A record that has no object identifier cannot be
indexed, and is refused. -/
def push (collection : Collection) (record : Document) : Outcome Collection :=
  match record.get? FieldName.nativeId with
  | some (.objectId id) =>
    .ok { collection with
      records := collection.records ++ [record]
      index := (id, collection.records.length) :: collection.index }
  | _ => .error (.invalidDocument .unreadableObjectId)

/-- The place at which the index has an identifier. -/
def position? (collection : Collection) (id : ObjectId) : Option Nat :=
  collection.index.lookup id

/-- The record of an identifier. -/
def recordOf? (collection : Collection) (id : ObjectId) : Option Document :=
  (collection.position? id).bind fun position => collection.records[position]?

/-- The records that meet a predicate, in the order and the window asked for. -/
def find (collection : Collection) (predicate : Predicate) (options : FindOptions) :
    List Document :=
  options.window (options.arrange (collection.records.filter predicate.holds))

end Collection

/-- The state of a store in memory: its collections, by name. -/
structure MemoryStore where
  collections : Entries Collection

namespace MemoryStore

/-- The store without collections. -/
def empty : MemoryStore := ⟨[]⟩

instance : Inhabited MemoryStore := ⟨empty⟩

/-- The collection of a name, which has to be bound. -/
def collection (name : String) : Action MemoryStore Collection := do
  match (← get).collections.get? name with
  | some collection => return collection
  | none => throw (.unbound name)

/-- Puts a collection under a name. -/
def put (name : String) (collection : Collection) : Action MemoryStore Unit :=
  modify fun store => ⟨store.collections.insert name collection⟩

/-- Adds a record to a collection. -/
def push (name : String) (record : Document) : Action MemoryStore Unit := do
  put name (← Action.ofOutcome ((← collection name).push record))

/-- Binds a collection to a schema. -/
def bindModel (name : String) (schema : Schema) : Action MemoryStore Unit := do
  Action.ofOutcome schema.check
  if (← get).collections.contains name then throw (.alreadyBound name)
  put name (.empty schema)

/-- Stores one payload. -/
def insertOne (name : String) (stamp : Stamp) (payload : Document) :
    Action MemoryStore Document := do
  let record ← Action.ofOutcome (Collection.prepare (← collection name).schema stamp payload)
  push name record
  return record

/-- Stores a batch of payloads, once all of them are made into records. -/
def insertMany (name : String) (payloads : List (Stamp × Document)) :
    Action MemoryStore (List Document) := do
  let schema := (← collection name).schema
  let records ← Action.ofOutcome <| payloads.mapM fun (stamp, payload) =>
    Collection.prepare schema stamp payload
  records.forM (push name)
  return records

/-- The record of an identifier. Only an object identifier has one. -/
def findById (name : String) (id : Value) : Action MemoryStore (Option Document) := do
  let collection ← collection name
  match id with
  | .objectId id => return collection.recordOf? id
  | _ => return none

/-- The records that meet a predicate. -/
def find (name : String) (predicate : Predicate) (options : FindOptions) :
    Action MemoryStore (List Document) := do
  return (← collection name).find predicate options

end MemoryStore

instance : Backend MemoryStore where
  bindModel := MemoryStore.bindModel
  insertOne := MemoryStore.insertOne
  insertMany := MemoryStore.insertMany
  findById := MemoryStore.findById
  find := MemoryStore.find
  close := pure ()

end RecordStore
