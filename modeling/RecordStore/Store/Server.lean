import RecordStore.Predicate.QueryDocument
import RecordStore.Store.Backend

/-!
# A store on a document server

The store keeps the schemas of its collections itself, and leaves the records to
a server. What it can settle alone – an unbound collection, a payload that does
not conform, an empty batch, a search for no records – it answers at once; all
else becomes a request to the server (`RecordStore.ServerAnswer`).

The server counts in integers of 64 bits with a sign, and takes a limit of zero
for none. A larger limit than it can count is therefore left out, which comes to
the same, and a limit of zero never reaches it.
-/

namespace RecordStore

/-- The order of a find as the server takes it: a document of directions, or
none for the order of storage. A field listed twice keeps its first place. -/
def FindOptions.sortDocument (options : FindOptions) : Option Document :=
  if options.sort.isEmpty then none
  else some <| Entries.ofList <| options.sort.map fun (field, order) =>
    (field, .int32 (match order with | .ascending => 1 | .descending => -1))

/-- The order and the window of a find as the server takes them. -/
structure ServerFindOptions where
  sort : Option Document
  skip : Option Nat
  limit : Option Nat

/-- The largest limit that the server can count. -/
def ServerFindOptions.largestLimit : Nat := 2 ^ 63 - 1

/-- What the server is told of the order and the window of a find. -/
def FindOptions.forServer (options : FindOptions) : ServerFindOptions where
  sort := options.sortDocument
  skip := options.offset
  limit := options.limit.filter (· ≤ ServerFindOptions.largestLimit)

/-- A request to the server. -/
inductive ServerRequest where
  | insert (collection : String) (records : List Document)
  | findOne (collection : String) (query : Document)
  | find (collection : String) (query : Document) (options : ServerFindOptions)

/-- What an operation comes to before the server is reached. -/
inductive ServerAnswer (α : Type) where
  /-- The store answered by itself. -/
  | settled (answer : α)
  /-- The server has to answer. -/
  | requested (request : ServerRequest)

/-- The state of a store on a server: the schemas of its collections. -/
structure ServerStore where
  models : Entries Schema

namespace ServerStore

/-- The store without collections. -/
def empty : ServerStore := ⟨[]⟩

instance : Inhabited ServerStore := ⟨empty⟩

/-- The schema of a collection, which has to be bound. -/
def schema (name : String) : Action ServerStore Schema := do
  match (← get).models.get? name with
  | some schema => return schema
  | none => throw (.unbound name)

/-- The record that a payload turns into under a stamp. -/
def prepare (schema : Schema) (stamp : Stamp) (payload : Document) : Outcome Document := do
  return Entries.ofList <|
    [(FieldName.nativeId, .objectId stamp.id)] ++ (← schema.conform payload) ++
      [(FieldName.createdAt, .date stamp.now), (FieldName.updatedAt, .date stamp.now),
        (FieldName.version, .int32 0)]

/-- Binds a collection to a schema. -/
def bindModel (name : String) (schema : Schema) : Action ServerStore Unit := do
  Action.ofOutcome schema.check
  if (← get).models.contains name then throw (.alreadyBound name)
  modify fun store => ⟨store.models.insert name schema⟩

/-- Stores one payload. -/
def insertOne (name : String) (stamp : Stamp) (payload : Document) :
    Action ServerStore (ServerAnswer Document) := do
  let record ← Action.ofOutcome (prepare (← schema name) stamp payload)
  return .requested (.insert name [record])

/-- Stores a batch of payloads. -/
def insertMany (name : String) (payloads : List (Stamp × Document)) :
    Action ServerStore (ServerAnswer (List Document)) := do
  let schema ← schema name
  let records ← Action.ofOutcome <| payloads.mapM fun (stamp, payload) =>
    prepare schema stamp payload
  if records.isEmpty then return .settled []
  else return .requested (.insert name records)

/-- The record of an identifier. -/
def findById (name : String) (id : Value) :
    Action ServerStore (ServerAnswer (Option Document)) := do
  let _ ← schema name
  return .requested (.findOne name [(FieldName.nativeId, id)])

/-- The records that meet a predicate. -/
def find (name : String) (predicate : Predicate) (options : FindOptions) :
    Action ServerStore (ServerAnswer (List Document)) := do
  let _ ← schema name
  if options.limit = some 0 then return .settled []
  else return .requested (.find name predicate.query options.forServer)

end ServerStore

end RecordStore
