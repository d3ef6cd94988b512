import RecordStore.Filter.Lowering
import RecordStore.Json
import RecordStore.Lookup.Cast
import RecordStore.Page
import RecordStore.Record.Entity
import RecordStore.Record.Payload
import RecordStore.Request.Lookup
import RecordStore.Session.Basic

/-!
# Repositories

A repository gives access to the entities of one collection: it turns
properties into payloads and records into entities, and lookups into what a
store understands. It has no state of its own, so its copies are
interchangeable; its operations are actions on the session through which it was
bound.

Every operation on a closed session fails before it reaches the store. A lookup
that arrives as a value is classified and cast first, and its own faults are
reported before the state of the session is.
-/

namespace RecordStore

/-- What a lookup returned: an entity for a key, entities for keys or a filter,
a page for a query. -/
inductive Fetched (α : Type) where
  | one (entity : Option α)
  | many (entities : List α)
  | page (window : Page α)

namespace Fetched

/-- The entities, whatever the form in which they were returned. -/
def toList {α : Type} : Fetched α → List α
  | one entity => entity.toList
  | many entities => entities
  | page window => window.items

end Fetched

/-- Access to the entities of a collection. -/
structure Repository (type : EntityType) where
  collection : String
  schema : Schema
  /-- What stands in for the open parts of a sort. -/
  defaults : SortDefaults

namespace Repository

variable {type : EntityType} {σ : Type} [Backend σ]

/-- Binds the collection of a repository to its schema. A repository is used only
once this has succeeded. -/
def bind (repository : Repository type) : Action (Session σ) Unit :=
  Session.whileOpen repository.collection <|
    Session.onStore (Backend.bindModel repository.collection repository.schema)

/-! ### Creating entities -/

/-- The payload that the properties of a new entity amount to. -/
def payload (type : EntityType) (properties : type.Properties) : Outcome Document := do
  Document.ofProperties (← type.write properties)

/-- Stores a new entity. -/
def create (repository : Repository type) (stamp : Stamp) (properties : type.Properties) :
    Action (Session σ) type.Entity :=
  Session.whileOpen repository.collection do
    let payload ← Action.ofOutcome (payload type properties)
    let record ← Session.onStore (Backend.insertOne repository.collection stamp payload)
    Action.ofOutcome (type.ofRecord record)

/-- Stores new entities, each under its own stamp. An empty list does not reach
the store. -/
def createMany (repository : Repository type) (entities : List (Stamp × type.Properties)) :
    Action (Session σ) (List type.Entity) :=
  Session.whileOpen repository.collection do
    if entities.isEmpty then return []
    let payloads ← Action.ofOutcome <| entities.mapM fun (stamp, properties) => do
      return (stamp, ← payload type properties)
    let records ← Session.onStore (Backend.insertMany repository.collection payloads)
    Action.ofOutcome (type.ofRecords records)

/-! ### Reading entities -/

/-- The entities of the records that meet a predicate. -/
def find (repository : Repository type) (predicate : Predicate) (options : FindOptions) :
    Action (Session σ) (List type.Entity) := do
  let records ← Session.onStore (Backend.find repository.collection predicate options)
  Action.ofOutcome (type.ofRecords records)

/-- The entity of a key. A malformed key has none. -/
def getById (repository : Repository type) (key : type.Key) :
    Action (Session σ) (Option type.Entity) :=
  Session.whileOpen repository.collection do
    match EntityKey.toNative? key with
    | none => return none
    | some native =>
      match ← Session.onStore (Backend.findById repository.collection native) with
      | none => return none
      | some record => some <$> Action.ofOutcome (type.ofRecord record)

/-- The entities of some keys, in the order in which they were stored. Malformed
keys are passed over, and if no other is left the store is not asked. -/
def getByIds (repository : Repository type) (keys : List type.Key) :
    Action (Session σ) (List type.Entity) :=
  Session.whileOpen repository.collection do
    let natives := keys.filterMap EntityKey.toNative?
    if natives.isEmpty then return []
    repository.find (Predicate.identifiedBy natives) .all

/-- The entities that pass a filter, in the order in which they were stored. -/
def getByFilter (repository : Repository type) (filter : Filter) :
    Action (Session σ) (List type.Entity) :=
  Session.whileOpen repository.collection do
    repository.find (← Action.ofOutcome filter.lower) .all

/-- Every entity. -/
def getAll (repository : Repository type) : Action (Session σ) (List type.Entity) :=
  repository.getByFilter .empty

/-- A page of the entities that pass the filter of a query. -/
def getByQuery (repository : Repository type) (query : Query) :
    Action (Session σ) (Page type.Entity) :=
  Session.whileOpen repository.collection do
    let predicate ← Action.ofOutcome (Filter.lower? query.filter)
    let sort := repository.defaults.resolve query.sort
    Action.ofOutcome (sort.properties.forM FieldName.check)
    let items ← repository.find predicate sort.findOptions
    return ⟨items, sort.offset, sort.limit⟩

/-- The entities that a lookup asks for. -/
def get (repository : Repository type) :
    Lookup type.Key → Action (Session σ) (Fetched type.Entity)
  | .byId key => .one <$> repository.getById key
  | .byIds keys => .many <$> repository.getByIds keys
  | .byFilter filter => .many <$> repository.getByFilter filter
  | .byQuery query => .page <$> repository.getByQuery query

/-- The entities that a value asks for. -/
def getDynamic (repository : Repository type) (request : Option Value) :
    Action (Session σ) (Fetched type.Entity) := do
  let lookup ← Action.ofOutcome (Lookup.ofValue? request)
  repository.get (← Action.ofOutcome (lookup.cast repository.schema))

/-- The entities that a JSON value asks for. -/
def getJson (repository : Repository type) (request : Json) :
    Action (Session σ) (Fetched type.Entity) := do
  repository.getDynamic (some (← Action.ofOutcome (request.toValue .extended)))

end Repository

end RecordStore
