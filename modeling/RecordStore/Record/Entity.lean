import RecordStore.Lookup.Key
import RecordStore.Value.Extended

/-!
# Entities

A record turns into an entity in two steps. The store's bookkeeping is taken
out – the native identifier makes way for the public one, the version counter
goes – and what remains is read into the type of the entity. How that type is
read, and how its properties are written, is described by an
`RecordStore.EntityType`.

Two families of entity types are given: those that keep whatever attributes a
record has (`RecordStore.EntityType.dynamic`), and those that have exactly the
attributes they declare (`RecordStore.EntityType.declared`).
-/

namespace RecordStore

/-- A type of entities, and how it relates to documents. -/
structure EntityType where
  /-- The type of the entities. -/
  Entity : Type
  /-- The type of their keys. -/
  Key : Type
  /-- How keys relate to identifiers. -/
  key : EntityKey Key
  /-- What a caller supplies to create an entity. -/
  Properties : Type
  /-- The key of an entity. -/
  id : Entity → Key
  /-- Writes the properties of an entity as a value. -/
  write : Properties → Outcome Value
  /-- Reads an entity off its public attributes. -/
  read : Document → Outcome Entity

instance (type : EntityType) : EntityKey type.Key := type.key

namespace Document

/-- The public attributes of a record, with the identifier in the form of a
key. -/
def publicAttributes (κ : Type) [EntityKey κ] (record : Document) : Outcome Document := do
  match record.get? FieldName.nativeId with
  | none => throw (.invalidDocument .noIdentifier)
  | some native =>
    let rest := (record.erase FieldName.nativeId).erase FieldName.version
    let key : κ ← (EntityKey.ofNative native).mapError .invalidDocument
    return rest.insert FieldName.publicId (EntityKey.toValue key)

end Document

namespace EntityType

/-- The entity that a record stands for. -/
def ofRecord (type : EntityType) (record : Document) : Outcome type.Entity := do
  type.read (← record.publicAttributes type.Key)

/-- The entities that some records stand for. -/
def ofRecords (type : EntityType) (records : List Document) : Outcome (List type.Entity) :=
  records.mapM type.ofRecord

/-! ### Entities that keep every attribute -/

/-- The key that the public identifier of a document holds. -/
def keyOf {κ : Type} [EntityKey κ] [Inhabited κ] (document : Document) : κ :=
  (EntityKey.ofNative (document.read FieldName.publicId)).toOption.getD default

/-- Entities that are documents with any attributes. Values that documents spell
take their place, in properties and in entities. -/
def dynamic (κ : Type) [EntityKey κ] [Inhabited κ] : EntityType where
  Entity := Document
  Key := κ
  key := inferInstance
  Properties := Value
  id := keyOf
  write properties := .ok (Forms.extended.unspell properties)
  read attributes := .ok (Forms.extended.unspellEntries attributes)

/-! ### Entities that declare their attributes -/

/-- The type of a declared attribute. -/
inductive AttributeType where
  | text
  | date
  /-- An integer; one of 32 bits is widened. -/
  | integer
  | flag
  deriving DecidableEq

/-- Reads a value as one of a given type. -/
def AttributeType.read? : AttributeType → Value → Option Value
  | text, .string s => some (.string s)
  | date, .date d => some (.date d)
  | integer, .int32 n => some (.int64 n.toInt64)
  | integer, .int64 n => some (.int64 n)
  | flag, .bool b => some (.bool b)
  | _, _ => none

/-- Reads a declared attribute. -/
def readAttribute (document : Document) (declaration : String × AttributeType) :
    Outcome (String × Value) :=
  match (document.get? declaration.1).bind declaration.2.read? with
  | some value => .ok (declaration.1, value)
  | none => .error (.serialization ("attribute " ++ quoted declaration.1))

/-- The attributes that every entity has. -/
def managedAttributes : List (String × AttributeType) :=
  [(FieldName.publicId, .text), (FieldName.createdAt, .date), (FieldName.updatedAt, .date)]

/-- Entities with the attributes of every entity and some properties of given
types, all of which have to be there; other attributes are passed over. -/
def declared (properties : List (String × AttributeType)) : EntityType where
  Entity := Document
  Key := String
  key := inferInstance
  Properties := Document
  id := keyOf
  write document := .document <$> properties.mapM (readAttribute document)
  read document := (managedAttributes ++ properties).mapM (readAttribute document)

end EntityType

end RecordStore
