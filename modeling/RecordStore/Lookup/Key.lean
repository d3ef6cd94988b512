import RecordStore.FieldName

/-!
# Keys of entities

Callers name an entity by a key: the text of its identifier, or the identifier
itself. A text may be malformed, and then names no record at all
(`RecordStore.EntityKey.toNative?` is none). In the other direction a key is
read off a stored value, where a text key accepts any text and an identifier key
also the text of an identifier.
-/

namespace RecordStore

/-- A type of keys, with its relation to stored identifiers. -/
class EntityKey (κ : Type) where
  /-- The identifier that records hold, if the key is well formed. -/
  toNative? : κ → Option Value
  /-- Reads a key off a stored value. -/
  ofNative : Value → Except DocumentCause κ
  /-- The value that carries the key in an entity. -/
  toValue : κ → Value

instance : EntityKey String where
  toNative? text := (ObjectId.ofText? text).map .objectId
  ofNative
    | .objectId id => .ok id.text
    | .string text => .ok text
    | value => .error (.notTextIdentifier value.kind)
  toValue := .string

instance : EntityKey ObjectId where
  toNative? id := some (.objectId id)
  ofNative
    | .objectId id => .ok id
    | .string text =>
      match ObjectId.ofText? text with
      | some id => .ok id
      | none => .error .unreadableObjectId
    | value => .error (.notObjectIdentifier value.kind)
  toValue := .objectId

end RecordStore
