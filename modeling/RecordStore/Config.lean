import RecordStore.Json
import RecordStore.Request.Sorting
import RecordStore.Schema.Basic

/-!
# Configuration in JSON

Schemas, the defaults of sorts and the address of a server are kept in JSON
files. A record is written as an object, and read from an object, whose members
may come in any order and among others, or from an array, whose elements stand
for the members in order. A member that is missing takes its default if it has
one; a member that is there has to be of the right type, and null is of none. An
array may be too short in the same way, but not too long. A choice among names
is written as the name, and is also read from an object that has the name as its
only member, with a null value.
-/

namespace RecordStore

namespace Config

/-- A failure to read a configuration. -/
def fault {α : Type} (what : String) : Outcome α := .error (.serialization what)

/-- The members of a record, by name; `names` lists them in the order of their
declaration. -/
def members (names : List String) : Json → Outcome (Entries Json)
  | .object entries => .ok entries
  | .array items =>
    if items.length ≤ names.length then .ok (names.zip items) else fault "too many elements"
  | _ => fault "neither an object nor an array"

/-- Reads a member that may be missing. -/
def optional {α : Type} (read : Json → Outcome α) (otherwise : α) : Option Json → Outcome α
  | some json => read json
  | none => .ok otherwise

/-- Reads a member that has to be there. -/
def required {α : Type} (read : Json → Outcome α) : Option Json → Outcome α
  | some json => read json
  | none => fault "missing member"

/-- Reads a text. -/
def text : Json → Outcome String
  | .string s => .ok s
  | _ => fault "not a string"

/-- Reads a truth value. -/
def flag : Json → Outcome Bool
  | .bool b => .ok b
  | _ => fault "not a boolean"

/-- Reads a count, a natural number of 64 bits. -/
def count : Json → Outcome Nat
  | .int n => if 0 ≤ n ∧ n < 2 ^ 64 then .ok n.toNat else fault "not a count"
  | _ => fault "not a count"

/-- Reads a choice among names. -/
def choice {α : Type} (ofName? : String → Option α) (json : Json) : Outcome α :=
  let name? := match json with
    | .string name => some name
    | .object [(name, .null)] => some name
    | _ => none
  match name?.bind ofName? with
  | some choice => .ok choice
  | none => fault "unknown name"

/-- Reads the elements of an array. -/
def list {α : Type} (read : Json → Outcome α) : Json → Outcome (List α)
  | .array items => items.mapM read
  | _ => fault "not an array"

end Config

/-! ### Defaults of sorts -/

namespace SortDefaults

/-- Reads defaults, any of which may be missing. -/
def ofJson (json : Json) : Outcome SortDefaults := do
  let members ← Config.members ["property", "order", "offset", "limit"] json
  let property ← Config.optional Config.text standard.property (members.get? "property")
  let order ←
    Config.optional (Config.choice SortOrder.ofName?) standard.order (members.get? "order")
  let offset ← Config.optional Config.count standard.offset (members.get? "offset")
  let limit ← Config.optional Config.count standard.limit (members.get? "limit")
  return { property, order, offset, limit }

/-- Writes defaults. -/
def toJson (defaults : SortDefaults) : Json :=
  .object [("property", .string defaults.property), ("order", .string defaults.order.name),
    ("offset", .int defaults.offset), ("limit", .int defaults.limit)]

end SortDefaults

/-! ### Schemas -/

namespace FieldKind

/-- Every kind of field. -/
def all : List FieldKind :=
  [string, number, boolean, date, objectId, array, document, any]

/-- The name of a kind in configurations. -/
def configName : FieldKind → String
  | string => "string"
  | number => "number"
  | boolean => "boolean"
  | date => "date"
  | objectId => "object_id"
  | array => "array"
  | document => "document"
  | any => "any"

/-- The kind of a given name. -/
def ofConfigName? (name : String) : Option FieldKind :=
  all.find? fun kind => kind.configName = name

/-- The name a kind is written by in a configuration reads back as the kind. -/
theorem ofConfigName?_configName (kind : FieldKind) :
    ofConfigName? kind.configName = some kind := by
  cases kind <;> decide

end FieldKind

namespace FieldSchema

/-- Reads the declaration of a field; one that does not say so is not required. -/
def ofJson (json : Json) : Outcome FieldSchema := do
  let members ← Config.members ["name", "kind", "required"] json
  let name ← Config.required Config.text (members.get? "name")
  let kind ← Config.required (Config.choice FieldKind.ofConfigName?) (members.get? "kind")
  let required ← Config.optional Config.flag false (members.get? "required")
  return { name, kind, required }

/-- Writes the declaration of a field. -/
def toJson (field : FieldSchema) : Json :=
  .object [("name", .string field.name), ("kind", .string field.kind.configName),
    ("required", .bool field.required)]

end FieldSchema

namespace Schema

/-- Reads a schema; one without fields may leave them out. -/
def ofJson (json : Json) : Outcome Schema := do
  let members ← Config.members ["fields"] json
  return ⟨← Config.optional (Config.list FieldSchema.ofJson) [] (members.get? "fields")⟩

/-- Writes a schema. -/
def toJson (schema : Schema) : Json :=
  .object [("fields", .array (schema.fields.map FieldSchema.toJson))]

end Schema

/-! ### The address of a server -/

/-- Where a document server is, and the database in it. -/
structure ServerConfig where
  uri : String
  database : String
  deriving DecidableEq

namespace ServerConfig

/-- Reads an address, both parts of which have to be there. -/
def ofJson (json : Json) : Outcome ServerConfig := do
  let members ← Config.members ["uri", "database"] json
  let uri ← Config.required Config.text (members.get? "uri")
  let database ← Config.required Config.text (members.get? "database")
  return { uri, database }

/-- Writes an address. -/
def toJson (config : ServerConfig) : Json :=
  .object [("uri", .string config.uri), ("database", .string config.database)]

end ServerConfig

end RecordStore
