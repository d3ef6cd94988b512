import RecordStore.FieldName
import RecordStore.Schema.FieldKind

/-!
# Schemas

A schema declares the fields that a caller may supply when a record is created.
It is itself subject to a check (`RecordStore.Schema.check`): names are those of
top-level fields, none is an attribute that the store assigns, and none is
declared twice.

A payload is made to conform to a schema (`RecordStore.Schema.conform`) by
keeping the declared fields, in the order of their declaration. A null is as
good as an absent field, both where a field is required and where it is not, and
what the schema does not declare is dropped without a word.
-/

namespace RecordStore

/-- The declaration of one field. -/
structure FieldSchema where
  name : String
  kind : FieldKind
  /-- Whether the field has to be present and not null. -/
  required : Bool
  deriving DecidableEq

/-- The fields that a collection accepts, in order. -/
structure Schema where
  fields : List FieldSchema
  deriving DecidableEq

namespace Schema

/-- The schema that declares nothing. -/
def empty : Schema := ⟨[]⟩

instance : Inhabited Schema := ⟨empty⟩

/-- The declaration of a field, the first one if there are several. -/
def field? (schema : Schema) (name : String) : Option FieldSchema :=
  schema.fields.find? fun field => field.name = name

/-! ### The check of a schema -/

/-- What is wrong with a name, given the names declared before it. -/
def nameFault? (seen : List String) (name : String) : Option SchemaCause :=
  if name = "" then some .emptyName
  else if FieldName.isPath name then some (.malformedName name)
  else if name ∈ FieldName.reserved then some (.managed name)
  else if name ∈ seen then some (.repeated name)
  else none

/-- The first fault among the declarations that follow the names already
seen. -/
def fault? (seen : List String) : List FieldSchema → Option SchemaCause
  | [] => none
  | field :: rest => (nameFault? seen field.name).or (fault? (field.name :: seen) rest)

/-- Refuses a malformed schema, naming the first fault. -/
def check (schema : Schema) : Outcome Unit :=
  match fault? [] schema.fields with
  | some cause => .error (.invalidSchema cause)
  | none => .ok ()

/-! ### Conforming to a schema -/

/-- What a payload supplies for a field: nothing, if it is absent or null. -/
def supplied? (payload : Document) (name : String) : Option Value :=
  (payload.get? name).filter fun value => !value.isNull

/-- The value that a payload supplies for a declared field, if the declaration
admits it. -/
def conformField (payload : Document) (field : FieldSchema) : Outcome (Option Value) :=
  match supplied? payload field.name with
  | none => if field.required then .error (.validation (.required field.name)) else .ok none
  | some value =>
    if field.kind.accepts value then .ok (some value)
    else .error (.validation (.mistyped field.name field.kind value.kind))

/-- Writes the supplied fields of a list of declarations, up to the first field
that is refused. -/
def conformFields (payload : Document) : List FieldSchema → Document → Outcome Document
  | [], written => .ok written
  | field :: rest, written => do
    match ← conformField payload field with
    | some value => conformFields payload rest (written.insert field.name value)
    | none => conformFields payload rest written

/-- The declared fields that a payload supplies, in the order of their
declaration. -/
def conform (schema : Schema) (payload : Document) : Outcome Document :=
  conformFields payload schema.fields []

end Schema

end RecordStore
