import RecordStore.Lookup.Basic
import RecordStore.Schema.Basic
import RecordStore.Time.Rfc3339

/-!
# Casting lookups to the kinds of a schema

Requests that arrive as text have neither dates nor object identifiers, so a
filter may hold their spelling instead. Before it is used, its values are cast
to what the schema declares: on a date field a text is read as a date-time and
an integer as milliseconds, on an identifier field a text is read as an
identifier. All other values, and all other fields, stay as they are.

The two timestamps that a store assigns are dates, whatever the schema says.
-/

namespace RecordStore

/-- The kind of field that a name has under a schema. -/
def Schema.kindOf? (schema : Schema) (field : String) : Option FieldKind :=
  if field = FieldName.createdAt ∨ field = FieldName.updatedAt then some .date
  else (schema.field? field).map FieldSchema.kind

/-- Casts a value to a kind of field. -/
def Value.cast (field : String) (kind : FieldKind) (value : Value) : Outcome Value :=
  match kind, value with
  | .date, .string text =>
    match Rfc3339.date? text with
    | some d => .ok (.date d)
    | none => .error (.invalidQuery (.unreadableDate field))
  | .date, .int32 n => .ok (.date (.ofMillis n.toInt))
  | .date, .int64 n => .ok (.date ⟨n⟩)
  | .objectId, .string text =>
    match ObjectId.ofText? text with
    | some id => .ok (.objectId id)
    | none => .error (.invalidQuery (.unreadableObjectId field))
  | _, value => .ok value

/-- Applies a step that may fail to the bounds of a range, the lower one
first. -/
def Range.mapM {α β : Type} (f : α → Outcome β) (range : Range α) : Outcome (Range β) := do
  let start ← range.start.mapM f
  let stop ← range.stop.mapM f
  return ⟨start, stop⟩

namespace Condition

/-- Applies a step that may fail to every value of a condition. -/
def mapM (f : Value → Outcome Value) : Condition → Outcome Condition
  | equals value => equals <$> f value
  | oneOf values => oneOf <$> values.mapM f
  | within range => within <$> range.mapM f
  | withinAny ranges => withinAny <$> ranges.mapM (Range.mapM f)

/-- Casts the values of the condition on a field. -/
def cast (schema : Schema) (field : String) (condition : Condition) : Outcome Condition :=
  match schema.kindOf? field with
  | some kind => condition.mapM (Value.cast field kind)
  | none => .ok condition

end Condition

namespace Filter

/-- Adds the cast of one condition to the conditions cast before it. -/
def castEntry (schema : Schema) (filter : Filter) (entry : String × Condition) :
    Outcome Filter := do
  return filter.require entry.1 (← entry.2.cast schema entry.1)

/-- Casts the values of a filter. -/
def cast (schema : Schema) (filter : Filter) : Outcome Filter :=
  filter.entries.foldlM (castEntry schema) Filter.empty

end Filter

/-- Casts the values of the filter of a lookup, if it has one. -/
def Lookup.cast {κ : Type} (schema : Schema) : Lookup κ → Outcome (Lookup κ)
  | byFilter filter => byFilter <$> filter.cast schema
  | byQuery query => do
    let filter ← query.filter.mapM (Filter.cast schema)
    return byQuery { query with filter }
  | lookup => .ok lookup

end RecordStore
