import RecordStore.Value.Basic

/-!
# Kinds of fields

What a schema says about the values of a field. A kind of field is coarser than
a kind of value: a number may be held in any numeric encoding, and one kind of
field takes everything.
-/

namespace RecordStore

/-- The values that a schema admits in a field. -/
inductive FieldKind where
  | string
  /-- An integer of 32 or 64 bits, or a double. -/
  | number
  | boolean
  | date
  | objectId
  | array
  | document
  /-- Every value. -/
  | any
  deriving DecidableEq

namespace FieldKind

/-- The name of a kind in messages. -/
def name : FieldKind → String
  | string => "String"
  | number => "Number"
  | boolean => "Boolean"
  | date => "Date"
  | objectId => "ObjectId"
  | array => "Array"
  | document => "Document"
  | any => "Any"

/-- Whether a value is of a kind. -/
def accepts : FieldKind → Value → Bool
  | string, .string _ => true
  | number, .int32 _ => true
  | number, .int64 _ => true
  | number, .double _ => true
  | boolean, .bool _ => true
  | date, .date _ => true
  | objectId, .objectId _ => true
  | array, .array _ => true
  | document, .document _ => true
  | any, _ => true
  | _, _ => false

end FieldKind

end RecordStore
