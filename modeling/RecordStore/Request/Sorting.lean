import RecordStore.Failure
import RecordStore.Sorting.Basic

/-!
# Sorts from documents

A document spells a sort by the entries `property`, `order`, `offset` and
`limit`. A property is a text or a list of texts; the order is named in full;
the counts may be of any numeric kind as long as they are natural numbers. An
entry that is null is passed over, whatever its name, and every other entry is
refused.
-/

namespace RecordStore

namespace SortOrder

/-- The name of a direction. -/
def name : SortOrder → String
  | ascending => "ascending"
  | descending => "descending"

/-- The direction of a given name. -/
def ofName? (name : String) : Option SortOrder :=
  if name = "ascending" then some ascending
  else if name = "descending" then some descending
  else none

/-- The name an order is written by reads back as the order. -/
theorem ofName?_name (order : SortOrder) : ofName? order.name = some order := by
  cases order <;> decide

end SortOrder

namespace Value

/-- The largest integer of 64 bits. Whole doubles beyond it count as it. -/
def largestCount : Nat := 2 ^ 63 - 1

/-- The natural number that a numeric value stands for. -/
def count? : Value → Option Nat
  | int32 n => n.toInt.toNat?
  | int64 n => n.toInt.toNat?
  | double d => d.toInt?.bind fun n => n.toNat?.map fun n => min n largestCount
  | _ => none

end Value

namespace Sorting

/-- Adds the property that a value names. -/
def addProperty (sort : Sorting) : Value → Outcome Sorting
  | .string property => do
    FieldName.check property
    return sort.thenBy property
  | _ => .error (.invalidQuery .sortPropertyNotText)

/-- The count that an entry of a sort gives. -/
def count (key : String) (value : Value) : Outcome Nat :=
  match value.count? with
  | some n => .ok n
  | none => .error (.invalidQuery (.sortCountNotNatural key))

/-- Takes over the part of a sort that one entry of a document spells. -/
def takeEntry (sort : Sorting) : String × Value → Outcome Sorting
  | (_, .null) => .ok sort
  | ("property", .string property) => sort.addProperty (.string property)
  | ("property", .array properties) => properties.foldlM addProperty sort
  | ("order", .string name) =>
    match SortOrder.ofName? name with
    | some order => .ok { sort with order := some order }
    | none => .error (.invalidQuery (.unknownSortOrder name))
  | ("offset", value) => return { sort with offset := some (← count "offset" value) }
  | ("limit", value) => return { sort with limit := some (← count "limit" value) }
  | (key, _) => .error (.invalidQuery (.unexpectedSortEntry key))

/-- The sort that a document spells. -/
def ofDocument (document : Document) : Outcome Sorting :=
  document.foldlM takeEntry Sorting.empty

end Sorting

end RecordStore
