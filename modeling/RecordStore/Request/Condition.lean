import RecordStore.Failure
import RecordStore.FieldName
import RecordStore.Filter.Basic

/-!
# Conditions and filters from documents

A request that was not built by a program, but arrived as a document, spells a
condition by the shape of a value: a range is a document that spells one, a list
is either of ranges or of other values, and everything else is to be equalled.
Which of the two a list is, its first member says, and the others have to follow
it. A list that mixes the two is refused, and so is every document that is no
range.
-/

namespace RecordStore

namespace Condition

/-- The range that a member of a list of ranges spells. -/
def rangeOf (field : String) (item : Value) : Outcome (Range Value) :=
  match Range.ofValue? item with
  | some range => .ok range
  | none => .error (.invalidQuery (.mixedList field))

/-- The condition that a list spells: alternatives if its first member is a range,
and then all of its members have to be, and values otherwise, and then none may be.
The empty list is one of values. -/
def ofList (field : String) (items : List Value) : Outcome Condition :=
  match items.head? with
  | none => .ok (.oneOf [])
  | some first =>
    if Range.isRange first then .withinAny <$> items.mapM (rangeOf field)
    else if items.any Range.isRange then .error (.invalidQuery (.mixedList field))
    else .ok (.oneOf items)

/-- The condition that a value spells for a field. -/
def ofValue (field : String) : Value → Outcome Condition
  | .array items => ofList field items
  | .document entries =>
    match Range.ofValue? (.document entries) with
    | some range => .ok (.within range)
    | none => .error (.invalidQuery (.embeddedDocument field))
  | value => .ok (.equals value)

end Condition

namespace Filter

/-- Puts the condition that a named value spells on the field of that name. -/
def requireSpelled (filter : Filter) (entry : String × Value) : Outcome Filter := do
  FieldName.check entry.1
  return filter.require entry.1 (← Condition.ofValue entry.1 entry.2)

/-- The filter that a document spells, one condition for each entry. -/
def ofDocument (document : Document) : Outcome Filter :=
  document.foldlM requireSpelled Filter.empty

end Filter

end RecordStore
