import RecordStore.Filter.Basic
import RecordStore.Predicate.Basic

/-!
# From filters to predicates

A filter is lowered condition by condition, in the order of the field names.
Three things change on the way.

* **Names.** Only names of top-level fields are accepted, and the public name of
  the identifier gives way to the native one. In a filter on both names the
  condition on `id` is lowered after the one on `_id`, and replaces it if it
  asks anything.
* **Identifiers.** On the native identifier, a text that spells an object
  identifier stands for it; any other text is left as it is.
* **Lists.** An empty list leaves its field alone, and so adds no clause.

A range that has neither bound is refused, also as a member of a list.
-/

namespace RecordStore

/-- The value that a store compares a field with. -/
def Value.lower (field : String) (value : Value) : Value :=
  match value with
  | .string text =>
    if field = FieldName.nativeId then
      ((ObjectId.ofText? text).map .objectId).getD value
    else value
  | value => value

/-- The bounds that a range puts on a field. -/
def Range.lower (field : String) (range : Range Value) : Outcome Bounds :=
  if range.isBounded then
    .ok ⟨range.start.map (Value.lower field), range.stop.map (Value.lower field)⟩
  else .error (.invalidQuery (.unbounded field))

/-- The clause that a condition puts on a field of a record, or none if it asks
nothing. -/
def Condition.lower (field : String) : Condition → Outcome (Option Clause)
  | equals value => .ok (some (.equals (value.lower field)))
  | oneOf values =>
    .ok (if values.isEmpty then none else some (.among (values.map (Value.lower field))))
  | within range => return some (.within (← range.lower field))
  | withinAny ranges =>
    if ranges.isEmpty then .ok none
    else return some (.withinAny (← ranges.mapM (Range.lower field)))

namespace Filter

/-- Adds the clause that a condition puts on a publicly named field. -/
def lowerEntry (predicate : Predicate) (entry : String × Condition) : Outcome Predicate := do
  FieldName.check entry.1
  let field := FieldName.native entry.1
  match ← entry.2.lower field with
  | some clause => return predicate.insert field clause
  | none => return predicate

/-- The predicate that a filter stands for. -/
def lower (filter : Filter) : Outcome Predicate :=
  filter.entries.foldlM lowerEntry Predicate.empty

/-- The predicate of a filter that may be missing; a missing filter asks
nothing. -/
def lower? : Option Filter → Outcome Predicate
  | none => .ok Predicate.empty
  | some filter => filter.lower

end Filter

end RecordStore
