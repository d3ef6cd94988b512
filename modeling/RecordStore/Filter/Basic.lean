import RecordStore.FieldMap
import RecordStore.Filter.Range

/-!
# Filters

A filter puts one condition on each of some fields, and an entity passes if all
of them hold. Conditions are given in public terms: field names are those of
entities, and a list may be empty. What a filter means to a store is settled
when it is lowered to a predicate (`RecordStore.Filter.lower`).
-/

namespace RecordStore

/-- What a filter asks of a field. -/
inductive Condition where
  /-- The field equals the value. -/
  | equals (value : Value)
  /-- The field equals one of the values. An empty list asks nothing. -/
  | oneOf (values : List Value)
  /-- The field lies in the range. -/
  | within (range : Range Value)
  /-- The field lies in one of the ranges. An empty list asks nothing. -/
  | withinAny (ranges : List (Range Value))
  deriving BEq

/-- Conditions on fields, in the order of the fields' names. -/
abbrev Filter := FieldMap Condition

namespace Filter

/-- The filter that every entity passes. -/
def empty : Filter := FieldMap.empty

/-- Puts a condition on a field, in place of the one it had. -/
def require (filter : Filter) (field : String) (condition : Condition) : Filter :=
  filter.insert field condition

end Filter

end RecordStore
