import RecordStore.FieldMap
import RecordStore.FieldName
import RecordStore.Value.Compare

/-!
# Predicates

What a store is asked to test of a record: one clause for each of some fields,
all of which have to hold. Unlike the conditions of a filter, clauses are in the
terms of records – native field names, identifiers as object identifiers – and
every clause that is there is meant.
-/

namespace RecordStore

/-- Bounds on a value, both included; a missing bound does not bound. -/
structure Bounds where
  atLeast : Option Value
  atMost : Option Value
  deriving BEq

/-- What a predicate tests of a field. -/
inductive Clause where
  /-- The field equals the value. -/
  | equals (value : Value)
  /-- The field equals one of the values. -/
  | among (values : List Value)
  /-- The field meets the bounds. -/
  | within (bounds : Bounds)
  /-- The field meets one of several bounds. -/
  | withinAny (alternatives : List Bounds)
  deriving BEq

/-- Clauses on the fields of a record, in the order of the fields' names. -/
abbrev Predicate := FieldMap Clause

namespace Predicate

/-- The predicate that every record meets. -/
def empty : Predicate := FieldMap.empty

/-- The predicate that asks for one of several identifiers. -/
def identifiedBy (ids : List Value) : Predicate :=
  empty.insert FieldName.nativeId (.among ids)

end Predicate

end RecordStore
