import RecordStore.FieldName

/-!
# Sorts and their defaults

A sort says by which properties entities are listed, in which direction, and
which window of the list is wanted. A caller may leave any part open; what is
open is taken from the defaults of the repository
(`RecordStore.SortDefaults.resolve`), each part on its own.
-/

namespace RecordStore

/-- The direction of a sort. -/
inductive SortOrder where
  | ascending
  | descending
  deriving DecidableEq

/-- A sort, any part of which may be open. -/
structure Sorting where
  /-- The properties to sort by, the most significant first. -/
  properties : List String
  order : Option SortOrder
  /-- How many entities to pass over. -/
  offset : Option Nat
  /-- How many entities to list at most. -/
  limit : Option Nat
  deriving DecidableEq

namespace Sorting

/-- The sort that leaves everything open. -/
def empty : Sorting := ⟨[], none, none, none⟩

/-- Adds a property, less significant than those before it. -/
def thenBy (sort : Sorting) (property : String) : Sorting :=
  { sort with properties := sort.properties ++ [property] }

end Sorting

/-- A sort that leaves nothing open. -/
structure ResolvedSorting where
  properties : List String
  order : SortOrder
  offset : Nat
  limit : Nat
  deriving DecidableEq

/-- What stands in for the open parts of a sort. -/
structure SortDefaults where
  property : String
  order : SortOrder
  offset : Nat
  limit : Nat
  deriving DecidableEq

namespace SortDefaults

/-- The newest hundred entities, the newest first. -/
def standard : SortDefaults := ⟨FieldName.createdAt, .descending, 0, 100⟩

instance : Inhabited SortDefaults := ⟨standard⟩

/-- Fills the open parts of a sort. -/
def fill (defaults : SortDefaults) (sort : Sorting) : ResolvedSorting where
  properties := if sort.properties.isEmpty then [defaults.property] else sort.properties
  order := sort.order.getD defaults.order
  offset := sort.offset.getD defaults.offset
  limit := sort.limit.getD defaults.limit

/-- Fills the open parts of a sort that may be missing altogether. -/
def resolve (defaults : SortDefaults) (sort : Option Sorting) : ResolvedSorting :=
  defaults.fill (sort.getD .empty)

end SortDefaults

end RecordStore
