import RecordStore.Filter.Basic
import RecordStore.Sorting.Basic

/-!
# Lookups

The four ways of asking for entities: by one key, by a list of keys, by a
filter, and by a query, which adds a sort and returns a page.
-/

namespace RecordStore

/-- A filter and a sort, either of which may be missing. -/
structure Query where
  filter : Option Filter
  sort : Option Sorting
  deriving BEq

namespace Query

/-- The query that asks for nothing in particular. -/
def empty : Query := ⟨none, none⟩

end Query

/-- A way of asking for entities, with keys of a given type. -/
inductive Lookup (κ : Type) where
  | byId (key : κ)
  | byIds (keys : List κ)
  | byFilter (filter : Filter)
  | byQuery (query : Query)

namespace Lookup

/-- The lookup of every entity. -/
def all {κ : Type} : Lookup κ := .byFilter Filter.empty

end Lookup

end RecordStore
