import RecordStore.Lookup.Basic
import RecordStore.Lookup.Key
import RecordStore.Request.Condition
import RecordStore.Request.Sorting

/-!
# Lookups from values

A single value, of which nothing is known beforehand, says by its shape which
lookup it asks for:

1. nothing, or null, asks for every entity;
2. an array is a list of keys;
3. a document with an entry `filter` or `sort` is a query, and may then have no
   other entry;
4. any other document is a filter;
5. anything else is a key.

So that no document has two readings, fields named `filter` or `sort` cannot be
asked for in this way.
-/

namespace RecordStore

/-- The name of the filter in a query. -/
def Query.filterKey : String := "filter"

/-- The name of the sort in a query. -/
def Query.sortKey : String := "sort"

namespace Query

/-- Whether a document is to be read as a query. -/
def isSpelledBy (document : Document) : Bool :=
  document.contains filterKey || document.contains sortKey

/-- The first name that has no place in a query. -/
def strayKey? (document : Document) : Option String :=
  document.keys.find? fun key => key ≠ filterKey ∧ key ≠ sortKey

/-- The part of a query that an entry spells, which may be missing or null. -/
def part {α : Type} (document : Document) (key : String) (otherwise : ShapeCause)
    (read : Document → Outcome α) : Outcome (Option α) :=
  match document.get? key with
  | none | some .null => .ok none
  | some (.document entries) => some <$> read entries
  | some _ => .error (.ambiguousShape otherwise)

/-- The query that a document spells. -/
def ofDocument (document : Document) : Outcome Query :=
  match strayKey? document with
  | some key => .error (.ambiguousShape (.besideQuery key))
  | none => do
    let filter ← part document filterKey .filterNotADocument Filter.ofDocument
    let sort ← part document sortKey .sortNotADocument Sorting.ofDocument
    return ⟨filter, sort⟩

end Query

namespace Lookup

variable {κ : Type} [EntityKey κ]

/-- Reads a key off a request. -/
def keyOf (value : Value) : Outcome κ :=
  (EntityKey.ofNative value).mapError fun cause => .ambiguousShape (.notAnIdentifier cause)

/-- **The lookup that a value asks for.** -/
def ofValue : Value → Outcome (Lookup κ)
  | .null => .ok .all
  | .array items => .byIds <$> items.mapM keyOf
  | .document entries =>
    if Query.isSpelledBy entries then .byQuery <$> Query.ofDocument entries
    else .byFilter <$> Filter.ofDocument entries
  | value => .byId <$> keyOf value

/-- The lookup that a value asks for, if there is one. -/
def ofValue? (value : Option Value) : Outcome (Lookup κ) :=
  ofValue (value.getD .null)

end Lookup

end RecordStore
