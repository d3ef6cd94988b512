import RecordStore.Sorting.Basic
import RecordStore.Value.Compare

/-!
# The order and the window of a find

A store is told by which fields to list the records it finds, each with a
direction of its own, and which window of the list to return. Records are
compared field by field: the first field on which they differ decides
(`RecordStore.FindOptions.compareRecords`). The list is sorted stably, so
records that differ on no field stay in the order in which they were stored,
whatever the directions.
-/

namespace RecordStore

/-- The order and the window of a find. -/
structure FindOptions where
  /-- The fields to sort by, the most significant first. -/
  sort : List (String × SortOrder)
  /-- How many records to pass over; none if missing. -/
  offset : Option Nat
  /-- How many records to return at most; all if missing. -/
  limit : Option Nat
  deriving DecidableEq

namespace FindOptions

/-- All records, in the order in which they were stored. -/
def all : FindOptions := ⟨[], none, none⟩

end FindOptions

/-- The order and the window that a sort stands for: its direction holds for
every property, and its properties are named as in records. -/
def ResolvedSorting.findOptions (sort : ResolvedSorting) : FindOptions where
  sort := sort.properties.map fun property => (FieldName.native property, sort.order)
  offset := some sort.offset
  limit := some sort.limit

/-- Turns a comparison round for a descending sort. -/
def SortOrder.apply : SortOrder → Ordering → Ordering
  | ascending, comparison => comparison
  | descending, comparison => comparison.swap

namespace FindOptions

/-- Compares two records on a list of fields: the first that tells them apart
decides. -/
def compareOn : List (String × SortOrder) → Document → Document → Ordering
  | [], _, _ => .eq
  | (field, order) :: rest, a, b =>
    (order.apply ((a.read field).sortCompare (b.read field))).then (compareOn rest a b)

/-- Compares two records as a sort does. -/
def compareRecords (options : FindOptions) : Document → Document → Ordering :=
  compareOn options.sort

/-- Puts records in order; those that tie keep their places. -/
def arrange (options : FindOptions) (records : List Document) : List Document :=
  if options.sort.isEmpty then records
  else records.mergeSort fun a b => (options.compareRecords a b).isLE

/-- Cuts the window out of a list. -/
def window {α : Type} (options : FindOptions) (items : List α) : List α :=
  let rest := items.drop (options.offset.getD 0)
  match options.limit with
  | some limit => rest.take limit
  | none => rest

end FindOptions

end RecordStore
