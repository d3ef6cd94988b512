import RecordStore.Filter.Basic

/-!
# Typed filters

A field of an entity has a type, and the type decides which conditions make
sense: every type admits equality, every type but the booleans admits lists, and
only the ordered types admit ranges. The three classes below say which types
those are, so that a filter built with `RecordStore.Filter.eq` and its
companions never asks for, say, a range of identifiers.

An instant is stored as a date, rounded towards the past.
-/

namespace RecordStore

/-- A type whose elements can be compared for equality in a filter. -/
class Comparable (α : Type) where
  /-- The stored form of an element. -/
  toValue : α → Value

/-- A type whose elements can be listed in a filter. -/
class Listable (α : Type) extends Comparable α

/-- A type whose elements can bound a range. -/
class Rangeable (α : Type) extends Listable α

instance : Listable String where toValue := .string

instance : Comparable Bool where toValue := .bool

instance : Rangeable Int32 where toValue := .int32

instance : Rangeable Int64 where toValue := .int64

instance : Rangeable Double where toValue := .double

instance : Rangeable Date where toValue := .date

instance : Rangeable Instant where toValue instant := .date instant.floorDate

instance : Listable ObjectId where toValue := .objectId

/-- A field of an entity, with the type of its values. -/
structure Field (α : Type) where
  name : String

namespace Field

/-- The time at which an entity was created. -/
def createdAt : Field Date := ⟨"createdAt"⟩

/-- The time at which an entity was last changed. -/
def updatedAt : Field Date := ⟨"updatedAt"⟩

end Field

namespace Filter

variable {α : Type}

/-- Requires a field to equal a value. -/
def eq [Comparable α] (filter : Filter) (field : Field α) (value : α) : Filter :=
  filter.require field.name (.equals (Comparable.toValue value))

/-- Requires a field to equal one of some values. -/
def oneOf [Listable α] (filter : Filter) (field : Field α) (values : List α) : Filter :=
  filter.require field.name (.oneOf (values.map Comparable.toValue))

/-- Requires a field to lie in a range. -/
def within [Rangeable α] (filter : Filter) (field : Field α) (range : Range α) : Filter :=
  filter.require field.name (.within (range.map Comparable.toValue))

/-- Requires a field to lie in one of some ranges. -/
def withinAny [Rangeable α] (filter : Filter) (field : Field α) (ranges : List (Range α)) :
    Filter :=
  filter.require field.name (.withinAny (ranges.map (Range.map Comparable.toValue)))

end Filter

end RecordStore
