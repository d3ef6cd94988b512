import RecordStore.Failure

/-!
# Field names

The attributes that a store assigns to every record, the two names of the
identifier – one for callers, one in records – and the rule for the names that a
filter or a sort may use: a dot would address a nested field and a leading
dollar sign an operator, so neither is a name of a top-level field.
-/

namespace RecordStore

namespace FieldName

/-- The identifier, as callers name it. -/
def publicId : String := "id"

/-- The identifier, as records name it. -/
def nativeId : String := "_id"

/-- The time at which a record was created. -/
def createdAt : String := "createdAt"

/-- The time at which a record was last changed. -/
def updatedAt : String := "updatedAt"

/-- The version counter that a store keeps for itself. -/
def version : String := "__v"

/-- The names that only a store assigns, in the order in which they are looked
for. -/
def reserved : List String := [publicId, nativeId, createdAt, updatedAt, version]

/-- Whether a name has a dot or a leading dollar sign. -/
def isPath (name : String) : Bool :=
  name.toList.contains '.' || name.toList.head? == some '$'

/-- Whether a name is that of a top-level field. -/
def isTopLevel (name : String) : Bool :=
  name ≠ "" && !isPath name

/-- Refuses every name but those of top-level fields. -/
def check (name : String) : Outcome Unit :=
  if isTopLevel name then .ok () else .error (.invalidQuery (.notTopLevel name))

/-- The name that records use for a field. -/
def native (name : String) : String :=
  if name = publicId then nativeId else name

/-- The check refuses just the names of nested fields. -/
theorem check_eq_ok_iff {name : String} : check name = .ok () ↔ isTopLevel name = true := by
  by_cases h : isTopLevel name = true <;> simp [check, h]

/-- Records never use the public name of the identifier. -/
theorem native_ne_publicId (name : String) : native name ≠ publicId := by
  unfold native
  split
  · decide
  · assumption

end FieldName

end RecordStore
