import RecordStore.Json
import RecordStore.Lookup.Cast
import RecordStore.Proofs.Request.Lists
import RecordStore.Request.Lookup

/-!
# What a request can be refused for

A request is read in stages: it is classified, its filter is read condition by
condition, and the values of the filter are cast to the kinds of a schema. A
stage that fails says what is wrong with the request, and nothing else: the
failure is that of an ambiguous shape or of an invalid query
(`RecordStore.Lookup.failsAs_ofValue`, `RecordStore.Lookup.failsAs_cast`), before
that, for a request in JSON, that of a number which no value can hold
(`RecordStore.Json.failsAs_toValue`). None of them is the failure of a collection
that is not bound (`RecordStore.Failure.OfRequest.ne_unbound`).
-/

namespace RecordStore

namespace Failure

/-- Whether a failure says what is wrong with a filter or a sort. -/
def OfQuery : Failure → Prop
  | invalidQuery _ => True
  | _ => False

/-- Whether a failure says what is wrong with a lookup, in its shape or in its
filter and sort. -/
def OfLookup : Failure → Prop
  | ambiguousShape _ => True
  | failure => failure.OfQuery

/-- Whether a failure says what is wrong with a request, also with one in JSON. -/
def OfRequest : Failure → Prop
  | serialization _ => True
  | failure => failure.OfLookup

theorem OfQuery.ofLookup {failure : Failure} (h : failure.OfQuery) : failure.OfLookup := by
  cases failure with
  | invalidQuery cause => trivial
  | _ => exact h.elim

theorem OfLookup.ofRequest {failure : Failure} (h : failure.OfLookup) : failure.OfRequest := by
  cases failure with
  | ambiguousShape cause => trivial
  | invalidQuery cause => trivial
  | _ => exact h.elim

theorem OfRequest.ne_unbound {failure : Failure} (h : failure.OfRequest) (collection : String) :
    failure ≠ .unbound collection := by
  rintro rfl
  exact h

end Failure

open Outcome

/-! ### Reading a request -/

/-- A name is refused with a fault of a query. -/
theorem FieldName.failsAs_check (name : String) :
    FailsAs Failure.OfQuery (FieldName.check name) := by
  rw [check]
  split
  · exact failsAs_ok ()
  · exact failsAs_error trivial

/-- What spells no condition is refused with a fault of a query. -/
theorem Condition.failsAs_ofValue (field : String) (value : Value) :
    FailsAs Failure.OfQuery (Condition.ofValue field value) := by
  unfold ofValue
  split
  · rw [ofList_eq]
    split
    · exact failsAs_ok _
    split
    · exact failsAs_error trivial
    · exact failsAs_ok _
  · split
    · exact failsAs_ok _
    · exact failsAs_error trivial
  · exact failsAs_ok _

theorem Filter.failsAs_requireSpelled (filter : Filter) (entry : String × Value) :
    FailsAs Failure.OfQuery (filter.requireSpelled entry) :=
  (FieldName.failsAs_check entry.1).bind fun _ =>
    (Condition.failsAs_ofValue entry.1 entry.2).bind fun _ => failsAs_ok _

/-- A document read as a filter fails only as a query may. -/
theorem Filter.failsAs_ofDocument (document : Document) :
    FailsAs Failure.OfQuery (Filter.ofDocument document) :=
  failsAs_foldlM failsAs_requireSpelled document Filter.empty

namespace Sorting

/-- What names no property is refused with a fault of a query. -/
theorem failsAs_addProperty (sort : Sorting) (value : Value) :
    FailsAs Failure.OfQuery (sort.addProperty value) := by
  unfold addProperty
  split
  · exact (FieldName.failsAs_check _).bind fun _ => failsAs_ok _
  · exact failsAs_error trivial

/-- What is no count is refused with a fault of a query. -/
theorem failsAs_count (key : String) (value : Value) :
    FailsAs Failure.OfQuery (count key value) := by
  unfold count
  split
  · exact failsAs_ok _
  · exact failsAs_error trivial

/-- What is no part of a sort is refused with a fault of a query. -/
theorem failsAs_takeEntry (sort : Sorting) (entry : String × Value) :
    FailsAs Failure.OfQuery (sort.takeEntry entry) := by
  unfold takeEntry
  split
  · exact failsAs_ok _
  · exact failsAs_addProperty sort _
  · exact failsAs_foldlM failsAs_addProperty _ _
  · split
    · exact failsAs_ok _
    · exact failsAs_error trivial
  · exact (failsAs_count _ _).bind fun _ => failsAs_ok _
  · exact (failsAs_count _ _).bind fun _ => failsAs_ok _
  · exact failsAs_error trivial

/-- What is no query is refused for its shape or for what is asked. -/
theorem failsAs_ofDocument (document : Document) :
    FailsAs Failure.OfQuery (Sorting.ofDocument document) :=
  failsAs_foldlM failsAs_takeEntry _ _

end Sorting

namespace Query

/-- A part of a query fails for its shape, or as reading it does. -/
theorem failsAs_part {α : Type} {read : Document → Outcome α}
    (h : ∀ entries, FailsAs Failure.OfQuery (read entries)) (document : Document) (key : String)
    (otherwise : ShapeCause) : FailsAs Failure.OfLookup (part document key otherwise read) := by
  unfold part
  split
  · exact failsAs_ok none
  · exact failsAs_ok none
  · exact ((h _).mono fun _ => Failure.OfQuery.ofLookup).map some
  · exact failsAs_error trivial

theorem failsAs_ofDocument (document : Document) :
    FailsAs Failure.OfLookup (Query.ofDocument document) := by
  unfold ofDocument
  split
  · exact failsAs_error trivial
  · exact (failsAs_part Filter.failsAs_ofDocument _ _ _).bind fun _ =>
      (failsAs_part Sorting.failsAs_ofDocument _ _ _).bind fun _ => failsAs_ok _

end Query

namespace Lookup

variable {κ : Type} [EntityKey κ]

/-- What is no key is refused for its shape. -/
theorem failsAs_keyOf (value : Value) :
    FailsAs Failure.OfLookup (keyOf value : Outcome κ) := by
  unfold keyOf
  rcases (EntityKey.ofNative value : Except DocumentCause κ) with cause | key
  · exact failsAs_error trivial
  · exact failsAs_ok key

/-- **A value that asks for no lookup** is ambiguous in its shape, or an invalid
query. -/
theorem failsAs_ofValue (value : Value) :
    FailsAs Failure.OfLookup (ofValue value : Outcome (Lookup κ)) := by
  unfold ofValue
  split
  · exact failsAs_ok _
  · exact (failsAs_mapM fun item _ => failsAs_keyOf item).map _
  · split
    · exact (Query.failsAs_ofDocument _).map _
    · exact ((Filter.failsAs_ofDocument _).mono fun _ => Failure.OfQuery.ofLookup).map _
  · exact (failsAs_keyOf _).map _

end Lookup

/-! ### Casting a lookup -/

/-- A value that cannot be cast is refused with a fault of a query. -/
theorem Value.failsAs_cast (field : String) (kind : FieldKind) (value : Value) :
    FailsAs Failure.OfQuery (Value.cast field kind value) := by
  unfold Value.cast
  split
  · split
    · exact failsAs_ok _
    · exact failsAs_error trivial
  · exact failsAs_ok _
  · exact failsAs_ok _
  · split
    · exact failsAs_ok _
    · exact failsAs_error trivial
  · exact failsAs_ok _

theorem Range.failsAs_mapM {α β : Type} {f : α → Outcome β} {allowed : Failure → Prop}
    (h : ∀ a, FailsAs allowed (f a)) (range : Range α) : FailsAs allowed (range.mapM f) :=
  (failsAs_option_mapM h _).bind fun _ => (failsAs_option_mapM h _).bind fun _ => failsAs_ok _

/-- A condition fails as one of its values does. -/
theorem Condition.failsAs_mapM {f : Value → Outcome Value} {allowed : Failure → Prop}
    (h : ∀ value, FailsAs allowed (f value)) (condition : Condition) :
    FailsAs allowed (condition.mapM f) := by
  cases condition with
  | equals value => exact (h value).map _
  | oneOf values => exact (Outcome.failsAs_mapM fun value _ => h value).map _
  | within range => exact (Range.failsAs_mapM h range).map _
  | withinAny ranges => exact (Outcome.failsAs_mapM fun range _ => Range.failsAs_mapM h range).map _

theorem Condition.failsAs_cast (schema : Schema) (field : String) (condition : Condition) :
    FailsAs Failure.OfQuery (condition.cast schema field) := by
  unfold Condition.cast
  split
  · exact failsAs_mapM (Value.failsAs_cast field _) condition
  · exact failsAs_ok condition

theorem Filter.failsAs_cast (schema : Schema) (filter : Filter) :
    FailsAs Failure.OfQuery (filter.cast schema) := by
  refine failsAs_foldlM (fun cast entry => ?_) filter.entries Filter.empty
  exact (Condition.failsAs_cast schema entry.1 entry.2).bind fun _ => failsAs_ok _

/-- **A lookup whose values cannot be cast** is an invalid query. -/
theorem Lookup.failsAs_cast {κ : Type} (schema : Schema) (lookup : Lookup κ) :
    FailsAs Failure.OfQuery (lookup.cast schema) := by
  unfold Lookup.cast
  split
  · exact (Filter.failsAs_cast schema _).map _
  · exact (failsAs_option_mapM (Filter.failsAs_cast schema) _).bind fun _ => failsAs_ok _
  · exact failsAs_ok _

/-! ### Requests in JSON -/

namespace Json

mutual

/-- The one fault of JSON is an integer that does not fit. -/
theorem failsAs_image (json : Json) : FailsAs Failure.OfRequest json.image := by
  match json with
  | null => exact failsAs_ok _
  | bool b => exact failsAs_ok _
  | string s => exact failsAs_ok _
  | int n =>
    rw [image]
    split
    · exact failsAs_ok _
    · exact failsAs_error trivial
  | float d => exact failsAs_ok _
  | array items => exact (failsAs_imageItems items).map _
  | object entries => exact (failsAs_imageEntries entries).map _

theorem failsAs_imageItems (items : List Json) :
    FailsAs Failure.OfRequest (imageItems items) := by
  match items with
  | [] => exact failsAs_ok _
  | item :: rest =>
    exact (failsAs_image item).bind fun _ => (failsAs_imageItems rest).bind fun _ => failsAs_ok _

theorem failsAs_imageEntries (entries : List (String × Json)) :
    FailsAs Failure.OfRequest (imageEntries entries) := by
  match entries with
  | [] => exact failsAs_ok _
  | (name, item) :: rest =>
    exact (failsAs_image item).bind fun _ => (failsAs_imageEntries rest).bind fun _ => failsAs_ok _

end

/-- **JSON that has no value** holds an integer beyond 64 bits. -/
theorem failsAs_toValue (forms : Forms) (json : Json) :
    FailsAs Failure.OfRequest (json.toValue forms) :=
  (failsAs_image json).map forms.unspell

end Json

end RecordStore
