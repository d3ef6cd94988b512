import RecordStore.Schema.FieldKind

/-!
# Failures

Everything that can go wrong, by cause. Each kind of failure has its own causes,
and each cause carries what its message names; `RecordStore.Failure.message`
words them all. A caller with a wording of its own uses the `other` cause of a
kind.

Where a cause stands for a text that could not be read as a date or as an object
identifier, the message ends where a diagnosis of the text would begin.
-/

namespace RecordStore

/-- Why a payload was refused. -/
inductive ValidationCause where
  /-- A required field is missing or null. -/
  | required (field : String)
  /-- A field holds a value of another kind. -/
  | mistyped (field : String) (expected : FieldKind) (found : Kind)
  /-- The caller supplied an attribute that the store assigns. -/
  | managed (field : String)
  | other (text : String)
  deriving DecidableEq

/-- Why a schema was refused. -/
inductive SchemaCause where
  | emptyName
  /-- A name has a dot or a leading dollar sign. -/
  | malformedName (field : String)
  /-- A name is that of an attribute which the store assigns. -/
  | managed (field : String)
  | repeated (field : String)
  | other (text : String)
  deriving DecidableEq

/-- Why a document, or a value to go into one, was refused. -/
inductive DocumentCause where
  /-- A value is no identifier in text form. -/
  | notTextIdentifier (found : Kind)
  /-- A value is no object identifier. -/
  | notObjectIdentifier (found : Kind)
  /-- A text is not that of an object identifier. -/
  | unreadableObjectId
  /-- A record lacks its identifier. -/
  | noIdentifier
  /-- The properties of an entity are not a document. -/
  | notADocument (found : Kind)
  | other (text : String)
  deriving DecidableEq

/-- Why a request fits no form of lookup. -/
inductive ShapeCause where
  | notAnIdentifier (cause : DocumentCause)
  /-- A key stands beside the two keys of a query. -/
  | besideQuery (key : String)
  | filterNotADocument
  | sortNotADocument
  | other (text : String)
  deriving DecidableEq

/-- Why a filter or a sort was refused. -/
inductive QueryCause where
  /-- A name is not that of a top-level field. -/
  | notTopLevel (field : String)
  /-- A range has neither bound. -/
  | unbounded (field : String)
  /-- A list holds ranges and other values. -/
  | mixedList (field : String)
  /-- A document that is not a range. -/
  | embeddedDocument (field : String)
  | unreadableDate (field : String)
  | unreadableObjectId (field : String)
  | sortPropertyNotText
  | unknownSortOrder (found : String)
  | sortCountNotNatural (key : String)
  | unexpectedSortEntry (key : String)
  | other (text : String)
  deriving DecidableEq

/-- What can go wrong when a repository is used. -/
inductive Failure where
  /-- An entity or a configuration could not be read or written. -/
  | serialization (detail : String)
  /-- A store could not be set up. -/
  | initialization (detail : String)
  /-- A payload does not fit the schema of its collection. -/
  | validation (cause : ValidationCause)
  /-- A collection has no schema, or the session was closed. -/
  | unbound (collection : String)
  /-- A collection already has a schema. -/
  | alreadyBound (collection : String)
  | invalidSchema (cause : SchemaCause)
  | ambiguousShape (cause : ShapeCause)
  | invalidQuery (cause : QueryCause)
  | invalidDocument (cause : DocumentCause)
  /-- The store itself failed. -/
  | backend (detail : String)
  deriving DecidableEq

/-- A name between backticks, as messages quote it. -/
def quoted (name : String) : String := "`" ++ name ++ "`"

namespace ValidationCause

/-- The wording of a cause. -/
def message : ValidationCause → String
  | required field => "field " ++ quoted field ++ " is required"
  | mistyped field expected found =>
    "field " ++ quoted field ++ " expected " ++ expected.name ++ ", found " ++ found.name
  | managed field =>
    "field " ++ quoted field ++ " is managed by the store and cannot be supplied on create"
  | other text => text

end ValidationCause

namespace SchemaCause

/-- The wording of a cause. -/
def message : SchemaCause → String
  | emptyName => "field names cannot be empty"
  | malformedName field =>
    "field " ++ quoted field ++ " cannot contain `.` or start with `$`"
  | managed field => "field " ++ quoted field ++ " is managed by the store"
  | repeated field => "field " ++ quoted field ++ " is declared twice"
  | other text => text

end SchemaCause

namespace DocumentCause

/-- The wording of a cause. -/
def message : DocumentCause → String
  | notTextIdentifier found => "expected a string or object id, found " ++ found.name
  | notObjectIdentifier found => "expected an object id, found " ++ found.name
  | unreadableObjectId => ""
  | noIdentifier => "record has no `_id`"
  | notADocument found => "properties must serialize to a document, found " ++ found.name
  | other text => text

end DocumentCause

namespace ShapeCause

/-- The wording of a cause. -/
def message : ShapeCause → String
  | notAnIdentifier cause =>
    "value is not an identifier: Invalid document: " ++ cause.message
  | besideQuery key =>
    quoted key
      ++ " next to `filter`/`sort`: entity fields cannot be named `filter` or `sort`"
  | filterNotADocument => "`filter` must be a document"
  | sortNotADocument => "`sort` must be a document"
  | other text => text

end ShapeCause

namespace QueryCause

/-- The wording of a cause. -/
def message : QueryCause → String
  | notTopLevel field => quoted field ++ " is not a top-level field name"
  | unbounded field => "range on " ++ quoted field ++ " has neither start nor end"
  | mixedList field => quoted field ++ " mixes ranges and plain values"
  | embeddedDocument field =>
    quoted field ++ ": embedded documents can only be ranges with `start`/`end`"
  | unreadableDate field => quoted field ++ " expects a date: "
  | unreadableObjectId field => quoted field ++ " expects an object id: "
  | sortPropertyNotText => "sort properties must be strings"
  | unknownSortOrder found =>
    "sort order must be `ascending` or `descending`, found " ++ quoted found
  | sortCountNotNatural key => "sort " ++ quoted key ++ " must be a non-negative integer"
  | unexpectedSortEntry key => "unexpected sort key or value for " ++ quoted key
  | other text => text

end QueryCause

namespace Failure

/-- The wording of a failure. -/
def message : Failure → String
  | serialization detail => "Serialization error: " ++ detail
  | initialization detail => "Initialization error: " ++ detail
  | validation cause => "Validation error: " ++ cause.message
  | unbound collection => "Repository for collection " ++ collection ++ " is not bound"
  | alreadyBound collection => "Model already bound for collection " ++ collection
  | invalidSchema cause => "Invalid schema: " ++ cause.message
  | ambiguousShape cause => "Ambiguous query shape: " ++ cause.message
  | invalidQuery cause => "Invalid query: " ++ cause.message
  | invalidDocument cause => "Invalid document: " ++ cause.message
  | backend detail => "Backend error: " ++ detail

end Failure

/-- The outcome of a step that may fail. -/
abbrev Outcome (α : Type) := Except Failure α

end RecordStore
