import RecordStore.FieldName

/-!
# Payloads

The properties of a new entity reach a store as a document. The attributes that
the store assigns must not be among them; of several that are, the first in the
order of `RecordStore.FieldName.reserved` is reported.
-/

namespace RecordStore

namespace Document

/-- The first attribute of a document that only a store may assign. -/
def managed? (document : Document) : Option String :=
  FieldName.reserved.find? fun name => document.contains name

/-- The payload that the properties of an entity amount to. -/
def ofProperties : Value → Outcome Document
  | .document entries =>
    match managed? entries with
    | some name => .error (.validation (.managed name))
    | none => .ok entries
  | value => .error (.invalidDocument (.notADocument value.kind))

end Document

end RecordStore
