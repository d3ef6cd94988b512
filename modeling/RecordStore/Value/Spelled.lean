import RecordStore.FieldName

/-!
# Values spelled as documents

Formats with few kinds of values write the other kinds as documents whose names
begin with a dollar sign and say what is meant: an object identifier by its digits,
a date by its text or its milliseconds, a number by its numeral. Which documents
spell values, and which values these are, is a matter of the format and described by
`RecordStore.Forms`; the table that this library reads requests with is
`RecordStore.Forms.extended`.

`RecordStore.Forms.unspell` replaces every document within a value that spells one by
what it spells, the innermost first, so that a date may be spelled by a spelled
integer. A document that fails to spell anything – for an unreadable text, a value of
another kind, an entry too many – is an ordinary document.
-/

namespace RecordStore

/-- Whether a value is of a kind that documents spell: a kind that formats do without,
or a number of a definite encoding. -/
def Value.isSpellable : Value → Bool
  | int32 _ | int64 _ | double _ | date _ | objectId _ | special _ | codeWithScope _ _ => true
  | _ => false

/-- The documents of a format that spell values of other kinds. A field can be told
from a part of such a document by its name, and an entry that is left out from one that
spells something by its value. -/
structure Forms where
  /-- The value that a document spells, if it spells one. The values in the document are
  those that they spell themselves. -/
  spelled? : List (String × Value) → Option Value
  /-- What is spelled needs spelling. -/
  isSpellable_of_spelled? {entries : List (String × Value)} {value : Value} :
    spelled? entries = some value → value.isSpellable = true
  /-- Something is spelled by entries only. -/
  ne_nil_of_spelled? {entries : List (String × Value)} {value : Value} :
    spelled? entries = some value → entries ≠ []
  /-- The name of no such entry is the name of a field. -/
  isTopLevel_of_spelled? {entries : List (String × Value)} {value : Value} :
    spelled? entries = some value → ∀ entry ∈ entries, FieldName.isTopLevel entry.1 = false
  /-- The value of no such entry is null. -/
  isNull_of_spelled? {entries : List (String × Value)} {value : Value} :
    spelled? entries = some value → ∀ entry ∈ entries, entry.2.isNull = false

namespace Forms

variable (forms : Forms)

/-- The value that a document spells, or the document itself. -/
def ofSpelling (entries : List (String × Value)) : Value :=
  (forms.spelled? entries).getD (.document entries)

/-- A script with the variables that a document holds. Where they are no document, there
is no such script, and what would be its parts are kept as entries. -/
def scriptWithin (source : String) : Value → Value
  | .document scope => .codeWithScope source scope
  | other => .document [("$code", .string source), ("$scope", other)]

mutual

/-- Replaces every document that spells a value by that value. -/
def unspell : Value → Value
  | .array items => .array (unspellItems items)
  | .document entries => forms.ofSpelling (unspellEntries entries)
  | .codeWithScope source scope => scriptWithin source (forms.ofSpelling (unspellEntries scope))
  | value => value

/-- Replaces the spelled values among and within the members of an array. -/
def unspellItems : List Value → List Value
  | [] => []
  | item :: rest => unspell item :: unspellItems rest

/-- Replaces the spelled values among and within the values of a document. -/
def unspellEntries : List (String × Value) → List (String × Value)
  | [] => []
  | (name, value) :: rest => (name, unspell value) :: unspellEntries rest

end

theorem unspellItems_eq_map (items : List Value) :
    forms.unspellItems items = items.map forms.unspell := by
  induction items with
  | nil => rfl
  | cons item rest ih => simp [unspellItems, ih]

theorem unspellEntries_eq_map (entries : List (String × Value)) :
    forms.unspellEntries entries = entries.map fun entry => (entry.1, forms.unspell entry.2) := by
  induction entries with
  | nil => rfl
  | cons entry rest ih => simp [unspellEntries, ih]

end Forms

end RecordStore
