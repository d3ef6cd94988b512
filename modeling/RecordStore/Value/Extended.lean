import RecordStore.Text.Base64
import RecordStore.Time.Rfc3339
import RecordStore.Value.Spelled

/-!
# Extended forms

The table of documents that spell values (`RecordStore.Forms.extended`). Every kind of
value that JSON lacks has a form: most are documents with a single entry, whose value is
a text, a number or a document of named parts, and a script with variables has two
entries, in either order.

Texts are read strictly and numbers within their bounds. A form whose value is a document
of parts looks for the parts by their names and passes over any others.
-/

namespace RecordStore

namespace Value

/-- The text that a value is. -/
def text? : Value → Option String
  | string s => some s
  | _ => none

/-- The identifier that a value is. -/
def objectId? : Value → Option ObjectId
  | objectId id => some id
  | _ => none

/-- The plain bytes that a value is: a string of bytes that are not meant as anything. -/
def plainBytes? : Value → Option (List UInt8)
  | special (.binary 0 bytes) => some bytes
  | _ => none

/-- Whether a value is the integer one, as the extreme keys are spelled. -/
def isOne : Value → Bool
  | int32 n => n = 1
  | int64 n => n = 1
  | _ => false

/-! ### Forms of a single text -/

/-- The integer that a text spells, if it lies between two bounds. -/
def boundedInt? (least greatest : Int) (text : String) : Option Int :=
  (Decimal.int? text).filter fun n => least ≤ n ∧ n ≤ greatest

/-- The value that a named text spells. -/
def spelledByText? (name text : String) : Option Value :=
  match name with
  | "$oid" => (ObjectId.ofText? text).map objectId
  | "$symbol" => some (special (.symbol text))
  | "$numberInt" =>
    (boundedInt? (-(2 ^ 31)) (2 ^ 31 - 1) text).map fun n => int32 (.ofInt n)
  | "$numberLong" =>
    (boundedInt? (-(2 ^ 63)) (2 ^ 63 - 1) text).map fun n => int64 (.ofInt n)
  | "$numberDouble" => (Decimal.double? text).map double
  | "$numberDecimal" => (Decimal128.ofText? text).map fun d => special (.decimal d)
  | "$code" => some (special (.code text))
  | "$date" => (Rfc3339.date? text).map date
  | _ => none

/-! ### Forms with named parts -/

/-- The byte that two hexadecimal digits spell. -/
def byteOfDigits? : List Char → Option UInt8
  | [high, low] => do
    return .ofNat (2 ^ 4 * (← ObjectId.digitValue? high) + (← ObjectId.digitValue? low))
  | _ => none

/-- The string of bytes with given parts: the bytes in base 64 and what they are meant as
by two hexadecimal digits, or the bytes themselves and a number. -/
def binaryOf? (parts : Document) : Option Special :=
  match (parts.get? "base64").bind text? with
  | some text => do
    let bytes ← Base64.bytes? text.toList
    let subtype ← byteOfDigits? (← (← parts.get? "subType").text?).toList
    return .binary subtype bytes
  | none => do
    let bytes ← (← parts.get? "bytes").plainBytes?
    match parts.get? "subType" with
    | some (int32 n) =>
      if 0 ≤ n.toInt ∧ n.toInt < 2 ^ 8 then some (.binary (.ofInt n.toInt) bytes) else none
    | _ => none

/-- The point of a replication log with given parts, which are integers of one size. The
bits of integers of 32 bits are taken as they are. -/
def timestampOf? (parts : Document) : Option Special :=
  match parts.get? "t", parts.get? "i" with
  | some (int32 seconds), some (int32 increment) =>
    some (.timestamp seconds.toUInt32 increment.toUInt32)
  | some (int64 seconds), some (int64 increment) =>
    if (0 ≤ seconds.toInt ∧ seconds.toInt < 2 ^ 32) ∧
        (0 ≤ increment.toInt ∧ increment.toInt < 2 ^ 32) then
      some (.timestamp (.ofInt seconds.toInt) (.ofInt increment.toInt))
    else none
  | _, _ => none

/-- The regular expression with given parts, neither of which may hold the character
that ends a text. The options are put in the order of their letters. -/
def regexOf? (parts : Document) : Option Special := do
  let pattern ← (← parts.get? "pattern").text?
  let options ← (← parts.get? "options").text?
  if pattern.toList.contains '\x00' || options.toList.contains '\x00' then none
  else return .regex pattern (.ofList (options.toList.mergeSort fun a b => decide (a ≤ b)))

/-- The pointer to a record with given parts. -/
def dbPointerOf? (parts : Document) : Option Special := do
  return .dbPointer (← (← parts.get? "$ref").text?) (← (← parts.get? "$id").objectId?)

/-- The value that named parts spell. -/
def spelledByParts? (name : String) (parts : Document) : Option Value :=
  match name with
  | "$binary" => (binaryOf? parts).map special
  | "$timestamp" => (timestampOf? parts).map special
  | "$regularExpression" => (regexOf? parts).map special
  | "$dbPointer" => (dbPointerOf? parts).map special
  | _ => none

/-! ### All forms -/

/-- The value that a single named value spells, if it spells one. -/
def spelledBy? : String → Value → Option Value
  | name, string text => spelledByText? name text
  | name, document parts => spelledByParts? name parts
  | "$date", int64 n => some (date ⟨n⟩)
  | "$numberDecimalBytes", value =>
    (value.plainBytes?.bind Decimal128.ofBytes?).map fun d => special (.decimal d)
  | "$minKey", value => if value.isOne then some (special .minKey) else none
  | "$maxKey", value => if value.isOne then some (special .maxKey) else none
  | "$undefined", bool b => if b then some (special .undefined) else none
  | _, _ => none

/-- The value that a document spells, if it spells one. -/
def spelled? : List (String × Value) → Option Value
  | [(name, value)] => spelledBy? name value
  | [("$code", string source), ("$scope", document scope)]
  | [("$scope", document scope), ("$code", string source)] => some (codeWithScope source scope)
  | _ => none

/-! ### What the forms have in common -/

/-- A single entry spells only what needs spelling. -/
theorem isSpellable_of_spelledBy? {name : String} {value spelled : Value}
    (h : spelledBy? name value = some spelled) : spelled.isSpellable = true := by
  unfold spelledBy? spelledByText? spelledByParts? at h
  split at h <;> (try split at h) <;> grind [isSpellable, Option.map_eq_some_iff]

/-- A top-level field cannot have the name by which a value is spelled. -/
theorem spelledBy?_eq_none_of_isTopLevel {name : String} (h : FieldName.isTopLevel name = true)
    (value : Value) : spelledBy? name value = none := by
  unfold spelledBy? spelledByText? spelledByParts?
  split <;> (try split) <;> first | rfl | exact absurd h (by decide)

/-- Nothing is spelled by null. -/
theorem spelledBy?_null (name : String) : spelledBy? name null = none := by
  unfold spelledBy?
  split <;> first | rfl | contradiction

variable {entries : List (String × Value)} {value : Value}

/-- **What a form spells needs spelling.** -/
theorem isSpellable_of_spelled? (h : spelled? entries = some value) :
    value.isSpellable = true := by
  unfold spelled? at h
  split at h
  · exact isSpellable_of_spelledBy? h
  · cases h
    rfl
  · cases h
    rfl
  · cases h

/-- **The names of a form are no names of fields.** -/
theorem isTopLevel_of_spelled? (h : spelled? entries = some value) :
    ∀ entry ∈ entries, FieldName.isTopLevel entry.1 = false := by
  have hscript : FieldName.isTopLevel "$code" = false ∧ FieldName.isTopLevel "$scope" = false := by
    decide
  unfold spelled? at h
  split at h
  · rename_i name value
    refine List.forall_mem_singleton.2 (Bool.eq_false_iff.2 fun htopLevel => ?_)
    rw [spelledBy?_eq_none_of_isTopLevel htopLevel value] at h
    cases h
  · simp [hscript]
  · simp [hscript]
  · cases h

/-- **No value of a form is null.** -/
theorem isNull_of_spelled? (h : spelled? entries = some value) :
    ∀ entry ∈ entries, entry.2.isNull = false := by
  unfold spelled? at h
  split at h
  · rename_i name value
    refine List.forall_mem_singleton.2 ?_
    cases value with
    | null => rw [spelledBy?_null] at h; cases h
    | _ => rfl
  · simp [isNull]
  · simp [isNull]
  · cases h

end Value

/-- **The extended forms**: every kind that JSON lacks has one. -/
def Forms.extended : Forms where
  spelled? := Value.spelled?
  isSpellable_of_spelled? := Value.isSpellable_of_spelled?
  ne_nil_of_spelled? := by
    rintro _ _ h rfl
    cases h
  isTopLevel_of_spelled? := Value.isTopLevel_of_spelled?
  isNull_of_spelled? := Value.isNull_of_spelled?

end RecordStore
