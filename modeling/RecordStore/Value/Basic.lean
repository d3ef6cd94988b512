import RecordStore.Decimal128
import RecordStore.Double.Basic
import RecordStore.Entries
import RecordStore.ObjectId
import RecordStore.Time.Instant

/-!
# Values

The values that documents hold: scalars of several kinds, arrays, documents
themselves, and a number of special kinds that a store keeps and hands back but
never looks into. One of these is a script with variables of its own, and as the
variables have values of any kind, it is a value like arrays and documents and not
among the other special kinds (`RecordStore.Special`). The kind of a value
(`RecordStore.Value.kind`) is what schemas and error messages speak of.

A document lists its entries in order. Its names are distinct in every value
that a program builds, since documents are only ever built by writing entries
(`RecordStore.Entries.insert`); the statements that need this say so by
`RecordStore.Value.WellFormed`, which asks it at every depth.
-/

namespace RecordStore

/-- A value of a kind that is stored and returned but never interpreted, and that
has no other values within it. -/
inductive Special where
  /-- A point of a replication log: seconds and a count within the second. -/
  | timestamp (seconds increment : UInt32)
  /-- A string of bytes, and what they are meant as. -/
  | binary (subtype : UInt8) (bytes : List UInt8)
  /-- A regular expression and its options. -/
  | regex (pattern options : String)
  /-- A decimal number of 128 bits. -/
  | decimal (number : Decimal128)
  /-- A symbol. -/
  | symbol (name : String)
  /-- A script. -/
  | code (source : String)
  /-- A record of a collection, by its identifier. -/
  | dbPointer (collection : String) (id : ObjectId)
  /-- What is below every value. -/
  | minKey
  /-- What is above every value. -/
  | maxKey
  /-- The undefined value. -/
  | undefined
  deriving DecidableEq

/-- A value of a document. -/
inductive Value where
  | null
  | bool (b : Bool)
  | string (s : String)
  | int32 (n : Int32)
  | int64 (n : Int64)
  | double (d : Double)
  | date (d : Date)
  | objectId (id : ObjectId)
  | array (items : List Value)
  | document (entries : List (String × Value))
  | special (s : Special)
  /-- A script, and the values of its variables. -/
  | codeWithScope (source : String) (scope : List (String × Value))

/-- A document: named values, in the order in which the names were first
written. -/
abbrev Document := Entries Value

/-- The kinds of values. -/
inductive Kind where
  | null
  | boolean
  | string
  | array
  | embeddedDocument
  | int32
  | int64
  | double
  | dateTime
  | objectId
  | timestamp
  | binary
  | regularExpression
  | decimal128
  | symbol
  | javaScriptCode
  | javaScriptCodeWithScope
  | dbPointer
  | minKey
  | maxKey
  | undefined
  deriving DecidableEq

/-- The name of a kind in messages. -/
def Kind.name : Kind → String
  | null => "Null"
  | boolean => "Boolean"
  | string => "String"
  | array => "Array"
  | embeddedDocument => "EmbeddedDocument"
  | int32 => "Int32"
  | int64 => "Int64"
  | double => "Double"
  | dateTime => "DateTime"
  | objectId => "ObjectId"
  | timestamp => "Timestamp"
  | binary => "Binary"
  | regularExpression => "RegularExpression"
  | decimal128 => "Decimal128"
  | symbol => "Symbol"
  | javaScriptCode => "JavaScriptCode"
  | javaScriptCodeWithScope => "JavaScriptCodeWithScope"
  | dbPointer => "DbPointer"
  | minKey => "MinKey"
  | maxKey => "MaxKey"
  | undefined => "Undefined"

/-- The kind of a special value. -/
def Special.kind : Special → Kind
  | timestamp _ _ => .timestamp
  | binary _ _ => .binary
  | regex _ _ => .regularExpression
  | decimal _ => .decimal128
  | symbol _ => .symbol
  | code _ => .javaScriptCode
  | dbPointer _ _ => .dbPointer
  | minKey => .minKey
  | maxKey => .maxKey
  | undefined => .undefined

namespace Value

instance : Inhabited Value := ⟨null⟩

/-- The kind of a value. -/
def kind : Value → Kind
  | null => .null
  | bool _ => .boolean
  | string _ => .string
  | int32 _ => .int32
  | int64 _ => .int64
  | double _ => .double
  | date _ => .dateTime
  | objectId _ => .objectId
  | array _ => .array
  | document _ => .embeddedDocument
  | special s => s.kind
  | codeWithScope _ _ => .javaScriptCodeWithScope

/-- Whether a value is null. -/
def isNull : Value → Bool
  | null => true
  | _ => false

mutual

/-- Every document within the value, the value itself included, has distinct
names, and so has every scope of a script. -/
def WellFormed : Value → Prop
  | array items => WellFormedItems items
  | document entries | codeWithScope _ entries =>
    (Entries.keys entries).Nodup ∧ WellFormedEntries entries
  | _ => True

/-- Every member of an array is well formed. -/
def WellFormedItems : List Value → Prop
  | [] => True
  | item :: rest => WellFormed item ∧ WellFormedItems rest

/-- Every value of a document is well formed. -/
def WellFormedEntries : List (String × Value) → Prop
  | [] => True
  | (_, value) :: rest => WellFormed value ∧ WellFormedEntries rest

end

theorem wellFormedItems_iff {items : List Value} :
    WellFormedItems items ↔ ∀ item ∈ items, WellFormed item := by
  induction items with
  | nil => simp [WellFormedItems]
  | cons item rest ih => simp [WellFormedItems, ih]

theorem wellFormedEntries_iff {entries : List (String × Value)} :
    WellFormedEntries entries ↔ ∀ entry ∈ entries, WellFormed entry.2 := by
  induction entries with
  | nil => simp [WellFormedEntries]
  | cons entry rest ih => simp [WellFormedEntries, ih]

end Value

/-- The value under a name, where a missing name reads as null. -/
def Document.read (document : Document) (name : String) : Value :=
  (Entries.get? document name).getD .null

end RecordStore
