import RecordStore.Double.Nearest
import RecordStore.Value.Basic

/-!
# Comparing values

Two notions of sameness and one order, all read off one idea: strip a value of
the details of its encoding.

* **What a store compares** (`RecordStore.Value.equivalent`,
  `RecordStore.Value.compare?`). Numbers compare across integer and double
  encodings, special kinds read as null, arrays compare member by member, and
  documents compare as maps from names, so the order of their entries does not
  count. Values of different types are neither equal nor ordered, and neither
  are two values of a type without an order: null, arrays and documents. The
  scalars that remain after stripping form the type `RecordStore.Scalar`.
* **What a caller compares** (`RecordStore.Value.equals`). Every kind is kept
  apart, so an integer never equals a double, and special values are compared in
  full, but the order of the entries of a document still does not count, and doubles
  are equal when their values are.
* **What a sort compares** (`RecordStore.Value.sortCompare`). Values of
  different types are ordered by the rank of the type, values of one type as
  above, and what has no order counts as a tie.
-/

namespace RecordStore

/-! ### Scalars -/

/-- A value other than an array or a document, stripped of its encoding. -/
inductive Scalar where
  | null
  | bool (b : Bool)
  | integer (n : Int)
  | real (d : Double)
  | date (d : Date)
  | string (s : String)
  | objectId (id : ObjectId)
  deriving DecidableEq

namespace Scalar

/-- Whether two scalars are equal. An integer and a double are compared as
doubles. -/
def equivalent : Scalar → Scalar → Bool
  | null, null => true
  | bool a, bool b => a = b
  | integer a, integer b => a = b
  | real a, real b => a.equals b
  | integer a, real b => (Double.ofInt a).equals b
  | real a, integer b => a.equals (Double.ofInt b)
  | date a, date b => a = b
  | string a, string b => a = b
  | objectId a, objectId b => a = b
  | _, _ => false

/-- Compares two scalars of one type, if the type has an order. -/
def compare? : Scalar → Scalar → Option Ordering
  | bool a, bool b => some (compare a b)
  | integer a, integer b => some (compare a b)
  | real a, real b => a.compare? b
  | integer a, real b => (Double.ofInt a).compare? b
  | real a, integer b => a.compare? (Double.ofInt b)
  | date a, date b => some (compare a.millis.toInt b.millis.toInt)
  | string a, string b => some (compare a b)
  | objectId a, objectId b => some (compare a.val b.val)
  | _, _ => none

end Scalar

namespace Value

/-- The scalar that a value reads as, if it is neither an array nor a document. -/
def scalar? : Value → Option Scalar
  | null => some .null
  | bool b => some (.bool b)
  | string s => some (.string s)
  | int32 n => some (.integer n.toInt)
  | int64 n => some (.integer n.toInt)
  | double d => some (.real d)
  | date d => some (.date d)
  | objectId id => some (.objectId id)
  | array _ => none
  | document _ => none
  | special _ | codeWithScope _ _ => some .null

/-! ### Sameness of nested values -/

mutual

/-- Compares arrays member by member and documents as maps, down to a comparison
of everything else. The variables of scripts are compared only if they are said to
count. -/
def alike (leaf : Value → Value → Bool) (scopes : Bool) : Value → Value → Bool
  | array items, array items' => alikeItems leaf scopes items items'
  | document entries, document entries' =>
    entries.length == entries'.length && alikeEntries leaf scopes entries entries'
  | codeWithScope source scope, codeWithScope source' scope' =>
    leaf (codeWithScope source scope) (codeWithScope source' scope') &&
      (!scopes || scope.length == scope'.length && alikeEntries leaf scopes scope scope')
  | a, b => leaf a b

/-- Compares two arrays member by member. -/
def alikeItems (leaf : Value → Value → Bool) (scopes : Bool) :
    List Value → List Value → Bool
  | [], [] => true
  | item :: rest, item' :: rest' =>
    alike leaf scopes item item' && alikeItems leaf scopes rest rest'
  | _, _ => false

/-- Whether every entry of the first document has its like under the same name
in the second. -/
def alikeEntries (leaf : Value → Value → Bool) (scopes : Bool) :
    List (String × Value) → List (String × Value) → Bool
  | [], _ => true
  | (name, value) :: rest, entries =>
    (match Entries.get? entries name with
      | some value' => alike leaf scopes value value'
      | none => false) && alikeEntries leaf scopes rest entries

end

/-- Whether two values that are not both arrays or both documents are equal
scalars. -/
def equivalentScalars (a b : Value) : Bool :=
  match a.scalar?, b.scalar? with
  | some x, some y => x.equivalent y
  | _, _ => false

/-- **Equality as a store sees it.** -/
def equivalent : Value → Value → Bool :=
  alike equivalentScalars false

/-- What reads as a scalar is compared as one. -/
theorem equivalent_eq_of_scalar? {a : Value} {x : Scalar} (h : a.scalar? = some x) (b : Value) :
    a.equivalent b = equivalentScalars a b := by
  cases a <;> cases h <;> cases b <;> rfl

/-- Whether two values that are not both arrays or both documents are equal,
kind included and the variables of scripts apart. -/
def equalLeaves : Value → Value → Bool
  | null, null => true
  | bool a, bool b => a = b
  | string a, string b => a = b
  | int32 a, int32 b => a = b
  | int64 a, int64 b => a = b
  | double a, double b => a.equals b
  | date a, date b => a = b
  | objectId a, objectId b => a = b
  | special a, special b => a = b
  | codeWithScope a _, codeWithScope b _ => a = b
  | _, _ => false

/-- **Equality as a caller sees it.** -/
def equals : Value → Value → Bool :=
  alike equalLeaves true

instance : BEq Value := ⟨equals⟩

/-! ### Order -/

/-- Compares two values of one ordered type. -/
def compare? (a b : Value) : Option Ordering := do
  (← a.scalar?).compare? (← b.scalar?)

/-- The place of the type of a value in sorts. -/
def rank : Value → Nat
  | null | special _ | codeWithScope _ _ => 0
  | int32 _ | int64 _ | double _ => 1
  | string _ => 2
  | document _ => 3
  | array _ => 4
  | objectId _ => 5
  | bool _ => 6
  | date _ => 7

/-- **The order of sorts**: by type first, then by value; values that cannot be
compared tie. -/
def sortCompare (a b : Value) : Ordering :=
  (compare a.rank b.rank).then ((a.compare? b).getD .eq)

end Value

end RecordStore
