import RecordStore.Failure
import RecordStore.Value.Spelled

/-!
# JSON as values

JSON has one kind of number with a fraction and one without. As a value an
object is a document, an integer one of 64 bits and any other number a double
(`RecordStore.Json.image`); an integer that 64 bits with a sign do not hold has
no value. Requests and properties that arrive as JSON are read with the values
they spell in place (`RecordStore.Json.toValue`), which are those of some table of
forms.
-/

namespace RecordStore

/-- A JSON value. -/
inductive Json where
  | null
  | bool (b : Bool)
  | string (s : String)
  | int (n : Int)
  | float (d : Double)
  | array (items : List Json)
  | object (entries : List (String × Json))

namespace Json

mutual

/-- The value of the same structure. -/
def image : Json → Outcome Value
  | null => .ok .null
  | bool b => .ok (.bool b)
  | string s => .ok (.string s)
  | int n =>
    if -(2 ^ 63) ≤ n ∧ n < 2 ^ 63 then .ok (.int64 (.ofInt n))
    else .error (.serialization "integer beyond 64 bits")
  | float d => .ok (.double d)
  | array items => .array <$> imageItems items
  | object entries => .document <$> imageEntries entries

/-- The values of the members of an array. -/
def imageItems : List Json → Outcome (List Value)
  | [] => .ok []
  | item :: rest => return (← image item) :: (← imageItems rest)

/-- The values of the members of an object. -/
def imageEntries : List (String × Json) → Outcome (List (String × Value))
  | [] => .ok []
  | (name, item) :: rest => return (name, ← image item) :: (← imageEntries rest)

end

/-- The value that a JSON value stands for. -/
def toValue (forms : Forms) (json : Json) : Outcome Value :=
  forms.unspell <$> json.image

end Json

end RecordStore
