import RecordStore.Predicate.Basic
import RecordStore.Value.Compare

/-!
# Which records meet a predicate

A clause is tested against the value of its field, a missing field reading as
null. When that value is an array, the clause is met as soon as one of its
members meets it, or the array itself does; both bounds of a range have to be
met by the same one. Values are compared as in
`RecordStore.Value.equivalent` and `RecordStore.Value.compare?`.
-/

namespace RecordStore

namespace Value

/-- Whether a test succeeds on a value or, for an array, on one of its
members. -/
def anyItem (test : Value → Bool) : Value → Bool
  | array items => test (array items) || items.any test
  | value => test value

end Value

namespace Bounds

/-- Whether a value is at least the lower bound. -/
def atLeastHolds (bounds : Bounds) (value : Value) : Bool :=
  bounds.atLeast.all fun bound =>
    match value.compare? bound with
    | some .gt | some .eq => true
    | _ => false

/-- Whether a value is at most the upper bound. -/
def atMostHolds (bounds : Bounds) (value : Value) : Bool :=
  bounds.atMost.all fun bound =>
    match value.compare? bound with
    | some .lt | some .eq => true
    | _ => false

/-- Whether a value meets both bounds. -/
def hold (bounds : Bounds) (value : Value) : Bool :=
  bounds.atLeastHolds value && bounds.atMostHolds value

end Bounds

namespace Clause

/-- Whether the value of a field meets a clause. -/
def holds : Clause → Value → Bool
  | equals expected, value => value.anyItem fun item => item.equivalent expected
  | among expected, value =>
    value.anyItem fun item => expected.any fun member => member.equivalent item
  | within bounds, value => value.anyItem bounds.hold
  | withinAny alternatives, value => alternatives.any fun bounds => value.anyItem bounds.hold

end Clause

namespace Predicate

/-- Whether a record meets every clause of a predicate. -/
def holds (predicate : Predicate) (record : Document) : Bool :=
  predicate.entries.all fun (field, clause) => clause.holds (record.read field)

end Predicate

end RecordStore
