import RecordStore.Value.Compare

/-!
# Ranges

A range has a first and a last element, each of which may be missing; both are
included. A document spells a range when its entries are named `start` and `end`
and there is at least one of them. A null bound is then a missing one, so a
document may spell the range that has neither.
-/

namespace RecordStore

/-- A range that includes its bounds. -/
structure Range (α : Type) where
  /-- The least element, if the range is bounded below. -/
  start : Option α
  /-- The greatest element, if the range is bounded above. -/
  stop : Option α
  deriving BEq

namespace Range

variable {α β : Type}

/-- The range between two elements. -/
def between (start stop : α) : Range α := ⟨some start, some stop⟩

/-- The range of an element and all that follow it. -/
def startingAt (start : α) : Range α := ⟨some start, none⟩

/-- The range of an element and all that precede it. -/
def endingAt (stop : α) : Range α := ⟨none, some stop⟩

/-- The range that has neither bound. -/
def unbounded : Range α := ⟨none, none⟩

/-- Whether a range has a bound. -/
def isBounded (range : Range α) : Bool :=
  range.start.isSome || range.stop.isSome

/-- Applies a function to both bounds. -/
def map (f : α → β) (range : Range α) : Range β :=
  ⟨range.start.map f, range.stop.map f⟩

/-! ### Ranges as documents -/

/-- The name of the lower bound in a document. -/
def startKey : String := "start"

/-- The name of the upper bound in a document. -/
def endKey : String := "end"

/-- Whether a document spells a range. -/
def isSpelledBy (document : Document) : Bool :=
  !document.isEmpty && document.keys.all fun key => key == startKey || key == endKey

/-- Whether a value spells a range. -/
def isRange : Value → Bool
  | .document entries => isSpelledBy entries
  | _ => false

/-- A bound of a range as a document gives it; null stands for no bound. -/
def bound? (document : Document) (key : String) : Option Value :=
  (document.get? key).filter fun value => !value.isNull

/-- The range that a document spells. -/
def ofDocument (document : Document) : Range Value :=
  ⟨bound? document startKey, bound? document endKey⟩

/-- The range that a value spells, if it spells one. -/
def ofValue? : Value → Option (Range Value)
  | .document entries => if isSpelledBy entries then some (ofDocument entries) else none
  | _ => none

/-- A range is read off a value exactly when the value spells one. -/
theorem isSome_ofValue? (value : Value) : (ofValue? value).isSome = isRange value := by
  cases value with
  | document entries => by_cases h : isSpelledBy entries <;> simp [ofValue?, isRange, h]
  | _ => rfl

/-- In a list of ranges every member is read as one. -/
theorem exists_ofValue?_of_all {items : List Value} (h : items.all isRange = true) {item : Value}
    (hitem : item ∈ items) : ∃ range, ofValue? item = some range := by
  rw [← Option.isSome_iff_exists, isSome_ofValue?]
  exact List.all_eq_true.1 h item hitem

end Range

end RecordStore
