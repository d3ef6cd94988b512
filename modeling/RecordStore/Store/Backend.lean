import RecordStore.Failure
import RecordStore.Predicate.Basic
import RecordStore.Record.Stamp
import RecordStore.Schema.Basic
import RecordStore.Sorting.Find

/-!
# What a store does

Repositories reach a store through six operations. An operation may change the
state of the store and may fail, and a failure does not undo the changes made
before it: whether a failing operation changes anything is a property of the
store, and not of this interface.
-/

namespace RecordStore

/-- A step that may change a state of type `σ` and may fail. What it changed
before it failed stays changed. -/
abbrev Action (σ α : Type) := ExceptT Failure (StateM σ) α

namespace Action

variable {σ τ α : Type}

/-- A step that fails or succeeds without looking at the state. -/
def ofOutcome (outcome : Outcome α) : Action σ α :=
  ExceptT.mk (pure outcome)

/-- Runs an action on a part of a larger state. -/
def onPart (get : τ → σ) (set : σ → τ → τ) (action : Action σ α) : Action τ α :=
  ExceptT.mk fun whole =>
    let (outcome, part) := action.run.run (get whole)
    (outcome, set part whole)

end Action

/-- A store with states of type `σ`. Collections are named; a collection has to
be bound to a schema before anything else is done with it. -/
class Backend (σ : Type) where
  /-- Binds a collection to a schema. -/
  bindModel : String → Schema → Action σ Unit
  /-- Stores one payload under a stamp, and returns the record. -/
  insertOne : String → Stamp → Document → Action σ Document
  /-- Stores payloads, each under its own stamp, and returns the records. -/
  insertMany : String → List (Stamp × Document) → Action σ (List Document)
  /-- The record with an identifier. -/
  findById : String → Value → Action σ (Option Document)
  /-- The records that meet a predicate, in the order and the window asked
  for. -/
  find : String → Predicate → FindOptions → Action σ (List Document)
  /-- Releases what the store holds. -/
  close : Action σ Unit

end RecordStore
