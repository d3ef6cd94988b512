import RecordStore.Store.Backend

/-!
# Sessions

A session owns a store for as long as it is open. All handles on a session share
it: closing it through any of them closes it for all, and the store is closed
with it, once. After that the session lets nothing through to the store
(`RecordStore.Session.whileOpen`).
-/

namespace RecordStore

/-- A session over a store with states of type `σ`. -/
structure Session (σ : Type) where
  store : σ
  isOpen : Bool

namespace Session

variable {σ α : Type}

/-- Opens a session over a store. -/
def start (store : σ) : Session σ := ⟨store, true⟩

/-- Runs an action on the store of a session, whether or not it is open. -/
def onStore (action : Action σ α) : Action (Session σ) α :=
  Action.onPart Session.store (fun store session => { session with store }) action

/-- Goes on only if the session is open; otherwise the collection counts as
unbound. -/
def whileOpen (collection : String) (action : Action (Session σ) α) :
    Action (Session σ) α := do
  if (← get).isOpen then action else throw (.unbound collection)

/-- Closes a session; closing it again does nothing. -/
def close [Backend σ] : Action (Session σ) Unit := do
  if (← get).isOpen then
    modify fun session => { session with isOpen := false }
    onStore Backend.close

end Session

end RecordStore
