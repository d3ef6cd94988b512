import RecordStore.Session.Basic

/-!
# Many sessions over many stores

Stores may be shared between sessions that are opened and closed independently
of each other. A host holds the stores and, for each session, which store it
uses and whether it is open; an action on a session is run on the pair of the
two, and what it changes is put back.
-/

namespace RecordStore

/-- Stores, and the sessions over them. -/
structure Host (σ : Type) where
  stores : Array σ
  /-- The store of each session, and whether the session is open. -/
  sessions : Array (Nat × Bool)

namespace Host

variable {σ α : Type}

/-- The host without stores. -/
def empty : Host σ := ⟨#[], #[]⟩

/-- Opens a session over a new store. The new session is the last one. -/
def openStore (host : Host σ) (store : σ) : Host σ :=
  ⟨host.stores.push store, host.sessions.push (host.stores.size, true)⟩

/-- Opens another session over the store of a given one. -/
def openShared (host : Host σ) (session : Nat) : Host σ :=
  match host.sessions[session]? with
  | some (store, _) => { host with sessions := host.sessions.push (store, true) }
  | none => host

/-- A session together with its store. -/
def session? (host : Host σ) (session : Nat) : Option (Session σ) := do
  let (store, isOpen) ← host.sessions[session]?
  return ⟨← host.stores[store]?, isOpen⟩

/-- Runs an action on a session. There is no outcome if the host has no such
session. -/
def run (host : Host σ) (session : Nat) (action : Action (Session σ) α) :
    Option (Outcome α × Host σ) := do
  let (store, _) ← host.sessions[session]?
  let (outcome, after) := action.run.run (← host.session? session)
  return (outcome,
    ⟨host.stores.setIfInBounds store after.store,
      host.sessions.setIfInBounds session (store, after.isOpen)⟩)

end Host

end RecordStore
