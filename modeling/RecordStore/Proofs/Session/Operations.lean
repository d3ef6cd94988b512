import RecordStore.Proofs.Request.Faults
import RecordStore.Proofs.Session.Reading

/-!
# The operations of a repository

A repository is used through ten operations, two that create entities and eight
that read them (`RecordStore.Repository.Operation`). All of them act through the
session of the repository, and two facts on sessions hold of them at once.

* **In any session** the store is left as calls on it leave it, and the session as
  open or closed as it was (`RecordStore.Repository.Operation.leads`).
* **In a closed session** every operation fails and nothing changes. The failure is
  that of an unbound collection, with one exception: a request that has to be
  read first is read before the session is asked whether it is open, so a faulty
  one is refused for its own fault
  (`RecordStore.Repository.Operation.exec_of_closed`).
-/

namespace RecordStore

namespace Repository

/-- What a repository is used for. -/
inductive Operation (type : EntityType) where
  | create (stamp : Stamp) (properties : type.Properties)
  | createMany (entities : List (Stamp × type.Properties))
  | get (lookup : Lookup type.Key)
  | getById (key : type.Key)
  | getByIds (keys : List type.Key)
  | getByFilter (filter : Filter)
  | getByQuery (query : Query)
  | getAll
  | getDynamic (request : Option Value)
  | getJson (request : Json)

variable {type : EntityType} {σ : Type}

/-- The lookup that a request asks for, cast to the schema of the repository. -/
def lookupOf (repository : Repository type) (request : Option Value) :
    Outcome (Lookup type.Key) := do
  (← Lookup.ofValue? request).cast repository.schema

namespace Operation

/-- The operation, without its answer. -/
def action [Backend σ] (repository : Repository type) : Operation type → Action (Session σ) Unit
  | create stamp properties => (fun _ => ()) <$> repository.create stamp properties
  | createMany entities => (fun _ => ()) <$> repository.createMany entities
  | get lookup => (fun _ => ()) <$> repository.get lookup
  | getById key => (fun _ => ()) <$> repository.getById key
  | getByIds keys => (fun _ => ()) <$> repository.getByIds keys
  | getByFilter filter => (fun _ => ()) <$> repository.getByFilter filter
  | getByQuery query => (fun _ => ()) <$> repository.getByQuery query
  | getAll => (fun _ => ()) <$> repository.getAll
  | getDynamic request => (fun _ => ()) <$> repository.getDynamic request
  | getJson request => (fun _ => ()) <$> repository.getJson request

/-- What is wrong with the request of an operation that has to be read first, if
anything is. -/
def fault? (repository : Repository type) : Operation type → Option Failure
  | getDynamic request => (repository.lookupOf request).failure?
  | getJson request => (do repository.lookupOf (some (← request.toValue .extended))).failure?
  | _ => none

end Operation

end Repository

/-! ### In any session -/

/-- Whether calls on a store, other than to close it, lead to related states
only. -/
structure Backend.RunsWithin {σ : Type} [Backend σ] (related : σ → σ → Prop) : Prop
    extends Backend.ReadsWithin related where
  bindModel : ∀ name schema, (Backend.bindModel name schema : Action σ _).Leads related
  insertOne : ∀ name stamp payload,
    (Backend.insertOne name stamp payload : Action σ _).Leads related
  insertMany : ∀ name payloads, (Backend.insertMany name payloads : Action σ _).Leads related

namespace Repository

variable {type : EntityType} {repository : Repository type} {σ : Type} [Backend σ]

open RecordStore.Action RecordStore.Session

section Within

variable {related : σ → σ → Prop} (within : Backend.RunsWithin related)
include within

theorem leads_bind : (repository.bind : Action (Session σ) _).Leads (Beside related) :=
  leads_whileOpen within.cumulative (leads_onStore (within.bindModel _ _)) _

/-- Creating an entity leads the store along calls that store it. -/
theorem leads_create (stamp : Stamp) (properties : type.Properties) :
    (repository.create stamp properties : Action (Session σ) _).Leads (Beside related) := by
  have cumulative := cumulative_beside within.cumulative
  refine leads_whileOpen within.cumulative ?_ _
  exact (leads_ofOutcome cumulative _).bind cumulative fun _ =>
    (leads_onStore (within.insertOne _ _ _)).bind cumulative fun _ => leads_ofOutcome cumulative _

/-- Creating a batch leads the store along calls that store it. -/
theorem leads_createMany (entities : List (Stamp × type.Properties)) :
    (repository.createMany entities : Action (Session σ) _).Leads (Beside related) := by
  have cumulative := cumulative_beside within.cumulative
  refine leads_whileOpen within.cumulative ?_ _
  rcases entities with _ | ⟨entity, rest⟩
  · exact leads_pure cumulative []
  · exact (leads_ofOutcome cumulative _).bind cumulative fun _ =>
      (leads_onStore (within.insertMany _ _)).bind cumulative fun _ => leads_ofOutcome cumulative _

/-- **An operation leaves the store as calls on it leave it**, and the session as
open as it was. -/
theorem Operation.leads (operation : Operation type) :
    (operation.action repository : Action (Session σ) _).Leads (Beside related) := by
  have reads := within.toReadsWithin
  cases operation with
  | create stamp properties => exact (leads_create within stamp properties).map _
  | createMany entities => exact (leads_createMany within entities).map _
  | get lookup => exact (leads_get reads lookup).map _
  | getById key => exact (leads_getById reads key).map _
  | getByIds keys => exact (leads_getByIds reads keys).map _
  | getByFilter filter => exact (leads_getByFilter reads filter).map _
  | getByQuery query => exact (leads_getByQuery reads query).map _
  | getAll => exact (leads_getByFilter reads .empty).map _
  | getDynamic request => exact (leads_getDynamic reads request).map _
  | getJson request => exact (leads_getJson reads request).map _

end Within

end Repository

/-! ### What is reported first -/

namespace Repository

variable {type : EntityType} {repository : Repository type} {σ : Type} [Backend σ]

theorem failsAs_lookupOf (request : Option Value) :
    Outcome.FailsAs Failure.OfLookup (repository.lookupOf request) :=
  (Lookup.failsAs_ofValue _).bind fun lookup =>
    (Lookup.failsAs_cast repository.schema lookup).mono fun _ => Failure.OfQuery.ofLookup

/-- **A fault of a request** is one of its spelling in JSON, of its shape, or of its
filter and sort. -/
theorem Operation.ofRequest_of_fault? {operation : Operation type} {fault : Failure}
    (h : operation.fault? repository = some fault) : fault.OfRequest := by
  cases operation with
  | getDynamic request =>
    exact (failsAs_lookupOf request fault (Outcome.eq_error_of_failure? h)).ofRequest
  | getJson request =>
    have fails : Outcome.FailsAs Failure.OfRequest
        (do repository.lookupOf (some (← request.toValue .extended))) :=
      (Json.failsAs_toValue .extended request).bind fun value =>
        (failsAs_lookupOf (some value)).mono fun _ => Failure.OfLookup.ofRequest
    exact fails fault (Outcome.eq_error_of_failure? h)
  | _ => cases h

/-! ### In a closed session -/

section Closed

open RecordStore.Action RecordStore.Session

variable {session : Session σ} (closed : session.isOpen = false)
include closed

/-- Binding through a closed session fails and changes nothing. -/
theorem exec_bind_of_closed :
    repository.bind.exec session = (.error (.unbound repository.collection), session) :=
  exec_whileOpen_of_closed closed _ _

omit [Backend σ] in
theorem exec_map_whileOpen_of_closed {α β : Type} (f : α → β) (collection : String)
    (action : Action (Session σ) α) :
    (f <$> whileOpen collection action).exec session = (.error (.unbound collection), session) := by
  rw [exec_map, exec_whileOpen_of_closed closed]
  rfl

/-- **In a closed session no lookup is answered.** -/
theorem exec_get_of_closed (lookup : Lookup type.Key) :
    (repository.get lookup).exec session
      = (.error (.unbound repository.collection), session) := by
  cases lookup with
  | byId key => exact exec_map_whileOpen_of_closed closed _ _ _
  | byIds keys => exact exec_map_whileOpen_of_closed closed _ _ _
  | byFilter filter => exact exec_map_whileOpen_of_closed closed _ _ _
  | byQuery query => exact exec_map_whileOpen_of_closed closed _ _ _

/-- **In a closed session a request that arrives as a value is refused**, for its own fault if
it has one. -/
theorem exec_getDynamic_of_closed (request : Option Value) :
    (repository.getDynamic request).exec session
      = (.error ((repository.lookupOf request).failure?.getD (.unbound repository.collection)),
          session) := by
  rw [getDynamic, exec_ofOutcome_bind, lookupOf]
  rcases Lookup.ofValue? request with failure | lookup
  · rfl
  · rw [Outcome.ok_bind]
    dsimp only
    rw [exec_ofOutcome_bind]
    rcases lookup.cast repository.schema with failure | cast
    · rfl
    · exact exec_get_of_closed closed cast

/-- **In a closed session a request that arrives as JSON is refused**, for its own fault if it
has one. -/
theorem exec_getJson_of_closed (request : Json) :
    (repository.getJson request).exec session
      = (.error ((do repository.lookupOf (some (← request.toValue .extended))).failure?.getD
          (.unbound repository.collection)), session) := by
  rw [getJson, exec_ofOutcome_bind]
  rcases request.toValue .extended with failure | value
  · rfl
  · exact exec_getDynamic_of_closed closed (some value)

/-- **No operation gets through a closed session.** It fails and changes nothing; it
reports a fault of its request if there is one, and else that its collection is
not bound. -/
theorem Operation.exec_of_closed (operation : Operation type) :
    (operation.action repository).exec session
      = (.error ((operation.fault? repository).getD (.unbound repository.collection)),
          session) := by
  cases operation with
  | get lookup =>
    rw [action, exec_map, exec_get_of_closed closed]
    rfl
  | getDynamic request =>
    rw [action, exec_map, exec_getDynamic_of_closed closed]
    rfl
  | getJson request =>
    rw [action, exec_map, exec_getJson_of_closed closed]
    rfl
  | _ => exact exec_map_whileOpen_of_closed closed _ _ _

end Closed

end Repository

end RecordStore
