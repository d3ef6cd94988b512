import RecordStore.Proofs.Store.Atomicity
import RecordStore.Proofs.Store.Find
import RecordStore.Store.Server

/-!
# What is settled without a server

A store on a server and a store in memory are written apart from each other, and
have to agree wherever no record is looked at: on bindings, on payloads that are
refused, on empty batches and finds that ask for nothing, and on unbound
collections (`RecordStore.SharedCall.NeedsNoServer`). These are exactly the calls
that a store on a server answers by itself
(`RecordStore.SharedCall.needsNoServer_iff`).

The two stores make the same record of a payload, although one writes attribute
after attribute and the other reads the record off a list
(`RecordStore.ServerStore.prepare_eq`). So they refuse the same payloads, and
since the schemas that they hold change by bindings only, they hold the same
schemas all along (`RecordStore.SharedCall.settled_alike`).
-/

namespace RecordStore

/-! ### Records -/

/-- **Both stores make the same record of a payload**, or refuse it for the same
reason, whether or not the schema was checked. -/
theorem ServerStore.prepare_eq (schema : Schema) (stamp : Stamp) (payload : Document) :
    ServerStore.prepare schema stamp payload = Collection.prepare schema stamp payload := by
  rw [ServerStore.prepare, Collection.prepare]
  cases schema.conform payload with
  | error failure => rfl
  | ok conformed =>
    rw [Outcome.ok_bind, Outcome.ok_bind, Entries.ofList, Entries.insertAll, List.foldl_append,
      List.foldl_append]
    rfl

namespace Collection

/-- A batch is refused exactly when one of its payloads does not conform. -/
theorem exists_prepareAll_eq_error_iff {schema : Schema} {payloads : List (Stamp × Document)} :
    (∃ failure, prepareAll schema payloads = .error failure) ↔
      ∃ item ∈ payloads, (schema.conform item.2).failure?.isSome = true := by
  rw [← List.findSome?_isSome_iff, Option.isSome_iff_exists]
  simp only [prepareAll_eq_error_iff, failure?_prepare]

end Collection

/-! ### Calls on either store -/

/-- A call that both stores understand. -/
inductive SharedCall where
  | bindModel (name : String) (schema : Schema)
  | insertOne (name : String) (stamp : Stamp) (payload : Document)
  | insertMany (name : String) (payloads : List (Stamp × Document))
  | findById (name : String) (id : Value)
  | find (name : String) (predicate : Predicate) (options : FindOptions)

/-- What a call returns. -/
inductive SharedCall.Answer where
  | bound
  | record (record : Document)
  | records (records : List Document)
  | recordIfAny (record : Option Document)

/-- Rewrites the answer of a store, if it gave one. -/
def ServerAnswer.map {α β : Type} (f : α → β) : ServerAnswer α → ServerAnswer β
  | settled answer => .settled (f answer)
  | requested request => .requested request

/-- Whether it is left to the server to answer. -/
def ServerAnswer.isRequested {α : Type} : Outcome (ServerAnswer α) → Bool
  | .ok (.requested _) => true
  | _ => false

@[simp] theorem ServerAnswer.isRequested_map {α β : Type} (f : α → β)
    (outcome : Outcome (ServerAnswer α)) :
    isRequested (Except.map (ServerAnswer.map f) outcome) = isRequested outcome := by
  rcases outcome with failure | answer
  · rfl
  · cases answer <;> rfl

namespace SharedCall

/-- The call as a store in memory performs it. -/
def onMemory : SharedCall → Action MemoryStore Answer
  | bindModel name schema => (fun _ => .bound) <$> MemoryStore.bindModel name schema
  | insertOne name stamp payload => .record <$> MemoryStore.insertOne name stamp payload
  | insertMany name payloads => .records <$> MemoryStore.insertMany name payloads
  | findById name id => .recordIfAny <$> MemoryStore.findById name id
  | find name predicate options => .records <$> MemoryStore.find name predicate options

/-- The call as a store on a server performs it, up to the request that it may
come to. -/
def onServer : SharedCall → Action ServerStore (ServerAnswer Answer)
  | bindModel name schema => (fun _ => .settled .bound) <$> ServerStore.bindModel name schema
  | insertOne name stamp payload =>
    ServerAnswer.map .record <$> ServerStore.insertOne name stamp payload
  | insertMany name payloads => ServerAnswer.map .records <$> ServerStore.insertMany name payloads
  | findById name id => ServerAnswer.map .recordIfAny <$> ServerStore.findById name id
  | find name predicate options =>
    ServerAnswer.map .records <$> ServerStore.find name predicate options

/-- Whether a call has an answer that hangs on the schemas of a store alone:
every binding has, every insertion of a payload that does not conform, of an
empty batch or into an unbound collection, and every find that asks for no
records or in an unbound collection. -/
def NeedsNoServer (models : Entries Schema) : SharedCall → Prop
  | bindModel _ _ => True
  | insertOne name _ payload =>
    ∀ schema ∈ models.get? name, (schema.conform payload).failure?.isSome = true
  | insertMany name payloads => payloads = [] ∨ ∀ schema ∈ models.get? name,
    ∃ item ∈ payloads, (schema.conform item.2).failure?.isSome = true
  | findById name _ => models.get? name = none
  | find name _ options => options.limit = some 0 ∨ models.get? name = none

end SharedCall

/-! ### The schemas of a store in memory -/

namespace MemoryStore

/-- The schemas of the collections of a store, by name. -/
def models (store : MemoryStore) : Entries Schema :=
  store.collections.map fun entry => (entry.1, entry.2.schema)

/-- The models of a store are the schemas of its collections. -/
theorem get?_models (store : MemoryStore) (name : String) :
    store.models.get? name = (store.bound? name).map Collection.schema :=
  Entries.get?_map _ _ _

theorem models_set (store : MemoryStore) (name : String) (collection : Collection) :
    (store.set name collection).models = store.models.insert name collection.schema :=
  Entries.map_insert _ _ _ _

end MemoryStore

/-! ### The operations of a store on a server -/

namespace ServerStore

variable (store : ServerStore) (name : String)

/-- The schema of a collection, or the failure of asking an unbound one. -/
def schemaOf : Outcome Schema :=
  match store.models.get? name with
  | some schema => .ok schema
  | none => .error (.unbound name)

theorem exec_schema : (schema name).exec store = (store.schemaOf name, store) := by
  rw [schema, schemaOf, Action.exec_bind_of_ok (Action.exec_get store)]
  cases store.models.get? name <;> rfl

/-- Binding on a server does what it does in memory, with names and schemas only. -/
theorem exec_bindModel (schema : Schema) :
    (bindModel name schema).exec store
      = match schema.check with
        | .error failure => (.error failure, store)
        | .ok _ =>
          if store.models.contains name then (.error (.alreadyBound name), store)
          else (.ok (), ⟨store.models.insert name schema⟩) := by
  rw [bindModel, Action.exec_bind, Action.exec_ofOutcome]
  cases schema.check with
  | error failure => rfl
  | ok _ =>
    dsimp only
    rw [Action.exec_bind_of_ok (Action.exec_get store)]
    split <;> rfl

/-- A payload is prepared before anything is asked of a server. -/
theorem exec_insertOne (stamp : Stamp) (payload : Document) :
    (insertOne name stamp payload).exec store
      = (do
          let record ← Collection.prepare (← store.schemaOf name) stamp payload
          return .requested (.insert name [record]), store) := by
  rw [insertOne, Action.exec_bind, exec_schema]
  cases store.schemaOf name with
  | error failure => rfl
  | ok schema =>
    dsimp only
    rw [prepare_eq, Action.exec_bind, Action.exec_ofOutcome, Outcome.ok_bind]
    cases Collection.prepare schema stamp payload <;> rfl

/-- A batch is prepared before anything is asked of a server, and of an empty one nothing is. -/
theorem exec_insertMany (payloads : List (Stamp × Document)) :
    (insertMany name payloads).exec store
      = (do
          let records ← Collection.prepareAll (← store.schemaOf name) payloads
          return if records.isEmpty then .settled [] else .requested (.insert name records),
        store) := by
  rw [insertMany, Action.exec_bind, exec_schema]
  cases store.schemaOf name with
  | error failure => rfl
  | ok schema =>
    dsimp only
    simp only [prepare_eq]
    rw [Action.exec_bind, Action.exec_ofOutcome, Outcome.ok_bind, Collection.prepareAll]
    generalize (payloads.mapM _ : Outcome (List Document)) = outcome
    cases outcome with
    | error failure => rfl
    | ok records => cases records <;> rfl

/-- An identifier is looked up on a server, whatever it is. -/
theorem exec_findById (id : Value) :
    (findById name id).exec store
      = (do
          let _ ← store.schemaOf name
          return .requested (.findOne name [(FieldName.nativeId, id)]), store) := by
  rw [findById, Action.exec_bind, exec_schema]
  cases store.schemaOf name <;> rfl

/-- A find asks a server, unless its limit is zero. -/
theorem exec_find (predicate : Predicate) (options : FindOptions) :
    (find name predicate options).exec store
      = (do
          let _ ← store.schemaOf name
          return if options.limit = some 0 then .settled []
            else .requested (.find name predicate.query options.forServer), store) := by
  rw [find, Action.exec_bind, exec_schema]
  cases store.schemaOf name with
  | error failure => rfl
  | ok schema =>
    dsimp only
    split <;> rfl

end ServerStore

namespace SharedCall

/-! ### Which calls need no server -/

/-- **A store on a server answers a call by itself exactly when the call needs no
server.** -/
theorem needsNoServer_iff (store : ServerStore) (call : SharedCall) :
    call.NeedsNoServer store.models ↔
      ServerAnswer.isRequested (call.onServer.exec store).1 = false := by
  cases call with
  | bindModel name schema =>
    refine iff_of_true trivial ?_
    rw [onServer, Action.exec_map]
    cases ((ServerStore.bindModel name schema).exec store).1 <;> rfl
  | insertOne name stamp payload =>
    rw [onServer, Action.exec_map, ServerAnswer.isRequested_map, ServerStore.exec_insertOne,
      ServerStore.schemaOf, NeedsNoServer]
    cases store.models.get? name with
    | none => exact iff_of_true (by simp) rfl
    | some schema =>
      simp only [Option.mem_some_iff, forall_eq']
      rw [← Collection.failure?_prepare schema stamp, Outcome.ok_bind]
      cases Collection.prepare schema stamp payload <;> simp [ServerAnswer.isRequested]
  | insertMany name payloads =>
    rw [onServer, Action.exec_map, ServerAnswer.isRequested_map, ServerStore.exec_insertMany,
      ServerStore.schemaOf, NeedsNoServer]
    cases store.models.get? name with
    | none => exact iff_of_true (.inr (by simp)) rfl
    | some schema =>
      simp only [Option.mem_some_iff, forall_eq']
      rw [← Collection.exists_prepareAll_eq_error_iff, Outcome.ok_bind]
      cases hrecords : Collection.prepareAll schema payloads with
      | error failure => simp [ServerAnswer.isRequested]
      | ok records =>
        -- there is a record for each payload, and so none of an empty batch only
        have hempty : payloads = [] ↔ records = [] := by
          rw [← List.length_eq_zero_iff, ← List.length_eq_zero_iff,
            (Collection.prepareAll_eq_ok_iff.1 hrecords).length_eq]
        rw [hempty]
        cases records <;> simp [ServerAnswer.isRequested]
  | findById name id =>
    rw [onServer, Action.exec_map, ServerAnswer.isRequested_map, ServerStore.exec_findById,
      ServerStore.schemaOf, NeedsNoServer]
    cases store.models.get? name with
    | none => exact iff_of_true rfl rfl
    | some schema => exact iff_of_false (by simp) (by simp [ServerAnswer.isRequested])
  | find name predicate options =>
    rw [onServer, Action.exec_map, ServerAnswer.isRequested_map, ServerStore.exec_find,
      ServerStore.schemaOf, NeedsNoServer]
    cases store.models.get? name with
    | none => exact iff_of_true (.inr rfl) rfl
    | some schema =>
      by_cases hlimit : options.limit = some 0 <;>
        simp [hlimit, ServerAnswer.isRequested]

/-! ### One call -/

variable {memory : MemoryStore} {server : ServerStore}

/-- Stores with the same models know the same schemas. -/
theorem schemaOf_eq (same : memory.models = server.models) (name : String) :
    server.schemaOf name
      = match memory.bound? name with
        | some collection => .ok collection.schema
        | none => .error (.unbound name) := by
  rw [ServerStore.schemaOf, ← same, MemoryStore.get?_models]
  cases memory.bound? name <;> rfl

theorem mem_models (same : memory.models = server.models) {name : String}
    {collection : Collection} (found : memory.bound? name = some collection) :
    collection.schema ∈ server.models.get? name := by
  rw [← same, MemoryStore.get?_models, found]
  rfl

/-- **Two stores that hold the same schemas agree on a call that needs no
server**, and hold the same schemas afterwards. -/
theorem agree (same : memory.models = server.models) {call : SharedCall}
    (h : call.NeedsNoServer server.models) :
    (call.onServer.exec server).1 = (call.onMemory.exec memory).1.map .settled ∧
      (call.onMemory.exec memory).2.models = (call.onServer.exec server).2.models := by
  cases call with
  | bindModel name schema =>
    rw [onServer, onMemory, Action.exec_map, Action.exec_map, ServerStore.exec_bindModel]
    cases checked : schema.check with
    | error failure =>
      rw [MemoryStore.exec_bindModel_of_refused checked]
      exact ⟨rfl, same⟩
    | ok _ =>
      dsimp only
      rw [Entries.contains, ← same, MemoryStore.get?_models]
      cases found : memory.bound? name with
      | some collection =>
        rw [MemoryStore.exec_bindModel_of_bound checked found]
        exact ⟨rfl, same⟩
      | none =>
        rw [MemoryStore.exec_bindModel_of_free checked found]
        exact ⟨rfl, MemoryStore.models_set memory name _⟩
  | insertOne name stamp payload =>
    rw [onServer, onMemory, Action.exec_map, Action.exec_map, ServerStore.exec_insertOne,
      schemaOf_eq same]
    cases found : memory.bound? name with
    | none =>
      rw [MemoryStore.exec_insertOne_of_unbound found]
      exact ⟨rfl, same⟩
    | some collection =>
      have hrefused := h collection.schema (mem_models same found)
      rw [← Collection.failure?_prepare _ stamp] at hrefused
      cases hrecord : Collection.prepare collection.schema stamp payload with
      | ok record => simp [hrecord] at hrefused
      | error failure =>
        rw [MemoryStore.exec_insertOne_of_error found hrecord, Outcome.ok_bind, hrecord]
        exact ⟨rfl, same⟩
  | insertMany name payloads =>
    rw [onServer, onMemory, Action.exec_map, Action.exec_map, ServerStore.exec_insertMany,
      schemaOf_eq same]
    cases found : memory.bound? name with
    | none =>
      rw [MemoryStore.exec_insertMany_of_unbound found]
      exact ⟨rfl, same⟩
    | some collection =>
      rcases h with rfl | hrefused
      · -- an empty batch has no records, and adds none
        rw [MemoryStore.exec_insertMany_of_ok found rfl (Collection.pushAll_nil collection),
          MemoryStore.set_eq_self found]
        exact ⟨rfl, same⟩
      · obtain ⟨failure, hfailure⟩ := Collection.exists_prepareAll_eq_error_iff.2
          (hrefused collection.schema (mem_models same found))
        rw [MemoryStore.exec_insertMany_of_error found hfailure, Outcome.ok_bind, hfailure]
        exact ⟨rfl, same⟩
  | findById name id =>
    rw [NeedsNoServer, ← same, MemoryStore.get?_models, Option.map_eq_none_iff] at h
    rw [onServer, onMemory, Action.exec_map, Action.exec_map, ServerStore.exec_findById,
      schemaOf_eq same, h, MemoryStore.exec_findById_of_unbound h]
    exact ⟨rfl, same⟩
  | find name predicate options =>
    rw [onServer, onMemory, Action.exec_map, Action.exec_map, ServerStore.exec_find,
      schemaOf_eq same]
    cases found : memory.bound? name with
    | none =>
      rw [MemoryStore.exec_find_of_unbound found]
      exact ⟨rfl, same⟩
    | some collection =>
      -- a bound collection is only asked for an empty window
      have hlimit : options.limit = some 0 :=
        h.resolve_right fun hnone => by
          rw [← same, MemoryStore.get?_models, found] at hnone
          exact absurd hnone (by simp)
      rw [MemoryStore.exec_find_of_bound found, Outcome.ok_bind, if_pos hlimit, Collection.find,
        FindOptions.window, hlimit]
      exact ⟨rfl, same⟩

/-! ### Runs -/

section Runs

variable {σ α : Type} (perform : SharedCall → Action σ α)

/-- The outcomes of calls that are made one after the other. -/
def outcomes (state : σ) : List SharedCall → List (Outcome α)
  | [] => []
  | call :: rest =>
    ((perform call).exec state).1 :: outcomes ((perform call).exec state).2 rest

/-- The state that calls leave behind. -/
def final (state : σ) : List SharedCall → σ
  | [] => state
  | call :: rest => final ((perform call).exec state).2 rest

end Runs

/-- Whether each of some calls needs no server at the time when it is made. -/
def NoneNeedsServer (server : ServerStore) : List SharedCall → Prop
  | [] => True
  | call :: rest =>
    call.NeedsNoServer server.models ∧ NoneNeedsServer (call.onServer.exec server).2 rest

/-- If no call of a run needs a server, none of its first calls does. -/
theorem NoneNeedsServer.of_append {calls more : List SharedCall}
    (h : NoneNeedsServer server (calls ++ more)) : NoneNeedsServer server calls := by
  induction calls generalizing server with
  | nil => trivial
  | cons call rest ih => exact ⟨h.1, ih h.2⟩

/-- **Calls that need no server come out the same on both stores**, call by call. -/
theorem outcomes_eq (same : memory.models = server.models) {calls : List SharedCall}
    (h : NoneNeedsServer server calls) :
    outcomes onServer server calls
      = (outcomes onMemory memory calls).map (Except.map .settled) := by
  induction calls generalizing memory server with
  | nil => rfl
  | cons call rest ih =>
    obtain ⟨houtcome, hmodels⟩ := agree same h.1
    rw [outcomes, outcomes, List.map_cons, houtcome, ih hmodels h.2]

/-- Calls that need no server bind the same models in both stores. -/
theorem models_final (same : memory.models = server.models) {calls : List SharedCall}
    (h : NoneNeedsServer server calls) :
    (final onMemory memory calls).models = (final onServer server calls).models := by
  induction calls generalizing memory server with
  | nil => exact same
  | cons call rest ih => exact ih (agree same h.1).2 h.2

/-- **The two stores agree on everything that is settled without a server.** They
make the same record of a payload, under any schema. The calls that need no
server are those that a store on a server answers by itself, and along a run of
such calls from the empty stores, the outcomes are the same at every step, and
after every step so are the schemas. -/
theorem settled_alike :
    (∀ schema stamp payload,
      ServerStore.prepare schema stamp payload = Collection.prepare schema stamp payload) ∧
    (∀ (store : ServerStore) (call : SharedCall), call.NeedsNoServer store.models ↔
      ServerAnswer.isRequested (call.onServer.exec store).1 = false) ∧
    ∀ calls, NoneNeedsServer .empty calls →
      outcomes onServer .empty calls
        = (outcomes onMemory .empty calls).map (Except.map .settled) ∧
      ∀ made, made <+: calls →
        (final onMemory .empty made).models = (final onServer .empty made).models := by
  have same : MemoryStore.empty.models = ServerStore.empty.models := rfl
  refine ⟨ServerStore.prepare_eq, needsNoServer_iff, fun calls h => ⟨outcomes_eq same h, ?_⟩⟩
  rintro made ⟨more, rfl⟩
  exact models_final same h.of_append

/-- A run that binds a collection of names, and is refused all else: a schema with
a dotted name, a second binding, a batch with a payload without a name, a payload
for an unbound collection. -/
def mostlyRefused : List SharedCall :=
  [.bindModel "people" ⟨[⟨"name", .string, true⟩]⟩,
    .bindModel "tags" ⟨[⟨"a.b", .any, false⟩]⟩,
    .bindModel "people" ⟨[]⟩,
    .insertMany "people" MemoryStore.oneUnnamed,
    .insertOne "tags" ⟨.ofParts 0 2, .ofMillis 1700000000000⟩ [],
    .insertMany "people" [],
    .find "people" .empty ⟨[("name", .ascending)], none, some 0⟩]

/-- A store on a server refuses the same calls of this run as a store in memory,
and settles the others. -/
theorem outcomes_mostlyRefused :
    NoneNeedsServer .empty mostlyRefused ∧
      outcomes onServer .empty mostlyRefused
        = [.ok (.settled .bound), .error (.invalidSchema (.malformedName "a.b")),
          .error (.alreadyBound "people"), .error (.validation (.required "name")),
          .error (.unbound "tags"), .ok (.settled (.records [])),
          .ok (.settled (.records []))] ∧
      (final onServer .empty mostlyRefused).models = [("people", ⟨[⟨"name", .string, true⟩]⟩)] := by
  have h : NoneNeedsServer .empty mostlyRefused := by
    refine ⟨trivial, trivial, trivial, .inr ?_, ?_, .inl rfl, .inl rfl, trivial⟩
    · rintro _ ⟨rfl⟩
      exact ⟨_, .tail _ (.head _), rfl⟩
    · rintro _ ⟨⟩
  obtain ⟨houtcomes, hmodels⟩ := settled_alike.2.2 mostlyRefused h
  refine ⟨h, ?_, ?_⟩
  · rw [houtcomes]
    rfl
  · rw [← hmodels mostlyRefused List.prefix_rfl]
    rfl

end SharedCall

end RecordStore
