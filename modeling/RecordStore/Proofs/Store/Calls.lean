import RecordStore.Proofs.Store.Operations

/-!
# Runs of a store in memory

A store in memory is reached from the empty one by calls
(`RecordStore.MemoryStore.afterAll`). What a call can do to a store is said once,
in `RecordStore.MemoryStore.Change`: it leaves the store as it is, or it binds a
free name to a checked schema, or it adds the records of its payloads to one
collection; and it fails in the first case only. That there is no other case
(`RecordStore.MemoryStore.change`) hangs on every schema in the store having
been checked when it was bound, which is itself kept by every call
(`RecordStore.MemoryStore.checked_afterAll`).

The first consequence is that stores only ever grow: a collection keeps its
schema, and its records in their order, whatever is called later
(`RecordStore.MemoryStore.extends_afterAll`).
-/

namespace RecordStore

namespace MemoryStore

/-- A call on a store, with the stamps for the records that it may make. -/
inductive Call where
  | bindModel (name : String) (schema : Schema)
  | insertOne (name : String) (stamp : Stamp) (payload : Document)
  | insertMany (name : String) (payloads : List (Stamp × Document))
  | findById (name : String) (id : Value)
  | find (name : String) (predicate : Predicate) (options : FindOptions)
  | close

namespace Call

/-- The operation called, without its answer. -/
def action : Call → Action MemoryStore Unit
  | bindModel name schema => MemoryStore.bindModel name schema
  | insertOne name stamp payload => (fun _ => ()) <$> MemoryStore.insertOne name stamp payload
  | insertMany name payloads => (fun _ => ()) <$> MemoryStore.insertMany name payloads
  | findById name id => (fun _ => ()) <$> MemoryStore.findById name id
  | find name predicate options => (fun _ => ()) <$> MemoryStore.find name predicate options
  | close => Backend.close

/-- The payloads of a call, each under its stamp. -/
def payloads : Call → List (Stamp × Document)
  | insertOne _ stamp payload => [(stamp, payload)]
  | insertMany _ payloads => payloads
  | _ => []

/-- The identifiers issued for a call. -/
def issued (call : Call) : List ObjectId :=
  call.payloads.map fun item => item.1.id

end Call

/-- The store that a call leaves behind. -/
def after (store : MemoryStore) (call : Call) : MemoryStore :=
  (call.action.exec store).2

/-- The store that calls leave behind, one after the other. -/
def afterAll (store : MemoryStore) (calls : List Call) : MemoryStore :=
  calls.foldl after store

/-! ### What one call can do -/

/-- The outcomes and the stores that a call may come to. -/
inductive Change (store : MemoryStore) : Call → Outcome Unit → MemoryStore → Prop
  /-- The call fails, or only reads. -/
  | nothing {call : Call} {outcome : Outcome Unit} : Change store call outcome store
  /-- The call binds a free name. -/
  | bound {name : String} {schema : Schema} (checked : schema.check = .ok ())
      (free : store.bound? name = none) :
      Change store (.bindModel name schema) (.ok ()) (store.set name (.empty schema))
  /-- The call adds the records of its payloads. -/
  | added {call : Call} {name : String} {collection grown : Collection} {records : List Document}
      (found : store.bound? name = some collection)
      (prepared : Collection.prepareAll collection.schema call.payloads = .ok records)
      (pushed : collection.pushAll records = .ok grown) :
      Change store call (.ok ()) (store.set name grown)

/-- Whether all schemas in a store have passed their check. -/
def Checked (store : MemoryStore) : Prop :=
  ∀ name collection, store.bound? name = some collection → collection.schema.check = .ok ()

variable {store : MemoryStore}

/-- **What binding can do**: fail and change nothing, or add an empty collection. -/
theorem bindModel_cases (store : MemoryStore) (name : String) (schema : Schema) :
    (∃ failure, (bindModel name schema).exec store = (.error failure, store)) ∨
      schema.check = .ok () ∧ store.bound? name = none ∧
        (bindModel name schema).exec store = (.ok (), store.set name (.empty schema)) := by
  cases checked : schema.check with
  | error failure => exact .inl ⟨failure, exec_bindModel_of_refused checked⟩
  | ok _ =>
    cases found : store.bound? name with
    | some collection => exact .inl ⟨_, exec_bindModel_of_bound checked found⟩
    | none => exact .inr ⟨rfl, rfl, exec_bindModel_of_free checked found⟩

/-- **What storing a batch can do**: fail and change nothing, or append one record for each
payload. Prepared records have identifiers, so that they can be stored. -/
theorem insertMany_cases (checked : store.Checked) (name : String)
    (payloads : List (Stamp × Document)) :
    (∃ failure, (insertMany name payloads).exec store = (.error failure, store)) ∨
      ∃ collection records grown, store.bound? name = some collection ∧
        Collection.prepareAll collection.schema payloads = .ok records ∧
        collection.pushAll records = .ok grown ∧
        (insertMany name payloads).exec store = (.ok records, store.set name grown) := by
  cases found : store.bound? name with
  | none => exact .inl ⟨_, exec_insertMany_of_unbound found payloads⟩
  | some collection =>
    cases prepared : Collection.prepareAll collection.schema payloads with
    | error failure => exact .inl ⟨failure, exec_insertMany_of_error found prepared⟩
    | ok records =>
      -- no push can fail half way: the records carry the identifiers of their stamps
      obtain ⟨grown, pushed⟩ := Collection.exists_pushAll_of_prepareAll
        (checked name collection found) prepared collection
      exact .inr ⟨collection, records, grown, rfl, prepared, pushed,
        exec_insertMany_of_ok found prepared pushed⟩

/-- One payload is inserted as a batch of one. -/
theorem insertOne_cases (checked : store.Checked) (name : String) (stamp : Stamp)
    (payload : Document) :
    (∃ failure, (insertOne name stamp payload).exec store = (.error failure, store)) ∨
      ∃ collection record grown, store.bound? name = some collection ∧
        Collection.prepareAll collection.schema [(stamp, payload)] = .ok [record] ∧
        collection.pushAll [record] = .ok grown ∧
        (insertOne name stamp payload).exec store = (.ok record, store.set name grown) := by
  cases found : store.bound? name with
  | none => exact .inl ⟨_, exec_insertOne_of_unbound found stamp payload⟩
  | some collection =>
    cases hprepare : Collection.prepare collection.schema stamp payload with
    | error failure => exact .inl ⟨failure, exec_insertOne_of_error found hprepare⟩
    | ok record =>
      have prepared : Collection.prepareAll collection.schema [(stamp, payload)] = .ok [record] :=
        Collection.prepareAll_eq_ok_iff.2 (.cons hprepare .nil)
      obtain ⟨grown, pushed⟩ := Collection.exists_pushAll_of_prepareAll
        (checked name collection found) prepared collection
      exact .inr ⟨collection, record, grown, rfl, prepared, pushed,
        exec_insertOne_of_ok found hprepare (Collection.pushAll_singleton.1 pushed)⟩

/-- **A call does nothing, or binds a name, or adds its records**, and it fails
only where it does nothing. -/
theorem change (checked : store.Checked) (call : Call) :
    Change store call (call.action.exec store).1 (call.action.exec store).2 := by
  cases call with
  | bindModel name schema =>
    rw [Call.action]
    rcases bindModel_cases store name schema with ⟨failure, h⟩ | ⟨hcheck, free, h⟩
    · rw [h]
      exact .nothing
    · rw [h]
      exact .bound hcheck free
  | insertOne name stamp payload =>
    rw [Call.action, Action.exec_map]
    rcases insertOne_cases checked name stamp payload with
      ⟨failure, h⟩ | ⟨collection, record, grown, found, prepared, pushed, h⟩
    · rw [h]
      exact .nothing
    · rw [h]
      exact .added found prepared pushed
  | insertMany name payloads =>
    rw [Call.action, Action.exec_map]
    rcases insertMany_cases checked name payloads with
      ⟨failure, h⟩ | ⟨collection, records, grown, found, prepared, pushed, h⟩
    · rw [h]
      exact .nothing
    · rw [h]
      exact .added found prepared pushed
  | findById name id =>
    rw [Call.action, Action.exec_map, exec_findById_state]
    exact .nothing
  | find name predicate options =>
    rw [Call.action, Action.exec_map, exec_find_state]
    exact .nothing
  | close => exact .nothing

/-! ### Schemas stay checked -/

theorem bound?_empty (name : String) : empty.bound? name = none := rfl

theorem checked_empty : empty.Checked :=
  fun name _ h => absurd ((bound?_empty name).symm.trans h) (by simp)

/-- A store whose schemas are checked remains one with another checked collection. -/
theorem Checked.set (checked : store.Checked) (name : String) {collection : Collection}
    (h : collection.schema.check = .ok ()) : (store.set name collection).Checked := by
  intro other found hfound
  rcases bound?_set_eq_some hfound with ⟨-, rfl⟩ | hold
  · exact h
  · exact checked other found hold

/-- No call binds a schema that was not checked. -/
theorem Change.checked {call : Call} {outcome : Outcome Unit} {next : MemoryStore}
    (h : Change store call outcome next) (checked : store.Checked) : next.Checked := by
  cases h with
  | nothing => exact checked
  | bound hcheck _ => exact checked.set _ hcheck
  | added found _ pushed =>
    refine checked.set _ ?_
    rw [(Collection.schema_and_records_of_pushAll pushed).1]
    exact checked _ _ found

/-- After any run all schemas are checked. -/
theorem checked_afterAll (checked : store.Checked) (calls : List Call) :
    (store.afterAll calls).Checked := by
  induction calls generalizing store with
  | nil => exact checked
  | cons call rest ih => exact ih ((change checked call).checked checked)

/-! ### Stores grow -/

/-- Whether a store has every collection of another, with the same schema and at
least the same records. -/
def Extends (store later : MemoryStore) : Prop :=
  ∀ name collection, store.bound? name = some collection →
    ∃ grown, later.bound? name = some grown ∧ grown.schema = collection.schema ∧
      collection.records <+: grown.records

/-- Every store extends itself. -/
theorem Extends.refl (store : MemoryStore) : store.Extends store :=
  fun _ collection h => ⟨collection, h, rfl, List.prefix_rfl⟩

theorem Extends.trans {later last : MemoryStore} (h : store.Extends later)
    (h' : later.Extends last) : store.Extends last := by
  intro name collection hfound
  obtain ⟨grown, hgrown, hschema, hrecords⟩ := h name collection hfound
  obtain ⟨final, hfinal, hschema', hrecords'⟩ := h' name grown hgrown
  exact ⟨final, hfinal, hschema'.trans hschema, hrecords.trans hrecords'⟩

/-- A store is extended when a collection grows under its schema. -/
theorem extends_set {name : String} {grown : Collection}
    (h : ∀ collection, store.bound? name = some collection →
      grown.schema = collection.schema ∧ collection.records <+: grown.records) :
    store.Extends (store.set name grown) := by
  intro other collection hfound
  by_cases hname : other = name
  · subst hname
    exact ⟨grown, bound?_set_self store other grown, h collection hfound⟩
  · refine ⟨collection, ?_, rfl, List.prefix_rfl⟩
    rw [bound?_set_of_ne store grown other hname]
    exact hfound

/-- **Every call extends the store**: records are appended, and nothing is taken away. -/
theorem Change.extends {call : Call} {outcome : Outcome Unit} {next : MemoryStore}
    (h : Change store call outcome next) : store.Extends next := by
  cases h with
  | nothing => exact .refl store
  | bound _ free =>
    -- the name was free, so there is no collection to lose
    refine extends_set fun collection hfound => ?_
    rw [free] at hfound
    exact absurd hfound (by simp)
  | added found _ pushed =>
    refine extends_set fun collection hfound => ?_
    obtain ⟨hschema, hrecords⟩ := Collection.schema_and_records_of_pushAll pushed
    rw [← Option.some.inj (found.symm.trans hfound), hrecords]
    exact ⟨hschema, List.prefix_append _ _⟩

/-- **Whatever is called later, a collection keeps its schema and its
records.** -/
theorem extends_afterAll (checked : store.Checked) (calls : List Call) :
    store.Extends (store.afterAll calls) := by
  induction calls generalizing store with
  | nil => exact .refl store
  | cons call rest ih =>
    have hchange := change checked call
    exact hchange.extends.trans (ih (hchange.checked checked))

end MemoryStore

end RecordStore
