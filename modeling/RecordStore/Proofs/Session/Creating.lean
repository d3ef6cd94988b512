import RecordStore.Proofs.Session.Reading
import RecordStore.Proofs.Store.Atomicity

/-!
# Creating entities

A creation passes through four stages: the properties are written as payloads,
the payloads are made into records, the records are stored, and the entities are
read off the records. What it can come to is said once, in
`RecordStore.Creation.Effect`: it is refused and changes nothing, or it stores the
records of all its payloads, and its outcome is then what reading them gives.

The schema of a collection and the type of its entities are declared apart, so a
record may be stored and not be readable as an entity. This is the one way in
which a creation fails and is not undone
(`RecordStore.Creation.ne_iff_of_failed`). It does not arise for types that read
whatever the schema admits (`RecordStore.Creation.eq_of_failed_of_reads`), those
that keep every attribute among them.
-/

namespace RecordStore

namespace EntityType

/-- Whether a type reads every record that a schema admits. -/
def Reads (type : EntityType) (schema : Schema) : Prop :=
  ∀ record : Document, record.Shaped schema → ∃ entity, type.ofRecord record = .ok entity

/-- Entities that keep every attribute are read off any record, provided that
identifiers are read as keys. -/
theorem reads_dynamic {κ : Type} [EntityKey κ] [Inhabited κ]
    (readable : ∀ id, ∃ key : κ, EntityKey.ofNative (.objectId id) = .ok key) (schema : Schema) :
    (dynamic κ).Reads schema := by
  intro record shaped
  obtain ⟨id, hid⟩ := shaped.identified
  obtain ⟨key, hkey⟩ := readable id
  have hattributes : ∃ attributes, record.publicAttributes κ = .ok attributes := by
    rw [Document.publicAttributes, hid]
    dsimp only
    rw [hkey]
    exact ⟨_, rfl⟩
  obtain ⟨attributes, hattributes⟩ := hattributes
  refine ⟨Forms.extended.unspellEntries attributes, ?_⟩
  rw [ofRecord, show record.publicAttributes (dynamic κ).Key = .ok attributes from hattributes]
  rfl

end EntityType

namespace Session

variable {session : Session MemoryStore} {store : MemoryStore} {name : String}

/-- A payload is stored through a session as in its store. -/
theorem exec_insertOne_of_eq {stamp : Stamp} {payload : Document} {outcome : Outcome Document}
    (h : (MemoryStore.insertOne name stamp payload).exec session.store = (outcome, store)) :
    (onStore (Backend.insertOne name stamp payload)).exec session
      = (outcome, { session with store }) :=
  exec_onStore_of_eq h

/-- A batch is stored through a session as in its store. -/
theorem exec_insertMany_of_eq {payloads : List (Stamp × Document)}
    {outcome : Outcome (List Document)}
    (h : (MemoryStore.insertMany name payloads).exec session.store = (outcome, store)) :
    (onStore (Backend.insertMany name payloads)).exec session = (outcome, { session with store }) :=
  exec_onStore_of_eq h

end Session

/-- What is asked of a repository to create entities: one, or several at once. -/
inductive Creation (type : EntityType) where
  | one (stamp : Stamp) (properties : type.Properties)
  | many (entities : List (Stamp × type.Properties))

namespace Creation

variable {type : EntityType}

/-- What is to be created, each entity under its own stamp. -/
def entities : Creation type → List (Stamp × type.Properties)
  | one stamp properties => [(stamp, properties)]
  | many entities => entities

/-- The operation asked for, with the entities that it returns as a list. -/
def action {σ : Type} [Backend σ] (repository : Repository type) :
    Creation type → Action (Session σ) (List type.Entity)
  | one stamp properties => (fun entity => [entity]) <$> repository.create stamp properties
  | many entities => repository.createMany entities

/-- The payloads that the properties amount to, if none of them is refused. -/
def payloads (creation : Creation type) : Outcome (List (Stamp × Document)) :=
  creation.entities.mapM fun (stamp, properties) => do
    return (stamp, ← Repository.payload type properties)

/-- The identifiers issued for a creation. -/
def issued (creation : Creation type) : List ObjectId :=
  creation.entities.map fun item => item.1.id

/-- The outcomes and the sessions that a creation may come to. -/
inductive Effect (repository : Repository type) (session : Session MemoryStore)
    (creation : Creation type) : Outcome (List type.Entity) → Session MemoryStore → Prop
  /-- The creation fails before it reaches the records. -/
  | refused {failure : Failure} : Effect repository session creation (.error failure) session
  /-- There is nothing to create. -/
  | nothing (none : creation.entities = []) : Effect repository session creation (.ok []) session
  /-- The records are stored, and read back. -/
  | stored {payloads : List (Stamp × Document)} {collection grown : Collection}
      {records : List Document} (isOpen : session.isOpen = true)
      (written : creation.payloads = .ok payloads)
      (found : session.store.bound? repository.collection = some collection)
      (prepared : Collection.prepareAll collection.schema payloads = .ok records)
      (pushed : collection.pushAll records = .ok grown) :
      Effect repository session creation (type.ofRecords records)
        { session with store := session.store.set repository.collection grown }

variable {repository : Repository type} {session : Session MemoryStore}

/-! ### What a creation can do -/

/-- Payloads keep the stamps of the entities that they are for. -/
theorem issued_of_payloads {creation : Creation type} {payloads : List (Stamp × Document)}
    (written : creation.payloads = .ok payloads) :
    (payloads.map fun item => item.1.id) = creation.issued := by
  have hsteps := Outcome.mapM_eq_ok_iff.1 written
  rw [issued]
  clear written
  generalize creation.entities = entities at hsteps ⊢
  induction hsteps with
  | nil => rfl
  | cons hstep _ ih =>
    obtain ⟨payload, -, hitem⟩ := Outcome.bind_eq_ok_iff.1 hstep
    rw [List.map_cons, List.map_cons, ih, ← Except.ok.inj hitem]

/-- One entity has one payload. -/
theorem payloads_one (stamp : Stamp) (properties : type.Properties) :
    (one stamp properties).payloads
      = (fun payload => [(stamp, payload)]) <$> Repository.payload type properties := by
  rw [payloads, entities, List.mapM_cons, List.mapM_nil]
  dsimp only
  cases Repository.payload type properties <;> rfl

theorem ofRecords_singleton (record : Document) :
    type.ofRecords [record] = (fun entity => [entity]) <$> type.ofRecord record := by
  rw [EntityType.ofRecords, List.mapM_cons, List.mapM_nil]
  cases type.ofRecord record <;> rfl

/-- **What creating one entity can do**: fail before anything is stored, store a record and
return its entity, or store a record and fail to return it. -/
theorem effect_one (checked : session.store.Checked) (stamp : Stamp)
    (properties : type.Properties) :
    Effect repository session (one stamp properties)
      (((one stamp properties).action repository).exec session).1
      (((one stamp properties).action repository).exec session).2 := by
  rw [action, Action.exec_map]
  cases isOpen : session.isOpen with
  | false =>
    rw [Repository.create, Session.exec_whileOpen_of_closed isOpen]
    exact .refused
  | true =>
    have written := payloads_one stamp properties
    rw [Repository.create, Session.exec_whileOpen_of_open isOpen, Action.exec_ofOutcome_bind]
    cases hpayload : Repository.payload type properties with
    | error failure => exact .refused
    | ok payload =>
      rw [hpayload] at written
      dsimp only
      rcases MemoryStore.insertOne_cases checked repository.collection stamp payload with
        ⟨failure, h⟩ | ⟨collection, record, grown, found, prepared, pushed, h⟩
      · rw [Action.exec_bind_of_error (Session.exec_insertOne_of_eq h)]
        exact .refused
      · have hstored : Effect repository session (one stamp properties) _ _ :=
          .stored isOpen written found prepared pushed
        rw [ofRecords_singleton] at hstored
        rw [Action.exec_bind_of_ok (Session.exec_insertOne_of_eq h), Action.exec_ofOutcome]
        exact hstored

/-- Creating a batch takes four steps, none of which is taken for an empty one. -/
theorem createMany_eq (repository : Repository type) (entities : List (Stamp × type.Properties)) :
    (repository.createMany entities : Action (Session MemoryStore) _)
      = Session.whileOpen repository.collection (do
          if entities.isEmpty then return []
          let payloads ← Action.ofOutcome (many entities).payloads
          let records ← Session.onStore (Backend.insertMany repository.collection payloads)
          Action.ofOutcome (type.ofRecords records)) := rfl

/-- **What creating a batch can do**: fail before anything is stored, store all records and
return their entities, or store all and fail to return them. -/
theorem effect_many (checked : session.store.Checked) (entities : List (Stamp × type.Properties)) :
    Effect repository session (many entities)
      (((many entities).action repository).exec session).1
      (((many entities).action repository).exec session).2 := by
  rw [action, createMany_eq]
  cases isOpen : session.isOpen with
  | false =>
    rw [Session.exec_whileOpen_of_closed isOpen]
    exact .refused
  | true =>
    rw [Session.exec_whileOpen_of_open isOpen]
    split
    · rename_i none
      exact .nothing (List.isEmpty_iff.1 none)
    · rw [Action.exec_ofOutcome_bind]
      cases written : (many entities).payloads with
      | error failure => exact .refused
      | ok payloads =>
        dsimp only
        rcases MemoryStore.insertMany_cases checked repository.collection payloads with
          ⟨failure, h⟩ | ⟨collection, records, grown, found, prepared, pushed, h⟩
        · rw [Action.exec_bind_of_error (Session.exec_insertMany_of_eq h)]
          exact .refused
        · rw [Action.exec_bind_of_ok (Session.exec_insertMany_of_eq h), Action.exec_ofOutcome]
          exact .stored isOpen written found prepared pushed

/-- **A creation is refused, or has nothing to do, or stores its records.** -/
theorem effect (checked : session.store.Checked) (creation : Creation type) :
    Effect repository session creation ((creation.action repository).exec session).1
      ((creation.action repository).exec session).2 := by
  cases creation with
  | one stamp properties => exact effect_one checked stamp properties
  | many entities => exact effect_many checked entities

variable {creation : Creation type} {next : Session MemoryStore}

/-- Whatever creating returned, it did one of these. -/
theorem effect_of_exec (checked : session.store.Checked) {outcome : Outcome (List type.Entity)}
    (h : (creation.action repository).exec session = (outcome, next)) :
    Effect repository session creation outcome next := by
  have heffect : Effect repository session creation _ _ := effect checked creation
  rwa [h] at heffect

/-! ### Creations that fail -/

variable {failure : Failure}

/-- A creation that changes anything adds its records and reads them back. -/
theorem Effect.appended_of_ne {outcome : Outcome (List type.Entity)}
    (h : Effect repository session creation outcome next) (hne : next ≠ session) :
    ∃ payloads records, creation.payloads = .ok payloads ∧
      session.store.Appended repository.collection payloads records next.store ∧
      next.isOpen = session.isOpen ∧ outcome = type.ofRecords records := by
  cases h with
  | refused => exact absurd rfl hne
  | nothing _ => exact absurd rfl hne
  | stored _ written found prepared pushed =>
    exact ⟨_, _, written, MemoryStore.appended_set found prepared pushed, rfl, rfl⟩

/-- Adding records that cannot be read is a change. -/
theorem ne_of_appended {payloads : List (Stamp × Document)} {records : List Document}
    (appended : session.store.Appended repository.collection payloads records next.store)
    (unreadable : type.ofRecords records = .error failure) : next ≠ session := by
  rintro rfl
  obtain ⟨collection, grown, found, found', -, hrecords, -⟩ := appended
  obtain rfl := Option.some.inj (found.symm.trans found')
  rw [List.self_eq_append_right.1 hrecords] at unreadable
  cases unreadable

/-- **A creation that fails leaves something behind exactly when it fails to read
what it stored.** In that case all of its payloads were accepted, and their
records stand behind those that were there before. In every other case the
session is as it was, its store included. -/
theorem ne_iff_of_failed {calls : List MemoryStore.Call}
    (reached : session.store = MemoryStore.empty.afterAll calls)
    (failed : (creation.action repository).exec session = (.error failure, next)) :
    next ≠ session ↔ ∃ payloads records,
      creation.payloads = .ok payloads ∧
      session.store.Appended repository.collection payloads records next.store ∧
      next.isOpen = session.isOpen ∧
      type.ofRecords records = .error failure := by
  have checked : session.store.Checked :=
    reached ▸ MemoryStore.checked_afterAll MemoryStore.checked_empty calls
  constructor
  · intro hne
    obtain ⟨payloads, records, written, appended, hopen, unreadable⟩ :=
      (effect_of_exec checked failed).appended_of_ne hne
    exact ⟨payloads, records, written, appended, hopen, unreadable.symm⟩
  · rintro ⟨payloads, records, -, appended, -, unreadable⟩
    exact ne_of_appended appended unreadable

/-- **Where the type reads what the schema admits, a creation that fails changes
nothing.** -/
theorem eq_of_failed_of_reads {calls : List MemoryStore.Call}
    (reached : session.store = MemoryStore.empty.afterAll calls)
    (failed : (creation.action repository).exec session = (.error failure, next))
    (reads : ∀ collection, session.store.bound? repository.collection = some collection →
      type.Reads collection.schema) : next = session := by
  have checked : session.store.Checked :=
    reached ▸ MemoryStore.checked_afterAll MemoryStore.checked_empty calls
  by_contra hne
  obtain ⟨payloads, records, -, appended, -, unreadable⟩ :=
    (effect_of_exec checked failed).appended_of_ne hne
  obtain ⟨collection, grown, found, -, -, -, prepared, -⟩ := appended
  obtain ⟨entities, hentities⟩ : ∃ entities, type.ofRecords records = .ok entities := by
    refine Outcome.exists_mapM_eq_ok fun record hrecord => reads collection found record ?_
    obtain ⟨item, -, hprepare⟩ := Collection.exists_of_mem_prepareAll
      (Collection.prepareAll_eq_ok_iff.2 prepared) hrecord
    exact Collection.shaped_of_prepare_eq_ok (checked _ _ found) hprepare
  rw [hentities] at unreadable
  cases unreadable

/-! ### What may be left behind -/

/-- A repository of books whose schema does not declare the title that a book
has. -/
def books : Repository (.declared [("title", .text)]) := ⟨"books", .empty, .standard⟩

/-- A session in which the repository was bound. -/
def withBooks : Session MemoryStore :=
  .start (MemoryStore.empty.afterAll [.bindModel books.collection books.schema])

/-- The creation of a book. -/
def oneBook : Creation (.declared [("title", .text)]) :=
  .one ⟨.ofParts 0 0, .ofMillis 1700000000000⟩ [("title", .string "a")]

/-- A book is not created, and its record is there all the same. -/
theorem exec_oneBook :
    ∃ next before after, (oneBook.action books).exec withBooks
        = (.error (.serialization "attribute `title`"), next) ∧
      withBooks.store.bound? "books" = some before ∧ before.records = [] ∧
      next.store.bound? "books" = some after ∧ after.records.length = 1 :=
  ⟨_, _, _, rfl, rfl, rfl, rfl, rfl⟩

/-- What is there of the book is the record of its payload, without a title. -/
theorem appended_oneBook :
    ∃ next payloads records, (oneBook.action books).exec withBooks
        = (.error (.serialization "attribute `title`"), next) ∧
      oneBook.payloads = .ok payloads ∧
      withBooks.store.Appended "books" payloads records next.store := by
  have failed : ∃ next, (oneBook.action books).exec withBooks
      = (.error (.serialization "attribute `title`"), next) ∧ next ≠ withBooks := by
    refine ⟨_, rfl, fun h => ?_⟩
    have hcount := congrArg (fun session : Session MemoryStore =>
      (session.store.bound? "books").map fun collection => collection.records.length) h
    exact absurd hcount (by decide)
  obtain ⟨next, failed, hne⟩ := failed
  obtain ⟨payloads, records, written, appended, -, -⟩ := (ne_iff_of_failed rfl failed).1 hne
  exact ⟨next, payloads, records, failed, written, appended⟩

end Creation

end RecordStore
