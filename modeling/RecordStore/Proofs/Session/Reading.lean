import RecordStore.Proofs.Store.Find
import RecordStore.Session.Repository

/-!
# Reading in an open session

An open session lets an action through to its store, and puts back the store
that the action leaves (`RecordStore.Session.exec_onStore`). Reading does not
write, so in an open session over a store in memory each way of reading comes to
an outcome that depends on the records of its collection alone, and the session
stays as it is: a page of a query (`RecordStore.Repository.exec_getByQuery`), the
entity of a key (`RecordStore.Repository.exec_getById`), and the entities of some
keys (`RecordStore.Repository.exec_getByIds`) or of a filter
(`RecordStore.Repository.exec_getByFilter`).

Over any other store, reading does what searching the store does, and no more
(`RecordStore.Repository.leads_getDynamic`).
-/

namespace RecordStore

namespace Action

variable {σ α β : Type}

/-- An outcome is computed before the next action runs, and leaves the state as it is. -/
theorem exec_ofOutcome_bind (outcome : Outcome α) (next : α → Action σ β) (state : σ) :
    exec (ofOutcome outcome >>= next) state
      = match outcome with
        | .ok a => exec (next a) state
        | .error failure => (.error failure, state) := by
  rw [exec_bind, exec_ofOutcome]
  cases outcome <;> rfl

end Action

namespace Session

variable {σ α : Type} {session : Session σ}

/-- An action on the store of a session changes nothing but the store. -/
theorem exec_onStore (action : Action σ α) (session : Session σ) :
    (onStore action).exec session
      = ((action.exec session.store).1, { session with store := (action.exec session.store).2 }) :=
  rfl

theorem exec_onStore_of_eq {action : Action σ α} {outcome : Outcome α} {store : σ}
    (h : action.exec session.store = (outcome, store)) :
    (onStore action).exec session = (outcome, { session with store }) := by
  rw [exec_onStore, h]

theorem exec_whileOpen_of_open (h : session.isOpen = true) (collection : String)
    (action : Action (Session σ) α) :
    (whileOpen collection action).exec session = action.exec session := by
  rw [whileOpen, Action.exec_bind_of_ok (Action.exec_get session), if_pos h]

/-- A closed session lets nothing through. -/
theorem exec_whileOpen_of_closed (h : session.isOpen = false) (collection : String)
    (action : Action (Session σ) α) :
    (whileOpen collection action).exec session = (.error (.unbound collection), session) := by
  rw [whileOpen, Action.exec_bind_of_ok (Action.exec_get session), h, if_neg Bool.false_ne_true]
  exact Action.exec_throw (.unbound collection) session

/-- What a relation between stores says of two sessions over them that are both
open or both closed. -/
def Beside (related : σ → σ → Prop) (session next : Session σ) : Prop :=
  next.isOpen = session.isOpen ∧ related session.store next.store

section Beside

variable {related : σ → σ → Prop}

theorem cumulative_beside (cumulative : Action.Cumulative related) :
    Action.Cumulative (Beside related) where
  refl session := ⟨rfl, cumulative.refl session.store⟩
  trans h h' := ⟨h'.1.trans h.1, cumulative.trans h.2 h'.2⟩

/-- What an action on the store may do to it, the same action in a session may. -/
theorem leads_onStore {action : Action σ α} (h : action.Leads related) :
    (onStore action).Leads (Beside related) :=
  fun session => ⟨rfl, h session.store⟩

/-- What an action does while the session is open it does at most, since otherwise nothing is
done. -/
theorem leads_whileOpen (cumulative : Action.Cumulative related) {action : Action (Session σ) α}
    (h : action.Leads (Beside related)) (collection : String) :
    (whileOpen collection action).Leads (Beside related) := by
  intro session
  cases isOpen : session.isOpen with
  | false =>
    rw [exec_whileOpen_of_closed isOpen]
    exact (cumulative_beside cumulative).refl session
  | true =>
    rw [exec_whileOpen_of_open isOpen]
    exact h session

/-- An action that leads a store to itself alone keeps the session. -/
theorem keeps_of_leads {action : Action (Session σ) α}
    (h : action.Leads (Beside fun store next => next = store)) : action.Keeps := by
  intro session
  obtain ⟨hopen, hstore⟩ := h session
  rcases session with ⟨store, isOpen⟩
  exact congrArg₂ Session.mk hstore hopen

end Beside

end Session

namespace Repository

variable {type : EntityType} (repository : Repository type)

/-- The predicate that a query is about, if it is not refused. -/
def predicateOf (filter : Option Filter) (sort : ResolvedSorting) : Outcome Predicate := do
  let predicate ← Filter.lower? filter
  sort.properties.forM FieldName.check
  return predicate

/-- The page of a collection that a query asks for. -/
def pageOf (collection : Collection) (query : Query) : Outcome (Page type.Entity) := do
  let sort := repository.defaults.resolve query.sort
  let predicate ← predicateOf query.filter sort
  let items ← type.ofRecords (collection.find predicate sort.findOptions)
  return ⟨items, sort.offset, sort.limit⟩

/-- The entity of a collection that a key names, if there is one. -/
def entityOf (collection : Collection) (key : type.Key) : Outcome (Option type.Entity) :=
  match (EntityKey.toNative? key).bind collection.named? with
  | none => .ok none
  | some record => some <$> type.ofRecord record

variable {repository} {session : Session MemoryStore} {collection : Collection}

/-- In an open session a repository returns the entities of the records found. -/
theorem exec_find (found : session.store.bound? repository.collection = some collection)
    (predicate : Predicate) (options : FindOptions) :
    (repository.find predicate options).exec session
      = (type.ofRecords (collection.find predicate options), session) := by
  have hrecords : (Session.onStore (Backend.find repository.collection predicate options)).exec
      session = (.ok (collection.find predicate options), session) :=
    Session.exec_onStore_of_eq (MemoryStore.exec_find_of_bound found predicate options)
  rw [Repository.find, Action.exec_bind_of_ok hrecords, Action.exec_ofOutcome]

/-- **A query in an open session** reads the page that it asks for, and changes
nothing. -/
theorem exec_getByQuery (isOpen : session.isOpen = true)
    (found : session.store.bound? repository.collection = some collection) (query : Query) :
    (repository.getByQuery query).exec session = (repository.pageOf collection query, session) := by
  rw [getByQuery, Session.exec_whileOpen_of_open isOpen, Action.exec_ofOutcome_bind, pageOf,
    predicateOf]
  cases Filter.lower? query.filter with
  | error failure => rfl
  | ok predicate =>
    dsimp only
    rw [Action.exec_ofOutcome_bind, Outcome.ok_bind]
    cases (repository.defaults.resolve query.sort).properties.forM FieldName.check with
    | error failure => rfl
    | ok _ =>
      dsimp only
      rw [Action.exec_bind, exec_find found, Outcome.ok_bind, Outcome.pure_eq_ok, Outcome.ok_bind]
      cases type.ofRecords (collection.find predicate
        (repository.defaults.resolve query.sort).findOptions) <;> rfl

/-! ### The other ways of reading -/

/-- No record is among no identifiers. -/
theorem matching_identifiedBy_nil (collection : Collection) :
    collection.matching (.identifiedBy []) = [] := by
  refine List.filter_eq_nil_iff.2 fun record _ => ?_
  rw [Predicate.holds_identifiedBy]
  cases record.read FieldName.nativeId <;> simp [Clause.holds, Value.anyItem]

section Open

variable (isOpen : session.isOpen = true)
  (found : session.store.bound? repository.collection = some collection)
include isOpen found

/-- **Reading by one key** returns the entity of the record that the key names, and none for a
malformed one. -/
theorem exec_getById (key : type.Key) :
    (repository.getById key).exec session = (entityOf collection key, session) := by
  rw [getById, Session.exec_whileOpen_of_open isOpen, entityOf]
  cases EntityKey.toNative? key with
  | none => rfl
  | some native =>
    have hrecord : (Session.onStore (Backend.findById repository.collection native)).exec session
        = (.ok (collection.named? native), session) :=
      Session.exec_onStore_of_eq (MemoryStore.exec_findById_of_bound found native)
    dsimp only
    rw [Action.exec_bind_of_ok hrecord, Option.bind_some]
    cases collection.named? native with
    | none => rfl
    | some record =>
      dsimp only
      rw [Action.exec_map, Action.exec_ofOutcome]
      rfl

/-- **Reading by many keys** returns the entities of the records that they name, and asks for
none if all are malformed. -/
theorem exec_getByIds (keys : List type.Key) :
    (repository.getByIds keys).exec session
      = (type.ofRecords
          (collection.matching (.identifiedBy (keys.filterMap EntityKey.toNative?))), session) := by
  rw [getByIds, Session.exec_whileOpen_of_open isOpen]
  cases keys.filterMap EntityKey.toNative? with
  | nil =>
    -- no record is asked for, and none would be found
    rw [matching_identifiedBy_nil]
    rfl
  | cons native rest => exact exec_find found _ .all

/-- **Reading by a filter** returns the entities of the records that match, if the filter can be
lowered. -/
theorem exec_getByFilter (filter : Filter) :
    (repository.getByFilter filter).exec session
      = (do type.ofRecords (collection.matching (← filter.lower)), session) := by
  rw [getByFilter, Session.exec_whileOpen_of_open isOpen, Action.exec_ofOutcome_bind]
  cases filter.lower with
  | error failure => rfl
  | ok predicate => exact exec_find found predicate .all

end Open

/-! ### What reading leads to

Reading asks a store for its records, and does nothing else to it. So the store is
left as searching it leaves it, in closed sessions too, and for collections that
are not bound. -/

end Repository

/-- Whether searching a store leads to related states only. -/
structure Backend.ReadsWithin {σ : Type} [Backend σ] (related : σ → σ → Prop) : Prop where
  cumulative : Action.Cumulative related
  findById : ∀ name id, (Backend.findById name id : Action σ _).Leads related
  find : ∀ name predicate options, (Backend.find name predicate options : Action σ _).Leads related

namespace Repository

variable {type : EntityType} {repository : Repository type}

section Within

variable {σ : Type} [Backend σ] {related : σ → σ → Prop} (within : Backend.ReadsWithin related)
include within

open RecordStore.Action RecordStore.Session

theorem leads_find (predicate : Predicate) (options : FindOptions) :
    (repository.find predicate options : Action (Session σ) _).Leads (Beside related) :=
  have cumulative := cumulative_beside within.cumulative
  (leads_onStore (within.find _ _ _)).bind cumulative fun _ => leads_ofOutcome cumulative _

/-- Reading by one key at most looks for a record. -/
theorem leads_getById (key : type.Key) :
    (repository.getById key : Action (Session σ) _).Leads (Beside related) := by
  have cumulative := cumulative_beside within.cumulative
  refine leads_whileOpen within.cumulative ?_ _
  rcases EntityKey.toNative? key with _ | native
  · exact leads_pure cumulative none
  · refine (leads_onStore (within.findById _ _)).bind cumulative fun record? => ?_
    rcases record? with _ | record
    · exact leads_pure cumulative none
    · exact (leads_ofOutcome cumulative _).map some

/-- Reading by many keys at most makes a find. -/
theorem leads_getByIds (keys : List type.Key) :
    (repository.getByIds keys : Action (Session σ) _).Leads (Beside related) := by
  refine leads_whileOpen within.cumulative ?_ _
  rcases keys.filterMap EntityKey.toNative? with _ | ⟨native, rest⟩
  · exact leads_pure (cumulative_beside within.cumulative) []
  · exact leads_find within _ .all

theorem leads_getByFilter (filter : Filter) :
    (repository.getByFilter filter : Action (Session σ) _).Leads (Beside related) :=
  have cumulative := cumulative_beside within.cumulative
  leads_whileOpen within.cumulative
    ((leads_ofOutcome cumulative _).bind cumulative fun _ => leads_find within _ .all) _

/-- Reading a page at most makes a find. -/
theorem leads_getByQuery (query : Query) :
    (repository.getByQuery query : Action (Session σ) _).Leads (Beside related) :=
  have cumulative := cumulative_beside within.cumulative
  leads_whileOpen within.cumulative
    ((leads_ofOutcome cumulative _).bind cumulative fun _ =>
      (leads_ofOutcome cumulative _).bind cumulative fun _ =>
        (leads_find within _ _).bind cumulative fun _ => leads_pure cumulative _) _

/-- Whatever a lookup asks for, it at most reads. -/
theorem leads_get (lookup : Lookup type.Key) :
    (repository.get lookup : Action (Session σ) _).Leads (Beside related) := by
  cases lookup with
  | byId key => exact (leads_getById within key).map _
  | byIds keys => exact (leads_getByIds within keys).map _
  | byFilter filter => exact (leads_getByFilter within filter).map _
  | byQuery query => exact (leads_getByQuery within query).map _

theorem leads_getDynamic (request : Option Value) :
    (repository.getDynamic request : Action (Session σ) _).Leads (Beside related) :=
  have cumulative := cumulative_beside within.cumulative
  (leads_ofOutcome cumulative _).bind cumulative fun _ =>
    (leads_ofOutcome cumulative _).bind cumulative fun _ => leads_get within _

theorem leads_getJson (request : Json) :
    (repository.getJson request : Action (Session σ) _).Leads (Beside related) :=
  have cumulative := cumulative_beside within.cumulative
  (leads_ofOutcome cumulative _).bind cumulative fun _ => leads_getDynamic within _

end Within

/-! ### Reading keeps a session over a store in memory -/

theorem readsWithin_same : Backend.ReadsWithin fun store next : MemoryStore => next = store where
  cumulative := Action.cumulative_same
  findById name id store := MemoryStore.exec_findById_state store name id
  find name predicate options store := MemoryStore.exec_find_state store name predicate options

/-- Reading changes nothing in the session. -/
theorem keeps_get (lookup : Lookup type.Key) :
    (repository.get lookup : Action (Session MemoryStore) _).Keeps :=
  Session.keeps_of_leads (leads_get readsWithin_same lookup)

/-- **No request changes a session**, whatever it looks like. -/
theorem keeps_getDynamic (request : Option Value) :
    (repository.getDynamic request : Action (Session MemoryStore) _).Keeps :=
  Session.keeps_of_leads (leads_getDynamic readsWithin_same request)

/-- Reading by a JSON request changes nothing in the session. -/
theorem keeps_getJson (request : Json) :
    (repository.getJson request : Action (Session MemoryStore) _).Keeps :=
  Session.keeps_of_leads (leads_getJson readsWithin_same request)

end Repository

end RecordStore
