import RecordStore.Proofs.Session.Creating
import RecordStore.Proofs.Store.Soundness
import RecordStore.Session.Host

/-!
# Runs of sessions

Stores are reached through sessions, by the operations of repositories or by
calls of their own, and several sessions may be open over one store. A run of a
host is a list of steps that open sessions and use them
(`RecordStore.Host.afterAll`).

Whatever an operation of a session does, it leaves the store as calls on it
would, under identifiers that were issued for it
(`RecordStore.Session.Operation.reaches`). So what is known of runs of a
single store carries over: along every run in which no identifier is issued
twice, all stores stay sound, no store loses a record, and a session stays with
its store (`RecordStore.Host.sound_and_grows_afterAll`).
-/

namespace RecordStore

/-! ### What a session may be used for -/

namespace Session

/-- An operation of a session over a store in memory. -/
inductive Operation : Type 1 where
  | close
  /-- A call on the store itself, whether or not the session is open. -/
  | direct (call : MemoryStore.Call)
  | bind {type : EntityType} (repository : Repository type)
  | create {type : EntityType} (repository : Repository type) (creation : Creation type)
  | get {type : EntityType} (repository : Repository type) (lookup : Lookup type.Key)
  | getDynamic {type : EntityType} (repository : Repository type) (request : Option Value)
  | getJson {type : EntityType} (repository : Repository type) (request : Json)

namespace Operation

/-- The operation, without its answer. -/
def action : Operation → Action (Session MemoryStore) Unit
  | close => Session.close
  | direct call => onStore call.action
  | bind repository => repository.bind
  | create repository creation => (fun _ => ()) <$> creation.action repository
  | get repository lookup => (fun _ => ()) <$> repository.get lookup
  | getDynamic repository request => (fun _ => ()) <$> repository.getDynamic request
  | getJson repository request => (fun _ => ()) <$> repository.getJson request

/-- The identifiers issued for an operation. -/
def issued : Operation → List ObjectId
  | direct call => call.issued
  | create _ creation => creation.issued
  | _ => []

end Operation

end Session

/-! ### What an operation does to the store -/

namespace MemoryStore

variable {store : MemoryStore} {issued : List ObjectId}

/-- Whether a store is what calls make of another, under some of the identifiers
of a list. -/
def Reaches (store : MemoryStore) (issued : List ObjectId) (next : MemoryStore) : Prop :=
  ∃ calls : List Call, next = store.afterAll calls ∧ (calls.flatMap Call.issued).Sublist issued

theorem Reaches.refl (store : MemoryStore) (issued : List ObjectId) : store.Reaches issued store :=
  ⟨[], rfl, List.nil_sublist issued⟩

theorem reaches_after (store : MemoryStore) (call : Call) :
    store.Reaches call.issued (store.after call) :=
  ⟨[call], rfl, by rw [List.flatMap_singleton]⟩

/-- Stores stay sound as long as no identifier is issued twice. -/
theorem Reaches.soundWithin {next : MemoryStore} {new : List ObjectId}
    (h : store.Reaches new next) (sound : store.SoundWithin issued)
    (fresh : (issued ++ new).Nodup) : next.SoundWithin (issued ++ new) := by
  obtain ⟨calls, rfl, hsublist⟩ := h
  have hsub := hsublist.append_left issued
  exact (sound.afterAll (fresh.sublist hsub)).mono hsub.subset

theorem Reaches.extends {next : MemoryStore} {new : List ObjectId} (h : store.Reaches new next)
    (checked : store.Checked) : store.Extends next := by
  obtain ⟨calls, rfl, -⟩ := h
  exact extends_afterAll checked calls

end MemoryStore

/-- **Creating leads the store along the calls that its effect names.** -/
theorem Creation.Effect.reaches {type : EntityType} {repository : Repository type}
    {session next : Session MemoryStore} {creation : Creation type}
    {outcome : Outcome (List type.Entity)}
    (h : Creation.Effect repository session creation outcome next) :
    session.store.Reaches creation.issued next.store := by
  cases h with
  | refused => exact .refl _ _
  | nothing _ => exact .refl _ _
  | @stored payloads _ _ _ _ written found prepared pushed =>
    -- the records are stored as a batch of their payloads would be
    refine ⟨[.insertMany repository.collection payloads], ?_, ?_⟩
    · show _ = Prod.snd (Action.exec ((fun _ => ()) <$> _) _)
      rw [Action.exec_map, MemoryStore.exec_insertMany_of_ok found prepared pushed]
    · rw [List.flatMap_singleton, ← Creation.issued_of_payloads written]
      exact List.Sublist.refl _

namespace Session

variable {session : Session MemoryStore}

/-- Closing a session leaves its store. -/
theorem store_exec_close : (Session.close.exec session).2.store = session.store := by
  rw [close, Action.exec_bind_of_ok (Action.exec_get session)]
  split <;> rfl

/-- Binding leads the store along one call, or nowhere. -/
theorem reaches_bind {type : EntityType} (repository : Repository type) :
    session.store.Reaches [] (repository.bind.exec session).2.store := by
  cases isOpen : session.isOpen with
  | false =>
    rw [Repository.bind, exec_whileOpen_of_closed isOpen]
    exact .refl _ _
  | true =>
    rw [Repository.bind, exec_whileOpen_of_open isOpen, exec_onStore]
    exact MemoryStore.reaches_after session.store
      (.bindModel repository.collection repository.schema)

/-- **An operation leaves the store as calls on it would**, under identifiers that
were issued for it. -/
theorem Operation.reaches (checked : session.store.Checked) {operation : Operation}
    {outcome : Outcome Unit} {next : Session MemoryStore}
    (h : operation.action.exec session = (outcome, next)) :
    session.store.Reaches operation.issued next.store := by
  obtain rfl : (operation.action.exec session).2 = next := congrArg Prod.snd h
  clear h
  cases operation with
  | close =>
    rw [action, store_exec_close]
    exact .refl _ _
  | direct call => exact MemoryStore.reaches_after session.store call
  | bind repository => exact reaches_bind repository
  | create repository creation =>
    rw [action, Action.exec_map]
    exact (Creation.effect checked creation).reaches
  | get repository lookup =>
    rw [action, (Repository.keeps_get lookup).map _ session]
    exact .refl _ _
  | getDynamic repository request =>
    rw [action, (Repository.keeps_getDynamic request).map _ session]
    exact .refl _ _
  | getJson repository request =>
    rw [action, (Repository.keeps_getJson request).map _ session]
    exact .refl _ _

end Session

/-! ### Runs of a host -/

namespace Host

/-- A step of a host: to open a session, over a new store or over that of another
session, or to use one. -/
inductive Step : Type 1 where
  | openStore
  | openShared (session : Nat)
  | use (session : Nat) (operation : Session.Operation)

/-- The identifiers issued for a step. -/
def Step.issued : Step → List ObjectId
  | use _ operation => operation.issued
  | _ => []

/-- The host that a step leaves behind. -/
def after (host : Host MemoryStore) : Step → Host MemoryStore
  | .openStore => host.openStore .empty
  | .openShared session => host.openShared session
  | .use session operation => ((host.run session operation.action).map Prod.snd).getD host

/-- The host that steps leave behind, one after the other. -/
def afterAll (host : Host MemoryStore) (steps : List Step) : Host MemoryStore :=
  steps.foldl after host

/-- Whether all stores of a host are sound, and hold no identifiers but those of a
list. -/
def SoundWithin (issued : List ObjectId) (host : Host MemoryStore) : Prop :=
  ∀ (index : Nat) (store : MemoryStore), host.stores[index]? = some store →
    store.SoundWithin issued

/-- Whether a host has every store of another, with at least the same records, and
every session, over the same store. -/
structure Grows (host later : Host MemoryStore) : Prop where
  stores : ∀ (index : Nat) (store : MemoryStore), host.stores[index]? = some store →
    ∃ grown, later.stores[index]? = some grown ∧ store.Extends grown
  sessions : ∀ (session index : Nat) (isOpen : Bool),
    host.sessions[session]? = some (index, isOpen) →
      ∃ isOpen', later.sessions[session]? = some (index, isOpen')

variable {host later : Host MemoryStore} {issued : List ObjectId}

theorem soundWithin_empty : (empty : Host MemoryStore).SoundWithin [] :=
  fun _ _ h => absurd h (by simp [empty])

theorem SoundWithin.mono {more : List ObjectId} (h : host.SoundWithin issued)
    (hsubset : issued ⊆ more) : host.SoundWithin more :=
  fun index store hstore => (h index store hstore).mono hsubset

theorem Grows.refl (host : Host MemoryStore) : host.Grows host :=
  ⟨fun _ store h => ⟨store, h, .refl store⟩, fun _ _ isOpen h => ⟨isOpen, h⟩⟩

/-- Growth can be chained. -/
theorem Grows.trans {last : Host MemoryStore} (h : host.Grows later) (h' : later.Grows last) :
    host.Grows last := by
  constructor
  case stores =>
    intro index store hstore
    obtain ⟨grown, hgrown, hextends⟩ := h.stores index store hstore
    obtain ⟨final, hfinal, hextends'⟩ := h'.stores index grown hgrown
    exact ⟨final, hfinal, hextends.trans hextends'⟩
  case sessions =>
    intro session index isOpen hsession
    obtain ⟨isOpen', hsession'⟩ := h.sessions session index isOpen hsession
    exact h'.sessions session index isOpen' hsession'

/-! ### Opening sessions -/

/-- What is added at the end moves nothing. -/
theorem getElem?_push_of_eq_some {α : Type} {items : Array α} {i : Nat} {item : α}
    (h : items[i]? = some item) (last : α) : (items.push last)[i]? = some item := by
  have hlt := (Array.getElem?_eq_some_iff.1 h).1
  rw [Array.getElem?_push, if_neg (Nat.ne_of_lt hlt), h]

/-- A host remains sound when a session over an empty store is opened. -/
theorem soundWithin_openStore (h : host.SoundWithin issued) :
    (host.openStore .empty).SoundWithin issued := by
  intro index store hstore
  rw [openStore, Array.getElem?_push] at hstore
  split at hstore
  · rw [← Option.some.inj hstore]
    exact MemoryStore.soundWithin_empty.mono (List.nil_subset issued)
  · exact h index store hstore

theorem grows_openStore (host : Host MemoryStore) (store : MemoryStore) :
    host.Grows (host.openStore store) where
  stores _ old h := ⟨old, getElem?_push_of_eq_some h store, .refl old⟩
  sessions _ _ isOpen h := ⟨isOpen, getElem?_push_of_eq_some h _⟩

theorem stores_openShared (host : Host MemoryStore) (session : Nat) :
    (host.openShared session).stores = host.stores := by
  rw [openShared]
  split <;> rfl

/-- A host grows when a session over the store of another is opened. -/
theorem grows_openShared (host : Host MemoryStore) (session : Nat) :
    host.Grows (host.openShared session) where
  stores _ store h := ⟨store, by rwa [stores_openShared], .refl store⟩
  sessions _ _ isOpen h := by
    refine ⟨isOpen, ?_⟩
    rw [openShared]
    split
    · exact getElem?_push_of_eq_some h _
    · exact h

/-! ### Using sessions -/

/-- The host with a session and its store replaced. -/
def put {σ : Type} (host : Host σ) (session index : Nat) (after : Session σ) : Host σ :=
  ⟨host.stores.setIfInBounds index after.store,
    host.sessions.setIfInBounds session (index, after.isOpen)⟩

section Run

variable {σ α : Type} {host next : Host σ} {session index : Nat} {isOpen : Bool} {store : σ}
  {action : Action (Session σ) α}

/-- A session is its store and whether it is open. -/
theorem session?_of_eq_some (hsession : host.sessions[session]? = some (index, isOpen)) :
    host.session? session = (host.stores[index]?).map fun store => ⟨store, isOpen⟩ := by
  rw [session?, hsession, Option.bind_eq_bind, Option.bind_some]
  dsimp only
  cases host.stores[index]? <;> rfl

/-- **An action runs in its session**, and what it leaves is put back there. -/
theorem run_of_eq_some (hsession : host.sessions[session]? = some (index, isOpen))
    (hstore : host.stores[index]? = some store) :
    host.run session action
      = some ((action.exec ⟨store, isOpen⟩).1,
          host.put session index (action.exec ⟨store, isOpen⟩).2) := by
  rw [run, session?_of_eq_some hsession, hstore, hsession]
  rfl

/-- **What is run on a session** is run on it together with its store, and both
are then replaced. -/
theorem exists_of_run_eq_some {outcome : Outcome α}
    (h : host.run session action = some (outcome, next)) :
    ∃ index isOpen store after, host.sessions[session]? = some (index, isOpen) ∧
      host.stores[index]? = some store ∧ action.exec ⟨store, isOpen⟩ = (outcome, after) ∧
      next = host.put session index after := by
  cases hsession : host.sessions[session]? with
  | none =>
    rw [run, hsession] at h
    cases h
  | some entry =>
    obtain ⟨index, isOpen⟩ := entry
    cases hstore : host.stores[index]? with
    | none =>
      rw [run, session?_of_eq_some hsession, hstore, hsession] at h
      cases h
    | some store =>
      rw [run_of_eq_some hsession hstore] at h
      obtain ⟨houtcome, hnext⟩ := Prod.mk.inj (Option.some.inj h)
      exact ⟨index, isOpen, store, _, rfl, hstore, Prod.ext houtcome rfl, hnext.symm⟩

end Run

/-- **A host grows when the store of a session is extended**: other stores stay, and so do the
sessions. -/
theorem grows_put {session index : Nat} {isOpen : Bool} {store : MemoryStore}
    {after : Session MemoryStore} (hsession : host.sessions[session]? = some (index, isOpen))
    (hstore : host.stores[index]? = some store) (hextends : store.Extends after.store) :
    host.Grows (host.put session index after) := by
  constructor
  case stores =>
    intro other old hold
    rw [put, Array.getElem?_setIfInBounds]
    by_cases hother : index = other
    · subst hother
      obtain rfl := Option.some.inj (hstore.symm.trans hold)
      rw [if_pos rfl, if_pos (Array.getElem?_eq_some_iff.1 hstore).1]
      exact ⟨after.store, rfl, hextends⟩
    · rw [if_neg hother]
      exact ⟨old, hold, .refl old⟩
  case sessions =>
    intro other index' isOpen' hold
    rw [put, Array.getElem?_setIfInBounds]
    by_cases hother : session = other
    · subst hother
      obtain ⟨rfl, -⟩ := Prod.mk.inj (Option.some.inj (hsession.symm.trans hold))
      rw [if_pos rfl, if_pos (Array.getElem?_eq_some_iff.1 hsession).1]
      exact ⟨after.isOpen, rfl⟩
    · rw [if_neg hother]
      exact ⟨isOpen', hold⟩

/-- A host remains sound when a session is put back with a sound store. -/
theorem soundWithin_put {session index : Nat} {after : Session MemoryStore}
    (h : host.SoundWithin issued) (sound : after.store.SoundWithin issued) :
    (host.put session index after).SoundWithin issued := by
  intro other store hstore
  rw [put, Array.getElem?_setIfInBounds] at hstore
  split at hstore
  · split at hstore
    · rw [← Option.some.inj hstore]
      exact sound
    · cases hstore
  · exact h other store hstore

/-! ### Every run -/

/-- **A step keeps all stores sound and loses nothing**, if no identifier issued
for it was issued before, and none is issued twice. -/
theorem soundWithin_and_grows_after (h : host.SoundWithin issued) (step : Step)
    (fresh : (issued ++ step.issued).Nodup) :
    (host.after step).SoundWithin (issued ++ step.issued) ∧ host.Grows (host.after step) := by
  have hmore := h.mono (List.subset_append_left issued step.issued)
  cases step with
  | openStore => exact ⟨soundWithin_openStore hmore, grows_openStore host .empty⟩
  | openShared session =>
    refine ⟨fun index store hstore => ?_, grows_openShared host session⟩
    rw [after, stores_openShared] at hstore
    exact hmore index store hstore
  | use session operation =>
    rw [after]
    cases hrun : host.run session operation.action with
    | none => exact ⟨hmore, .refl host⟩
    | some result =>
      obtain ⟨outcome, next⟩ := result
      obtain ⟨index, isOpen, store, final, hsession, hstore, hexec, rfl⟩ :=
        exists_of_run_eq_some hrun
      have sound := h index store hstore
      have hreaches : store.Reaches operation.issued final.store :=
        Session.Operation.reaches sound.checked hexec
      exact ⟨soundWithin_put hmore (hreaches.soundWithin sound fresh),
        grows_put hsession hstore (hreaches.extends sound.checked)⟩

/-- **Along a run, all stores stay sound and nothing is lost**, if no identifier
is issued twice. -/
theorem soundWithin_and_grows_afterAll {steps : List Step} (h : host.SoundWithin issued)
    (fresh : (issued ++ steps.flatMap Step.issued).Nodup) :
    (host.afterAll steps).SoundWithin (issued ++ steps.flatMap Step.issued) ∧
      host.Grows (host.afterAll steps) := by
  induction steps generalizing host issued with
  | nil =>
    rw [List.flatMap_nil, List.append_nil]
    exact ⟨h, .refl host⟩
  | cons step rest ih =>
    rw [List.flatMap_cons, ← List.append_assoc] at fresh ⊢
    obtain ⟨hsound, hgrows⟩ := soundWithin_and_grows_after h step (List.nodup_append.1 fresh).1
    obtain ⟨hsound', hgrows'⟩ := ih hsound fresh
    exact ⟨hsound', hgrows.trans hgrows'⟩

/-- Every store of a host stays sound while the ids it is issued are fresh. -/
theorem soundWithin_afterAll {steps : List Step} (fresh : (steps.flatMap Step.issued).Nodup) :
    (empty.afterAll steps).SoundWithin (steps.flatMap Step.issued) :=
  (soundWithin_and_grows_afterAll soundWithin_empty fresh).1

end Host

end RecordStore
