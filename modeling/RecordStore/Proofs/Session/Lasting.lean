import RecordStore.Proofs.Session.Runs

/-!
# What was created stays

An entity that was created can be read by its identifier from then on, as it was
when it was created: whatever is done in the meantime, through whichever session,
its record stays at its place, and stays the only one under its identifier
(`RecordStore.Host.lasting`).

Two facts of a type are needed for this, which
`RecordStore.EntityType.Identified` puts together: an entity reports the key that
its attributes hold, and a key leads back to the identifier that it was read off.
Both families of types have them.
-/

namespace RecordStore

/-! ### Types that report their keys -/

/-- A type of keys that are carried to entities and back without loss. -/
class EntityKey.Lawful (κ : Type) [EntityKey κ] : Prop where
  /-- A key leads back to the identifier that it was read off. -/
  toNative?_of_ofNative : ∀ (id : ObjectId) (key : κ), ofNative (.objectId id) = .ok key →
    toNative? key = some (.objectId id)
  /-- A key is read off the value that carries it, also where spelled values were
  replaced. -/
  ofNative_unspell_toValue : ∀ key : κ, ofNative (Forms.extended.unspell (toValue key)) = .ok key

instance : EntityKey.Lawful String where
  toNative?_of_ofNative id _ h := by
    rw [← Except.ok.inj h]
    exact congrArg (Option.map Value.objectId) (ObjectId.ofText?_text id)
  ofNative_unspell_toValue _ := rfl

instance : EntityKey.Lawful ObjectId where
  toNative?_of_ofNative _ _ h := congrArg (some ∘ Value.objectId) (Except.ok.inj h).symm
  ofNative_unspell_toValue _ := rfl

namespace EntityType

/-- What makes the entities of a type findable by their keys. -/
structure Identified (type : EntityType) : Prop where
  /-- A key leads back to the identifier that it was read off. -/
  returns : ∀ (id : ObjectId) (key : type.Key), EntityKey.ofNative (.objectId id) = .ok key →
    EntityKey.toNative? key = some (.objectId id)
  /-- An entity reports the key that its attributes hold. -/
  reports : ∀ (attributes : Document) (entity : type.Entity) (key : type.Key),
    attributes.get? FieldName.publicId = some (EntityKey.toValue key) →
      type.read attributes = .ok entity → type.id entity = key

/-- The key of a document is the one read off its public identifier. -/
theorem keyOf_eq {κ : Type} [EntityKey κ] [Inhabited κ] {document : Document} {value : Value}
    {key : κ} (hvalue : document.get? FieldName.publicId = some value)
    (hkey : EntityKey.ofNative value = .ok key) : keyOf document = key := by
  rw [keyOf, Document.read, hvalue, Option.getD_some, hkey]
  rfl

/-- **Entities that keep every attribute report their identifier**: a key is no document, so
nothing takes its place when spelled values do. -/
theorem identified_dynamic (κ : Type) [EntityKey κ] [EntityKey.Lawful κ] [Inhabited κ] :
    (dynamic κ).Identified where
  returns := EntityKey.Lawful.toNative?_of_ofNative (κ := κ)
  reports attributes entity key hkey hread := by
    obtain rfl := Except.ok.inj hread
    refine keyOf_eq (κ := κ) ?_ (EntityKey.Lawful.ofNative_unspell_toValue (κ := κ) key)
    rw [Forms.unspellEntries_eq_map, Entries.get?_map, hkey]
    rfl

/-- **Entities with declared attributes report their identifier**, which is among those of every
entity. -/
theorem identified_declared (properties : List (String × AttributeType)) :
    (declared properties).Identified where
  returns := EntityKey.Lawful.toNative?_of_ofNative (κ := String)
  reports attributes entity key hkey hread := by
    -- the public identifier is the first attribute that is read
    have hfirst : readAttribute attributes (FieldName.publicId, .text)
        = .ok (FieldName.publicId, .string key) := by
      rw [readAttribute, hkey]
      rfl
    obtain ⟨first, rest, hfirst', -, rfl⟩ :=
      List.forall₂_cons_left_iff.1 (Outcome.mapM_eq_ok_iff.1 hread)
    obtain rfl := Except.ok.inj (hfirst.symm.trans hfirst')
    have hvalue : Entries.get? ((FieldName.publicId, Value.string key) :: rest) FieldName.publicId
        = some (.string key) := rfl
    exact keyOf_eq (κ := String) hvalue rfl

end EntityType

namespace Document

/-- The public attributes of a record have its identifier as a key. -/
theorem exists_key_of_publicAttributes {κ : Type} [EntityKey κ] {record attributes : Document}
    {id : ObjectId} (hid : record.identifier? = some id)
    (h : record.publicAttributes κ = .ok attributes) :
    ∃ key : κ, EntityKey.ofNative (.objectId id) = .ok key ∧
      attributes.get? FieldName.publicId = some (EntityKey.toValue key) := by
  rw [publicAttributes, identifier?_eq_some_iff.1 hid] at h
  dsimp only at h
  cases hkey : (EntityKey.ofNative (.objectId id) : Except DocumentCause κ) with
  | error cause =>
    rw [hkey] at h
    cases h
  | ok key =>
    rw [hkey] at h
    refine ⟨key, rfl, ?_⟩
    rw [← Except.ok.inj h]
    exact Entries.get?_insert_self _ _ _

end Document

namespace Repository

variable {type : EntityType}

/-- **The entity of a record is found by its own key**, in a sound collection. -/
theorem entityOf_id (identified : type.Identified) {collection : Collection}
    (sound : collection.Sound) {record : Document} (hrecord : record ∈ collection.records)
    {entity : type.Entity} (h : type.ofRecord record = .ok entity) :
    entityOf collection (type.id entity) = .ok (some entity) := by
  obtain ⟨id, hid, hfound⟩ := sound.exists_recordOf? hrecord
  obtain ⟨attributes, hattributes, hread⟩ := Outcome.bind_eq_ok_iff.1 h
  obtain ⟨key, hkey, hpublic⟩ := Document.exists_key_of_publicAttributes hid hattributes
  have hnamed : (EntityKey.toNative? (type.id entity)).bind collection.named? = some record := by
    rw [identified.reports attributes entity key hpublic hread, identified.returns id key hkey]
    exact hfound
  rw [entityOf, hnamed]
  dsimp only
  rw [h]
  rfl

end Repository

/-! ### The records of a collection -/

namespace MemoryStore

variable {store later : MemoryStore} {name : String}

/-- The records of a collection; there are none if it is not bound. -/
def recordsOf (store : MemoryStore) (name : String) : List Document :=
  ((store.bound? name).map Collection.records).getD []

theorem recordsOf_of_bound {collection : Collection}
    (found : store.bound? name = some collection) : store.recordsOf name = collection.records := by
  rw [recordsOf, found]
  rfl

/-- The records of a collection remain the first ones when a store is extended. -/
theorem Extends.recordsOf_prefix (h : store.Extends later) (name : String) :
    store.recordsOf name <+: later.recordsOf name := by
  cases found : store.bound? name with
  | none =>
    rw [recordsOf, found]
    exact List.nil_prefix
  | some collection =>
    obtain ⟨grown, hgrown, -, hrecords⟩ := h name collection found
    rw [recordsOf_of_bound found, recordsOf_of_bound hgrown]
    exact hrecords

end MemoryStore

/-- The records from which the created entities were read are the last ones. -/
theorem Creation.Effect.exists_made {type : EntityType} {repository : Repository type}
    {session next : Session MemoryStore} {creation : Creation type}
    {outcome : Outcome (List type.Entity)}
    (h : Creation.Effect repository session creation outcome next) {entities : List type.Entity}
    (created : outcome = .ok entities) :
    ∃ made, type.ofRecords made = .ok entities ∧
      next.store.recordsOf repository.collection
        = session.store.recordsOf repository.collection ++ made := by
  cases h with
  | refused => cases created
  | nothing _ =>
    obtain rfl := Except.ok.inj created
    exact ⟨[], rfl, (List.append_nil _).symm⟩
  | @stored _ collection grown records _ _ found _ pushed =>
    refine ⟨records, created, ?_⟩
    rw [MemoryStore.recordsOf_of_bound found,
      MemoryStore.recordsOf_of_bound (MemoryStore.bound?_set_self _ _ grown),
      (Collection.schema_and_records_of_pushAll pushed).2]

namespace Host

variable {host later : Host MemoryStore} {issued : List ObjectId} {index : Nat} {name : String}

/-- The records of a collection of one of the stores. -/
def recordsOf (host : Host MemoryStore) (index : Nat) (name : String) : List Document :=
  ((host.stores[index]?).map fun store => store.recordsOf name).getD []

theorem recordsOf_of_eq_some {store : MemoryStore} (h : host.stores[index]? = some store)
    (name : String) : host.recordsOf index name = store.recordsOf name := by
  rw [recordsOf, h]
  rfl

/-- The records of a collection remain the first ones when a host grows. -/
theorem Grows.recordsOf_prefix (h : host.Grows later) (index : Nat) (name : String) :
    host.recordsOf index name <+: later.recordsOf index name := by
  cases hstore : host.stores[index]? with
  | none =>
    rw [recordsOf, hstore]
    exact List.nil_prefix
  | some store =>
    obtain ⟨grown, hgrown, hextends⟩ := h.stores index store hstore
    rw [recordsOf_of_eq_some hstore, recordsOf_of_eq_some hgrown]
    exact hextends.recordsOf_prefix name

/-- A record lies in a sound collection. -/
theorem SoundWithin.exists_sound (h : host.SoundWithin issued) {record : Document}
    (hrecord : record ∈ host.recordsOf index name) :
    ∃ store collection, host.stores[index]? = some store ∧ store.bound? name = some collection ∧
      collection.Sound ∧ host.recordsOf index name = collection.records := by
  cases hstore : host.stores[index]? with
  | none =>
    rw [recordsOf, hstore] at hrecord
    exact absurd hrecord List.not_mem_nil
  | some store =>
    rw [recordsOf_of_eq_some hstore] at hrecord ⊢
    cases found : store.bound? name with
    | none =>
      rw [MemoryStore.recordsOf, found] at hrecord
      exact absurd hrecord List.not_mem_nil
    | some collection =>
      exact ⟨store, collection, rfl, found, (h index store hstore name collection found).1,
        MemoryStore.recordsOf_of_bound found⟩

/-- A record is the only one under its identifier. -/
theorem SoundWithin.exists_filter_eq_singleton (h : host.SoundWithin issued) {record : Document}
    (hrecord : record ∈ host.recordsOf index name) :
    ∃ id, record.identifier? = some id ∧
      (host.recordsOf index name).filter (fun other => other.identifier? = some id) = [record] := by
  obtain ⟨store, collection, -, -, sound, heq⟩ := h.exists_sound hrecord
  rw [heq] at hrecord ⊢
  obtain ⟨id, hid, -⟩ := sound.exists_recordOf? hrecord
  exact ⟨id, hid, Collection.filter_identifier?_eq_singleton sound.distinct hrecord hid⟩

/-! ### Reading by key -/

/-- Writing what is there already changes nothing. -/
theorem setIfInBounds_eq_self {α : Type} {items : Array α} {i : Nat} {item : α}
    (h : items[i]? = some item) : items.setIfInBounds i item = items := by
  refine Array.ext_getElem? fun j => ?_
  rw [Array.getElem?_setIfInBounds]
  split
  · rename_i hij
    rw [if_pos (Array.getElem?_eq_some_iff.1 h).1, ← hij, h]
  · rfl

/-- A session that is put back as it was changes nothing. -/
theorem put_eq_self {session : Nat} {isOpen : Bool} {store : MemoryStore}
    (hsession : host.sessions[session]? = some (index, isOpen))
    (hstore : host.stores[index]? = some store) :
    host.put session index ⟨store, isOpen⟩ = host := by
  rw [put, setIfInBounds_eq_self hsession, setIfInBounds_eq_self hstore]

/-- **The entity of a record is read by its own key**, through any open session
over the store. -/
theorem SoundWithin.run_getById {type : EntityType} (h : host.SoundWithin issued)
    (identified : type.Identified) {repository : Repository type} {session : Nat}
    (hsession : host.sessions[session]? = some (index, true)) {record : Document}
    (hrecord : record ∈ host.recordsOf index repository.collection) {entity : type.Entity}
    (hread : type.ofRecord record = .ok entity) :
    host.run session (repository.getById (type.id entity)) = some (.ok (some entity), host) := by
  obtain ⟨store, collection, hstore, found, sound, heq⟩ := h.exists_sound hrecord
  have isOpen : (⟨store, true⟩ : Session MemoryStore).isOpen = true := rfl
  rw [run_of_eq_some hsession hstore, Repository.exec_getById isOpen found,
    put_eq_self hsession hstore, Repository.entityOf_id identified sound (heq ▸ hrecord) hread]

/-! ### Creating -/

/-- The records from which the created entities were read are the last ones. -/
theorem SoundWithin.exists_made {type : EntityType} (h : host.SoundWithin issued)
    {repository : Repository type} {creation : Creation type} {entities : List type.Entity}
    {session : Nat}
    (created : host.run session (creation.action repository) = some (.ok entities, later)) :
    ∃ index isOpen made, host.sessions[session]? = some (index, isOpen) ∧
      type.ofRecords made = .ok entities ∧
      later.recordsOf index repository.collection
        = host.recordsOf index repository.collection ++ made := by
  obtain ⟨index, isOpen, store, final, hsession, hstore, hexec, rfl⟩ :=
    exists_of_run_eq_some created
  have hfinal : (host.put session index final).stores[index]? = some final.store := by
    rw [put, Array.getElem?_setIfInBounds, if_pos rfl,
      if_pos (Array.getElem?_eq_some_iff.1 hstore).1]
  obtain ⟨made, hmade, hrecords⟩ :=
    (Creation.effect_of_exec (h index store hstore).checked hexec).exists_made rfl
  refine ⟨index, isOpen, made, hsession, hmade, ?_⟩
  rw [recordsOf_of_eq_some hfinal, recordsOf_of_eq_some hstore, hrecords]

/-- An operation that creates leaves the host that it ran to. -/
theorem after_create {type : EntityType} {repository : Repository type}
    {creation : Creation type} {session : Nat} {outcome : Outcome (List type.Entity)}
    (created : host.run session (creation.action repository) = some (outcome, later)) :
    host.after (.use session (.create repository creation)) = later := by
  obtain ⟨index, isOpen, store, final, hsession, hstore, hexec, rfl⟩ :=
    exists_of_run_eq_some created
  rw [after, run_of_eq_some hsession hstore, Session.Operation.action, Action.exec_map, hexec]
  rfl

/-! ### Every later point -/

/-- **What was created stays.** A creation that succeeded stored the records from
which its entities were read, behind all records that its collection had. At the
end of any run that follows, these records stand where they stood, with those
stored since behind them, and each is the only one under its identifier. Every
session over the same store that is open then, the one that created the entities
among them, reads each entity by its key, as it was returned. -/
theorem lasting {type : EntityType} (identified : type.Identified) {repository : Repository type}
    {creation : Creation type} {entities : List type.Entity} {earlier later : List Step}
    {session : Nat} {next : Host MemoryStore}
    (fresh : (earlier.flatMap Step.issued ++ creation.issued ++ later.flatMap Step.issued).Nodup)
    (created : (empty.afterAll earlier).run session (creation.action repository)
      = some (.ok entities, next)) :
    ∃ index isOpen made newer,
      (next.afterAll later).sessions[session]? = some (index, isOpen) ∧
      type.ofRecords made = .ok entities ∧
      (next.afterAll later).recordsOf index repository.collection
        = (empty.afterAll earlier).recordsOf index repository.collection ++ made ++ newer ∧
      (∀ record ∈ made, ∃ id, record.identifier? = some id ∧
        ((next.afterAll later).recordsOf index repository.collection).filter
          (fun other => other.identifier? = some id) = [record]) ∧
      ∀ reader, (next.afterAll later).sessions[reader]? = some (index, true) →
        ∀ reading : Repository type, reading.collection = repository.collection →
          ∀ entity ∈ entities, (next.afterAll later).run reader (reading.getById (type.id entity))
            = some (.ok (some entity), next.afterAll later) := by
  have freshNext := (List.nodup_append.1 fresh).1
  have sound := soundWithin_afterAll (List.nodup_append.1 freshNext).1
  obtain ⟨index, isOpen, made, hsession, hmade, hrecords⟩ := sound.exists_made created
  -- the creation is a step of the run, between the earlier ones and the later ones
  obtain ⟨soundNext, growsNext⟩ := soundWithin_and_grows_after sound
    (.use session (.create repository creation)) freshNext
  rw [after_create created] at soundNext growsNext
  obtain ⟨soundLast, growsLast⟩ := soundWithin_and_grows_afterAll soundNext fresh
  obtain ⟨_, hlast⟩ := (growsNext.trans growsLast).sessions session index isOpen hsession
  obtain ⟨newer, hnewer⟩ := growsLast.recordsOf_prefix index repository.collection
  have hmem : ∀ record ∈ made,
      record ∈ (next.afterAll later).recordsOf index repository.collection := by
    intro record hrecord
    rw [← hnewer, hrecords]
    exact List.mem_append_left _ (List.mem_append_right _ hrecord)
  refine ⟨index, _, made, newer, hlast, hmade, ?_, fun record hrecord => ?_,
    fun reader hreader reading hreading entity hentity => ?_⟩
  · rw [← hnewer, hrecords]
  · exact soundLast.exists_filter_eq_singleton (hmem record hrecord)
  · obtain ⟨record, hrecord, hread⟩ := Outcome.exists_of_mem_mapM hmade hentity
    exact soundLast.run_getById identified hreader (hreading ▸ hmem record hrecord) hread

/-- Entities that have a text. -/
abbrev Note : EntityType := .declared [("text", .text)]

/-- A repository of notes. -/
def notes : Repository Note := ⟨"notes", ⟨[⟨"text", .string, true⟩]⟩, .standard⟩

/-- A note to create, under the identifier of a number. -/
def note (number : Nat) (text : String) : Stamp × Document :=
  (⟨.ofParts 0 number, .ofMillis 1700000000000⟩, [("text", .string text)])

/-- Two notes to create at once. -/
def twoNotes : Creation Note := .many [note 1 "b", note 2 "c"]

/-- A run that creates one note. -/
def withNote : List Step :=
  [.openStore, .use 0 (.bind notes), .use 0 (.create notes (.many [note 0 "a"]))]

/-- A run that opens a second session, creates another note in it and closes the
first one. -/
def handedOn : List Step :=
  [.openShared 0, .use 1 (.create notes (.many [note 3 "d"])), .use 0 .close]

/-- Two notes are read through the second session when the first one is closed, and
lie between those that were created before and since. -/
theorem lasting_twoNotes :
    ∃ entities next, (empty.afterAll withNote).run 0 (twoNotes.action notes)
        = some (.ok entities, next) ∧
      entities.length = 2 ∧
      (∃ first made last, Note.ofRecords made = .ok entities ∧
        (next.afterAll handedOn).recordsOf 0 notes.collection = [first] ++ made ++ [last]) ∧
      (next.afterAll handedOn).sessions[0]? = some (0, false) ∧
      ∀ entity ∈ entities, (next.afterAll handedOn).run 1 (notes.getById (Note.id entity))
        = some (.ok (some entity), next.afterAll handedOn) := by
  have fresh : (withNote.flatMap Step.issued ++ twoNotes.issued ++
      handedOn.flatMap Step.issued).Nodup := by decide
  have created : ∃ entities next, (empty.afterAll withNote).run 0 (twoNotes.action notes)
        = some (.ok entities, next) ∧ entities.length = 2 ∧
      (next.afterAll handedOn).sessions[0]? = some (0, false) ∧
      (next.afterAll handedOn).sessions[1]? = some (0, true) ∧
      ((empty.afterAll withNote).recordsOf 0 notes.collection).length = 1 ∧
      ((next.afterAll handedOn).recordsOf 0 notes.collection).length = 4 :=
    ⟨_, _, rfl, rfl, rfl, rfl, rfl, rfl⟩
  obtain ⟨entities, next, created, htwo, hclosed, hopen, hbefore, hafter⟩ := created
  obtain ⟨index, isOpen, made, newer, hsession, hmade, hrecords, -, hread⟩ :=
    lasting (EntityType.identified_declared _) fresh created
  obtain ⟨rfl, -⟩ := Prod.mk.inj (Option.some.inj (hsession.symm.trans hclosed))
  refine ⟨entities, next, created, htwo, ?_, hclosed, hread 1 hopen notes rfl⟩
  have hlength := congrArg List.length hrecords
  rw [List.length_append, List.length_append, hbefore, hafter,
    (Outcome.mapM_eq_ok_iff.1 hmade).length_eq, htwo] at hlength
  obtain ⟨first, hfirst⟩ := List.length_eq_one_iff.1 hbefore
  obtain ⟨last, rfl⟩ := List.length_eq_one_iff.1 (by omega : newer.length = 1)
  exact ⟨first, made, last, hmade, hfirst ▸ hrecords⟩

end Host

end RecordStore
