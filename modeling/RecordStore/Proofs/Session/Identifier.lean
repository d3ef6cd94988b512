import RecordStore.Proofs.Filter.Conjunction
import RecordStore.Proofs.ObjectId
import RecordStore.Proofs.Session.Reading
import RecordStore.Proofs.Store.Atomicity
import RecordStore.Proofs.Store.Soundness

/-!
# Reading by identifier

A text key is put to a repository in five ways: by itself, in a list of keys, in
a filter on `id`, and as a request, bare or as a document. By itself, and as a
bare request, it goes through the index of the collection; otherwise the records
are tested one by one. Nor is it converted alike: a malformed text is passed over
as a key, but stays a text in a filter, where it equals no identifier.

All of them come to the records whose identifier the key spells
(`RecordStore.Collection.spelled`), which is one record at most, and its public
identifier is the key in lower case
(`RecordStore.Repository.readsAlike_of_bind`). The index enters by its being
right about every record, which is part of the soundness of a collection.
-/

namespace RecordStore

/-- Entities of any type, with texts as their keys. -/
abbrev EntityType.textKeyed {Entity Properties : Type} (id : Entity → String)
    (write : Properties → Outcome Value) (read : Document → Outcome Entity) : EntityType where
  Entity := Entity
  Key := String
  key := inferInstance
  Properties := Properties
  id := id
  write := write
  read := read

/-- The records whose identifier a text spells, in either case. -/
def Collection.spelled (collection : Collection) (key : String) : List Document :=
  collection.records.filter fun record => record.identifier?.map ObjectId.text = some key.toLower

/-- Whether a predicate selects the record whose identifier a text spells. -/
def Predicate.AsksFor (predicate : Predicate) (key : String) : Prop :=
  ∀ record id, record.identifier? = some id →
    (predicate.holds record = true ↔ key.toLower = id.text)

/-! ### The records of a key -/

section Records

variable {collection : Collection} (sound : collection.Sound) (key : String)
include sound

/-- **A predicate that asks for a key selects the records whose identifier it
spells.** -/
theorem Collection.Sound.matching_of_asksFor {predicate : Predicate}
    (asks : predicate.AsksFor key) : collection.matching predicate = collection.spelled key := by
  refine List.filter_congr fun record hrecord => ?_
  obtain ⟨id, hid⟩ := exists_identifier?_of_shaped (sound.shaped record hrecord)
  rw [Bool.eq_iff_iff, asks record id hid, hid, Option.map_some, decide_eq_true_eq,
    Option.some_inj, eq_comm]

/-- **The index leads to the records whose identifier a key spells.** -/
theorem Collection.Sound.toList_recordOf?_ofText? :
    ((ObjectId.ofText? key).bind collection.recordOf?).toList = collection.spelled key := by
  cases hkey : ObjectId.ofText? key with
  | none =>
    rw [Option.bind_none, Option.toList_none, spelled, eq_comm, List.filter_eq_nil_iff]
    intro record _ h
    obtain ⟨id, -, hid⟩ := Option.map_eq_some_iff.1 (of_decide_eq_true h)
    rw [ObjectId.ofText?_eq_some_iff.2 hid.symm] at hkey
    cases hkey
  | some id =>
    rw [Option.bind_some, ← sound.filter_identifier? id, spelled]
    refine List.filter_congr fun record hrecord => ?_
    obtain ⟨own, hown⟩ := exists_identifier?_of_shaped (sound.shaped record hrecord)
    -- two identifiers that the key spells are equal
    have hspelled : own = id ↔ own.text = key.toLower := by
      rw [eq_comm (a := own.text), ← ObjectId.ofText?_eq_some_iff, hkey, Option.some_inj, eq_comm]
    rw [hown, Option.map_some, decide_eq_decide, Option.some_inj, Option.some_inj, hspelled]

end Records

/-! ### The predicates of a key -/

theorem Document.read_nativeId {record : Document} {id : ObjectId}
    (h : record.identifier? = some id) : record.read FieldName.nativeId = .objectId id := by
  rw [read, Document.identifier?_eq_some_iff.1 h, Option.getD_some]

theorem Value.equivalent_objectId (a b : ObjectId) :
    (Value.objectId a).equivalent (.objectId b) = decide (a = b) := rfl

/-- The predicate of one key asks for the records that the key spells. -/
theorem Predicate.asksFor_identifiedBy (key : String) :
    (identifiedBy ([key].filterMap EntityKey.toNative?)).AsksFor key := by
  intro record id hid
  have hnative : EntityKey.toNative? key = (ObjectId.ofText? key).map Value.objectId := rfl
  rw [holds_identifiedBy, Document.read_nativeId hid, ← ObjectId.ofText?_eq_some_iff,
    List.filterMap_cons, hnative]
  cases ObjectId.ofText? key with
  | none => exact iff_of_false Bool.false_ne_true (by simp)
  | some other =>
    show ([Value.objectId other].any fun member => member.equivalent (.objectId id)) = true ↔ _
    rw [List.any_cons, List.any_nil, Bool.or_false, Value.equivalent_objectId, decide_eq_true_eq,
      Option.some_inj]

/-- On `id`, a key that spells no identifier stays a text, and equals none. -/
theorem Filter.asksFor_lower (key : String) :
    ∃ predicate, (alone FieldName.publicId (.equals (.string key))).lower = .ok predicate ∧
      predicate.AsksFor key := by
  have htop : FieldName.isTopLevel FieldName.publicId = true := by decide
  refine ⟨_, lower_alone.2 ⟨⟨htop, _, rfl⟩, rfl⟩, fun record id hid => ?_⟩
  have hclause : (Condition.equals (.string key)).clause? FieldName.nativeId
      = some (.equals (((ObjectId.ofText? key).map .objectId).getD (.string key))) := rfl
  rw [holds_addClause_empty, native_publicId, hclause, Document.read_nativeId hid,
    ← ObjectId.ofText?_eq_some_iff]
  simp only [Option.some_inj, forall_eq']
  cases ObjectId.ofText? key with
  | none => exact iff_of_false Bool.false_ne_true (by simp)
  | some other =>
    rw [Option.map_some, Option.getD_some]
    show (Value.equivalent (.objectId id) (.objectId other)) = true ↔ _
    rw [Value.equivalent_objectId, decide_eq_true_eq, Option.some_inj, eq_comm]

/-! ### The identifier of an entity -/

/-- **The public identifier of a record is the key that spells it**, in lower
case. -/
theorem Collection.exists_publicAttributes_of_spelled {collection : Collection} {key : String}
    {record : Document} (h : record ∈ collection.spelled key) :
    ∃ attributes, record.publicAttributes String = .ok attributes ∧
      attributes.get? FieldName.publicId = some (.string key.toLower) := by
  obtain ⟨id, hid, hkey⟩ := Option.map_eq_some_iff.1 (of_decide_eq_true (List.mem_filter.1 h).2)
  rw [Document.publicAttributes, Document.identifier?_eq_some_iff.1 hid, ← hkey]
  exact ⟨_, rfl, Entries.get?_insert_self _ _ _⟩

/-- No checked schema declares the public name of the identifier, so casting leaves a key as it
is. -/
theorem Schema.kindOf?_publicId {schema : Schema} (checked : schema.check = .ok ()) :
    schema.kindOf? FieldName.publicId = none := by
  have hfield : schema.field? FieldName.publicId = none := by
    refine List.find?_eq_none.2 fun field hfield hname => ?_
    refine not_mem_names_of_reserved checked (by decide) (?_ : FieldName.publicId ∈ schema.names)
    rw [← of_decide_eq_true hname]
    exact mem_names hfield
  rw [kindOf?, hfield, if_neg (by decide)]
  rfl

namespace Repository

/-! ### Repositories in use -/

/-- A repository that was bound bound its model in the store. -/
theorem exec_bindModel_of_bind {type : EntityType} {repository : Repository type}
    {session next : Session MemoryStore} (bound : repository.bind.exec session = (.ok (), next)) :
    (MemoryStore.bindModel repository.collection repository.schema).exec session.store
      = (.ok (), next.store) := by
  cases isOpen : session.isOpen with
  | false =>
    rw [bind, Session.exec_whileOpen_of_closed isOpen] at bound
    exact absurd (congrArg Prod.fst bound) (by simp)
  | true =>
    rw [bind, Session.exec_whileOpen_of_open isOpen, Session.exec_onStore] at bound
    obtain ⟨houtcome, rfl⟩ := Prod.mk.inj bound
    exact Prod.ext houtcome rfl

/-- **A repository that was bound has a sound collection with its schema**,
whatever was called before and is called later. -/
theorem exists_sound_of_bind {type : EntityType} {repository : Repository type}
    {earlier later : List MemoryStore.Call} {atBind : Session MemoryStore}
    (fresh : ((earlier ++ later).flatMap MemoryStore.Call.issued).Nodup)
    (bound : repository.bind.exec (.start (MemoryStore.empty.afterAll earlier))
      = (.ok (), atBind)) :
    ∃ collection, (atBind.store.afterAll later).bound? repository.collection = some collection ∧
      collection.schema = repository.schema ∧ collection.Sound := by
  obtain ⟨checked, -, hstore⟩ := MemoryStore.eq_set_of_bindModel (exec_bindModel_of_bind bound)
  rw [List.flatMap_append] at fresh
  have hsound : atBind.store.SoundWithin (earlier.flatMap MemoryStore.Call.issued) := by
    rw [hstore]
    exact (MemoryStore.soundWithin_afterAll (List.nodup_append.1 fresh).1).set _
      (Collection.sound_empty checked) (List.nil_subset _)
  obtain ⟨collection, found, hschema, -⟩ :=
    MemoryStore.extends_afterAll hsound.checked later repository.collection _
      (hstore ▸ MemoryStore.bound?_set_self _ _ _)
  exact ⟨collection, found, hschema, (hsound.afterAll fresh _ _ found).1⟩

/-! ### The ways of reading -/

variable {Entity Properties : Type} {id : Entity → String} {write : Properties → Outcome Value}
  {read : Document → Outcome Entity} {repository : Repository (.textKeyed id write read)}

/-- Whether every way of reading by a key comes to the same outcome, and changes
nothing. -/
structure ReadsAlike (repository : Repository (.textKeyed id write read))
    (session : Session MemoryStore) (key : String) (outcome : Outcome (List Entity)) : Prop where
  byId : (Option.toList <$> repository.getById key).exec session = (outcome, session)
  byIds : (repository.getByIds [key]).exec session = (outcome, session)
  byFilter :
    (repository.getByFilter (.alone FieldName.publicId (.equals (.string key)))).exec session
      = (outcome, session)
  /-- The key arrives as a request. -/
  byText : (Fetched.toList <$> repository.getDynamic (some (.string key))).exec session
    = (outcome, session)
  /-- The key arrives under the public name of the identifier. -/
  byDocument : (Fetched.toList <$> repository.getDynamic
      (some (.document [(FieldName.publicId, .string key)]))).exec session = (outcome, session)

/-- Where identifiers are distinct, the entity of a key is the only one that the key spells. -/
theorem toList_entityOf {collection : Collection} (sound : collection.Sound) (key : String) :
    Option.toList <$> (entityOf collection key : Outcome (Option (EntityType.textKeyed id write
        read).Entity))
      = EntityType.ofRecords (.textKeyed id write read) (collection.spelled key) := by
  have hnamed : (EntityKey.toNative? key).bind collection.named?
      = (ObjectId.ofText? key).bind collection.recordOf? := by
    show ((ObjectId.ofText? key).map Value.objectId).bind collection.named? = _
    cases ObjectId.ofText? key <;> rfl
  rw [← sound.toList_recordOf?_ofText? key, ← hnamed, entityOf]
  cases (EntityKey.toNative? key).bind collection.named? with
  | none => rfl
  | some record =>
    rw [Option.toList_some, EntityType.ofRecords, List.mapM_cons, List.mapM_nil]
    dsimp only
    cases EntityType.ofRecord (.textKeyed id write read) record <;> rfl

/-- A bare text is asked for as a key. -/
theorem getDynamic_text (key : String) :
    (repository.getDynamic (some (.string key)) : Action (Session MemoryStore) _)
      = repository.get (.byId key) := rfl

/-- A document with a key under the public name asks for what the filter on this name asks for.
-/
theorem getDynamic_document (checked : repository.schema.check = .ok ()) (key : String) :
    (repository.getDynamic (some (.document [(FieldName.publicId, .string key)]))
        : Action (Session MemoryStore) _)
      = repository.get (.byFilter (.alone FieldName.publicId (.equals (.string key)))) := by
  have htop : FieldName.isTopLevel FieldName.publicId = true := by decide
  have hfilter : Filter.ofDocument [(FieldName.publicId, .string key)]
      = .ok (.alone FieldName.publicId (.equals (.string key))) := by
    rw [Filter.ofDocument, List.foldlM_cons, Filter.requireSpelled,
      FieldName.check_eq_ok_iff.2 htop, Outcome.ok_bind]
    rfl
  have hread : (Lookup.ofValue? (some (.document [(FieldName.publicId, .string key)]))
      : Outcome (Lookup String))
        = .ok (.byFilter (.alone FieldName.publicId (.equals (.string key)))) := by
    rw [Lookup.ofValue?, Option.getD_some, Lookup.ofValue, hfilter]
    rfl
  have hentry :
      Filter.castEntry repository.schema .empty (FieldName.publicId, .equals (.string key))
        = .ok (.alone FieldName.publicId (.equals (.string key))) := by
    rw [Filter.castEntry, Condition.cast, Schema.kindOf?_publicId checked]
    rfl
  have hcast : (Filter.alone FieldName.publicId (.equals (.string key))).cast repository.schema
      = .ok (.alone FieldName.publicId (.equals (.string key))) := by
    show Filter.castEntry repository.schema .empty _ >>= _ = _
    rw [hentry]
    rfl
  rw [getDynamic, hread]
  show Action.ofOutcome (.byFilter <$> Filter.cast _ _) >>= repository.get = _
  rw [hcast]
  rfl

/-- **All ways of reading by a key agree**, in an open session over any store
that a repository with text keys was bound in. They come to the entities of the
records whose identifier the key spells, or to what keeps such a record from
becoming an entity. There is one such record at most, and its public identifier
is the key in lower case. -/
theorem readsAlike_of_bind {earlier later : List MemoryStore.Call}
    {atBind session : Session MemoryStore}
    (fresh : ((earlier ++ later).flatMap MemoryStore.Call.issued).Nodup)
    (bound : repository.bind.exec (.start (MemoryStore.empty.afterAll earlier)) = (.ok (), atBind))
    (reached : session.store = atBind.store.afterAll later) (isOpen : session.isOpen = true)
    (key : String) :
    ∃ collection, session.store.bound? repository.collection = some collection ∧
      repository.ReadsAlike session key
        (EntityType.ofRecords (.textKeyed id write read) (collection.spelled key)) ∧
      (collection.spelled key).length ≤ 1 ∧
      ∀ record ∈ collection.spelled key, ∃ attributes,
        record.publicAttributes String = .ok attributes ∧
          attributes.get? FieldName.publicId = some (.string key.toLower) := by
  obtain ⟨collection, found, hschema, sound⟩ := exists_sound_of_bind fresh bound
  rw [← reached] at found
  have hone : (Option.toList <$> repository.getById key).exec session
      = (EntityType.ofRecords (.textKeyed id write read) (collection.spelled key), session) := by
    rw [Action.exec_map, exec_getById isOpen found, ← toList_entityOf sound]
    rfl
  have hfilter : (repository.getByFilter
      (.alone FieldName.publicId (.equals (.string key)))).exec session
        = (EntityType.ofRecords (.textKeyed id write read) (collection.spelled key), session) := by
    obtain ⟨predicate, hlower, asks⟩ := Filter.asksFor_lower key
    rw [exec_getByFilter isOpen found, hlower, Outcome.ok_bind, sound.matching_of_asksFor key asks]
  refine ⟨collection, found, ?_, ?_, fun record h =>
    Collection.exists_publicAttributes_of_spelled h⟩
  · constructor
    case byId => exact hone
    case byIds =>
      rw [exec_getByIds isOpen found, sound.matching_of_asksFor key
        (Predicate.asksFor_identifiedBy key)]
    case byFilter => exact hfilter
    case byText =>
      rw [getDynamic_text, get, Functor.map_map]
      exact hone
    case byDocument =>
      rw [getDynamic_document (hschema ▸ sound.checked), get, Functor.map_map, Action.exec_map,
        hfilter]
      cases EntityType.ofRecords (.textKeyed id write read) (collection.spelled key) <;> rfl
  · rw [← sound.toList_recordOf?_ofText? key]
    exact Option.length_toList_le

/-- A repository of people. -/
def people : Repository (.dynamic String) :=
  ⟨"people", ⟨[⟨"name", .string, true⟩]⟩, .standard⟩

/-- A call that stores one person. -/
def onePerson : MemoryStore.Call :=
  .insertOne "people" ⟨.ofParts 0 171, .ofMillis 1700000000000⟩ [("name", .string "a")]

/-- A session in which a repository of people was bound and one person stored. -/
def withOnePerson : Session MemoryStore :=
  .start (MemoryStore.empty.afterAll [.bindModel people.collection people.schema, onePerson])

/-- One person is read by an identifier in upper case, and nobody by a malformed
one. -/
theorem readsAlike_onePerson :
    ∃ person,
      ReadsAlike people withOnePerson "0000000000000000000000AB" (.ok [person]) ∧
      Entries.get? person FieldName.publicId = some (.string "0000000000000000000000ab") ∧
      ReadsAlike people withOnePerson "AB" (.ok []) := by
  have fresh : (([] ++ [onePerson]).flatMap MemoryStore.Call.issued).Nodup := by decide
  have bound : people.bind.exec (.start (MemoryStore.empty.afterAll [])) = (.ok (),
    .start (MemoryStore.empty.afterAll [.bindModel people.collection people.schema])) := rfl
  have isOpen : withOnePerson.isOpen = true := rfl
  have reads := readsAlike_of_bind fresh bound rfl isOpen
  obtain ⟨collection, found, hupper, -, -⟩ := reads "0000000000000000000000AB"
  obtain ⟨_, found', hmalformed, -, -⟩ := reads "AB"
  obtain rfl := Option.some.inj (found.symm.trans found')
  obtain ⟨_, found', -, sound⟩ := exists_sound_of_bind fresh bound
  obtain rfl := Option.some.inj (found.symm.trans found')
  rw [← sound.toList_recordOf?_ofText?] at hupper hmalformed
  obtain rfl := Option.some.inj (found.symm.trans rfl)
  exact ⟨_, hupper, rfl, hmalformed⟩

end Repository

end RecordStore
