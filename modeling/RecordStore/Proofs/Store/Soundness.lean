import RecordStore.Proofs.Store.Calls

/-!
# Soundness of a store in memory

A collection is sound (`RecordStore.Collection.Sound`) when its schema has
passed its check, its records have the shape that the schema asks for, no two of
them carry one identifier, and its index has every identifier at the place of
the record that carries it. The records and the index are written separately, so
the last point is an invariant of the two together: it is kept when a record is
added whose identifier is new (`RecordStore.Collection.Sound.push`), and would be
broken by one whose identifier is taken.

Identifiers are new as long as none is issued twice. Under this assumption every
collection of every store that calls reach is sound
(`RecordStore.MemoryStore.sound_of_bound?_afterAll`). The induction on the calls
carries along that a collection holds issued identifiers only.
-/

namespace RecordStore

namespace Collection

/-- The identifiers of the records, in order. -/
def identifiers (collection : Collection) : List ObjectId :=
  collection.records.filterMap Document.identifier?

/-- What a store in memory keeps true of each of its collections. -/
structure Sound (collection : Collection) : Prop where
  /-- The schema has passed its check. -/
  checked : collection.schema.check = .ok ()
  /-- Every record has the shape that the schema asks for. -/
  shaped : ∀ record ∈ collection.records, record.Shaped collection.schema
  /-- No two records carry one identifier. -/
  distinct : collection.identifiers.Nodup
  /-- The index has an identifier at a place exactly when the record at this
  place carries it. -/
  indexed : ∀ id position, collection.position? id = some position ↔
    ∃ record, collection.records[position]? = some record ∧ record.identifier? = some id

/-- An empty collection is sound under a checked schema. -/
theorem sound_empty {schema : Schema} (checked : schema.check = .ok ()) :
    (empty schema).Sound where
  checked := checked
  shaped _ h := absurd h List.not_mem_nil
  distinct := List.nodup_nil
  indexed id position := by simp [empty, position?]

variable {collection grown : Collection}

/-! ### Every record is found -/

/-- A record of the right shape has an identifier. -/
theorem exists_identifier?_of_shaped {schema : Schema} {record : Document}
    (h : record.Shaped schema) : ∃ id, record.identifier? = some id := by
  obtain ⟨id, hid⟩ := h.identified
  exact ⟨id, Document.identifier?_eq_some_iff.2 hid⟩

/-- **In a sound collection, an identifier leads to the record that carries
it.** -/
theorem Sound.recordOf?_eq_some_iff (sound : collection.Sound) {id : ObjectId}
    {record : Document} :
    collection.recordOf? id = some record ↔
      record ∈ collection.records ∧ record.identifier? = some id := by
  rw [recordOf?, Option.bind_eq_some_iff]
  constructor
  · rintro ⟨position, hposition, hrecord⟩
    obtain ⟨found, hfound, hid⟩ := (sound.indexed id position).1 hposition
    rw [hrecord] at hfound
    obtain rfl := Option.some.inj hfound
    exact ⟨List.mem_of_getElem? hrecord, hid⟩
  · rintro ⟨hmem, hid⟩
    obtain ⟨position, hposition⟩ := List.mem_iff_getElem?.1 hmem
    exact ⟨position, (sound.indexed id position).2 ⟨record, hposition, hid⟩, hposition⟩

/-- **Every record is found by its identifier.** -/
theorem Sound.exists_recordOf? (sound : collection.Sound) {record : Document}
    (h : record ∈ collection.records) :
    ∃ id, record.identifier? = some id ∧ collection.recordOf? id = some record := by
  obtain ⟨id, hid⟩ := exists_identifier?_of_shaped (sound.shaped record h)
  exact ⟨id, hid, sound.recordOf?_eq_some_iff.2 ⟨h, hid⟩⟩

/-- Where no two records carry one identifier, a record is the only one to carry
its own. -/
theorem filter_identifier?_eq_singleton {records : List Document}
    (distinct : (records.filterMap Document.identifier?).Nodup) {record : Document}
    {id : ObjectId} (hmem : record ∈ records) (hid : record.identifier? = some id) :
    records.filter (fun other => other.identifier? = some id) = [record] := by
  have hcarried : ∀ {records : List Document} {other : Document}, other ∈ records →
      other.identifier? = some id → id ∈ records.filterMap Document.identifier? :=
    fun hother h => List.mem_filterMap.2 ⟨_, hother, h⟩
  induction records with
  | nil => exact absurd hmem List.not_mem_nil
  | cons first rest ih =>
    rcases List.mem_cons.1 hmem with rfl | hrest
    · rw [List.filterMap_cons_some hid, List.nodup_cons] at distinct
      rw [List.filter_cons_of_pos (by simpa using hid), List.filter_eq_nil_iff.2]
      intro other hother h
      exact distinct.1 (hcarried hother (by simpa using h))
    · have hne : first.identifier? ≠ some id := fun h => by
        rw [List.filterMap_cons_some h, List.nodup_cons] at distinct
        exact distinct.1 (hcarried hrest hid)
      rw [List.filter_cons_of_neg (by simpa using hne)]
      exact ih (distinct.sublist ((List.sublist_cons_self first rest).filterMap _)) hrest

/-- **What is found by an identifier are all records with this identifier**, of which there is
at most one. -/
theorem Sound.filter_identifier? (sound : collection.Sound) (id : ObjectId) :
    collection.records.filter (fun record => record.identifier? = some id)
      = (collection.recordOf? id).toList := by
  cases h : collection.recordOf? id with
  | none =>
    rw [Option.toList_none, List.filter_eq_nil_iff]
    intro record hrecord hid
    have hsome := sound.recordOf?_eq_some_iff.2 ⟨hrecord, by simpa using hid⟩
    exact absurd (h.symm.trans hsome) (by simp)
  | some record =>
    obtain ⟨hmem, hid⟩ := sound.recordOf?_eq_some_iff.1 h
    exact filter_identifier?_eq_singleton sound.distinct hmem hid

/-! ### Adding a record under a new identifier -/

/-- Storing a record enters its place under its identifier, and leaves the other places as they
are. -/
theorem position?_of_push {record : Document} {id : ObjectId}
    (hid : record.identifier? = some id) (pushed : collection.push record = .ok grown)
    (other : ObjectId) :
    grown.position? other
      = if other = id then some collection.records.length else collection.position? other := by
  obtain ⟨id', hid', rfl⟩ := push_eq_ok_iff.1 pushed
  rw [Option.some.inj (hid'.symm.trans hid)]
  by_cases h : other = id
  · rw [if_pos h, h, position?, List.lookup_cons_self]
  · rw [if_neg h, position?, List.lookup_cons, beq_eq_false_iff_ne.2 h]
    rfl

theorem mem_identifiers {record : Document} {id : ObjectId}
    (h : record ∈ collection.records) (hid : record.identifier? = some id) :
    id ∈ collection.identifiers :=
  List.mem_filterMap.2 ⟨record, h, hid⟩

/-- A stored record adds its identifier to those of the collection. -/
theorem identifiers_of_push {record : Document} {id : ObjectId}
    (hid : record.identifier? = some id) (pushed : collection.push record = .ok grown) :
    grown.identifiers = collection.identifiers ++ [id] := by
  obtain ⟨_, -, rfl⟩ := push_eq_ok_iff.1 pushed
  rw [identifiers, List.filterMap_append, List.filterMap_cons_some hid, List.filterMap_nil]
  rfl

/-- **Adding a record under a new identifier keeps a collection sound.** -/
theorem Sound.push (sound : collection.Sound) {record : Document} {id : ObjectId}
    (shaped : record.Shaped collection.schema) (hid : record.identifier? = some id)
    (fresh : id ∉ collection.identifiers) (pushed : collection.push record = .ok grown) :
    grown.Sound := by
  have hidentifiers := identifiers_of_push hid pushed
  have hposition := position?_of_push hid pushed
  obtain ⟨_, -, rfl⟩ := push_eq_ok_iff.1 pushed
  constructor
  case checked => exact sound.checked
  case shaped =>
    intro other hother
    rcases List.mem_append.1 hother with hold | hnew
    · exact sound.shaped other hold
    · rw [List.mem_singleton.1 hnew]
      exact shaped
  case distinct =>
    rw [hidentifiers, List.nodup_append]
    refine ⟨sound.distinct, List.nodup_singleton id, ?_⟩
    rintro other hother _ hnew rfl
    exact fresh (List.mem_singleton.1 hnew ▸ hother)
  case indexed =>
    intro other position
    rw [hposition other]
    by_cases hother : other = id
    · -- the new place is the only one: no old record carries a new identifier
      subst hother
      rw [if_pos rfl]
      constructor
      · intro h
        refine ⟨record, ?_, hid⟩
        rw [← Option.some.inj h]
        exact List.getElem?_concat_length
      · rintro ⟨found, hfound, hcarried⟩
        have hlast : ¬ position < collection.records.length := fun hlt => by
          rw [List.getElem?_append_left hlt] at hfound
          exact fresh (mem_identifiers (List.mem_of_getElem? hfound) hcarried)
        have hin := (List.getElem?_eq_some_iff.1 hfound).1
        rw [List.length_append, List.length_singleton] at hin
        exact congrArg some (by omega)
    · -- the other identifiers are where they were
      rw [if_neg hother, sound.indexed other position]
      refine exists_congr fun found => and_congr_left fun hcarried => ?_
      by_cases hlt : position < collection.records.length
      · rw [List.getElem?_append_left hlt]
      · rw [List.getElem?_eq_none (Nat.le_of_not_lt hlt)]
        refine iff_of_false (by simp) fun hfound => hother ?_
        rw [List.getElem?_append_right (Nat.le_of_not_lt hlt)] at hfound
        rw [List.mem_singleton.1 (List.mem_of_getElem? hfound), hid] at hcarried
        exact (Option.some.inj hcarried).symm

/-! ### Adding records under new identifiers -/

/-- Stored records add their identifiers to those of the collection. -/
theorem identifiers_of_pushAll {records : List Document}
    (pushed : collection.pushAll records = .ok grown) :
    grown.identifiers = collection.identifiers ++ records.filterMap Document.identifier? := by
  rw [identifiers, (schema_and_records_of_pushAll pushed).2, List.filterMap_append]
  rfl

/-- **A sound collection remains sound** when records of the right shape with new identifiers
are stored: their places are entered as they come, and no older place is taken. -/
theorem Sound.pushAll (sound : collection.Sound) {records : List Document}
    (shaped : ∀ record ∈ records, record.Shaped collection.schema)
    (fresh : (collection.identifiers ++ records.filterMap Document.identifier?).Nodup)
    (pushed : collection.pushAll records = .ok grown) : grown.Sound := by
  induction records generalizing collection with
  | nil =>
    rw [pushAll_nil] at pushed
    rw [← Except.ok.inj pushed]
    exact sound
  | cons record rest ih =>
    obtain ⟨next, hnext, hrest⟩ := pushAll_cons_eq_ok_iff.1 pushed
    have hshaped := shaped record List.mem_cons_self
    obtain ⟨id, hid⟩ := exists_identifier?_of_shaped hshaped
    rw [List.filterMap_cons_some hid] at fresh
    -- old and new identifiers are distinct together, so the first new one is not old
    have hnew : id ∉ collection.identifiers := fun hmem =>
      (List.nodup_append.1 fresh).2.2 id hmem id List.mem_cons_self rfl
    have hsound := sound.push hshaped hid hnew hnext
    have hidentifiers := identifiers_of_push hid hnext
    obtain ⟨_, -, rfl⟩ := push_eq_ok_iff.1 hnext
    refine ih hsound (fun other hother => shaped other (List.mem_cons_of_mem _ hother)) ?_ hrest
    rw [hidentifiers, List.append_assoc, List.singleton_append]
    exact fresh

end Collection

namespace MemoryStore

/-! ### Every run -/

/-- Whether all collections of a store are sound, and hold no identifiers but
those of a list. -/
def SoundWithin (issued : List ObjectId) (store : MemoryStore) : Prop :=
  ∀ name collection, store.bound? name = some collection →
    collection.Sound ∧ collection.identifiers ⊆ issued

variable {store : MemoryStore} {issued more : List ObjectId}

theorem soundWithin_empty : empty.SoundWithin [] :=
  fun name _ h => absurd ((bound?_empty name).symm.trans h) (by simp)

/-- A sound store binds checked schemas only. -/
theorem SoundWithin.checked (h : store.SoundWithin issued) : store.Checked :=
  fun name collection hfound => (h name collection hfound).1.checked

theorem SoundWithin.mono (h : store.SoundWithin issued) (hsubset : issued ⊆ more) :
    store.SoundWithin more :=
  fun name collection hfound =>
    ⟨(h name collection hfound).1, List.Subset.trans (h name collection hfound).2 hsubset⟩

/-- A store remains sound when one of its collections is replaced by a sound one. -/
theorem SoundWithin.set (h : store.SoundWithin issued) (name : String) {collection : Collection}
    (sound : collection.Sound) (within : collection.identifiers ⊆ issued) :
    (store.set name collection).SoundWithin issued := by
  intro other found hfound
  rcases bound?_set_eq_some hfound with ⟨-, rfl⟩ | hold
  · exact ⟨sound, within⟩
  · exact h other found hold

/-- **A call keeps a store sound** if none of the identifiers issued for it was
issued before, and none is issued twice. -/
theorem Change.soundWithin {call : Call} {outcome : Outcome Unit} {next : MemoryStore}
    (change : Change store call outcome next) (h : store.SoundWithin issued)
    (fresh : (issued ++ call.issued).Nodup) : next.SoundWithin (issued ++ call.issued) := by
  have hgrown := h.mono (List.subset_append_left issued call.issued)
  cases change with
  | nothing => exact hgrown
  | bound checked _ =>
    exact hgrown.set _ (Collection.sound_empty checked) (List.nil_subset _)
  | @added _ name collection grown records found prepared pushed =>
    obtain ⟨sound, within⟩ := h name collection found
    have hidentifiers := Collection.identifiers_of_prepareAll sound.checked prepared
    have hdistinct : (collection.identifiers ++ records.filterMap Document.identifier?).Nodup := by
      -- what the collection holds was issued earlier, so it is apart from what is new
      rw [hidentifiers]
      obtain ⟨-, hissued, hdisjoint⟩ := List.nodup_append.1 fresh
      exact List.nodup_append.2
        ⟨sound.distinct, hissued, fun id hid other hother => hdisjoint id (within hid) other hother⟩
    refine hgrown.set _ (sound.pushAll (fun record hrecord => ?_) hdistinct pushed) ?_
    · obtain ⟨item, -, hprepare⟩ := Collection.exists_of_mem_prepareAll prepared hrecord
      exact Collection.shaped_of_prepare_eq_ok sound.checked hprepare
    · rw [Collection.identifiers_of_pushAll pushed, hidentifiers]
      exact List.append_subset.2 ⟨List.Subset.trans within (List.subset_append_left _ _),
        List.subset_append_right issued call.issued⟩

/-- **Calls keep a store sound** if no identifier is issued twice. -/
theorem SoundWithin.afterAll {calls : List Call} (h : store.SoundWithin issued)
    (fresh : (issued ++ calls.flatMap Call.issued).Nodup) :
    (store.afterAll calls).SoundWithin (issued ++ calls.flatMap Call.issued) := by
  induction calls generalizing store issued with
  | nil =>
    rw [List.flatMap_nil, List.append_nil]
    exact h
  | cons call rest ih =>
    -- what is issued for the first call counts as issued before the others
    rw [List.flatMap_cons, ← List.append_assoc] at fresh ⊢
    exact ih ((change h.checked call).soundWithin h (List.nodup_append.1 fresh).1) fresh

/-- Every run from the empty store is sound while the ids it is issued are fresh. -/
theorem soundWithin_afterAll {calls : List Call} (fresh : (calls.flatMap Call.issued).Nodup) :
    (empty.afterAll calls).SoundWithin (calls.flatMap Call.issued) :=
  soundWithin_empty.afterAll fresh

/-- **Every collection of every reachable store is sound**, as long as no
identifier is issued twice; and each of its records is found by the identifier
that it carries. -/
theorem sound_of_bound?_afterAll {calls : List Call}
    (fresh : (calls.flatMap Call.issued).Nodup) {name : String} {collection : Collection}
    (found : (empty.afterAll calls).bound? name = some collection) :
    collection.Sound ∧ ∀ record ∈ collection.records,
      ∃ id, record.identifier? = some id ∧ collection.recordOf? id = some record := by
  obtain ⟨sound, -⟩ := soundWithin_afterAll fresh name collection found
  exact ⟨sound, fun record hrecord => sound.exists_recordOf? hrecord⟩

/-- A run that binds a collection of names and stores two of them. -/
def twoNames : List Call :=
  [.bindModel "people" ⟨[⟨"name", .string, true⟩]⟩,
    .insertMany "people" [(⟨.ofParts 0 0, .ofMillis 1700000000000⟩, [("name", .string "a")]),
      (⟨.ofParts 0 1, .ofMillis 1700000000000⟩, [("name", .string "b"), ("stray", .null)])]]

/-- The run ends with a sound collection of two records. -/
theorem sound_twoNames :
    ∃ collection, (empty.afterAll twoNames).bound? "people" = some collection ∧
      collection.records.length = 2 ∧ collection.Sound := by
  have fresh : (twoNames.flatMap Call.issued).Nodup := by decide
  have stored : ∃ collection, (empty.afterAll twoNames).bound? "people" = some collection ∧
      collection.records.length = 2 := ⟨_, rfl, rfl⟩
  obtain ⟨collection, found, length⟩ := stored
  exact ⟨collection, found, length, (sound_of_bound?_afterAll fresh found).1⟩

end MemoryStore

end RecordStore
