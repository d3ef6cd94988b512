import Mathlib.Data.List.Dedup
import RecordStore.Proofs.Session.Identifier

/-!
# Reading by many keys

A list of keys is read in one search, for the records whose identifier is among
those that the keys denote (`RecordStore.Collection.denoted`). What is found is thus
settled by the set of these identifiers. The order of the keys does not count, nor
how often a key comes or in which way it is spelled, and keys that denote nothing
that is stored may come and go (`RecordStore.Collection.Restates`).

On the other side, stored identifiers are distinct. So each record is found once, at
its place in the order of storing (`RecordStore.Collection.Answers`), and there are no
more of them than the identifiers that the keys denote
(`RecordStore.Repository.getByIds_of_bind`).
-/

namespace RecordStore

namespace EntityKey

variable {κ : Type} [EntityKey κ]

/-- The identifier that a key denotes, if it denotes one. -/
def identifier? (key : κ) : Option ObjectId :=
  match toNative? key with
  | some (.objectId id) => some id
  | _ => none

/-- Whether one of some keys denotes an identifier. -/
def Denote (keys : List κ) (id : ObjectId) : Prop :=
  ∃ key ∈ keys, toNative? key = some (.objectId id)

/-- A key denotes the identifier that it is in records. -/
theorem identifier?_eq_some_iff {key : κ} {id : ObjectId} :
    identifier? key = some id ↔ toNative? key = some (.objectId id) := by
  rw [identifier?]
  split
  · rename_i other hother
    simp [hother]
  · rename_i hnone
    exact iff_of_false nofun (hnone id)

theorem denote_iff {keys : List κ} {id : ObjectId} :
    Denote keys id ↔ id ∈ keys.filterMap identifier? := by
  simp only [Denote, List.mem_filterMap, identifier?_eq_some_iff]

/-- **Letter case does not count in a text key.** -/
theorem toNative?_eq_of_toLower_eq {text other : String} (h : text.toLower = other.toLower) :
    toNative? text = toNative? other := by
  have hread : ObjectId.ofText? text = ObjectId.ofText? other := by
    refine Option.ext fun id => ?_
    rw [ObjectId.ofText?_eq_some_iff, ObjectId.ofText?_eq_some_iff, h]
  exact congrArg (Option.map Value.objectId) hread

end EntityKey

open EntityKey

/-- Only an identifier equals it, and only itself. -/
theorem Value.equivalent_objectId_iff {member : Value} {id : ObjectId} :
    member.equivalent (.objectId id) = true ↔ member = .objectId id := by
  cases member with
  | objectId other => rw [equivalent_objectId, decide_eq_true_eq, objectId.injEq]
  | _ => exact iff_of_false Bool.false_ne_true nofun

namespace Collection

variable {κ : Type} [EntityKey κ]

/-- The records whose identifier one of some keys denotes. -/
def denoted (collection : Collection) (keys : List κ) : List Document :=
  collection.records.filter fun record =>
    record.identifier?.any fun id => id ∈ keys.filterMap identifier?

/-- **What reading by some keys should find.** -/
structure Answers (collection : Collection) (keys : List κ) (records : List Document) : Prop where
  /-- The records come in the order in which they were stored. -/
  sublist : records.Sublist collection.records
  /-- A record is found exactly when a key denotes its identifier. -/
  mem_iff : ∀ record ∈ collection.records,
    record ∈ records ↔ ∃ id, record.identifier? = some id ∧ Denote keys id
  /-- No two records carry one identifier, so none comes twice. -/
  once : (records.map Document.identifier?).Nodup

/-- Whether one list of keys restates another as far as a collection is concerned. -/
inductive Restates (collection : Collection) : List κ → List κ → Prop
  /-- The keys come in another order. -/
  | perm {keys others : List κ} : keys.Perm others → Restates collection keys others
  /-- A key comes once more. -/
  | repeated {key : κ} {keys : List κ} : key ∈ keys → Restates collection keys (key :: keys)
  /-- A key is spelled in another way. -/
  | respelled {key other : κ} (keys : List κ) : (toNative? key = toNative? other) →
      Restates collection (key :: keys) (other :: keys)
  /-- There is a malformed key more. -/
  | malformed {key : κ} (keys : List κ) : toNative? key = none →
      Restates collection keys (key :: keys)
  /-- There is a key more that denotes no record of the collection. -/
  | unknown {key : κ} (keys : List κ) :
      (∀ record ∈ collection.records, ∀ id, record.identifier? = some id →
        toNative? key ≠ some (.objectId id)) →
      Restates collection keys (key :: keys)
  | symm {keys others : List κ} : Restates collection keys others →
      Restates collection others keys
  | trans {keys others last : List κ} : Restates collection keys others →
      Restates collection others last → Restates collection keys last

variable {collection : Collection} {keys others : List κ}

theorem mem_denoted_iff {record : Document} :
    record ∈ collection.denoted keys ↔
      record ∈ collection.records ∧ ∃ id, record.identifier? = some id ∧ Denote keys id := by
  simp only [denoted, List.mem_filter, Option.any_eq_true, decide_eq_true_eq, denote_iff]

/-! ### The keys enter by what they denote -/

/-- Keys that denote the same identifiers of a collection denote the same records. -/
theorem denoted_congr (h : ∀ record ∈ collection.records, ∀ id, record.identifier? = some id →
    (Denote keys id ↔ Denote others id)) : collection.denoted keys = collection.denoted others := by
  refine List.filter_congr fun record hrecord => ?_
  rcases hid : record.identifier? with _ | id
  · rfl
  · rw [Option.any_some, Option.any_some, decide_eq_decide, ← denote_iff, ← denote_iff]
    exact h record hrecord id hid

theorem denote_cons_iff {key : κ} {id : ObjectId} :
    Denote (key :: keys) id ↔ toNative? key = some (.objectId id) ∨ Denote keys id := by
  simp only [Denote, List.mem_cons, exists_eq_or_imp]

/-- **Keys that are restated denote the same records.** -/
theorem Restates.denoted_eq (h : collection.Restates keys others) :
    collection.denoted keys = collection.denoted others := by
  induction h with
  | perm hperm =>
    refine denoted_congr fun _ _ id _ => ?_
    simp only [Denote, hperm.mem_iff]
  | repeated hmem =>
    refine denoted_congr fun _ _ id _ => ?_
    rw [denote_cons_iff]
    exact ⟨.inr, fun h => h.elim (fun hkey => ⟨_, hmem, hkey⟩) fun hrest => hrest⟩
  | respelled keys hnative =>
    refine denoted_congr fun _ _ id _ => ?_
    rw [denote_cons_iff, denote_cons_iff, hnative]
  | malformed keys hnone =>
    refine denoted_congr fun _ _ id _ => ?_
    rw [denote_cons_iff, hnone]
    simp
  | unknown keys hunknown =>
    refine denoted_congr fun record hrecord id hid => ?_
    rw [denote_cons_iff, or_iff_right (hunknown record hrecord id hid)]
  | symm _ ih => exact ih.symm
  | trans _ _ ih ih' => exact ih.trans ih'

/-! ### The records enter by their identifiers -/

section Sound

variable (sound : collection.Sound)
include sound

/-- **The predicate of some keys selects what they denote.** -/
theorem Sound.matching_identifiedBy (keys : List κ) :
    collection.matching (.identifiedBy (keys.filterMap toNative?)) = collection.denoted keys := by
  refine List.filter_congr fun record hrecord => ?_
  obtain ⟨id, hid⟩ := exists_identifier?_of_shaped (sound.shaped record hrecord)
  rw [Bool.eq_iff_iff, Predicate.holds_identifiedBy, Document.read_nativeId hid, hid,
    Option.any_some, decide_eq_true_eq, ← denote_iff]
  show ((keys.filterMap toNative?).any fun member => member.equivalent (.objectId id)) = true ↔ _
  simp only [List.any_eq_true, Value.equivalent_objectId_iff, exists_eq_right, List.mem_filterMap,
    Denote]

/-- The records of a sound collection have distinct identifiers. -/
theorem Sound.nodup_map_identifier? : (collection.records.map Document.identifier?).Nodup := by
  have hall : ∀ id? ∈ collection.records.map Document.identifier?, id?.isSome = true := by
    rw [List.forall_mem_map]
    intro record hrecord
    obtain ⟨id, hid⟩ := exists_identifier?_of_shaped (sound.shaped record hrecord)
    rw [hid]
    rfl
  rw [← List.filter_eq_self.2 hall, ← List.map_filterMap_some_eq_filter_map_isSome]
  exact sound.distinct.map fun _ _ => Option.some.inj

/-- **The records that some keys denote answer them.** -/
theorem Sound.answers_denoted (keys : List κ) :
    collection.Answers keys (collection.denoted keys) where
  sublist := List.filter_sublist
  mem_iff record hrecord := by rw [mem_denoted_iff, and_iff_right hrecord]
  once := sound.nodup_map_identifier?.sublist (List.filter_sublist.map _)

end Sound

/-- **One list answers some keys**, where identifiers are distinct. -/
theorem Answers.eq_denoted {records : List Document} (answers : collection.Answers keys records)
    (distinct : (collection.records.map Document.identifier?).Nodup) :
    records = collection.denoted keys := by
  have hsublist : records.Sublist (collection.denoted keys) := by
    have hsame : records.filter (fun record => record.identifier?.any fun id =>
        id ∈ keys.filterMap EntityKey.identifier?) = records := by
      refine List.filter_eq_self.2 fun record hrecord => ?_
      obtain ⟨id, hid, hdenote⟩ :=
        (answers.mem_iff record (answers.sublist.subset hrecord)).1 hrecord
      rw [hid, Option.any_some, decide_eq_true_eq]
      exact denote_iff.1 hdenote
    rw [← hsame]
    exact answers.sublist.filter _
  have hsubset : collection.denoted keys ⊆ records := by
    intro record hrecord
    obtain ⟨hmem, hdenoted⟩ := mem_denoted_iff.1 hrecord
    exact (answers.mem_iff record hmem).2 hdenoted
  have hlength := (List.subperm_of_subset (distinct.of_map.filter _) hsubset).length_le
  exact hsublist.eq_of_length_le hlength

/-- There are no more answers than identifiers that the keys denote. -/
theorem Answers.length_le {records : List Document} (answers : collection.Answers keys records)
    {ids : List ObjectId} (h : ∀ id, Denote keys id → id ∈ ids) : records.length ≤ ids.length := by
  have hsubset : records.map Document.identifier? ⊆ ids.map some := by
    intro id? hid?
    obtain ⟨record, hrecord, rfl⟩ := List.mem_map.1 hid?
    obtain ⟨id, hid, hdenote⟩ :=
      (answers.mem_iff record (answers.sublist.subset hrecord)).1 hrecord
    rw [hid]
    exact List.mem_map_of_mem (h id hdenote)
  have hlength := (List.subperm_of_subset answers.once hsubset).length_le
  rwa [List.length_map, List.length_map] at hlength

end Collection

namespace Repository

variable {type : EntityType} {repository : Repository type}

/-- **Reading by many keys finds what they denote**, in an open session over any store
that the repository was bound in. It answers the keys: it comes to the entities of the
records whose identifier a key denotes, each of them once and in the order of storing,
or to what keeps such a record from becoming an entity. To restate the keys changes
nothing; and of the entities there are at most as many as of distinct identifiers
among the keys, so at most as many as of distinct keys that are well formed. -/
theorem getByIds_of_bind {earlier later : List MemoryStore.Call}
    {atBind session : Session MemoryStore}
    (fresh : ((earlier ++ later).flatMap MemoryStore.Call.issued).Nodup)
    (bound : repository.bind.exec (.start (MemoryStore.empty.afterAll earlier)) = (.ok (), atBind))
    (reached : session.store = atBind.store.afterAll later) (isOpen : session.isOpen = true) :
    ∃ collection, session.store.bound? repository.collection = some collection ∧
      (∀ keys : List type.Key, ∃ records, collection.Answers keys records ∧
        (repository.getByIds keys).exec session = (type.ofRecords records, session) ∧
        ∀ entities, type.ofRecords records = .ok entities →
          List.Forall₂ (fun record entity => type.ofRecord record = .ok entity) records entities ∧
          entities.length ≤ (keys.filterMap identifier?).dedup.length ∧
          ∀ distinct : List type.Key,
            (∀ key ∈ keys, (toNative? key).isSome = true → key ∈ distinct) →
            entities.length ≤ distinct.length) ∧
      (∀ keys others : List type.Key, collection.Restates keys others →
        (repository.getByIds others).exec session = (repository.getByIds keys).exec session) ∧
      ∀ text other : String, text.toLower = other.toLower →
        toNative? text = toNative? other := by
  obtain ⟨collection, found, -, sound⟩ := exists_sound_of_bind fresh bound
  rw [← reached] at found
  have hread : ∀ keys : List type.Key, (repository.getByIds keys).exec session
      = (type.ofRecords (collection.denoted keys), session) := by
    intro keys
    rw [exec_getByIds isOpen found, sound.matching_identifiedBy]
  refine ⟨collection, found, fun keys => ?_, fun keys others h => ?_,
    fun _ _ => toNative?_eq_of_toLower_eq⟩
  · have answers := sound.answers_denoted keys
    refine ⟨_, answers, hread keys, fun entities hentities => ?_⟩
    have hsteps := Outcome.mapM_eq_ok_iff.1 hentities
    refine ⟨hsteps, ?_, fun distinct hdistinct => ?_⟩
    · rw [← hsteps.length_eq]
      exact answers.length_le fun id hid => List.mem_dedup.2 (denote_iff.1 hid)
    · -- several keys may denote one identifier, but no key denotes several
      have hids : ∀ id, Denote keys id → id ∈ distinct.filterMap identifier? := by
        rintro id ⟨key, hkey, hnative⟩
        exact denote_iff.1 ⟨key, hdistinct key hkey (by rw [hnative]; rfl), hnative⟩
      rw [← hsteps.length_eq]
      exact Nat.le_trans (answers.length_le hids) (List.length_filterMap_le _ _)
  · rw [hread, hread, h.denoted_eq]

/-- Calls that store three people, one after the other. -/
def threePeople : List MemoryStore.Call :=
  [171, 205, 239].map fun number =>
    .insertOne "people" ⟨.ofParts 0 number, .ofMillis 1700000000000⟩ [("name", .string "a")]

/-- A session in which a repository of people was bound and three people stored. -/
def withThreePeople : Session MemoryStore :=
  .start (MemoryStore.empty.afterAll (.bindModel people.collection people.schema :: threePeople))

/-- Of three people two are read by their identifiers, in the order in which they were
stored and not in that of the keys. Another spelling, one key more for either of them and a
malformed key change nothing. -/
theorem getByIds_threePeople :
    ∃ first second,
      Entries.get? first FieldName.publicId = some (.string "0000000000000000000000ab") ∧
      Entries.get? second FieldName.publicId = some (.string "0000000000000000000000ef") ∧
      (people.getByIds ["0000000000000000000000ef", "0000000000000000000000ab"]).exec
        withThreePeople = (.ok [first, second], withThreePeople) ∧
      (people.getByIds ["0000000000000000000000AB", "nobody", "0000000000000000000000ef",
        "0000000000000000000000ab"]).exec withThreePeople
          = (.ok [first, second], withThreePeople) := by
  have fresh : (([] ++ threePeople).flatMap MemoryStore.Call.issued).Nodup := by decide
  have bound : people.bind.exec (.start (MemoryStore.empty.afterAll [])) = (.ok (),
    .start (MemoryStore.empty.afterAll [.bindModel people.collection people.schema])) := rfl
  have isOpen : withThreePeople.isOpen = true := rfl
  have lower : toNative? "0000000000000000000000ab" = some (.objectId (.ofParts 0 171)) := rfl
  have upper : toNative? "0000000000000000000000AB" = some (.objectId (.ofParts 0 171)) := rfl
  obtain ⟨collection, found, hreads, hrestates, -⟩ := getByIds_of_bind fresh bound rfl isOpen
  obtain ⟨records, answers, hread, -⟩ :=
    hreads ["0000000000000000000000ef", "0000000000000000000000ab"]
  have stored : ∃ first second,
      Entries.get? first FieldName.publicId = some (.string "0000000000000000000000ab") ∧
      Entries.get? second FieldName.publicId = some (.string "0000000000000000000000ef") ∧
      (collection.records.map Document.identifier?).Nodup ∧
      EntityType.ofRecords (.dynamic String) (collection.denoted
        ["0000000000000000000000ef", "0000000000000000000000ab"]) = .ok [first, second] := by
    obtain rfl := Option.some.inj (found.symm.trans rfl)
    exact ⟨_, _, rfl, rfl, by decide, rfl⟩
  obtain ⟨first, second, hfirst, hsecond, distinct, hentities⟩ := stored
  rw [answers.eq_denoted distinct] at hread
  have hread := hread.trans (congrArg (fun outcome => (outcome, withThreePeople)) hentities)
  have restated : collection.Restates ["0000000000000000000000ef", "0000000000000000000000ab"]
      ["0000000000000000000000AB", "nobody", "0000000000000000000000ef",
        "0000000000000000000000ab"] :=
    (((Collection.Restates.repeated (.tail _ (.head _))).trans
      (.respelled _ (lower.trans upper.symm))).trans (.malformed _ rfl)).trans (.perm (.swap _ _ _))
  exact ⟨first, second, hfirst, hsecond, hread, (hrestates _ _ restated).trans hread⟩

end Repository

end RecordStore
