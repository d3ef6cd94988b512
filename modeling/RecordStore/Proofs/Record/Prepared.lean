import RecordStore.Proofs.Schema.Conform
import RecordStore.Store.Memory

/-!
# The shape of a record

A store makes a record out of a payload by four writes around the fields that
the payload supplies: the identifier before them, the two times and the version
counter behind them. Under a checked schema no write meets another, so that the
record is just the concatenation of these parts
(`RecordStore.Collection.prepare_eq_ok_iff`). From this follow the order and the
types of its attributes, which `RecordStore.Document.Shaped` lists and
`RecordStore.Collection.shaped_of_prepare_eq_ok` proves.
-/

namespace RecordStore

namespace Document

/-- The identifier that a record carries. -/
def identifier? (record : Document) : Option ObjectId :=
  match record.get? FieldName.nativeId with
  | some (.objectId id) => some id
  | _ => none

/-- A record has the identifier that it holds under the native name. -/
theorem identifier?_eq_some_iff {record : Document} {id : ObjectId} :
    record.identifier? = some id ↔ record.get? FieldName.nativeId = some (.objectId id) := by
  rw [identifier?]
  split
  · rename_i other hget
    rw [hget]
    simp
  · rename_i hother
    exact ⟨fun h => absurd h (by simp), fun h => absurd h (hother id)⟩

/-- The shape of a record of a collection: the attributes that a store assigns
stand around the declared fields, and all of them have their types. -/
structure Shaped (schema : Schema) (record : Document) : Prop where
  /-- The attributes come in order, the declared ones in that of the schema. -/
  keys : record.keys = FieldName.nativeId ::
    (schema.names.filter fun name => record.contains name) ++
      [FieldName.createdAt, FieldName.updatedAt, FieldName.version]
  /-- No attribute comes twice. -/
  nodup : record.keys.Nodup
  /-- The identifier is an object identifier. -/
  identified : ∃ id, record.get? FieldName.nativeId = some (.objectId id)
  /-- The two times are dates, and equal. -/
  dated : ∃ now, record.get? FieldName.createdAt = some (.date now) ∧
    record.get? FieldName.updatedAt = some (.date now)
  /-- The version counter is zero. -/
  versioned : record.get? FieldName.version = some (.int32 0)
  /-- A declared field is not null, and of the declared kind. -/
  typed : ∀ field ∈ schema.fields, ∀ value, record.get? field.name = some value →
    value.isNull = false ∧ field.kind.accepts value = true
  /-- A required field is there. -/
  complete : ∀ field ∈ schema.fields, field.required = true → record.contains field.name = true

end Document

namespace Schema

/-! ### What a checked schema leaves alone -/

/-- A checked schema declares no reserved name. -/
theorem not_mem_names_of_reserved {schema : Schema} (checked : schema.check = .ok ())
    {name : String} (h : name ∈ FieldName.reserved) : name ∉ schema.names :=
  fun hmem => ((check_eq_ok_iff.1 checked).1 name hmem).2 h

/-- A checked schema declares no reserved name, so no payload supplies one. -/
theorem not_mem_keys_suppliedFields {schema : Schema} (checked : schema.check = .ok ())
    (payload : Document) {name : String} (h : name ∈ FieldName.reserved) :
    name ∉ (suppliedFields payload schema.fields).keys := by
  rw [keys_suppliedFields]
  exact fun hmem => not_mem_names_of_reserved checked h (List.mem_filter.1 hmem).1

theorem mem_names {schema : Schema} {field : FieldSchema} (h : field ∈ schema.fields) :
    field.name ∈ schema.names :=
  List.mem_map_of_mem h

theorem isNull_of_supplied?_eq_some {payload : Document} {name : String} {value : Value}
    (h : supplied? payload name = some value) : value.isNull = false := by
  rw [supplied?, Option.filter_eq_some_iff] at h
  simpa using h.2

end Schema

namespace Collection

/-! ### The parts of a record -/

/-- The attributes that a store writes behind the fields of a payload. -/
def trailer (now : Date) : Document :=
  [(FieldName.createdAt, .date now), (FieldName.updatedAt, .date now),
    (FieldName.version, .int32 0)]

/-- Declared fields with the attributes that a store writes around them. -/
def stamped (stamp : Stamp) (declared : Document) : Document :=
  (FieldName.nativeId, .objectId stamp.id) :: (declared ++ trailer stamp.now)

/-- A stamped record has the identifier first and the trailer last. -/
theorem keys_stamped (stamp : Stamp) (declared : Document) :
    (stamped stamp declared).keys = FieldName.nativeId :: declared.keys ++
      [FieldName.createdAt, FieldName.updatedAt, FieldName.version] := by
  rw [stamped, Entries.keys_cons, Entries.keys_append]
  rfl

theorem get?_stamped_nativeId (stamp : Stamp) (declared : Document) :
    (stamped stamp declared).get? FieldName.nativeId = some (.objectId stamp.id) := rfl

/-- Apart from the identifier, an attribute is declared or in the trailer. -/
theorem get?_stamped {name : String} (h : name ≠ FieldName.nativeId) (stamp : Stamp)
    (declared : Document) :
    (stamped stamp declared).get? name
      = (declared.get? name).or ((trailer stamp.now).get? name) := by
  rw [stamped, Entries.get?_cons, if_neg (Ne.symm h), Entries.get?_append]

theorem names_trailer_subset :
    [FieldName.createdAt, FieldName.updatedAt, FieldName.version] ⊆ FieldName.reserved := by
  decide

theorem get?_trailer_of_not_reserved {name : String} (h : name ∉ FieldName.reserved)
    (now : Date) : (trailer now).get? name = none := by
  rw [Entries.get?_eq_none_iff]
  exact fun hmem => h (names_trailer_subset hmem)

section Checked

variable {schema : Schema} (checked : schema.check = .ok ())

include checked

/-- No name comes twice in a stamped record: those of the schema are distinct and none of them
is reserved. -/
theorem nodup_keys_stamped (stamp : Stamp) (payload : Document) :
    (stamped stamp (Schema.suppliedFields payload schema.fields)).keys.Nodup := by
  have hnew : ∀ name ∈ FieldName.reserved,
      name ∉ (Schema.suppliedFields payload schema.fields).keys :=
    fun name hname => Schema.not_mem_keys_suppliedFields checked payload hname
  have htrailer : ([FieldName.createdAt, FieldName.updatedAt, FieldName.version]
      : List String).Nodup := by decide
  -- the names that a store assigns are distinct, and none of them is declared
  rw [keys_stamped, List.cons_append, List.nodup_cons, List.nodup_append]
  refine ⟨?_, Schema.nodup_keys_suppliedFields (Schema.check_eq_ok_iff.1 checked).2 payload,
    htrailer, ?_⟩
  · rw [List.mem_append, not_or]
    exact ⟨hnew _ (by decide), by decide⟩
  · rintro name hname other hother rfl
    exact hnew name (names_trailer_subset hother) hname

/-- **A payload becomes a record exactly when it conforms**, and the record is
what it supplies with the attributes of the store around it. -/
theorem prepare_eq_ok_iff {stamp : Stamp} {payload record : Document} :
    prepare schema stamp payload = .ok record ↔
      (∀ field ∈ schema.fields, Schema.Fits payload field) ∧
        record = stamped stamp (Schema.suppliedFields payload schema.fields) := by
  have hnodup := nodup_keys_stamped checked stamp payload
  -- the writes before the trailer, and then the trailer, name nothing twice
  have hfront : (Entries.keys [(FieldName.nativeId, Value.objectId stamp.id)] ++
      (Schema.suppliedFields payload schema.fields).keys).Nodup := by
    rw [keys_stamped] at hnodup
    exact (List.nodup_append.1 hnodup).1
  have hrecord : ((Entries.insert [] FieldName.nativeId (Value.objectId stamp.id)).insertAll
      (Schema.suppliedFields payload schema.fields)).insertAll (trailer stamp.now)
        = stamped stamp (Schema.suppliedFields payload schema.fields) := by
    rw [show Entries.insert [] FieldName.nativeId (Value.objectId stamp.id)
      = [(FieldName.nativeId, .objectId stamp.id)] from rfl, Entries.insertAll_eq_append hfront,
      Entries.insertAll_eq_append]
    · rfl
    · rw [← Entries.keys_append]
      exact hnodup
  rw [prepare, Outcome.bind_eq_ok_iff]
  constructor
  · rintro ⟨conformed, hconform, hprepared⟩
    obtain ⟨hfits, rfl⟩ := (Schema.conform_eq_ok_iff checked).1 hconform
    exact ⟨hfits, (Except.ok.inj hprepared).symm.trans hrecord⟩
  · rintro ⟨hfits, rfl⟩
    refine ⟨_, (Schema.conform_eq_ok_iff checked).2 ⟨hfits, rfl⟩, ?_⟩
    rw [← hrecord]
    rfl

/-- A prepared record carries the identifier of its stamp. -/
theorem identifier?_of_prepare_eq_ok {stamp : Stamp} {payload record : Document}
    (h : prepare schema stamp payload = .ok record) : record.identifier? = some stamp.id := by
  obtain ⟨-, rfl⟩ := (prepare_eq_ok_iff checked).1 h
  rw [Document.identifier?_eq_some_iff]
  exact get?_stamped_nativeId stamp _

/-! ### The shape that follows -/

/-- Under the other reserved names a stamped record has what the trailer has. -/
theorem get?_stamped_of_reserved {name : String} (hreserved : name ∈ FieldName.reserved)
    (hname : name ≠ FieldName.nativeId) (stamp : Stamp) (payload : Document) :
    (stamped stamp (Schema.suppliedFields payload schema.fields)).get? name
      = (trailer stamp.now).get? name := by
  have hnone := Entries.get?_eq_none_iff.2
    (Schema.not_mem_keys_suppliedFields checked payload hreserved)
  rw [get?_stamped hname, hnone, Option.none_or]

/-- Under a declared name a stamped record has what the payload supplies. -/
theorem get?_stamped_of_mem {field : FieldSchema} (h : field ∈ schema.fields) (stamp : Stamp)
    (payload : Document) :
    (stamped stamp (Schema.suppliedFields payload schema.fields)).get? field.name
      = Schema.supplied? payload field.name := by
  have hfree : field.name ∉ FieldName.reserved :=
    ((Schema.check_eq_ok_iff.1 checked).1 _ (Schema.mem_names h)).2
  have hname : field.name ≠ FieldName.nativeId := fun heq => hfree (heq ▸ by decide)
  rw [get?_stamped hname, get?_trailer_of_not_reserved hfree, Option.or_none,
    Schema.get?_suppliedFields h]

/-- **A record has the shape that its collection asks for.** -/
theorem shaped_of_prepare_eq_ok {stamp : Stamp} {payload record : Document}
    (h : prepare schema stamp payload = .ok record) : record.Shaped schema := by
  obtain ⟨hfits, rfl⟩ := (prepare_eq_ok_iff checked).1 h
  have hget := fun field (hfield : field ∈ schema.fields) =>
    get?_stamped_of_mem checked hfield stamp payload
  constructor
  case keys =>
    rw [keys_stamped, Schema.keys_suppliedFields, ← Schema.names]
    -- a declared name is taken in the record exactly when the payload supplies it
    congr 2
    refine List.filter_congr fun name hname => ?_
    obtain ⟨field, hfield, rfl⟩ := List.mem_map.1 hname
    rw [Entries.contains, hget field hfield]
  case nodup => exact nodup_keys_stamped checked stamp payload
  case identified => exact ⟨stamp.id, get?_stamped_nativeId stamp _⟩
  case dated =>
    refine ⟨stamp.now, ?_, ?_⟩
    · exact get?_stamped_of_reserved checked (by decide) (by decide) stamp payload
    · exact get?_stamped_of_reserved checked (by decide) (by decide) stamp payload
  case versioned => exact get?_stamped_of_reserved checked (by decide) (by decide) stamp payload
  case typed =>
    intro field hfield value hvalue
    rw [hget field hfield] at hvalue
    exact ⟨Schema.isNull_of_supplied?_eq_some hvalue, (hfits field hfield).accepted value hvalue⟩
  case complete =>
    intro field hfield hrequired
    rw [Entries.contains, hget field hfield]
    exact (hfits field hfield).supplied hrequired

end Checked

end Collection

end RecordStore
