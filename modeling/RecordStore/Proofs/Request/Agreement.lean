import RecordStore.Proofs.Filter.Lowering
import RecordStore.Proofs.Request.Spelling
import RecordStore.Session.Repository
import RecordStore.Store.Memory

/-!
# Requests that arrive untyped

A request that arrives as a document has lost two kinds of values on its way:
dates travel as milliseconds, and object identifiers as texts
(`RecordStore.Value.encode`). Casting brings them back where the schema declares
their kind. On the identifier of a record, which no schema declares, a text
remains, and it is only lowering that reads it as an identifier
(`RecordStore.Value.received`).

Between the two, nothing that a store could see is lost: a query that is sent as
a document is lowered, and its sort resolved, as if it had been built by a
program (`RecordStore.Repository.getDynamic_spelling`). Being refused for a range
without bounds is no exception to this.
-/

namespace RecordStore

/-! ### Values on their way -/

namespace Value

variable (schema : Schema) (field : String)

/-- A value of a field as a request has it: a date by its milliseconds, if the
field is one of dates, and an identifier by its text, if the field is one of
identifiers or the identifier itself. -/
def encode : Value → Value
  | date d => if schema.kindOf? field = some .date then int64 d.millis else date d
  | objectId id =>
    if schema.kindOf? field = some .objectId ∨ FieldName.native field = FieldName.nativeId then
      string id.text
    else objectId id
  | value => value

/-- What a value that was encoded is cast to: itself, but for the identifier of a
record, which remains a text. -/
def received : Value → Value
  | objectId id =>
    if schema.kindOf? field ≠ some .objectId ∧ FieldName.native field = FieldName.nativeId then
      string id.text
    else objectId id
  | value => value

/-- Whether a value is of the kind that its field is cast to, if it is cast to
one. -/
def Typed (value : Value) : Prop :=
  ∀ kind ∈ [FieldKind.date, FieldKind.objectId], schema.kindOf? field = some kind →
    kind.accepts value = true

variable {schema field} {value : Value}

instance : Decidable (value.Typed schema field) :=
  inferInstanceAs (Decidable (∀ kind ∈ [FieldKind.date, FieldKind.objectId],
    schema.kindOf? field = some kind → kind.accepts value = true))

theorem isScalar_encode : (encode schema field value).isScalar = value.isScalar := by
  cases value with
  | date d => rw [encode]; split <;> rfl
  | objectId id => rw [encode]; split <;> rfl
  | _ => rfl

/-- Nothing becomes null on its way, and null becomes nothing else. -/
theorem isNull_encode : (encode schema field value).isNull = value.isNull := by
  cases value with
  | date d => rw [encode]; split <;> rfl
  | objectId id => rw [encode]; split <;> rfl
  | _ => rfl

/-- Where no kind is cast to, what was encoded is received as it is. -/
theorem encode_eq_received (hdate : schema.kindOf? field ≠ some .date)
    (hid : schema.kindOf? field ≠ some .objectId) :
    encode schema field value = received schema field value := by
  cases value with
  | date d => rw [encode, if_neg hdate]; rfl
  | objectId id =>
    by_cases hnative : FieldName.native field = FieldName.nativeId
    · rw [encode, received, if_pos (.inr hnative), if_pos ⟨hid, hnative⟩]
    · rw [encode, received, if_neg (not_or.2 ⟨hid, hnative⟩), if_neg fun h => hnative h.2]
  | _ => rfl

/-- **Casting receives what was encoded.** -/
theorem cast_encode {kind : FieldKind} (hkind : schema.kindOf? field = some kind)
    (typed : value.Typed schema field) :
    (encode schema field value).cast field kind = .ok (received schema field value) := by
  by_cases hdate : kind = .date
  · subst hdate
    have haccepts := typed .date (by decide) hkind
    cases value with
    | date d => rw [encode, if_pos hkind]; rfl
    | _ => exact absurd haccepts Bool.false_ne_true
  · by_cases hid : kind = .objectId
    · subst hid
      have haccepts := typed .objectId (by decide) hkind
      cases value with
      | objectId id =>
        rw [encode, received, if_pos (.inl hkind), if_neg fun h => h.1 hkind, cast,
          ObjectId.ofText?_text]
      | _ => exact absurd haccepts Bool.false_ne_true
    · -- the other kinds leave every value as it is
      have hcast : ∀ other : Value, other.cast field kind = .ok other := by
        intro other
        cases kind with
        | date => exact absurd rfl hdate
        | objectId => exact absurd rfl hid
        | _ => rfl
      rw [hcast, encode_eq_received]
      · rw [hkind]; exact fun h => hdate (Option.some.inj h)
      · rw [hkind]; exact fun h => hid (Option.some.inj h)

/-- **A store is told the same** of a value and of what is received for it. -/
theorem lower_received :
    (received schema field value).lower (FieldName.native field)
      = value.lower (FieldName.native field) := by
  cases value with
  | objectId id =>
    rw [received]
    split
    · rename_i h
      rw [lower, if_pos h.2, ObjectId.ofText?_text]
      rfl
    · rfl
  | _ => rfl

end Value

/-! ### Conditions on their way -/

namespace Condition

/-- Applies a function to every value of a condition. -/
def map (f : Value → Value) : Condition → Condition
  | equals value => equals (f value)
  | oneOf values => oneOf (values.map f)
  | within range => within (range.map f)
  | withinAny ranges => withinAny (ranges.map (Range.map f))

/-- The ranges of a rewritten condition are its ranges rewritten. -/
theorem ranges_map (f : Value → Value) (condition : Condition) :
    (condition.map f).ranges = condition.ranges.map (Range.map f) := by
  cases condition <;> rfl

/-- The operands of a changed condition are the changed operands. -/
theorem operands_map (f : Value → Value) (condition : Condition) :
    (condition.map f).operands = condition.operands.map f := by
  cases condition with
  | within range => exact Range.bounds_map f range
  | withinAny ranges => simp [map, operands, List.flatMap_map, List.map_flatMap, Range.bounds_map]
  | _ => rfl

theorem listed_map (f : Value → Value) (condition : Condition) :
    (condition.map f).listed = condition.listed.map f := by
  cases condition with
  | withinAny ranges => cases ranges <;> rfl
  | _ => rfl

/-- A list of one range is lowered as the list that it is read as. -/
theorem lower_listed (field : String) (condition : Condition) :
    condition.listed.lower field = condition.lower field := by
  cases condition with
  | withinAny ranges => cases ranges <;> rfl
  | _ => rfl

theorem operands_listed (condition : Condition) :
    condition.listed.operands = condition.operands := by
  cases condition with
  | withinAny ranges => cases ranges <;> rfl
  | _ => rfl

/-- A plain condition remains plain if scalars remain scalars and none becomes null. -/
theorem Plain.map {condition : Condition} (plain : condition.Plain) {f : Value → Value}
    (hscalar : ∀ value, (f value).isScalar = value.isScalar)
    (hnull : ∀ value, (f value).isNull = value.isNull) : (condition.map f).Plain where
  scalar := by
    rw [operands_map, List.forall_mem_map]
    intro value hvalue
    rw [hscalar]
    exact plain.scalar value hvalue
  bounded := by
    rw [ranges_map, List.forall_mem_map]
    intro range hrange
    rw [Range.bounds_map, List.forall_mem_map]
    intro bound hbound
    rw [hnull]
    exact plain.bounded range hrange bound hbound

/-! ### Lowering and casting, value by value -/

/-- Bounds that are lowered alike make ranges that are. -/
theorem lower_range_map {f : Value → Value} {field : String} {range : Range Value}
    (h : ∀ bound ∈ range.bounds, (f bound).lower field = bound.lower field) :
    (range.map f).lower field = range.lower field := by
  have hbounded : (range.map f).isBounded = range.isBounded := by
    rw [Range.isBounded, Range.map, Option.isSome_map, Option.isSome_map]
    rfl
  have hstart : (range.start.map f).map (Value.lower field) = range.start.map (Value.lower field) := by
    rw [Option.map_map]
    exact Option.map_congr fun bound hbound => h bound (by simp_all [Range.bounds])
  have hstop : (range.stop.map f).map (Value.lower field) = range.stop.map (Value.lower field) := by
    rw [Option.map_map]
    exact Option.map_congr fun bound hbound => h bound (by simp_all [Range.bounds])
  rw [Range.lower, Range.lower, hbounded, ← hstart, ← hstop]
  rfl

/-- **A condition with other operands that are lowered alike is lowered alike.** -/
theorem lower_map {f : Value → Value} {field : String} {condition : Condition}
    (h : ∀ value ∈ condition.operands, (f value).lower field = value.lower field) :
    (condition.map f).lower field = condition.lower field := by
  cases condition with
  | equals value => rw [map, lower, lower, h value (List.mem_singleton_self _)]
  | oneOf values =>
    have hvalues : (values.map f).map (Value.lower field) = values.map (Value.lower field) := by
      rw [List.map_map]
      exact List.map_congr_left h
    rw [map, lower, lower, List.isEmpty_map, hvalues]
  | within range => rw [map, lower, lower, lower_range_map h]
  | withinAny ranges =>
    have hranges : (ranges.map (Range.map f)).mapM (Range.lower field)
        = ranges.mapM (Range.lower field) := by
      rw [List.mapM_map]
      exact Outcome.mapM_congr fun range hrange =>
        lower_range_map fun bound hbound => h bound (List.mem_flatMap.2 ⟨range, hrange, hbound⟩)
    rw [map, lower, lower, List.isEmpty_map, hranges]

/-- A step that undoes a change of each bound undoes the change of the range. -/
theorem mapM_range_map {step : Value → Outcome Value} {f result : Value → Value}
    {range : Range Value} (h : ∀ bound ∈ range.bounds, step (f bound) = .ok (result bound)) :
    (range.map f).mapM step = .ok (range.map result) := by
  have hpart : ∀ part : Option Value, part.toList ⊆ range.bounds →
      (part.map f).mapM step = .ok (part.map result) := by
    intro part hpart
    cases part with
    | none => rfl
    | some bound =>
      rw [Option.map_some, Option.mapM_some, h bound (hpart (List.mem_singleton_self _))]
      rfl
  rw [Range.mapM, Range.map, hpart _ (List.subset_append_left _ _), Outcome.ok_bind,
    hpart _ (List.subset_append_right _ _)]
  rfl

/-- **A step that undoes a change of each operand undoes the change of the condition.** -/
theorem mapM_map {step : Value → Outcome Value} {f result : Value → Value} {condition : Condition}
    (h : ∀ value ∈ condition.operands, step (f value) = .ok (result value)) :
    (condition.map f).mapM step = .ok (condition.map result) := by
  cases condition with
  | equals value => rw [map, mapM, h value (List.mem_singleton_self _)]; rfl
  | oneOf values =>
    have hvalues : (values.map f).mapM step = .ok (values.map result) := Outcome.mapM_map_eq_ok h
    rw [map, mapM, hvalues]
    rfl
  | within range => rw [map, mapM, mapM_range_map h]; rfl
  | withinAny ranges =>
    have hranges : (ranges.map (Range.map f)).mapM (Range.mapM step)
        = .ok (ranges.map (Range.map result)) :=
      Outcome.mapM_map_eq_ok fun range hrange =>
        mapM_range_map fun bound hbound => h bound (List.mem_flatMap.2 ⟨range, hrange, hbound⟩)
    rw [map, mapM, hranges]
    rfl

/-- **Casting receives the condition that was encoded.** -/
theorem cast_encode {schema : Schema} {field : String} {condition : Condition}
    (typed : ∀ value ∈ condition.operands, value.Typed schema field) :
    (condition.map (Value.encode schema field)).cast schema field
      = .ok (condition.map (Value.received schema field)) := by
  rw [cast]
  cases hkind : schema.kindOf? field with
  | some kind => exact mapM_map fun value hvalue => Value.cast_encode hkind (typed value hvalue)
  | none =>
    have hsame : ∀ value, Value.encode schema field value = Value.received schema field value :=
      fun _ => Value.encode_eq_received (by simp [hkind]) (by simp [hkind])
    rw [funext hsame]

/-- A condition on a field as it may be sent: it is plain, and its values are of
the kind that the field is cast to. -/
structure Typed (schema : Schema) (field : String) (condition : Condition) : Prop
    extends condition.Plain where
  typed : ∀ value ∈ condition.operands, value.Typed schema field

end Condition

/-! ### Filters on their way -/

namespace Filter

/-- A filter as it may be sent, on top-level fields. -/
def Typed (schema : Schema) (filter : Filter) : Prop :=
  ∀ entry ∈ filter.entries, FieldName.isTopLevel entry.1 = true ∧ entry.2.Typed schema entry.1

/-- A filter with its values as a request has them. -/
def encode (schema : Schema) (filter : Filter) : Filter :=
  filter.mapEntries fun field condition => condition.map (Value.encode schema field)

/-- What a filter that was encoded and sent is cast to. -/
def received (schema : Schema) (filter : Filter) : Filter :=
  filter.mapEntries fun field condition => condition.listed.map (Value.received schema field)

variable {schema : Schema} {filter : Filter}

theorem Typed.plain_encode (typed : filter.Typed schema) : (filter.encode schema).Plain := by
  refine FieldMap.forall_mem_mapEntries.2 fun entry hentry => ?_
  obtain ⟨hname, htyped⟩ := typed entry hentry
  exact ⟨hname, htyped.toPlain.map (fun _ => Value.isScalar_encode) fun _ => Value.isNull_encode⟩

/-- Casting a filter that was sent brings back what its receiver should have: condition by
condition, on the kind of each field. -/
theorem Typed.cast_listed_encode (typed : filter.Typed schema) :
    (filter.encode schema).listed.cast schema = .ok (filter.received schema) := by
  have hlisted : (filter.encode schema).listed
      = filter.mapEntries fun field condition =>
          condition.listed.map (Value.encode schema field) := by
    rw [encode, listed, FieldMap.mapEntries_mapEntries]
    simp only [Condition.listed_map]
  have hcast : ∀ entry ∈ filter.entries, ∀ other : Filter,
      castEntry schema other (entry.1, entry.2.listed.map (Value.encode schema entry.1))
        = .ok (other.insert entry.1 (entry.2.listed.map (Value.received schema entry.1))) := by
    intro entry hentry other
    have hoperands := (typed entry hentry).2.typed
    rw [← Condition.operands_listed] at hoperands
    rw [castEntry, Condition.cast_encode hoperands]
    rfl
  rw [hlisted, cast, FieldMap.mapEntries, List.foldlM_map]
  exact FieldMap.foldlM_insert hcast

/-- **A filter and what is received for it are lowered to one predicate**, or
refused for one reason. -/
theorem lower_received : (filter.received schema).lower = filter.lower := by
  have hentry : ∀ entry ∈ filter.entries, ∀ predicate,
      lowerEntry predicate (entry.1, entry.2.listed.map (Value.received schema entry.1))
        = lowerEntry predicate entry := by
    intro entry _ predicate
    have hlower : (entry.2.listed.map (Value.received schema entry.1)).lower
        (FieldName.native entry.1) = entry.2.lower (FieldName.native entry.1) := by
      rw [Condition.lower_map fun _ _ => Value.lower_received, Condition.lower_listed]
    simp only [lowerEntry, hlower]
  rw [lower, received, FieldMap.mapEntries, List.foldlM_map]
  exact Outcome.foldlM_congr hentry _

end Filter

/-! ### Queries on their way -/

namespace Query

/-- A query as it may be sent: its filter is, and its sort is plain. -/
structure Typed (schema : Schema) (query : Query) : Prop where
  filter : ∀ filter, query.filter = some filter → filter.Typed schema
  sort : ∀ sort, query.sort = some sort → sort.Plain

/-- A query with its values as a request has them. -/
def encode (schema : Schema) (query : Query) : Query :=
  { query with filter := query.filter.map (Filter.encode schema) }

variable {schema : Schema} {query : Query}

theorem Typed.plain_encode (typed : query.Typed schema) : (query.encode schema).Plain where
  filter filter h := by
    obtain ⟨original, horiginal, rfl⟩ := Option.map_eq_some_iff.1 h
    exact (typed.filter original horiginal).plain_encode
  sort := typed.sort

/-- **A query that is sent is classified as a query and cast**, to its own sort
and to what is received for its filter. -/
theorem Typed.cast_ofValue_spelling (κ : Type) [EntityKey κ] (typed : query.Typed schema) :
    ((Lookup.ofValue (.document (query.encode schema).spelling) : Outcome (Lookup κ))
        >>= Lookup.cast schema)
      = .ok (.byQuery ⟨query.filter.map (Filter.received schema), query.sort⟩) := by
  have hfilter : ((query.encode schema).filter.map Filter.listed).mapM (Filter.cast schema)
      = .ok (query.filter.map (Filter.received schema)) := by
    rw [encode, Option.map_map]
    cases h : query.filter with
    | none => rfl
    | some filter =>
      rw [Option.map_some, Option.mapM_some, Function.comp_apply,
        (typed.filter filter h).cast_listed_encode]
      rfl
  rw [ofValue_spelling typed.plain_encode, Outcome.ok_bind, Lookup.cast, hfilter]
  rfl

/-- A filter that was received is lowered as the one that was sent. -/
theorem lower?_received (filter : Option Filter) :
    Filter.lower? (filter.map (Filter.received schema)) = Filter.lower? filter := by
  cases filter with
  | none => rfl
  | some filter => exact Filter.lower_received

end Query

/-! ### Queries that arrive -/

namespace Repository

/-- **A query that is sent as a document does what the query does.** It is
classified as a query and cast; its filter is lowered to the same predicate, or
refused for the same reason; its sort is resolved in the same way; and reading
by the document is reading by the query. -/
theorem getDynamic_spelling {type : EntityType} {σ : Type} [Backend σ]
    (repository : Repository type) {query : Query} (typed : query.Typed repository.schema) :
    ∃ received : Query,
      ((Lookup.ofValue? (some (.document (query.encode repository.schema).spelling))
          : Outcome (Lookup type.Key)) >>= Lookup.cast repository.schema)
        = .ok (.byQuery received) ∧
      Filter.lower? received.filter = Filter.lower? query.filter ∧
      repository.defaults.resolve received.sort = repository.defaults.resolve query.sort ∧
      (repository.getDynamic (some (.document (query.encode repository.schema).spelling))
          : Action (Session σ) (Fetched type.Entity))
        = repository.get (.byQuery query) := by
  have hcast := typed.cast_ofValue_spelling type.Key
  obtain ⟨lookup, hlookup, hreceived⟩ := Outcome.bind_eq_ok_iff.1 hcast
  refine ⟨_, hcast, Query.lower?_received query.filter, rfl, ?_⟩
  have hget : (repository.get (.byQuery ⟨query.filter.map (Filter.received repository.schema),
      query.sort⟩) : Action (Session σ) (Fetched type.Entity)) = repository.get (.byQuery query) := by
    simp only [get, getByQuery, Query.lower?_received]
  rw [getDynamic, Lookup.ofValue?, Option.getD_some, hlookup, ← hget]
  show Action.ofOutcome (lookup.cast repository.schema) >>= repository.get = _
  rw [hreceived]
  rfl

/-- A repository of bookings, each of which is due at a time. -/
def bookings : Repository (.dynamic String) :=
  ⟨"bookings", ⟨[⟨"due", .date, true⟩, ⟨"owner", .objectId, false⟩]⟩, .standard⟩

/-- The query for one of two bookings of an owner, if it is due. -/
def due : Query where
  filter := some <| ((Filter.empty.require "due" (.within (.endingAt (.date ⟨10⟩)))).require
    "owner" (.equals (.objectId ⟨7, by decide⟩))).require
      "id" (.oneOf [.objectId ⟨1, by decide⟩, .objectId ⟨2, by decide⟩])
  sort := some ⟨["due"], none, some 0, some 20⟩

/-- The query for bookings that are due may be sent, with its date as a number
and its identifiers as texts, and finds what it finds when it is not sent. -/
theorem getDynamic_due :
    due.Typed bookings.schema ∧
    (due.encode bookings.schema).spelling
      = [("filter", .document [
            ("due", .document [("end", .int64 10)]),
            ("id", .array [.string "000000000000000000000001", .string "000000000000000000000002"]),
            ("owner", .string "000000000000000000000007")]),
          ("sort", .document [("property", .array [.string "due"]), ("offset", .int64 0),
            ("limit", .int64 20)])] ∧
    (bookings.getDynamic (some (.document (due.encode bookings.schema).spelling))
        : Action (Session MemoryStore) _)
      = bookings.get (.byQuery due) := by
  have typed : due.Typed bookings.schema := by
    constructor
    · rintro _ ⟨⟩
      refine List.forall_mem_cons.2 ⟨?_, List.forall_mem_cons.2 ⟨?_, List.forall_mem_singleton.2 ?_⟩⟩
      · exact ⟨by decide, ⟨by decide, by decide⟩, by decide⟩
      · exact ⟨by decide, ⟨by decide, by decide⟩, by decide⟩
      · exact ⟨by decide, ⟨by decide, by decide⟩, by decide⟩
    · rintro _ ⟨⟩
      exact ⟨by decide, by rintro _ ⟨⟩; decide, by rintro _ ⟨⟩; decide⟩
  obtain ⟨_, -, -, -, hget⟩ := getDynamic_spelling (σ := MemoryStore) bookings typed
  exact ⟨typed, rfl, hget⟩

end Repository

end RecordStore
