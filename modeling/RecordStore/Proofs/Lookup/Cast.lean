import RecordStore.Proofs.Record.Prepared
import RecordStore.Proofs.Request.Agreement

/-!
# What casting does to a lookup

Casting goes through the filter of a lookup value by value. What becomes of a
value depends on nothing but the field that it is held against
(`RecordStore.Value.castOn`), and each value is cast, wherever it stands: as the
value that a field has to equal, as a member of a list, as a bound of a range.

So casting fails exactly when one of these values is a text that spells nothing
of the kind of its field, and it fails as the first of them does
(`RecordStore.Filter.failure?_cast`). When there is none, the lookup keeps its
form and its values are replaced one by one (`RecordStore.Lookup.Pointwise`), in
such a way that casting once more has nothing left to do
(`RecordStore.Lookup.cast_settles`).
-/

namespace RecordStore

/-! ### The kinds of fields -/

namespace Schema

/-- Whether a schema declares a field to be of a kind. -/
def Declares (schema : Schema) (name : String) (kind : FieldKind) : Prop :=
  ∃ field ∈ schema.fields, field.name = name ∧ field.kind = kind

/-- Whether a field holds dates: it is declared to, or it is one of the two times
that a store assigns. -/
def HoldsDates (schema : Schema) (name : String) : Prop :=
  schema.Declares name .date ∨ name = FieldName.createdAt ∨ name = FieldName.updatedAt

variable {schema : Schema} {name : String}

section Checked

variable (checked : schema.check = .ok ())
include checked

/-- No two declarations of a checked schema have one name. -/
theorem field?_eq_some_iff {field : FieldSchema} :
    schema.field? name = some field ↔ field ∈ schema.fields ∧ field.name = name := by
  have hfound : ∀ {found : FieldSchema}, schema.field? name = some found →
      found ∈ schema.fields ∧ found.name = name := by
    intro found h
    have hname := List.find?_some h
    exact ⟨List.mem_of_find?_eq_some h, of_decide_eq_true hname⟩
  refine ⟨hfound, fun ⟨hmem, hname⟩ => ?_⟩
  have hsome : (schema.field? name).isSome = true :=
    List.find?_isSome.2 ⟨field, hmem, decide_eq_true hname⟩
  obtain ⟨found, h⟩ := Option.isSome_iff_exists.1 hsome
  obtain ⟨hmem', hname'⟩ := hfound h
  rw [h, List.inj_on_of_nodup_map (check_eq_ok_iff.1 checked).2 hmem' hmem
    (hname'.trans hname.symm)]

theorem map_kind_field?_eq_some_iff {kind : FieldKind} :
    (schema.field? name).map FieldSchema.kind = some kind ↔ schema.Declares name kind := by
  simp only [Option.map_eq_some_iff, field?_eq_some_iff checked, Declares, and_assoc]

/-- What a store assigns is not declared. -/
theorem not_declares_of_reserved (h : name ∈ FieldName.reserved) (kind : FieldKind) :
    ¬ schema.Declares name kind := by
  rintro ⟨field, hfield, rfl, -⟩
  exact not_mem_names_of_reserved checked h (mem_names hfield)

/-- A cast to a date is due on declared date fields and on the timestamps. -/
theorem kindOf?_eq_date_iff : schema.kindOf? name = some .date ↔ schema.HoldsDates name := by
  rw [kindOf?, HoldsDates]
  split
  · rename_i h
    exact iff_of_true rfl (.inr h)
  · rename_i h
    rw [map_kind_field?_eq_some_iff checked, or_iff_left h]

/-- A cast to an identifier is due on declared identifier fields. -/
theorem kindOf?_eq_objectId_iff :
    schema.kindOf? name = some .objectId ↔ schema.Declares name .objectId := by
  rw [kindOf?]
  split
  · rename_i h
    have hreserved : name ∈ FieldName.reserved := by
      rcases h with rfl | rfl <;> decide
    exact iff_of_false nofun (not_declares_of_reserved checked hreserved _)
  · exact map_kind_field?_eq_some_iff checked

end Checked

end Schema

/-! ### A single value -/

namespace Value

/-- Casts a value that is held against a field. -/
def castOn (schema : Schema) (field : String) (value : Value) : Outcome Value :=
  match schema.kindOf? field with
  | some kind => value.cast field kind
  | none => .ok value

/-- What a value is replaced by, if it is not refused. -/
def recast (schema : Schema) (field : String) (value : Value) : Value :=
  (value.castOn schema field).toOption.getD value

/-- Whether a value is a text. -/
def isText : Value → Bool
  | string _ => true
  | _ => false

/-- Whether a value is an integer of either size. -/
def isInteger : Value → Bool
  | int32 _ | int64 _ => true
  | _ => false

/-- Whether a value is a text that spells nothing of the kind of a field, and what
is reported of it then. -/
inductive Misspells (schema : Schema) (field : String) : Value → QueryCause → Prop
  | date {text : String} : schema.HoldsDates field → Rfc3339.date? text = none →
      Misspells schema field (.string text) (.unreadableDate field)
  | objectId {text : String} : schema.Declares field .objectId → ObjectId.ofText? text = none →
      Misspells schema field (.string text) (.unreadableObjectId field)

/-- **What a value comes to on a field**: a text is read as what the field holds,
an integer on a field of dates counts milliseconds, and all else stays. -/
inductive Spells (schema : Schema) (field : String) : Value → Value → Prop
  | date {text : String} {d : Date} : schema.HoldsDates field → Rfc3339.date? text = some d →
      Spells schema field (.string text) (.date d)
  | millis32 (n : Int32) : schema.HoldsDates field →
      Spells schema field (.int32 n) (.date (.ofMillis n.toInt))
  | millis64 (n : Int64) : schema.HoldsDates field →
      Spells schema field (.int64 n) (.date ⟨n⟩)
  | objectId {text : String} {id : ObjectId} : schema.Declares field .objectId →
      ObjectId.ofText? text = some id → Spells schema field (.string text) (.objectId id)
  | itself {value : Value} :
      (schema.HoldsDates field → value.isText = false ∧ value.isInteger = false) →
      (schema.Declares field .objectId → value.isText = false) → Spells schema field value value

variable {schema : Schema} {field : String} {value result : Value}

/-- What was spelled spells itself. -/
theorem Spells.self (h : value.Spells schema field result) : result.Spells schema field result := by
  cases h with
  | itself hdates hid => exact .itself hdates hid
  | _ => exact .itself (fun _ => ⟨rfl, rfl⟩) (fun _ => rfl)

/-- What casting promises of a value and what it is cast to. -/
structure CastTo (schema : Schema) (field : String) (value result : Value) : Prop where
  spells : value.Spells schema field result
  /-- Neither a text nor an integer remains on a field of dates. -/
  dated : schema.HoldsDates field → result.isText = false ∧ result.isInteger = false
  /-- No text remains on a field of identifiers. -/
  identified : schema.Declares field .objectId → result.isText = false
  /-- On all other fields nothing changes. -/
  unchanged : ¬ schema.HoldsDates field → ¬ schema.Declares field .objectId → result = value

/-- What a value spells on a field is what it is to be cast to: a date, an identifier, or the
value itself where neither is due. -/
theorem Spells.castTo (h : value.Spells schema field result) :
    value.CastTo schema field result where
  spells := h
  dated hholds := by
    cases h with
    | itself hdates => exact hdates hholds
    | _ => exact ⟨rfl, rfl⟩
  identified hdeclares := by
    cases h with
    | itself _ hid => exact hid hdeclares
    | _ => rfl
  unchanged hdates hid := by
    cases h with
    | itself => rfl
    | objectId h => exact absurd h hid
    | _ => exact absurd ‹schema.HoldsDates field› hdates

/-- A value that can be cast is cast to its recast form. -/
theorem castOn_eq_ok_recast (h : (value.castOn schema field).failure? = none) :
    value.castOn schema field = .ok (value.recast schema field) := by
  rw [recast]
  cases hcast : value.castOn schema field with
  | ok result => rfl
  | error failure =>
    rw [hcast] at h
    cases h

section Checked

variable (checked : schema.check = .ok ())
include checked

/-- A field does not hold both dates and identifiers. -/
theorem not_holdsDates_of_declares (h : schema.Declares field .objectId) :
    ¬ schema.HoldsDates field := by
  rw [← Schema.kindOf?_eq_objectId_iff checked] at h
  rw [← Schema.kindOf?_eq_date_iff checked, h]
  decide

theorem castOn_of_holdsDates (h : schema.HoldsDates field) (value : Value) :
    value.castOn schema field = value.cast field .date := by
  rw [castOn, (Schema.kindOf?_eq_date_iff checked).2 h]

theorem castOn_of_declares (h : schema.Declares field .objectId) (value : Value) :
    value.castOn schema field = value.cast field .objectId := by
  rw [castOn, (Schema.kindOf?_eq_objectId_iff checked).2 h]

/-- On a field of neither kind every value is left as it is. -/
theorem castOn_of_neither (hdates : ¬ schema.HoldsDates field)
    (hid : ¬ schema.Declares field .objectId) (value : Value) :
    value.castOn schema field = .ok value := by
  rw [← Schema.kindOf?_eq_date_iff checked] at hdates
  rw [← Schema.kindOf?_eq_objectId_iff checked] at hid
  rw [castOn]
  cases hkind : schema.kindOf? field with
  | none => rfl
  | some kind =>
    cases kind with
    | date => exact absurd hkind hdates
    | objectId => exact absurd hkind hid
    | _ => rfl

/-- **A value is cast to what it spells.** -/
theorem castOn_of_spells (h : value.Spells schema field result) :
    value.castOn schema field = .ok result := by
  cases h with
  | date hdates hread => rw [castOn_of_holdsDates checked hdates, cast, hread]
  | millis32 n hdates => rw [castOn_of_holdsDates checked hdates, cast]
  | millis64 n hdates => rw [castOn_of_holdsDates checked hdates, cast]
  | objectId hid hread => rw [castOn_of_declares checked hid, cast, hread]
  | itself hdates hid =>
    -- on either kind of field it is a value that the kind leaves alone
    by_cases hholds : schema.HoldsDates field
    · obtain ⟨htext, hinteger⟩ := hdates hholds
      rw [castOn_of_holdsDates checked hholds]
      cases value with
      | string text => cases htext
      | int32 n => cases hinteger
      | int64 n => cases hinteger
      | _ => rfl
    · by_cases hdeclares : schema.Declares field .objectId
      · rw [castOn_of_declares checked hdeclares]
        cases value with
        | string text => cases hid hdeclares
        | _ => rfl
      · exact castOn_of_neither checked hholds hdeclares value

/-- **A misspelled value is refused.** -/
theorem castOn_of_misspells {cause : QueryCause} (h : value.Misspells schema field cause) :
    value.castOn schema field = .error (.invalidQuery cause) := by
  cases h with
  | date hdates hread => rw [castOn_of_holdsDates checked hdates, cast, hread]
  | objectId hid hread => rw [castOn_of_declares checked hid, cast, hread]

/-- Every value spells something or is misspelled. -/
theorem spells_or_misspells (field : String) (value : Value) :
    (∃ result, value.Spells schema field result) ∨ ∃ cause, value.Misspells schema field cause := by
  by_cases hdates : schema.HoldsDates field
  · have hid : ¬ schema.Declares field .objectId :=
      fun h => not_holdsDates_of_declares checked h hdates
    cases value with
    | string text =>
      cases hread : Rfc3339.date? text with
      | some d => exact .inl ⟨_, .date hdates hread⟩
      | none => exact .inr ⟨_, .date hdates hread⟩
    | int32 n => exact .inl ⟨_, .millis32 n hdates⟩
    | int64 n => exact .inl ⟨_, .millis64 n hdates⟩
    | _ => exact .inl ⟨_, .itself (fun _ => ⟨rfl, rfl⟩) (absurd · hid)⟩
  · by_cases hid : schema.Declares field .objectId
    · cases value with
      | string text =>
        cases hread : ObjectId.ofText? text with
        | some id => exact .inl ⟨_, .objectId hid hread⟩
        | none => exact .inr ⟨_, .objectId hid hread⟩
      | _ => exact .inl ⟨_, .itself (absurd · hdates) fun _ => rfl⟩
    · exact .inl ⟨value, .itself (absurd · hdates) (absurd · hid)⟩

/-- **Casting a value fails exactly when it misspells** a date or an identifier, and with the
cause of that. -/
theorem failure?_castOn_eq_some_iff {failure : Failure} :
    (value.castOn schema field).failure? = some failure ↔
      ∃ cause, value.Misspells schema field cause ∧ failure = .invalidQuery cause := by
  constructor
  · intro h
    rcases spells_or_misspells checked field value with ⟨result, hspells⟩ | ⟨cause, hmisspells⟩
    · rw [castOn_of_spells checked hspells] at h
      cases h
    · rw [castOn_of_misspells checked hmisspells] at h
      exact ⟨cause, hmisspells, (Option.some.inj h).symm⟩
  · rintro ⟨cause, hmisspells, rfl⟩
    rw [castOn_of_misspells checked hmisspells]
    rfl

/-- A value that can be cast spells its recast form. -/
theorem spells_recast (h : (value.castOn schema field).failure? = none) :
    value.Spells schema field (value.recast schema field) := by
  rcases spells_or_misspells checked field value with ⟨result, hspells⟩ | ⟨cause, hmisspells⟩
  · rw [recast, castOn_of_spells checked hspells]
    exact hspells
  · rw [castOn_of_misspells checked hmisspells] at h
    cases h

end Checked

end Value

/-! ### Lookups of one form -/

/-- Whether two ranges have the same bounds, with values that are related. -/
def Range.Pointwise (related : Value → Value → Prop) (range other : Range Value) : Prop :=
  Option.Rel related range.start other.start ∧ Option.Rel related range.stop other.stop

/-- Whether two conditions are of one form, with values that are related. -/
inductive Condition.Pointwise (related : Value → Value → Prop) : Condition → Condition → Prop
  | equals {value other : Value} : related value other →
      Pointwise related (.equals value) (.equals other)
  | oneOf {values others : List Value} : List.Forall₂ related values others →
      Pointwise related (.oneOf values) (.oneOf others)
  | within {range other : Range Value} : range.Pointwise related other →
      Pointwise related (.within range) (.within other)
  | withinAny {ranges others : List (Range Value)} :
      List.Forall₂ (Range.Pointwise related) ranges others →
      Pointwise related (.withinAny ranges) (.withinAny others)

/-- Whether two filters have conditions of one form on the same fields, with
values that are related on their field. -/
def Filter.Pointwise (related : String → Value → Value → Prop) (filter other : Filter) : Prop :=
  List.Forall₂ (fun entry entry' =>
    entry.1 = entry'.1 ∧ entry.2.Pointwise (related entry.1) entry'.2) filter.entries other.entries

/-- **Whether two lookups are of one form**, with values that are related on their
field: they ask for the same keys, or have filters of one form and the same
sort. -/
inductive Lookup.Pointwise {κ : Type} (related : String → Value → Value → Prop) :
    Lookup κ → Lookup κ → Prop
  | byId (key : κ) : Pointwise related (.byId key) (.byId key)
  | byIds (keys : List κ) : Pointwise related (.byIds keys) (.byIds keys)
  | byFilter {filter other : Filter} : filter.Pointwise related other →
      Pointwise related (.byFilter filter) (.byFilter other)
  | byQuery {filter other : Option Filter} (sort : Option Sorting) :
      Option.Rel (Filter.Pointwise related) filter other →
      Pointwise related (.byQuery ⟨filter, sort⟩) (.byQuery ⟨other, sort⟩)

/-- A range is related bound by bound to its image if each bound is related to its own. -/
theorem Range.pointwise_map {related : Value → Value → Prop} {f : Value → Value}
    {range : Range Value} (h : ∀ bound ∈ range.bounds, related bound (f bound)) :
    range.Pointwise related (range.map f) := by
  have hpart : ∀ part : Option Value, part.toList ⊆ range.bounds →
      Option.Rel related part (part.map f) := by
    intro part hpart
    cases part with
    | none => exact .none
    | some bound => exact .some (h bound (hpart (List.mem_singleton_self _)))
  exact ⟨hpart _ (List.subset_append_left _ _), hpart _ (List.subset_append_right _ _)⟩

namespace Condition

/-- A condition is related value by value to its image if each value is related to its own. -/
theorem pointwise_map {related : Value → Value → Prop} {f : Value → Value} {condition : Condition}
    (h : ∀ value ∈ condition.operands, related value (f value)) :
    condition.Pointwise related (condition.map f) := by
  cases condition with
  | equals value => exact .equals (h value (List.mem_singleton_self _))
  | oneOf values => exact .oneOf (List.forall₂_map_right_iff.2 (List.forall₂_same.2 h))
  | within range => exact .within (Range.pointwise_map h)
  | withinAny ranges =>
    refine .withinAny (List.forall₂_map_right_iff.2 (List.forall₂_same.2 fun range hrange => ?_))
    exact Range.pointwise_map fun bound hbound =>
      h bound (List.mem_flatMap.2 ⟨range, hrange, hbound⟩)

/-! ### Casting a condition -/

/-- Changing no value changes no condition. -/
theorem map_id (condition : Condition) : condition.map id = condition := by
  have hrange : Range.map (id : Value → Value) = id := by
    funext range
    rw [Range.map, Option.map_id, id_eq, id_eq, id_eq]
  cases condition with
  | equals value => rfl
  | oneOf values => rw [map, List.map_id]
  | within range => rw [map, hrange, id_eq]
  | withinAny ranges => rw [map, hrange, List.map_id]

/-- **Casting a condition casts each of its values**, also where there is nothing
to cast to. -/
theorem cast_eq_mapM (schema : Schema) (field : String) (condition : Condition) :
    condition.cast schema field = condition.mapM (Value.castOn schema field) := by
  rw [cast]
  cases hkind : schema.kindOf? field with
  | some kind =>
    have hcast : Value.castOn schema field = Value.cast field kind := by
      funext value
      rw [Value.castOn, hkind]
    rw [hcast]
  | none =>
    have hsame : ∀ value ∈ condition.operands,
        Value.castOn schema field (id value) = .ok (id value) := by
      intro value _
      rw [Value.castOn, hkind]
    have hmapM := mapM_map hsame
    rw [map_id] at hmapM
    exact hmapM.symm

/-- A condition none of whose values is refused is cast value by value. -/
theorem cast_eq_map_recast {schema : Schema} {field : String} {condition : Condition}
    (h : ∀ value ∈ condition.operands, (value.castOn schema field).failure? = none) :
    condition.cast schema field = .ok (condition.map (Value.recast schema field)) := by
  have hvalue : ∀ value ∈ condition.operands,
      Value.castOn schema field (id value) = .ok (Value.recast schema field value) :=
    fun value hvalue => Value.castOn_eq_ok_recast (h value hvalue)
  have hmapM := mapM_map hvalue
  rwa [map_id, ← cast_eq_mapM] at hmapM

end Condition

/-! ### The first value that is refused -/

/-- The first hit among the parts of some items is the first hit of the first item with one. -/
theorem findSome?_flatMap {α β γ : Type} (items : List α) (parts : α → List β)
    (f : β → Option γ) :
    (items.flatMap parts).findSome? f = items.findSome? fun item => (parts item).findSome? f := by
  induction items with
  | nil => rfl
  | cons item rest ih =>
    rw [List.flatMap_cons, List.findSome?_append, List.findSome?_cons, ih]
    rcases (parts item).findSome? f with _ | found <;> rfl

section Step

variable (step : Value → Outcome Value)

/-- A range fails as the first of its bounds that does, the lower one first. -/
theorem Range.failure?_mapM (range : Range Value) :
    (range.mapM step).failure? = range.bounds.findSome? fun bound => (step bound).failure? := by
  obtain ⟨start, stop⟩ := range
  have hstop : (stop.mapM step).failure?
      = stop.toList.findSome? fun bound => (step bound).failure? := by
    rcases stop with _ | bound
    · rfl
    · rw [Option.mapM_some, Outcome.failure?_map, Option.toList_some, List.findSome?_singleton]
  rcases start with _ | first
  · rw [mapM, bounds, Option.mapM_none, Outcome.pure_eq_ok, Outcome.ok_bind, Option.toList_none,
      List.nil_append, ← hstop]
    exact Outcome.failure?_map _ _
  · rw [mapM, bounds, Option.mapM_some, Option.toList_some, List.cons_append, List.nil_append,
      List.findSome?_cons]
    rcases step first with failure | result
    · rfl
    · rw [← hstop]
      exact Outcome.failure?_map _ _

/-- **A condition fails as the first of its values does.** -/
theorem Condition.failure?_mapM (condition : Condition) :
    (condition.mapM step).failure?
      = condition.operands.findSome? fun value => (step value).failure? := by
  cases condition with
  | equals value =>
    rw [mapM, Outcome.failure?_map, operands, List.findSome?_singleton]
  | oneOf values => rw [mapM, Outcome.failure?_map, Outcome.failure?_mapM, operands]
  | within range => rw [mapM, Outcome.failure?_map, Range.failure?_mapM, operands]
  | withinAny ranges =>
    rw [mapM, Outcome.failure?_map, Outcome.failure?_mapM, operands, findSome?_flatMap]
    simp only [Range.failure?_mapM]

end Step

/-! ### Casting a filter -/

namespace Filter

/-- Every value that a filter compares with, bounds of ranges included, and the
field that it is held against. -/
def comparisons (filter : Filter) : List (String × Value) :=
  filter.entries.flatMap fun entry => entry.2.operands.map fun value => (entry.1, value)

/-- Replaces each value of a filter, by the field that it is held against. -/
def mapValues (f : String → Value → Value) (filter : Filter) : Filter :=
  filter.mapEntries fun field condition => condition.map (f field)

variable {schema : Schema} {filter : Filter}

theorem mem_comparisons {entry : String × Condition} (hentry : entry ∈ filter.entries)
    {value : Value} (hvalue : value ∈ entry.2.operands) :
    (entry.1, value) ∈ filter.comparisons :=
  List.mem_flatMap.2 ⟨entry, hentry, List.mem_map_of_mem hvalue⟩

theorem mapValues_id (filter : Filter) : filter.mapValues (fun _ => id) = filter := by
  refine FieldMap.ext_entries ?_
  simp only [mapValues, FieldMap.mapEntries, Condition.map_id]
  exact List.map_id _

/-- **A filter fails as the first of its values does.** -/
theorem failure?_cast (schema : Schema) (filter : Filter) :
    (filter.cast schema).failure?
      = filter.comparisons.findSome? fun comparison =>
          (comparison.2.castOn schema comparison.1).failure? := by
  have hentry : ∀ (built : Filter) (entry : String × Condition),
      castEntry schema built entry
        = (fun part : String × Condition => built.require part.1 part.2)
            <$> ((entry.1, ·) <$> entry.2.cast schema entry.1) := by
    intro built entry
    rw [castEntry]
    rcases entry.2.cast schema entry.1 with failure | condition <;> rfl
  have hfirst := Outcome.failure?_foldlM hentry filter.entries Filter.empty
  rw [cast, hfirst, comparisons, findSome?_flatMap]
  simp only [Outcome.failure?_map, Condition.cast_eq_mapM, Condition.failure?_mapM,
    List.findSome?_map, Function.comp_def]

/-- **A filter that is cast** has every value replaced by what it is cast to. -/
theorem mapValues_recast_of_cast {result : Filter} (h : filter.cast schema = .ok result) :
    filter.mapValues (Value.recast schema) = result := by
  have hfailure : (filter.cast schema).failure? = none := by rw [h]; rfl
  rw [failure?_cast, List.findSome?_eq_none_iff] at hfailure
  have hentry : ∀ entry ∈ filter.entries, ∀ built : Filter,
      castEntry schema built entry
        = .ok (built.insert entry.1 (entry.2.map (Value.recast schema entry.1))) := by
    intro entry hentry built
    rw [castEntry, Condition.cast_eq_map_recast fun value hvalue =>
      hfailure _ (mem_comparisons hentry hvalue)]
    rfl
  have hcast : filter.cast schema = .ok (filter.mapValues (Value.recast schema)) :=
    FieldMap.foldlM_insert hentry
  exact Except.ok.inj (hcast.symm.trans h)

section Checked

variable (checked : schema.check = .ok ())
include checked

/-- **A filter of values that spell something is cast to what they spell.** -/
theorem cast_mapValues {f g : String → Value → Value}
    (h : ∀ entry ∈ filter.entries, ∀ value ∈ entry.2.operands,
      (f entry.1 value).Spells schema entry.1 (g entry.1 value)) :
    (filter.mapValues f).cast schema = .ok (filter.mapValues g) := by
  have hentry : ∀ entry ∈ filter.entries, ∀ built : Filter,
      castEntry schema built (entry.1, entry.2.map (f entry.1))
        = .ok (built.insert entry.1 (entry.2.map (g entry.1))) := by
    intro entry hentry built
    have hmapM := Condition.mapM_map fun value hvalue =>
      Value.castOn_of_spells checked (h entry hentry value hvalue)
    rw [castEntry, Condition.cast_eq_mapM, hmapM]
    rfl
  rw [cast, mapValues, FieldMap.mapEntries, List.foldlM_map]
  exact FieldMap.foldlM_insert hentry

/-- **A filter is refused for one of its values**, or it is cast to a filter of its
form, which casting leaves as it is. -/
theorem cast_cases (filter : Filter) :
    (∃ comparison ∈ filter.comparisons, ∃ cause,
      comparison.2.Misspells schema comparison.1 cause ∧
      filter.cast schema = .error (.invalidQuery cause)) ∨
    (∃ result, filter.cast schema = .ok result ∧ result.cast schema = .ok result ∧
      filter.Pointwise (Value.CastTo schema) result ∧
      ∀ comparison ∈ filter.comparisons, ∀ cause,
        ¬ comparison.2.Misspells schema comparison.1 cause) := by
  cases hfailure : (filter.cast schema).failure? with
  | some failure =>
    -- it is the failure of a value, and values fail in one way only
    have hfirst := hfailure
    rw [failure?_cast] at hfirst
    obtain ⟨comparison, hmem, hcast⟩ := List.exists_of_findSome?_eq_some hfirst
    obtain ⟨cause, hmisspells, rfl⟩ := (Value.failure?_castOn_eq_some_iff checked).1 hcast
    exact .inl ⟨comparison, hmem, cause, hmisspells, Outcome.eq_error_of_failure? hfailure⟩
  | none =>
    -- no value is refused, so each of them spells what it is replaced by
    right
    rw [failure?_cast, List.findSome?_eq_none_iff] at hfailure
    have hspells : ∀ entry ∈ filter.entries, ∀ value ∈ entry.2.operands,
        value.Spells schema entry.1 (value.recast schema entry.1) := by
      intro entry hentry value hvalue
      exact Value.spells_recast checked (hfailure _ (mem_comparisons hentry hvalue))
    refine ⟨filter.mapValues (Value.recast schema), ?_, ?_, ?_, ?_⟩
    · have hcast := cast_mapValues (f := fun _ => id) checked hspells
      rwa [mapValues_id] at hcast
    · exact cast_mapValues checked fun entry hentry value hvalue =>
        (hspells entry hentry value hvalue).self
    · refine List.forall₂_map_right_iff.2 (List.forall₂_same.2 fun entry hentry => ⟨rfl, ?_⟩)
      exact Condition.pointwise_map fun value hvalue => (hspells entry hentry value hvalue).castTo
    · intro comparison hmem cause hmisspells
      have hnone := hfailure comparison hmem
      rw [Value.castOn_of_misspells checked hmisspells] at hnone
      cases hnone

end Checked

end Filter

/-! ### Casting a lookup -/

namespace Lookup

variable {κ : Type} {schema : Schema}

/-- Every value that the filter of a lookup compares with, and the field that it is
held against. -/
def comparisons : Lookup κ → List (String × Value)
  | byFilter filter => filter.comparisons
  | byQuery query => (query.filter.map Filter.comparisons).getD []
  | _ => []

section Checked

variable (checked : schema.check = .ok ())
include checked

/-- A lookup misspells one of the values that it compares with, and its cast fails with the
cause of that; or it does not, and its cast succeeds, changes it value by value, and changes
nothing more when it is repeated. -/
theorem cast_cases (lookup : Lookup κ) :
    (∃ comparison ∈ lookup.comparisons, ∃ cause,
      comparison.2.Misspells schema comparison.1 cause ∧
      lookup.cast schema = .error (.invalidQuery cause)) ∨
    (∃ result, lookup.cast schema = .ok result ∧ result.cast schema = .ok result ∧
      lookup.Pointwise (Value.CastTo schema) result ∧
      ∀ comparison ∈ lookup.comparisons, ∀ cause,
        ¬ comparison.2.Misspells schema comparison.1 cause) := by
  have hempty : ∀ comparison ∈ ([] : List (String × Value)), ∀ cause,
      ¬ comparison.2.Misspells schema comparison.1 cause :=
    fun _ hmem => absurd hmem List.not_mem_nil
  cases lookup with
  | byId key => exact .inr ⟨.byId key, rfl, rfl, .byId key, hempty⟩
  | byIds keys => exact .inr ⟨.byIds keys, rfl, rfl, .byIds keys, hempty⟩
  | byFilter filter =>
    rcases Filter.cast_cases checked filter with
      ⟨comparison, hmem, cause, hmisspells, hcast⟩ | ⟨result, hcast, hagain, hform, hnone⟩
    · exact .inl ⟨comparison, hmem, cause, hmisspells, by rw [cast, hcast]; rfl⟩
    · exact .inr ⟨.byFilter result, by rw [cast, hcast]; rfl, by rw [cast, hagain]; rfl,
        .byFilter hform, hnone⟩
  | byQuery query =>
    obtain ⟨filter?, sort⟩ := query
    cases filter? with
    | none => exact .inr ⟨.byQuery ⟨none, sort⟩, rfl, rfl, .byQuery sort .none, hempty⟩
    | some filter =>
      rcases Filter.cast_cases checked filter with
        ⟨comparison, hmem, cause, hmisspells, hcast⟩ | ⟨result, hcast, hagain, hform, hnone⟩
      · exact .inl ⟨comparison, hmem, cause, hmisspells, by
          rw [cast, Option.mapM_some, hcast]; rfl⟩
      · exact .inr ⟨.byQuery ⟨some result, sort⟩, by rw [cast, Option.mapM_some, hcast]; rfl,
          by rw [cast, Option.mapM_some, hagain]; rfl, .byQuery sort (.some hform), hnone⟩

/-- **Casting settles a lookup.** It fails exactly when the lookup compares a field
with a text that spells nothing of what the field holds, and then says so of such a
text. Otherwise the result is of the same form, with each value cast to what its
field holds, and casting it again changes nothing. -/
theorem cast_settles (lookup : Lookup κ) :
    ((∃ failure, lookup.cast schema = .error failure) ↔
      ∃ comparison ∈ lookup.comparisons, ∃ cause,
        comparison.2.Misspells schema comparison.1 cause) ∧
    (∀ failure, lookup.cast schema = .error failure →
      ∃ comparison ∈ lookup.comparisons, ∃ cause,
        comparison.2.Misspells schema comparison.1 cause ∧ failure = .invalidQuery cause) ∧
    ∀ result, lookup.cast schema = .ok result →
      lookup.Pointwise (Value.CastTo schema) result ∧ result.cast schema = .ok result := by
  rcases cast_cases checked lookup with
    ⟨comparison, hmem, cause, hmisspells, hcast⟩ | ⟨result, hcast, hagain, hform, hnone⟩
  · refine ⟨iff_of_true ⟨_, hcast⟩ ⟨comparison, hmem, cause, hmisspells⟩, ?_, ?_⟩
    · intro failure hfailure
      rw [hcast] at hfailure
      exact ⟨comparison, hmem, cause, hmisspells, (Except.error.inj hfailure).symm⟩
    · intro result hresult
      rw [hcast] at hresult
      cases hresult
  · have hnever : ∀ failure, lookup.cast schema ≠ .error failure := by
      intro failure hfailure
      rw [hcast] at hfailure
      cases hfailure
    refine ⟨iff_of_false ?_ ?_, ?_, ?_⟩
    · rintro ⟨failure, hfailure⟩
      exact hnever failure hfailure
    · rintro ⟨comparison, hmem, cause, hmisspells⟩
      exact hnone comparison hmem cause hmisspells
    · intro failure hfailure
      exact absurd hfailure (hnever failure)
    · intro other hother
      rw [hcast] at hother
      cases hother
      exact ⟨hform, hagain⟩

end Checked

/-- A lookup of bookings, with a date as a number and an owner as a text. -/
def owned (owner : String) : Lookup String :=
  .byFilter ((Filter.empty.require "due" (.within (.endingAt (.int64 10)))).require "owner"
    (.oneOf [.null, .string owner]))

/-- The date and the owner of the lookup are read, and read once, while a text that
is no identifier is refused. -/
theorem cast_settles_owned :
    let schema := Repository.bookings.schema
    let read := Lookup.byFilter ((Filter.empty.require "due" (.within (.endingAt
      (.date ⟨10⟩)))).require "owner" (.oneOf [.null, .objectId ⟨7, by decide⟩]))
    schema.check = .ok () ∧
    (owned "000000000000000000000007").cast schema = .ok read ∧ read.cast schema = .ok read ∧
    ∃ failure, (owned "nobody").cast schema = .error failure := by
  intro schema read
  have checked : schema.check = .ok () := by decide
  have hread : (owned "000000000000000000000007").cast schema = .ok read := rfl
  refine ⟨checked, hread, ((cast_settles checked (owned _)).2.2 read hread).2, ?_⟩
  refine (cast_settles checked (owned "nobody")).1.2 ⟨("owner", .string "nobody"), ?_, _,
    .objectId ⟨⟨"owner", .objectId, false⟩, by decide, rfl, rfl⟩ (by decide)⟩
  exact List.mem_append_right _ (.tail _ (.head _))

end Lookup

end RecordStore
