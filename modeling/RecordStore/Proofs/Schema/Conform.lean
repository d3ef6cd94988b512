import Mathlib.Data.List.Nodup
import RecordStore.Proofs.Entries
import RecordStore.Proofs.Outcome
import RecordStore.Schema.Basic

/-!
# What a schema lets through

Two characterizations. A schema passes its own check exactly when its names are
those of top-level fields, none of them is managed by a store, and no two are
equal (`RecordStore.Schema.check_eq_ok_iff`). A payload conforms to a schema
exactly when every declared field fits its declaration, and what is kept of it
then is what it supplies for the declared fields, in the order of their
declaration (`RecordStore.Schema.conform_eq_ok_iff`).
-/

namespace RecordStore

namespace Schema

/-! ### The check of a schema -/

/-- The names that a schema declares, in order. -/
def names (schema : Schema) : List String :=
  schema.fields.map FieldSchema.name

/-- Whether a name may be declared at all. -/
def Admissible (name : String) : Prop :=
  FieldName.isTopLevel name = true ∧ name ∉ FieldName.reserved

/-- A name has no fault when it is admissible and new. -/
theorem nameFault?_eq_none_iff {seen : List String} {name : String} :
    nameFault? seen name = none ↔ Admissible name ∧ name ∉ seen := by
  have htop : FieldName.isTopLevel name = true ↔ name ≠ "" ∧ FieldName.isPath name = false := by
    simp [FieldName.isTopLevel]
  rw [nameFault?, Admissible, htop]
  constructor
  · intro h
    split at h
    · exact absurd h (by simp)
    · rename_i hempty
      split at h
      · exact absurd h (by simp)
      · rename_i hpath
        split at h
        · exact absurd h (by simp)
        · rename_i hreserved
          split at h
          · exact absurd h (by simp)
          · rename_i hseen
            exact ⟨⟨⟨hempty, Bool.eq_false_iff.2 hpath⟩, hreserved⟩, hseen⟩
  · rintro ⟨⟨⟨hempty, hpath⟩, hreserved⟩, hseen⟩
    rw [if_neg hempty, if_neg (by rw [hpath]; exact Bool.false_ne_true), if_neg hreserved,
      if_neg hseen]

/-- **A schema has no fault** when all of its names are admissible and distinct. -/
theorem fault?_eq_none_iff {seen : List String} {fields : List FieldSchema} :
    fault? seen fields = none ↔
      (∀ field ∈ fields, Admissible field.name ∧ field.name ∉ seen) ∧
        (fields.map FieldSchema.name).Nodup := by
  induction fields generalizing seen with
  | nil => simp [fault?]
  | cons field rest ih =>
    rw [fault?, Option.or_eq_none_iff, nameFault?_eq_none_iff, ih, List.forall_mem_cons,
      List.map_cons, List.nodup_cons]
    constructor
    · -- the names seen later include this one, which keeps it from coming again
      rintro ⟨hfield, hrest, hnodup⟩
      refine ⟨⟨hfield, fun other hother => ⟨(hrest other hother).1, fun hseen => ?_⟩⟩, ?_, hnodup⟩
      · exact (hrest other hother).2 (List.mem_cons_of_mem _ hseen)
      · intro hmem
        obtain ⟨other, hother, heq⟩ := List.mem_map.1 hmem
        exact (hrest other hother).2 (heq ▸ List.mem_cons_self)
    · rintro ⟨⟨hfield, hrest⟩, hnew, hnodup⟩
      refine ⟨hfield, fun other hother => ⟨(hrest other hother).1, fun hmem => ?_⟩, hnodup⟩
      rcases List.mem_cons.1 hmem with heq | hseen
      · exact hnew (heq ▸ List.mem_map_of_mem hother)
      · exact (hrest other hother).2 hseen

/-- **A schema passes its check exactly when its names are admissible and
distinct.** -/
theorem check_eq_ok_iff {schema : Schema} :
    schema.check = .ok () ↔ (∀ name ∈ schema.names, Admissible name) ∧ schema.names.Nodup := by
  have hfault : schema.check = .ok () ↔ fault? [] schema.fields = none := by
    rw [check]
    cases fault? [] schema.fields <;> simp
  rw [hfault, fault?_eq_none_iff, names, List.forall_mem_map]
  simp

/-! ### Conforming to a schema -/

/-- Whether what a payload supplies for a field fits its declaration: a required
field is supplied, and what is supplied is of the declared kind. -/
structure Fits (payload : Document) (field : FieldSchema) : Prop where
  supplied : field.required = true → (supplied? payload field.name).isSome = true
  accepted : ∀ value, supplied? payload field.name = some value → field.kind.accepts value = true

/-- What a payload supplies for some declared fields, in the order of their
declaration. -/
def suppliedFields (payload : Document) (fields : List FieldSchema) : Document :=
  fields.filterMap fun field => (supplied? payload field.name).map fun value => (field.name, value)

/-- What a payload supplies for some fields comes field by field. -/
theorem suppliedFields_cons (payload : Document) (field : FieldSchema)
    (rest : List FieldSchema) :
    suppliedFields payload (field :: rest)
      = ((supplied? payload field.name).map fun value => (field.name, value)).toList
          ++ suppliedFields payload rest := by
  rw [suppliedFields, List.filterMap_cons]
  cases supplied? payload field.name <;> rfl

/-- **A payload passes at one field** exactly when it fits the declaration, and what is kept is
what it supplies. -/
theorem conformField_eq_ok_iff {payload : Document} {field : FieldSchema}
    {result : Option Value} :
    conformField payload field = .ok result ↔
      Fits payload field ∧ result = supplied? payload field.name := by
  rw [conformField]
  cases h : supplied? payload field.name with
  | none =>
    cases hrequired : field.required with
    | true =>
      simp only [if_true]
      refine ⟨fun h' => absurd h' (by simp), fun ⟨hfits, _⟩ => ?_⟩
      have hsome := hfits.supplied hrequired
      rw [h] at hsome
      exact absurd hsome (by simp)
    | false =>
      simp only [Bool.false_eq_true, if_false]
      refine ⟨fun h' => ⟨⟨?_, ?_⟩, (Except.ok.inj h').symm⟩, fun ⟨_, h'⟩ => h' ▸ rfl⟩
      · exact fun hcontra => absurd (hrequired.symm.trans hcontra) Bool.false_ne_true
      · exact fun value hvalue => absurd (h.symm.trans hvalue) (by simp)
  | some value =>
    by_cases haccepts : field.kind.accepts value = true
    · simp only [if_pos haccepts]
      refine ⟨fun h' => ⟨⟨?_, ?_⟩, (Except.ok.inj h').symm⟩, fun ⟨_, h'⟩ => h' ▸ rfl⟩
      · exact fun _ => by rw [h]; rfl
      · intro other hother
        rw [← Option.some.inj (h.symm.trans hother)]
        exact haccepts
    · simp only [if_neg haccepts]
      exact ⟨fun h' => absurd h' (by simp), fun ⟨hfits, _⟩ =>
        absurd (hfits.accepted value h) haccepts⟩

/-- **A payload passes at several fields** exactly when it fits all of their declarations, and
what it supplies is written in their order. -/
theorem conformFields_eq_ok_iff {payload written result : Document} {fields : List FieldSchema} :
    conformFields payload fields written = .ok result ↔
      (∀ field ∈ fields, Fits payload field) ∧
        result = written.insertAll (suppliedFields payload fields) := by
  induction fields generalizing written with
  | nil =>
    rw [conformFields]
    exact ⟨fun h => ⟨by simp, (Except.ok.inj h).symm⟩, fun h => h.2 ▸ rfl⟩
  | cons field rest ih =>
    rw [conformFields, Outcome.bind_eq_ok_iff, List.forall_mem_cons, suppliedFields_cons,
      Entries.insertAll, List.foldl_append]
    constructor
    · rintro ⟨supplied, hfield, hrest⟩
      obtain ⟨hfits, rfl⟩ := conformField_eq_ok_iff.1 hfield
      cases h : supplied? payload field.name with
      | none =>
        rw [h] at hrest
        obtain ⟨hall, hresult⟩ := ih.1 hrest
        exact ⟨⟨hfits, hall⟩, hresult⟩
      | some value =>
        rw [h] at hrest
        obtain ⟨hall, hresult⟩ := ih.1 hrest
        exact ⟨⟨hfits, hall⟩, hresult⟩
    · rintro ⟨⟨hfits, hall⟩, hresult⟩
      refine ⟨_, conformField_eq_ok_iff.2 ⟨hfits, rfl⟩, ?_⟩
      cases h : supplied? payload field.name with
      | none =>
        rw [h] at hresult
        exact ih.2 ⟨hall, hresult⟩
      | some value =>
        rw [h] at hresult
        exact ih.2 ⟨hall, hresult⟩

/-! ### The names of what is kept -/

/-- The names of what a payload supplies are those of the fields that it supplies, in the order
of their declaration. -/
theorem keys_suppliedFields (payload : Document) (fields : List FieldSchema) :
    (suppliedFields payload fields).keys
      = (fields.map FieldSchema.name).filter fun name => (supplied? payload name).isSome := by
  induction fields with
  | nil => rfl
  | cons field rest ih =>
    rw [suppliedFields_cons, Entries.keys_append, ih, List.map_cons, List.filter_cons]
    cases supplied? payload field.name <;> rfl

theorem nodup_keys_suppliedFields {fields : List FieldSchema}
    (h : (fields.map FieldSchema.name).Nodup) (payload : Document) :
    (suppliedFields payload fields).keys.Nodup := by
  rw [keys_suppliedFields]
  exact h.filter _

/-- What is kept under a declared name is what the payload supplies for it. -/
theorem get?_suppliedFields {payload : Document} {fields : List FieldSchema}
    {field : FieldSchema} (h : field ∈ fields) :
    (suppliedFields payload fields).get? field.name = supplied? payload field.name := by
  induction fields with
  | nil => simp at h
  | cons other rest ih =>
    rw [suppliedFields_cons, Entries.get?_append]
    -- of two declarations with one name the first is read, and both read the same
    by_cases hname : other.name = field.name
    · rw [hname]
      cases hsupplied : supplied? payload field.name with
      | some value =>
        rw [Option.map_some, Option.toList_some, Entries.get?_cons, if_pos rfl, Option.some_or]
      | none =>
        rw [Option.map_none, Option.toList_none, Entries.get?_nil, Option.none_or]
        rw [Entries.get?_eq_none_iff, keys_suppliedFields, List.mem_filter, hsupplied]
        simp
    · have hrest : field ∈ rest :=
        (List.mem_cons.1 h).resolve_left fun heq => hname (heq ▸ rfl)
      rw [ih hrest]
      cases supplied? payload other.name with
      | some value =>
        rw [Option.map_some, Option.toList_some, Entries.get?_cons, if_neg hname]
        rfl
      | none => rfl

/-- **A payload conforms to a checked schema exactly when every declared field
fits**, and what it supplies for these fields is then what is kept. -/
theorem conform_eq_ok_iff {schema : Schema} (checked : schema.check = .ok ())
    {payload result : Document} :
    schema.conform payload = .ok result ↔
      (∀ field ∈ schema.fields, Fits payload field) ∧
        result = suppliedFields payload schema.fields := by
  have hnodup := nodup_keys_suppliedFields (check_eq_ok_iff.1 checked).2 payload
  rw [conform, conformFields_eq_ok_iff]
  exact and_congr_right fun _ => by rw [← Entries.ofList, Entries.ofList_eq_self hnodup]

end Schema

end RecordStore
