import RecordStore.Proofs.Record.Prepared
import RecordStore.Proofs.Schema.Conform

/-!
# What conforming to a schema returns

Conforming reads a payload declaration by declaration, and knows of it only what it
supplies for the declared names (`RecordStore.Schema.conform_congr`). It fails at the
first declaration that the payload offends against, for the cause that this one gives
(`RecordStore.Schema.conform_eq_error_iff`). If there is none, each supplied
value is written under its name, so that the result supplies what the payload does
and nothing else; conforming it again reads the same and writes the same
(`RecordStore.Schema.conform_outcome`).

This holds of every schema, whether it passes its own check or not. Where a name is
declared twice, it is written twice and keeps its first place.
-/

namespace RecordStore

namespace Schema

variable {schema : Schema} {payload other : Document}

/-! ### What a payload supplies -/

theorem supplied?_eq_some_iff {name : String} {value : Value} :
    supplied? payload name = some value ↔ payload.get? name = some value ∧ value ≠ .null := by
  rw [supplied?, Option.filter_eq_some_iff]
  cases value <;> simp [Value.isNull]

/-- A payload supplies what it reads, unless that is null. -/
theorem supplied?_eq_of_read_eq {name : String} (h : other.read name = payload.read name) :
    supplied? other name = supplied? payload name := by
  have hread : ∀ (document : Document) value,
      supplied? document name = some value ↔ document.read name = value ∧ value ≠ .null := by
    intro document value
    rw [supplied?_eq_some_iff, Document.read]
    rcases document.get? name with _ | found
    · simp +contextual [eq_comm]
    · simp
  refine Option.ext fun value => ?_
  rw [hread, hread, h]

theorem mem_suppliedFields {fields : List FieldSchema} {entry : String × Value}
    (h : entry ∈ suppliedFields payload fields) : supplied? payload entry.1 = some entry.2 := by
  obtain ⟨field, -, hfield⟩ := List.mem_filterMap.1 h
  obtain ⟨value, hvalue, rfl⟩ := Option.map_eq_some_iff.1 hfield
  exact hvalue

/-- **Conforming knows of a payload only what it supplies** for the declared names. -/
theorem conform_congr
    (h : ∀ name ∈ schema.names, supplied? other name = supplied? payload name) :
    schema.conform other = schema.conform payload := by
  suffices hfields : ∀ fields written,
      (∀ field ∈ fields, supplied? other field.name = supplied? payload field.name) →
        conformFields other fields written = conformFields payload fields written from
    hfields schema.fields [] fun field hfield => h field.name (mem_names hfield)
  intro fields
  induction fields with
  | nil => exact fun _ _ => rfl
  | cons field rest ih =>
    intro written hsupplied
    obtain ⟨hfield, hrest⟩ := List.forall_mem_cons.1 hsupplied
    have hconform : conformField other field = conformField payload field := by
      rw [conformField, conformField, hfield]
    rw [conformFields, conformFields, hconform]
    refine congrArg _ (funext fun supplied => ?_)
    cases supplied with
    | none => exact ih written hrest
    | some value => exact ih _ hrest

/-! ### Failing -/

/-- What a payload does wrong about a declared field, and the cause that is given. -/
inductive Offends (payload : Document) (field : FieldSchema) : ValidationCause → Prop
  /-- The field is required, and absent or null. -/
  | missing : field.required = true → supplied? payload field.name = none →
      Offends payload field (.required field.name)
  /-- The field holds a value that is not of its kind. -/
  | mistyped {value : Value} : supplied? payload field.name = some value →
      field.kind.accepts value = false →
        Offends payload field (.mistyped field.name field.kind value.kind)

/-- **A payload is refused at one field** exactly when it offends the declaration, and with the
cause of that. -/
theorem failure?_conformField_eq_some_iff {field : FieldSchema} {failure : Failure} :
    (conformField payload field).failure? = some failure ↔
      ∃ cause, Offends payload field cause ∧ failure = .validation cause := by
  rw [conformField]
  constructor
  · intro h
    split at h
    · rename_i hnone
      split at h
      · rename_i hrequired
        exact ⟨_, .missing hrequired hnone, (Option.some.inj h).symm⟩
      · cases h
    · rename_i value hsome
      split at h
      · cases h
      · rename_i hrefused
        exact ⟨_, .mistyped hsome (Bool.eq_false_iff.2 hrefused), (Option.some.inj h).symm⟩
  · rintro ⟨cause, ⟨hrequired, hnone⟩ | ⟨hsome, hrefused⟩, rfl⟩
    · simp [hnone, hrequired]
    · simp [hsome, hrefused]

/-- A payload is not refused at a field exactly when it fits the declaration. -/
theorem failure?_conformField_eq_none_iff {field : FieldSchema} :
    (conformField payload field).failure? = none ↔ Fits payload field := by
  rcases h : conformField payload field with failure | supplied
  · refine iff_of_false (by simp) fun hfits => ?_
    rw [conformField_eq_ok_iff.2 ⟨hfits, rfl⟩] at h
    cases h
  · exact iff_of_true rfl (conformField_eq_ok_iff.1 h).1

/-- A payload is refused at the first field that it offends. -/
theorem failure?_conformFields (fields : List FieldSchema) (written : Document) :
    (conformFields payload fields written).failure?
      = fields.findSome? fun field => (conformField payload field).failure? := by
  induction fields generalizing written with
  | nil => rfl
  | cons field rest ih =>
    rw [conformFields, List.findSome?_cons]
    rcases conformField payload field with failure | supplied
    · rfl
    · rw [Outcome.ok_bind, Outcome.failure?_ok]
      cases supplied <;> exact ih _

/-- **Conforming fails at the first declaration that is offended against.** -/
theorem conform_eq_error_iff {failure : Failure} :
    schema.conform payload = .error failure ↔
      ∃ before field after cause, schema.fields = before ++ field :: after ∧
        (∀ earlier ∈ before, Fits payload earlier) ∧ Offends payload field cause ∧
          failure = .validation cause := by
  have hfailure : schema.conform payload = .error failure ↔
      (conformFields payload schema.fields []).failure? = some failure :=
    ⟨fun h => congrArg Outcome.failure? h, Outcome.eq_error_of_failure?⟩
  rw [hfailure, failure?_conformFields, List.findSome?_eq_some_iff]
  simp only [failure?_conformField_eq_some_iff, failure?_conformField_eq_none_iff]
  constructor
  · rintro ⟨before, field, after, hfields, ⟨cause, hoffends, hcause⟩, hbefore⟩
    exact ⟨before, field, after, cause, hfields, hbefore, hoffends, hcause⟩
  · rintro ⟨before, field, after, cause, hfields, hbefore, hoffends, hcause⟩
    exact ⟨before, field, after, hfields, ⟨cause, hoffends, hcause⟩, hbefore⟩

/-! ### Succeeding -/

theorem conform_eq_ok_iff_ofList {result : Document} :
    schema.conform payload = .ok result ↔
      (∀ field ∈ schema.fields, Fits payload field) ∧
        result = Entries.ofList (suppliedFields payload schema.fields) :=
  conformFields_eq_ok_iff

/-- What conforms has the declared names that the payload supplies. -/
theorem keys_of_conform {result : Document} (h : schema.conform payload = .ok result) :
    result.keys = (schema.names.filter fun name => (supplied? payload name).isSome).eraseDups := by
  obtain ⟨-, rfl⟩ := conform_eq_ok_iff_ofList.1 h
  rw [Entries.keys_ofList, keys_suppliedFields, names]

/-- Conforming keeps what a payload supplies for the declared names, and leaves its
values as they are. -/
theorem get?_of_conform {result : Document} (h : schema.conform payload = .ok result)
    {name : String} (hname : name ∈ result.keys) : result.get? name = payload.get? name := by
  obtain ⟨-, rfl⟩ := conform_eq_ok_iff_ofList.1 h
  rcases hget : Entries.get? (Entries.ofList (suppliedFields payload schema.fields)) name
    with _ | value
  · exact absurd hname (Entries.get?_eq_none_iff.1 hget)
  · rcases Entries.mem_of_get?_insertAll hget with hnil | hmem
    · cases hnil
    · exact (supplied?_eq_some_iff.1 (mem_suppliedFields hmem)).1.symm

/-- What conforms supplies for a declared name what the payload did. -/
theorem supplied?_of_conform {result : Document} (h : schema.conform payload = .ok result)
    {name : String} (hname : name ∈ schema.names) :
    supplied? result name = supplied? payload name := by
  by_cases hsupplied : (supplied? payload name).isSome = true
  · have hkey : name ∈ result.keys := by
      rw [keys_of_conform h, List.mem_eraseDups, List.mem_filter]
      exact ⟨hname, hsupplied⟩
    rw [supplied?, supplied?, get?_of_conform h hkey]
  · have hkey : name ∉ result.keys := by
      rw [keys_of_conform h, List.mem_eraseDups, List.mem_filter]
      exact fun hmem => hsupplied hmem.2
    rw [supplied?, Entries.get?_eq_none_iff.2 hkey, Option.filter_none]
    exact (Option.not_isSome_iff_eq_none.1 hsupplied).symm

/-- **What conforming to a schema returns.** It succeeds exactly when every declared
field fits, and fails for the first one that does not. What it returns has the
declared names that the payload supplies, once and in the order of their declaration,
with the values of the payload, and conforms to itself. And two payloads that read
the same under the declared names are treated the same. -/
theorem conform_outcome (schema : Schema) (payload : Document) :
    ((∃ result, schema.conform payload = .ok result) ↔
      ∀ field ∈ schema.fields, Fits payload field) ∧
    (∀ failure, schema.conform payload = .error failure ↔
      ∃ before field after cause, schema.fields = before ++ field :: after ∧
        (∀ earlier ∈ before, Fits payload earlier) ∧ Offends payload field cause ∧
          failure = .validation cause) ∧
    (∀ result, schema.conform payload = .ok result →
      result.keys
          = (schema.names.filter fun name => (supplied? payload name).isSome).eraseDups ∧
        (∀ name ∈ result.keys, result.get? name = payload.get? name) ∧
        schema.conform result = .ok result) ∧
    ∀ other : Document, (∀ name ∈ schema.names, other.read name = payload.read name) →
      schema.conform other = schema.conform payload := by
  refine ⟨?_, fun failure => conform_eq_error_iff, fun result h => ⟨?_, ?_, ?_⟩, ?_⟩
  · constructor
    · rintro ⟨result, h⟩
      exact (conform_eq_ok_iff_ofList.1 h).1
    · intro hfits
      exact ⟨_, conform_eq_ok_iff_ofList.2 ⟨hfits, rfl⟩⟩
  · exact keys_of_conform h
  · intro name hname
    exact get?_of_conform h hname
  · rw [← h]
    exact conform_congr fun name hname => supplied?_of_conform h hname
  · intro other hread
    exact conform_congr fun name hname => supplied?_eq_of_read_eq (hread name hname)

/-- The schema of a film that may have been rated. -/
def film : Schema :=
  ⟨[⟨"title", .string, true⟩, ⟨"stars", .number, false⟩]⟩

/-- A film without a rating. -/
def unrated : Document :=
  [("title", .string "M")]

/-- The same film, with what says that there is no rating and with a stray field. -/
def saidUnrated : Document :=
  [("stars", .null), ("seen", .bool true), ("title", .string "M")]

/-- Of either document the title is kept, and nothing else. -/
theorem conform_saidUnrated :
    ∃ result, film.conform saidUnrated = .ok result ∧ result.keys = ["title"] ∧
      film.conform result = .ok result ∧ film.conform unrated = .ok result := by
  have hresult : film.conform saidUnrated = .ok [("title", .string "M")] := rfl
  obtain ⟨-, -, hkept, hsame⟩ := conform_outcome film saidUnrated
  obtain ⟨hkeys, -, hagain⟩ := hkept _ hresult
  have hread : ∀ name ∈ film.names, unrated.read name = saidUnrated.read name :=
    List.forall_mem_cons.2 ⟨rfl, List.forall_mem_singleton.2 rfl⟩
  exact ⟨_, hresult, hkeys, hagain, (hsame _ hread).trans hresult⟩

end Schema

end RecordStore
