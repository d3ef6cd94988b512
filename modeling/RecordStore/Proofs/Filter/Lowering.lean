import RecordStore.Filter.Lowering
import RecordStore.Proofs.Entries
import RecordStore.Proofs.Outcome

/-!
# What a lowered filter holds

Lowering goes through the conditions of a filter one by one and fails at the
first that is refused. When none is, the result is a fold without failures
(`RecordStore.Filter.lower_eq_ok_iff`), and what it assigns can be read off the
filter (`RecordStore.Filter.get?_lower`): each field has the clause of its
condition, except that the two names of the identifier share one place. The
condition on `id` is lowered after the one on `_id`, because its name is the
greater, and takes the place if it asks anything. A filter that is refused is
refused for the first of its conditions, in the order of their names, that is
(`RecordStore.Filter.lower_eq_error_iff`).
-/

namespace RecordStore

namespace FieldMap

variable {α : Type}

/-- Assigns a value to a name if there is one to assign. -/
def insert? (map : FieldMap α) (key : String) : Option α → FieldMap α
  | some value => map.insert key value
  | none => map

/-- An optional write is read back if there is something to write. -/
theorem get?_insert? (map : FieldMap α) (key : String) (value : Option α) (other : String) :
    (map.insert? key value).get? other
      = if key = other then value.or (map.get? other) else map.get? other := by
  cases value with
  | none => simp [insert?]
  | some value => simp [insert?, get?_insert]

end FieldMap

namespace Condition

/-- The clause that a condition puts on a field of a record, if it is accepted
and asks anything. -/
def clause? (field : String) (condition : Condition) : Option Clause :=
  match condition.lower field with
  | .ok clause => clause
  | .error _ => none

theorem clause?_eq_of_lower {field : String} {condition : Condition} {clause : Option Clause}
    (h : condition.lower field = .ok clause) : condition.clause? field = clause := by
  rw [clause?, h]

/-- Whether a condition asks anything: an empty list does not. -/
def asks : Condition → Bool
  | oneOf values => !values.isEmpty
  | withinAny ranges => !ranges.isEmpty
  | _ => true

/-- A condition that can be lowered has a clause exactly when it asks for anything. -/
theorem isSome_of_lower {field : String} {condition : Condition} {clause : Option Clause}
    (h : condition.lower field = .ok clause) : clause.isSome = condition.asks := by
  cases condition with
  | equals value =>
    rw [← Except.ok.inj h]
    rfl
  | oneOf values =>
    rw [← Except.ok.inj h, asks]
    cases values <;> rfl
  | within range =>
    obtain ⟨bounds, -, h⟩ := Outcome.bind_eq_ok_iff.1 h
    rw [← Except.ok.inj h]
    rfl
  | withinAny ranges =>
    rw [lower] at h
    cases ranges with
    | nil =>
      rw [← Except.ok.inj h]
      rfl
    | cons range rest =>
      obtain ⟨alternatives, -, h⟩ := Outcome.bind_eq_ok_iff.1 h
      rw [← Except.ok.inj h]
      rfl

end Condition

namespace Filter

/-- Whether a condition on a publicly named field is accepted: the name is that
of a top-level field, and no range lacks both bounds. -/
def Lowerable (entry : String × Condition) : Prop :=
  FieldName.isTopLevel entry.1 = true ∧
    ∃ clause, entry.2.lower (FieldName.native entry.1) = .ok clause

/-- Adds the clause of a condition that is known to be accepted. -/
def addClause (predicate : Predicate) (entry : String × Condition) : Predicate :=
  predicate.insert? (FieldName.native entry.1) (entry.2.clause? (FieldName.native entry.1))

/-! ### Lowering without failures -/

/-- One step of lowering succeeds when the condition can be lowered, and adds its clause. -/
theorem lowerEntry_eq_ok_iff {predicate result : Predicate} {entry : String × Condition} :
    lowerEntry predicate entry = .ok result ↔
      Lowerable entry ∧ result = addClause predicate entry := by
  rw [lowerEntry, Outcome.bind_eq_ok_iff]
  constructor
  · rintro ⟨⟨⟩, hname, h⟩
    obtain ⟨clause, hclause, h⟩ := Outcome.bind_eq_ok_iff.1 h
    refine ⟨⟨FieldName.check_eq_ok_iff.1 hname, clause, hclause⟩, ?_⟩
    rw [addClause, Condition.clause?_eq_of_lower hclause]
    cases clause with
    | none => exact (Except.ok.inj h).symm
    | some clause => exact (Except.ok.inj h).symm
  · rintro ⟨⟨hname, clause, hclause⟩, rfl⟩
    refine ⟨(), FieldName.check_eq_ok_iff.2 hname,
      Outcome.bind_eq_ok_iff.2 ⟨clause, hclause, ?_⟩⟩
    rw [addClause, Condition.clause?_eq_of_lower hclause]
    cases clause with
    | none => rfl
    | some clause => rfl

/-- Lowering succeeds when all conditions can be lowered, and adds their clauses one after the
other. -/
theorem foldlM_lowerEntry_eq_ok_iff {entries : Entries Condition} {predicate result : Predicate} :
    entries.foldlM lowerEntry predicate = .ok result ↔
      (∀ entry ∈ entries, Lowerable entry) ∧ result = entries.foldl addClause predicate := by
  induction entries generalizing predicate with
  | nil =>
    rw [List.foldlM_nil, Outcome.pure_eq_ok]
    constructor
    · intro h
      exact ⟨by simp, (Except.ok.inj h).symm⟩
    · rintro ⟨-, rfl⟩
      rfl
  | cons entry rest ih =>
    rw [List.foldlM_cons, Outcome.bind_eq_ok_iff, List.forall_mem_cons, List.foldl_cons]
    constructor
    · rintro ⟨next, hnext, h⟩
      obtain ⟨hentry, rfl⟩ := lowerEntry_eq_ok_iff.1 hnext
      obtain ⟨hrest, h⟩ := ih.1 h
      exact ⟨⟨hentry, hrest⟩, h⟩
    · rintro ⟨⟨hentry, hrest⟩, h⟩
      exact ⟨_, lowerEntry_eq_ok_iff.2 ⟨hentry, rfl⟩, ih.2 ⟨hrest, h⟩⟩

/-- **A filter is accepted when each of its conditions is**, and lowering it
then adds their clauses one after the other. -/
theorem lower_eq_ok_iff {filter : Filter} {predicate : Predicate} :
    filter.lower = .ok predicate ↔
      (∀ entry ∈ filter.entries, Lowerable entry) ∧
        predicate = filter.entries.foldl addClause Predicate.empty :=
  foldlM_lowerEntry_eq_ok_iff

/-! ### The clause of a field

The fold overwrites only at the place that `id` and `_id` share. Away from it, a
field has the clause of its own condition, whatever the order of the entries; at
it, the order decides, and the entries are sorted. -/

/-- The clause that the condition on a publicly named field comes to. -/
def clause? (conditions : Entries Condition) (name : String) : Option Clause :=
  (conditions.get? name).bind (Condition.clause? (FieldName.native name))

/-- The clause of a name comes from the first condition on the name. -/
theorem clause?_cons (name : String) (condition : Condition) (rest : Entries Condition)
    (key : String) :
    clause? ((name, condition) :: rest) key
      = if name = key then condition.clause? (FieldName.native key) else clause? rest key := by
  rw [clause?, Entries.get?_cons]
  split <;> rfl

theorem clause?_eq_none {conditions : Entries Condition} {name : String}
    (h : name ∉ conditions.keys) : clause? conditions name = none := by
  rw [clause?, Entries.get?_eq_none_iff.2 h]
  rfl

/-- A clause is added under the native name of its field, and leaves the others alone. -/
theorem get?_addClause (predicate : Predicate) (entry : String × Condition) (field : String) :
    (addClause predicate entry).get? field
      = if FieldName.native entry.1 = field then
          (entry.2.clause? field).or (predicate.get? field)
        else predicate.get? field := by
  rw [addClause, FieldMap.get?_insert?]
  split
  · rename_i h
    rw [h]
  · rfl

/-- Only the public id is stored under another name. -/
theorem native_eq_self {name : String} (h : name ≠ FieldName.publicId) :
    FieldName.native name = name :=
  if_neg h

theorem native_publicId : FieldName.native FieldName.publicId = FieldName.nativeId :=
  if_pos rfl

/-- Only the public name of the identifier has another native name. -/
theorem native_ne {name field : String} (hid : field ≠ FieldName.nativeId) (h : name ≠ field) :
    FieldName.native name ≠ field := by
  by_cases hname : name = FieldName.publicId
  · rw [hname]
    exact Ne.symm hid
  · rw [native_eq_self hname]
    exact h

/-- No clause is ever put on the public name of the identifier. -/
theorem get?_foldl_publicId (entries : Entries Condition) (predicate : Predicate) :
    (entries.foldl addClause predicate).get? FieldName.publicId
      = predicate.get? FieldName.publicId := by
  induction entries generalizing predicate with
  | nil => rfl
  | cons entry rest ih =>
    rw [List.foldl_cons, ih, get?_addClause, if_neg (FieldName.native_ne_publicId entry.1)]

/-- On any field but the identifier a predicate has the clause of the filter, as no other name
becomes the name of the field. -/
theorem get?_foldl_of_ne {entries : Entries Condition} (hnodup : entries.keys.Nodup)
    (predicate : Predicate) {field : String} (hpublic : field ≠ FieldName.publicId)
    (hnative : field ≠ FieldName.nativeId) :
    (entries.foldl addClause predicate).get? field
      = (clause? entries field).or (predicate.get? field) := by
  induction entries generalizing predicate with
  | nil => rfl
  | cons entry rest ih =>
    obtain ⟨name, condition⟩ := entry
    obtain ⟨hname, hrest⟩ := List.nodup_cons.1 hnodup
    rw [List.foldl_cons, ih hrest, get?_addClause, clause?_cons]
    by_cases h : name = field
    · -- the names are distinct, so no later condition is about this field
      subst h
      rw [if_pos (native_eq_self hpublic), if_pos rfl, clause?_eq_none hname,
        native_eq_self hpublic, Option.none_or]
    · rw [if_neg (native_ne hnative h), if_neg h]

/-- At the native name of the identifier, the condition on the public name comes
first, and the one on the native name counts where that asks nothing. -/
theorem get?_foldl_nativeId {entries : Entries Condition}
    (hsorted : entries.Pairwise fun a b => a.1 < b.1) (predicate : Predicate) :
    (entries.foldl addClause predicate).get? FieldName.nativeId
      = ((clause? entries FieldName.publicId).or (clause? entries FieldName.nativeId)).or
          (predicate.get? FieldName.nativeId) := by
  induction entries generalizing predicate with
  | nil => rfl
  | cons entry rest ih =>
    obtain ⟨name, condition⟩ := entry
    obtain ⟨hlt, hrest⟩ := List.pairwise_cons.1 hsorted
    -- a name that is not greater than the first one is not among the others
    have habsent : ∀ key, ¬ name < key → clause? rest key = none := fun key hkey =>
      clause?_eq_none fun hmem => by
        obtain ⟨entry, hentry, rfl⟩ := List.mem_map.1 hmem
        exact hkey (hlt entry hentry)
    rw [List.foldl_cons, ih hrest, get?_addClause, clause?_cons, clause?_cons]
    by_cases hpublic : name = FieldName.publicId
    · -- `_id` is less than `id`, so it was passed before and cannot follow
      subst hpublic
      have hne : FieldName.publicId ≠ FieldName.nativeId := by decide
      rw [habsent _ (String.lt_irrefl _), habsent FieldName.nativeId (by decide), if_pos rfl,
        if_neg hne, native_publicId, if_pos rfl, Option.none_or, Option.none_or, Option.or_none]
    · by_cases hnative : name = FieldName.nativeId
      · subst hnative
        rw [habsent _ (String.lt_irrefl _), if_neg hpublic, if_pos rfl, Option.or_none]
        exact (Option.or_assoc ..).symm
      · rw [if_neg hpublic, if_neg hnative, native_eq_self hpublic, if_neg hnative]

/-- **The clause of each field in the predicate of a filter.** -/
theorem get?_lower {filter : Filter} {predicate : Predicate}
    (accepted : filter.lower = .ok predicate) (field : String) :
    predicate.get? field
      = if field = FieldName.publicId then none
        else if field = FieldName.nativeId then
          (clause? filter.entries FieldName.publicId).or
            (clause? filter.entries FieldName.nativeId)
        else clause? filter.entries field := by
  obtain ⟨-, rfl⟩ := lower_eq_ok_iff.1 accepted
  split
  · rename_i h
    rw [h, get?_foldl_publicId]
    rfl
  · rename_i hpublic
    split
    · rename_i h
      rw [h, get?_foldl_nativeId filter.sorted]
      exact Option.or_none
    · rename_i hnative
      rw [get?_foldl_of_ne filter.nodup_keys _ hpublic hnative]
      exact Option.or_none

/-- The predicate of a filter has clauses on top-level fields only. -/
theorem isTopLevel_of_mem_lower {filter : Filter} {predicate : Predicate}
    (accepted : filter.lower = .ok predicate) {entry : String × Clause}
    (hentry : entry ∈ predicate.entries) : FieldName.isTopLevel entry.1 = true := by
  have hget : predicate.get? entry.1 = some entry.2 := FieldMap.mem_entries_iff.1 hentry
  rw [get?_lower accepted] at hget
  by_cases hpublic : entry.1 = FieldName.publicId
  · simp [hpublic] at hget
  · -- `_id` is a name of this kind, and any other field is named by its own condition
    by_cases hnative : entry.1 = FieldName.nativeId
    · rw [hnative]
      decide
    · rw [if_neg hpublic, if_neg hnative, clause?] at hget
      obtain ⟨condition, hcondition, -⟩ := Option.bind_eq_some_iff.1 hget
      exact ((lower_eq_ok_iff.1 accepted).1 _ (FieldMap.mem_entries_iff.2 hcondition)).1

/-! ### The first condition that is refused -/

/-- The clause that a condition comes to, with the field of a record that it is put
on. -/
def namedClause (entry : String × Condition) : Outcome (String × Option Clause) := do
  FieldName.check entry.1
  return (FieldName.native entry.1, ← entry.2.lower (FieldName.native entry.1))

/-- One step of lowering makes a clause first, and adds it if there is one. -/
theorem lowerEntry_eq (predicate : Predicate) (entry : String × Condition) :
    lowerEntry predicate entry
      = (fun named => predicate.insert? named.1 named.2) <$> namedClause entry := by
  rw [lowerEntry, namedClause]
  rcases FieldName.check entry.1 with failure | _
  · rfl
  · dsimp only [Outcome.ok_bind]
    rcases entry.2.lower (FieldName.native entry.1) with failure | clause
    · rfl
    · rcases clause with _ | clause <;> rfl

/-- A condition has no failure exactly when it can be lowered. -/
theorem failure?_namedClause_eq_none_iff {entry : String × Condition} :
    (namedClause entry).failure? = none ↔ Lowerable entry := by
  rw [Lowerable, namedClause, ← FieldName.check_eq_ok_iff]
  rcases FieldName.check entry.1 with failure | _
  · exact ⟨nofun, nofun⟩
  · rw [Outcome.ok_bind]
    rcases entry.2.lower (FieldName.native entry.1) with failure | clause
    · exact ⟨nofun, nofun⟩
    · exact iff_of_true rfl ⟨rfl, clause, rfl⟩

/-- **A filter is refused for the first of its conditions**, in the order of the names,
that is refused. -/
theorem lower_eq_error_iff {filter : Filter} {failure : Failure} :
    filter.lower = .error failure ↔
      ∃ name condition, filter.get? name = some condition ∧
        (namedClause (name, condition)).failure? = some failure ∧
        ∀ earlier other, earlier < name → filter.get? earlier = some other →
          Lowerable (earlier, other) := by
  have hfirst : filter.lower = .error failure ↔
      (filter.entries.findSome? fun entry => (namedClause entry).failure?) = some failure := by
    rw [← Outcome.failure?_foldlM lowerEntry_eq filter.entries Predicate.empty, lower]
    constructor
    · intro h
      rw [h]
      rfl
    · exact Outcome.eq_error_of_failure?
  rw [hfirst, List.findSome?_eq_some_iff]
  constructor
  · rintro ⟨before, ⟨name, condition⟩, after, hentries, hrefused, hbefore⟩
    have hsorted := filter.sorted
    rw [hentries, List.pairwise_append, List.pairwise_cons] at hsorted
    refine ⟨name, condition, ?_, hrefused, fun earlier other hlt hother => ?_⟩
    · rw [← FieldMap.mem_entries_iff, hentries]
      exact List.mem_append_right _ List.mem_cons_self
    · rw [← FieldMap.mem_entries_iff, hentries, List.mem_append, List.mem_cons] at hother
      rcases hother with hmem | hmem | hmem
      · exact failure?_namedClause_eq_none_iff.1 (hbefore _ hmem)
      · rw [(Prod.mk.inj hmem).1] at hlt
        exact absurd hlt (String.lt_irrefl _)
      · exact absurd hlt (String.lt_asymm (hsorted.2.1.1 _ hmem))
  · rintro ⟨name, condition, hget, hrefused, hearlier⟩
    obtain ⟨before, after, hentries⟩ := List.append_of_mem (FieldMap.mem_entries_iff.2 hget)
    have hsorted := filter.sorted
    rw [hentries, List.pairwise_append] at hsorted
    refine ⟨before, _, after, hentries, hrefused, fun entry hentry => ?_⟩
    refine failure?_namedClause_eq_none_iff.2 (hearlier entry.1 entry.2 ?_ ?_)
    · exact hsorted.2.2 entry hentry _ List.mem_cons_self
    · rw [← FieldMap.mem_entries_iff, hentries]
      exact List.mem_append_left _ hentry

end Filter

end RecordStore
