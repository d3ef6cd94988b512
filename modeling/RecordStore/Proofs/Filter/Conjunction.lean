import RecordStore.Predicate.Match
import RecordStore.Proofs.Filter.Lowering

/-!
# A filter as the conjunction of its conditions

A record should pass a filter exactly when it passes each of the filters that
have one of its conditions alone. Lowering keeps every clause but one: where a
filter has a condition on `id` and another on `_id`, the two are about the same
field of a record, and only the first is kept if it asks anything.

So a filter always lets through what meets all of its conditions, and it lets
through more exactly when `id` masks `_id` on a record
(`RecordStore.Filter.Masked`): the condition on `_id` fails, and is the only one
to fail, while the one on `id` asks something
(`RecordStore.Filter.holds_lower_iff_iff_not_masked`).
-/

namespace RecordStore

namespace Predicate

/-- A record meets a predicate exactly when each field meets what it is
assigned. -/
theorem holds_iff {predicate : Predicate} {record : Document} :
    predicate.holds record = true ↔
      ∀ field clause, predicate.get? field = some clause →
        clause.holds (record.read field) = true := by
  rw [holds, List.all_eq_true]
  constructor
  · intro h field clause hget
    exact h (field, clause) (FieldMap.mem_entries_iff.2 hget)
  · rintro h ⟨field, clause⟩ hmem
    exact h field clause (FieldMap.mem_entries_iff.1 hmem)

end Predicate

namespace Filter

/-- The filter that has a single condition. -/
def alone (name : String) (condition : Condition) : Filter :=
  empty.require name condition

/-- Whether a record passes the filter that has a single condition. -/
def MetAlone (record : Document) (name : String) (condition : Condition) : Prop :=
  ∃ predicate, (alone name condition).lower = .ok predicate ∧ predicate.holds record = true

/-- Whether the condition on `id` masks the one on `_id` on a record. -/
structure Masked (filter : Filter) (record : Document) : Prop where
  /-- The record fails the condition on the native name. -/
  failed : ∃ condition, filter.get? FieldName.nativeId = some condition ∧
    ¬ MetAlone record FieldName.nativeId condition
  /-- The condition on the public name asks something. -/
  asked : ∃ condition, filter.get? FieldName.publicId = some condition ∧ condition.asks = true
  /-- The record meets the condition on the public name and all others. -/
  others : ∀ name condition, name ≠ FieldName.nativeId → filter.get? name = some condition →
    MetAlone record name condition

/-! ### One condition -/

/-- Whether a record meets the clause of a publicly named field, if there is
one. -/
def Meets (filter : Filter) (record : Document) (name : String) : Prop :=
  ∀ clause, clause? filter.entries name = some clause →
    clause.holds (record.read (FieldName.native name)) = true

/-- A filter of one condition is lowered to the clause of this condition, if the condition can
be lowered. -/
theorem lower_alone {name : String} {condition : Condition} {predicate : Predicate} :
    (alone name condition).lower = .ok predicate ↔
      Lowerable (name, condition) ∧ predicate = addClause Predicate.empty (name, condition) := by
  have hentries : (alone name condition).entries = [(name, condition)] := rfl
  rw [lower_eq_ok_iff, hentries, List.forall_mem_singleton]
  rfl

/-- A predicate with the clause of one condition holds when the clause does. A condition that
asks for nothing has no clause to be met. -/
theorem holds_addClause_empty (record : Document) (name : String) (condition : Condition) :
    (addClause Predicate.empty (name, condition)).holds record = true ↔
      ∀ clause, condition.clause? (FieldName.native name) = some clause →
        clause.holds (record.read (FieldName.native name)) = true := by
  rw [Predicate.holds_iff]
  constructor
  · intro h clause hclause
    refine h _ clause ?_
    rw [get?_addClause, if_pos rfl, hclause]
    rfl
  · intro h field clause hget
    rw [get?_addClause] at hget
    split at hget
    · rename_i hfield
      have hfield : FieldName.native name = field := hfield
      subst hfield
      refine h clause ?_
      rw [← hget]
      exact Option.or_none.symm
    · exact absurd hget (by simp [Predicate.empty])

/-- On a record, a condition that is asked for alone is met when the clause that the filter has
for it is. -/
theorem metAlone_iff {filter : Filter} {predicate : Predicate}
    (accepted : filter.lower = .ok predicate) (record : Document) {name : String}
    {condition : Condition} (h : filter.get? name = some condition) :
    MetAlone record name condition ↔ filter.Meets record name := by
  have hlowerable : Lowerable (name, condition) :=
    (lower_eq_ok_iff.1 accepted).1 _ (FieldMap.mem_entries_iff.2 h)
  have hclause : clause? filter.entries name = condition.clause? (FieldName.native name) := by
    rw [clause?, show Entries.get? filter.entries name = some condition from h]
    rfl
  rw [Meets, hclause, ← holds_addClause_empty]
  constructor
  · rintro ⟨single, hsingle, hholds⟩
    rw [← (lower_alone.1 hsingle).2]
    exact hholds
  · intro hholds
    exact ⟨_, lower_alone.2 ⟨hlowerable, rfl⟩, hholds⟩

/-- A field without a condition is met by every record. -/
theorem meets_of_get?_eq_none {filter : Filter} {name : String} (record : Document)
    (h : filter.get? name = none) : filter.Meets record name := by
  intro clause hclause
  rw [clause?, show Entries.get? filter.entries name = none from h] at hclause
  exact absurd hclause (by simp)

/-- In an accepted filter, a condition has a clause exactly when it asks for anything. -/
theorem isSome_clause? {filter : Filter} {predicate : Predicate}
    (accepted : filter.lower = .ok predicate) {name : String} {condition : Condition}
    (h : filter.get? name = some condition) :
    (clause? filter.entries name).isSome = condition.asks := by
  obtain ⟨-, clause, hclause⟩ :=
    (lower_eq_ok_iff.1 accepted).1 _ (FieldMap.mem_entries_iff.2 h)
  rw [clause?, show Entries.get? filter.entries name = some condition from h, Option.bind_some,
    Condition.clause?_eq_of_lower hclause]
  exact Condition.isSome_of_lower hclause

/-! ### All conditions -/

/-- **What a lowered filter asks**: every condition but the one on `_id`, and
that one where `id` asks nothing. -/
theorem holds_lower_iff {filter : Filter} {predicate : Predicate}
    (accepted : filter.lower = .ok predicate) (record : Document) :
    predicate.holds record = true ↔
      (∀ name, name ≠ FieldName.nativeId → filter.Meets record name) ∧
        (clause? filter.entries FieldName.publicId = none →
          filter.Meets record FieldName.nativeId) := by
  have hne : FieldName.nativeId ≠ FieldName.publicId := by decide
  rw [Predicate.holds_iff]
  constructor
  · intro h
    -- the clause at `_id` is that of the condition on `id`, if it has one
    have hid : ∀ clause, (clause? filter.entries FieldName.publicId).or
        (clause? filter.entries FieldName.nativeId) = some clause →
          clause.holds (record.read FieldName.nativeId) = true := by
      intro clause hclause
      refine h FieldName.nativeId clause ?_
      rw [get?_lower accepted, if_neg hne, if_pos rfl, hclause]
    refine ⟨fun name hnative clause hclause => ?_, fun hnone clause hclause => ?_⟩
    · by_cases hpublic : name = FieldName.publicId
      · subst hpublic
        rw [native_publicId]
        exact hid clause (by rw [hclause, Option.some_or])
      · rw [native_eq_self hpublic]
        refine h name clause ?_
        rw [get?_lower accepted, if_neg hpublic, if_neg hnative, hclause]
    · rw [native_eq_self hne]
      exact hid clause (by rw [hnone, Option.none_or, hclause])
  · rintro ⟨hothers, hid⟩ field clause hget
    rw [get?_lower accepted] at hget
    split at hget
    · exact absurd hget (by simp)
    · rename_i hpublic
      split at hget
      · rename_i hnative
        subst hnative
        cases hclause : clause? filter.entries FieldName.publicId with
        | some other =>
          rw [hclause, Option.some_or] at hget
          have hmet := hothers FieldName.publicId (Ne.symm hne) other hclause
          rw [native_publicId, Option.some.inj hget] at hmet
          exact hmet
        | none =>
          rw [hclause, Option.none_or] at hget
          have hmet := hid hclause clause hget
          rw [native_eq_self hpublic] at hmet
          exact hmet
      · rename_i hnative
        have hmet := hothers field hnative clause hget
        rw [native_eq_self hpublic] at hmet
        exact hmet

/-- The conditions of some names are all met alone exactly when the filter is met on these
names. -/
theorem forall_metAlone_iff {filter : Filter} {predicate : Predicate}
    (accepted : filter.lower = .ok predicate) (record : Document) (among : String → Prop) :
    (∀ name condition, among name → filter.get? name = some condition →
        MetAlone record name condition) ↔
      ∀ name, among name → filter.Meets record name := by
  constructor
  · intro h name hname
    cases hget : filter.get? name with
    | none => exact meets_of_get?_eq_none record hget
    | some condition => exact (metAlone_iff accepted record hget).1 (h name condition hname hget)
  · intro h name condition hname hget
    exact (metAlone_iff accepted record hget).2 (h name hname)

/-- **A record is masked** when it is refused by what is asked of the native identifier alone:
the public name has a clause, which takes the place of the other, and all other names are met.
-/
theorem masked_iff {filter : Filter} {predicate : Predicate}
    (accepted : filter.lower = .ok predicate) (record : Document) :
    filter.Masked record ↔
      ¬ filter.Meets record FieldName.nativeId ∧
        clause? filter.entries FieldName.publicId ≠ none ∧
          ∀ name, name ≠ FieldName.nativeId → filter.Meets record name := by
  constructor
  · rintro ⟨⟨native, hnative, hfailed⟩, ⟨condition, hpublic, hasks⟩, hothers⟩
    refine ⟨fun h => hfailed ((metAlone_iff accepted record hnative).2 h), fun hnone => ?_,
      (forall_metAlone_iff accepted record _).1 hothers⟩
    rw [← isSome_clause? accepted hpublic, hnone] at hasks
    exact Bool.false_ne_true hasks
  · rintro ⟨hfailed, hasked, hothers⟩
    refine ⟨?_, ?_, (forall_metAlone_iff accepted record _).2 hothers⟩
    · cases hget : filter.get? FieldName.nativeId with
      | none => exact absurd (meets_of_get?_eq_none record hget) hfailed
      | some condition =>
        exact ⟨condition, rfl, fun h => hfailed ((metAlone_iff accepted record hget).1 h)⟩
    · cases hget : filter.get? FieldName.publicId with
      | none =>
        refine absurd ?_ hasked
        rw [clause?, show Entries.get? filter.entries FieldName.publicId = none from hget]
        rfl
      | some condition =>
        refine ⟨condition, rfl, ?_⟩
        rw [← isSome_clause? accepted hget]
        exact Option.isSome_iff_ne_none.2 hasked

/-- **A filter is the conjunction of its conditions unless `id` masks `_id`.**
For each record, passing the filter is the same as passing each condition alone
exactly when the condition on `_id` is not masked there; and whoever passes each
condition alone passes the filter in any case. -/
theorem holds_lower_iff_iff_not_masked {filter : Filter} {predicate : Predicate}
    (accepted : filter.lower = .ok predicate) (record : Document) :
    ((predicate.holds record = true ↔
        ∀ name condition, filter.get? name = some condition → MetAlone record name condition) ↔
      ¬ filter.Masked record) ∧
    ((∀ name condition, filter.get? name = some condition → MetAlone record name condition) →
      predicate.holds record = true) := by
  have hall : (∀ name condition, filter.get? name = some condition →
      MetAlone record name condition) ↔ ∀ name, filter.Meets record name := by
    simpa using forall_metAlone_iff accepted record fun _ => True
  have hsplit : (∀ name, filter.Meets record name) ↔
      (∀ name, name ≠ FieldName.nativeId → filter.Meets record name) ∧
        filter.Meets record FieldName.nativeId := by
    refine ⟨fun h => ⟨fun name _ => h name, h _⟩, fun h name => ?_⟩
    by_cases hname : name = FieldName.nativeId
    · rw [hname]
      exact h.2
    · exact h.1 name hname
  rw [hall, hsplit, holds_lower_iff accepted, masked_iff accepted]
  tauto

/-- The filter on two identifiers, one under each name. -/
def onBoth (native other : ObjectId) : Filter :=
  (empty.require FieldName.nativeId (.equals (.objectId native))).require
    FieldName.publicId (.equals (.objectId other))

/-- No record has two identifiers, and still a filter on two of them lets a
record through: the condition on `_id` is masked. -/
theorem onBoth_masked :
    ∃ predicate record, (onBoth ⟨0, by decide⟩ ⟨1, by decide⟩).lower = .ok predicate ∧
      predicate.holds record = true ∧
      ¬ ∀ name condition, (onBoth ⟨0, by decide⟩ ⟨1, by decide⟩).get? name = some condition →
        MetAlone record name condition := by
  have accepted : (onBoth ⟨0, by decide⟩ ⟨1, by decide⟩).lower
      = .ok (Predicate.empty.insert FieldName.nativeId (.equals (.objectId ⟨1, by decide⟩))) := rfl
  refine ⟨_, [(FieldName.nativeId, .objectId ⟨1, by decide⟩)], accepted, by decide, fun hall => ?_⟩
  obtain ⟨hexact, hholds⟩ := holds_lower_iff_iff_not_masked accepted
    [(FieldName.nativeId, .objectId ⟨1, by decide⟩)]
  refine hexact.1 (iff_of_true (hholds hall) hall) ⟨⟨_, rfl, ?_⟩, ⟨_, rfl, rfl⟩, ?_⟩
  · rintro ⟨predicate, hpredicate, hmet⟩
    rw [(lower_alone.1 hpredicate).2] at hmet
    exact absurd hmet (by decide)
  · intro name condition _ hget
    exact hall name condition hget

end Filter

end RecordStore
