import RecordStore.Predicate.QueryDocument
import RecordStore.Proofs.Entries

/-!
# How query documents are joined

The query document of a predicate is joined from those of its clauses by writes
that could meet: a field could have the name of an operator, or the documents of
two clauses one name. On top-level fields they never do, since the name of such
a field does not begin with a dollar sign. The joined document is then the
concatenation of the entries on fields with a last entry for the alternatives
(`RecordStore.QueryDocument.query_eq_append`).
-/

namespace RecordStore

namespace QueryDocument

/-! ### The parts of a joined document -/

/-- The entries on fields among the query documents of some clauses. -/
def plainEntries (queries : List Document) : Document :=
  (queries.filter fun query => !query.contains Operator.or).flatten

/-- The query documents with alternatives among those of some clauses. -/
def alternativeQueries (queries : List Document) : List Document :=
  queries.filter fun query => query.contains Operator.or

/-- What follows the entries on fields: nothing, if no clause has alternatives,
the document of the only such clause, or an entry with those of several. -/
def joinedAlternatives : List Document → Document
  | [] => []
  | [single] => single
  | several => [(Operator.and, .array (several.map .document))]

/-- The query of one clause has a single name: the field, or that of a disjunction. -/
theorem keys_query (field : String) (clause : Clause) :
    (clause.query field).keys = [field] ∨ (clause.query field).keys = [Operator.or] := by
  cases clause with
  | withinAny alternatives => exact .inr rfl
  | _ => exact .inl rfl

/-- The entries on fields come from clauses on these fields, at most one from
each. -/
theorem keys_plainEntries_sublist (entries : Entries Clause)
    (hnames : ∀ field ∈ entries.keys, field ≠ Operator.or) :
    (plainEntries (entries.map fun (field, clause) => clause.query field)).keys.Sublist
      entries.keys := by
  induction entries with
  | nil => exact .slnil
  | cons entry rest ih =>
    obtain ⟨field, clause⟩ := entry
    have hrest := ih fun name hname => hnames name (List.mem_cons_of_mem _ hname)
    rw [plainEntries, List.map_cons, List.filter_cons]
    rcases keys_query field clause with hkeys | hkeys
    · have hplain : Entries.contains (clause.query field) Operator.or = false := by
        rw [Bool.eq_false_iff]
        intro h
        rw [Entries.contains_iff, hkeys] at h
        exact hnames field List.mem_cons_self (List.mem_singleton.1 h).symm
      rw [if_pos (by rw [hplain]; rfl), List.flatten_cons, Entries.keys_append, hkeys]
      exact hrest.cons_cons field
    · have halternatives : Entries.contains (clause.query field) Operator.or = true := by
        rw [Entries.contains_iff, hkeys]
        exact List.mem_singleton_self _
      rw [if_neg (by rw [halternatives]; simp)]
      exact hrest.cons field

/-! ### Joining -/

/-- **Joining appends**, where the entries on fields have distinct names, none of
them that of `$and`, and those for alternatives stand alone. -/
theorem joinQueries_eq_append {queries : List Document}
    (hnodup : (plainEntries queries).keys.Nodup)
    (hand : ∀ query ∈ queries, Operator.and ∉ query.keys)
    (hor : ∀ query ∈ queries, query.contains Operator.or = true → query.keys = [Operator.or]) :
    Predicate.joinQueries queries
      = plainEntries queries ++ joinedAlternatives (alternativeQueries queries) := by
  have hkeys : ∀ key ∈ (plainEntries queries).keys, key ≠ Operator.or ∧ key ≠ Operator.and := by
    intro key hkey
    obtain ⟨entry, hentry, rfl⟩ := List.mem_map.1 hkey
    obtain ⟨query, hquery, hentry⟩ := List.mem_flatten.1 hentry
    obtain ⟨hquery, hnot⟩ := List.mem_filter.1 hquery
    have hmem : entry.1 ∈ Entries.keys query := Entries.mem_keys_of_mem hentry
    refine ⟨fun h => ?_, fun h => hand query hquery (h ▸ hmem)⟩
    rw [h, ← Entries.contains_iff] at hmem
    rw [hmem] at hnot
    exact Bool.false_ne_true hnot
  have hofList : Entries.ofList (queries.filter fun query =>
      !query.contains Operator.or).flatten = plainEntries queries :=
    Entries.ofList_eq_self hnodup
  rw [Predicate.joinQueries, List.partition_eq_filter_filter, alternativeQueries]
  simp only [Function.comp_def, hofList]
  cases halternatives : queries.filter fun query => query.contains Operator.or with
  | nil => exact (List.append_nil _).symm
  | cons single rest =>
    -- a single `$or` is written beside the fields, several go under `$and`
    have hsingle : single.keys = [Operator.or] := by
      have hmem : single ∈ queries.filter fun query => query.contains Operator.or :=
        halternatives ▸ List.mem_cons_self
      exact hor single (List.mem_filter.1 hmem).1 (List.mem_filter.1 hmem).2
    cases rest with
    | nil =>
      have hdistinct : ((plainEntries queries).keys ++ single.keys).Nodup := by
        rw [hsingle, List.nodup_append]
        refine ⟨hnodup, by simp, fun key hkey other hother h => ?_⟩
        exact (hkeys key hkey).1 (h.trans (List.mem_singleton.1 hother))
      exact Entries.insertAll_eq_append hdistinct
    | cons other more =>
      have habsent : Operator.and ∉ (plainEntries queries).keys := fun hmem => (hkeys _ hmem).2 rfl
      exact Entries.insert_eq_append habsent _

/-- The names of top-level fields are no operators. -/
theorem ne_operators {field : String} (h : FieldName.isTopLevel field = true) :
    field ≠ Operator.or ∧ field ≠ Operator.and := by
  constructor <;>
  · rintro rfl
    exact absurd h (by decide)

/-- **The query document of a predicate on top-level fields** is the entries on
its fields, followed by what its alternatives come to. -/
theorem query_eq_append {predicate : Predicate}
    (hfields : ∀ entry ∈ predicate.entries, FieldName.isTopLevel entry.1 = true) :
    predicate.query = plainEntries predicate.clauseQueries
      ++ joinedAlternatives (alternativeQueries predicate.clauseQueries) := by
  -- a top-level name never starts with a dollar sign, so no field is taken for an operator
  have hnames : ∀ field ∈ predicate.entries.keys,
      field ≠ Operator.or ∧ field ≠ Operator.and := by
    intro field hfield
    obtain ⟨entry, hentry, rfl⟩ := List.mem_map.1 hfield
    exact ne_operators (hfields entry hentry)
  refine joinQueries_eq_append ?_ ?_ ?_
  · exact (keys_plainEntries_sublist predicate.entries fun field hfield =>
      (hnames field hfield).1).nodup predicate.nodup_keys
  · intro query hquery hand
    obtain ⟨⟨field, clause⟩, hentry, rfl⟩ := List.mem_map.1 hquery
    rcases keys_query field clause with hkeys | hkeys
    · rw [hkeys, List.mem_singleton] at hand
      exact (hnames field (Entries.mem_keys_of_mem hentry)).2 hand.symm
    · rw [hkeys] at hand
      exact absurd hand (by decide)
  · intro query hquery hor
    obtain ⟨⟨field, clause⟩, hentry, rfl⟩ := List.mem_map.1 hquery
    rcases keys_query field clause with hkeys | hkeys
    · rw [Entries.contains_iff, hkeys, List.mem_singleton] at hor
      exact absurd hor.symm (hnames field (Entries.mem_keys_of_mem hentry)).1
    · exact hkeys

end QueryDocument

end RecordStore
