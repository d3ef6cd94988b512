import RecordStore.Proofs.Request.Spelling

/-!
# Reading a request entry by entry

The document of a filter and the document of a sort are both read from the first
entry to the last, and each entry contributes a part of its own: a condition on
the field that it names, or one of the parts of a sort. What an entry contributes
depends on that entry alone, so reading succeeds exactly when every entry has
something to contribute, and the result is put together from these parts
(`RecordStore.Filter.ofDocument_eq_ok_iff`, `RecordStore.Sorting.ofDocument_eq_ok_iff`).

As names are distinct in a document, the bounds of a range are the values of its
document (`RecordStore.Range.mem_bounds_ofDocument`), and a filter has on each
field the condition of the entry of that name, and on no other field any
(`RecordStore.Filter.get?_ofDocument`). No two entries contribute to the same part
of a sort (`RecordStore.Sorting.merge_right_comm`). A query has no entries but for
its two parts (`RecordStore.Query.ofDocument_eq_ok_iff`).
-/

namespace RecordStore

/-! ### Ranges -/

namespace Range

/-- **The bounds of a range** are the values of its document, but for null. -/
theorem mem_bounds_ofDocument {entries : Document} (distinct : entries.keys.Nodup)
    (spelled : isSpelledBy entries = true) {bound : Value} :
    bound ∈ (ofDocument entries).bounds ↔
      bound.isNull = false ∧ ∃ key, (key, bound) ∈ entries := by
  have hkey : ∀ key, bound? entries key = some bound ↔
      bound.isNull = false ∧ (key, bound) ∈ entries := by
    intro key
    rw [bound?, Option.filter_eq_some_iff, Entries.get?_eq_some_iff_mem distinct,
      Bool.not_eq_true', and_comm]
  rw [bounds, List.mem_append, Option.mem_toList, Option.mem_toList, ofDocument, hkey, hkey]
  constructor
  · rintro (⟨hnull, hmem⟩ | ⟨hnull, hmem⟩)
    · exact ⟨hnull, startKey, hmem⟩
    · exact ⟨hnull, endKey, hmem⟩
  · rintro ⟨hnull, key, hmem⟩
    rw [isSpelledBy, Bool.and_eq_true] at spelled
    have hname := List.all_eq_true.1 spelled.2 key (Entries.mem_keys_of_mem hmem)
    rcases Bool.or_eq_true_iff.1 hname with h | h
    · exact .inl ⟨hnull, eq_of_beq h ▸ hmem⟩
    · exact .inr ⟨hnull, eq_of_beq h ▸ hmem⟩

/-- A range is read off the documents that spell it, and off nothing else. -/
theorem ofValue?_eq_some_iff {value : Value} {range : Range Value} :
    ofValue? value = some range ↔
      ∃ entries, value = .document entries ∧ isSpelledBy entries = true ∧
        ofDocument entries = range := by
  cases value with
  | document entries =>
    by_cases h : isSpelledBy entries = true <;> simp [ofValue?, h]
  | _ => simp [ofValue?]

end Range

/-! ### Filters -/

namespace Filter

/-- The condition that an entry puts on the field it names. -/
def namedCondition (entry : String × Value) : Outcome (String × Condition) := do
  FieldName.check entry.1
  return (entry.1, ← Condition.ofValue entry.1 entry.2)

/-- **An entry spells a condition** when its name is one of a top-level field and its value
spells the condition. -/
theorem namedCondition_eq_ok_iff {entry : String × Value} {named : String × Condition} :
    namedCondition entry = .ok named ↔
      FieldName.isTopLevel entry.1 = true ∧ named.1 = entry.1 ∧
        Condition.ofValue entry.1 entry.2 = .ok named.2 := by
  obtain ⟨name, condition⟩ := named
  rw [namedCondition, Outcome.bind_eq_ok_iff]
  constructor
  · rintro ⟨_, hname, hrest⟩
    obtain ⟨other, hother, hnamed⟩ := Outcome.bind_eq_ok_iff.1 hrest
    obtain ⟨rfl, rfl⟩ := Prod.mk.inj (Except.ok.inj hnamed)
    exact ⟨FieldName.check_eq_ok_iff.1 hname, rfl, hother⟩
  · rintro ⟨hname, rfl, hcondition⟩
    refine ⟨(), FieldName.check_eq_ok_iff.2 hname, ?_⟩
    rw [hcondition]
    rfl

/-- Taking over an entry of a filter is reading its condition first and putting it on its field
then. -/
theorem requireSpelled_eq (filter : Filter) (entry : String × Value) :
    filter.requireSpelled entry
      = (fun named => filter.insert named.1 named.2) <$> namedCondition entry := by
  rw [requireSpelled, namedCondition]
  rcases FieldName.check entry.1 with failure | _
  · rfl
  · rcases Condition.ofValue entry.1 entry.2 with failure | condition <;> rfl

variable {document : Document} {filter : Filter}

/-- **A document spells a filter** exactly when every entry spells a condition, and
the filter is made up of these. -/
theorem ofDocument_eq_ok_iff :
    ofDocument document = .ok filter ↔
      ∃ conditions, List.Forall₂ (fun entry named => namedCondition entry = .ok named)
        document conditions ∧ FieldMap.ofList conditions = filter :=
  Outcome.foldlM_eq_ok_iff requireSpelled_eq

/-- The conditions of a filter stand under the names of its document. -/
theorem keys_conditions {conditions : Entries Condition}
    (h : List.Forall₂ (fun entry named => namedCondition entry = .ok named) document conditions) :
    conditions.keys = document.keys := by
  induction h with
  | nil => rfl
  | cons hnamed _ ih => rw [Entries.keys_cons, Entries.keys_cons, ih,
      (namedCondition_eq_ok_iff.1 hnamed).2.1]

/-- The condition under a name is the one that the entry of this name spells. -/
theorem get?_conditions {conditions : Entries Condition}
    (h : List.Forall₂ (fun entry named => namedCondition entry = .ok named) document conditions)
    {name : String} {condition : Condition} :
    conditions.get? name = some condition ↔
      ∃ value, document.get? name = some value ∧ Condition.ofValue name value = .ok condition := by
  induction h with
  | nil => simp
  | @cons entry named rest _ hnamed _ ih =>
    obtain ⟨other, value⟩ := entry
    obtain ⟨named, first⟩ := named
    obtain ⟨-, hname, hfirst⟩ := namedCondition_eq_ok_iff.1 hnamed
    have hname : named = other := hname
    have hfirst : Condition.ofValue other value = .ok first := hfirst
    subst hname
    rw [Entries.get?_cons, Entries.get?_cons]
    split
    · rename_i hname
      subst hname
      constructor
      · intro hcondition
        exact ⟨value, rfl, Option.some.inj hcondition ▸ hfirst⟩
      · rintro ⟨_, hvalue, hcondition⟩
        rw [← Option.some.inj hvalue, hfirst] at hcondition
        exact congrArg some (Except.ok.inj hcondition)
    · exact ih

/-- **What is asked of a field** is what the entry of its name spells. -/
theorem get?_ofDocument (distinct : document.keys.Nodup) (h : ofDocument document = .ok filter)
    {name : String} {condition : Condition} :
    filter.get? name = some condition ↔
      ∃ value, document.get? name = some value ∧ Condition.ofValue name value = .ok condition := by
  obtain ⟨conditions, hconditions, rfl⟩ := ofDocument_eq_ok_iff.1 h
  rw [← keys_conditions hconditions] at distinct
  rw [FieldMap.ofList, FieldMap.get?_foldl_insert distinct, FieldMap.get?_empty, Option.or_none]
  exact get?_conditions hconditions

end Filter

/-! ### Sorts -/

namespace Sorting

/-- Puts the parts of a sort to those of another. Properties come after those that
there are, and any other part replaces the one that there is. -/
def merge (sort more : Sorting) : Sorting where
  properties := sort.properties ++ more.properties
  order := more.order.or sort.order
  offset := more.offset.or sort.offset
  limit := more.limit.or sort.limit

/-- Merging a sorting that sets nothing changes nothing. -/
theorem merge_empty (sort : Sorting) : sort.merge empty = sort := by
  simp [merge, empty]

/-- A property is added to the later of two merged sorts. -/
theorem addProperty_merge (sort more : Sorting) (value : Value) :
    (sort.merge more).addProperty value = sort.merge <$> more.addProperty value := by
  unfold addProperty
  split
  · rename_i property
    rcases FieldName.check property with failure | _
    · rfl
    · simp [merge, thenBy]
  · rfl

/-- Properties are added to the later of two merged sorts. -/
theorem foldlM_addProperty_merge (sort more : Sorting) (properties : List Value) :
    properties.foldlM addProperty (sort.merge more)
      = sort.merge <$> properties.foldlM addProperty more := by
  induction properties generalizing more with
  | nil => rfl
  | cons property rest ih =>
    rw [List.foldlM_cons, List.foldlM_cons, addProperty_merge]
    rcases more.addProperty property with failure | next
    · rfl
    · exact ih next

/-- The part of a sort that an entry spells, with the name of the entry. -/
def namedPart (entry : String × Value) : Outcome (String × Sorting) :=
  (fun part => (entry.1, part)) <$> empty.takeEntry entry

/-- What an entry contributes does not depend on the entries before it. -/
theorem takeEntry_eq (sort : Sorting) (entry : String × Value) :
    sort.takeEntry entry = (fun part => sort.merge part.2) <$> namedPart entry := by
  have hmerge : sort.takeEntry entry = sort.merge <$> empty.takeEntry entry := by
    unfold takeEntry
    split
    · exact congrArg _ (merge_empty sort).symm
    · rw [← addProperty_merge, merge_empty]
    · rw [← foldlM_addProperty_merge, merge_empty]
    · rename_i name
      rcases SortOrder.ofName? name with _ | order
      · rfl
      · simp [merge, empty]
    · rename_i value _
      rcases Sorting.count "offset" value with failure | n
      · rfl
      · simp [merge, empty]
    · rename_i value _
      rcases Sorting.count "limit" value with failure | n
      · rfl
      · simp [merge, empty]
    · rfl
  rw [hmerge, namedPart]
  rcases empty.takeEntry entry with failure | part <;> rfl

variable {document : Document} {sort : Sorting}

/-- **A document spells a sort** exactly when every entry spells a part of one, and
the sort is made up of these. -/
theorem ofDocument_eq_ok_iff :
    ofDocument document = .ok sort ↔
      ∃ parts, List.Forall₂ (fun entry part => namedPart entry = .ok part) document parts ∧
        parts.foldl (fun sort part => sort.merge part.2) empty = sort :=
  Outcome.foldlM_eq_ok_iff takeEntry_eq

/-- Whether a sort leaves everything open but the part that a name stands for. -/
structure OnlyOf (name : String) (part : Sorting) : Prop where
  properties : name ≠ "property" → part.properties = []
  order : name ≠ "order" → part.order = none
  offset : name ≠ "offset" → part.offset = none
  limit : name ≠ "limit" → part.limit = none

theorem onlyOf_empty (name : String) : empty.OnlyOf name :=
  ⟨fun _ => rfl, fun _ => rfl, fun _ => rfl, fun _ => rfl⟩

/-- Adding a property sets nothing else. -/
theorem OnlyOf.addProperty {part next : Sorting} (only : part.OnlyOf "property") {value : Value}
    (h : part.addProperty value = .ok next) : next.OnlyOf "property" := by
  unfold Sorting.addProperty at h
  split at h
  · obtain ⟨_, -, hnext⟩ := Outcome.bind_eq_ok_iff.1 h
    rw [← Except.ok.inj hnext]
    exact ⟨fun hne => absurd rfl hne, only.order, only.offset, only.limit⟩
  · cases h

/-- **An entry contributes to no part but the one of its name.** -/
theorem onlyOf_of_takeEntry {entry : String × Value} {part : Sorting}
    (h : empty.takeEntry entry = .ok part) : part.OnlyOf entry.1 := by
  unfold takeEntry at h
  split at h
  · exact Except.ok.inj h ▸ onlyOf_empty _
  · exact (onlyOf_empty _).addProperty h
  · exact Outcome.of_foldlM_eq_ok h (onlyOf_empty _) fun _ _ _ _ only hstep =>
      only.addProperty hstep
  · split at h
    · rw [← Except.ok.inj h]
      exact ⟨fun _ => rfl, fun hne => absurd rfl hne, fun _ => rfl, fun _ => rfl⟩
    · cases h
  · obtain ⟨n, -, hpart⟩ := Outcome.bind_eq_ok_iff.1 h
    rw [← Except.ok.inj hpart]
    exact ⟨fun _ => rfl, fun _ => rfl, fun hne => absurd rfl hne, fun _ => rfl⟩
  · obtain ⟨n, -, hpart⟩ := Outcome.bind_eq_ok_iff.1 h
    rw [← Except.ok.inj hpart]
    exact ⟨fun _ => rfl, fun _ => rfl, fun _ => rfl, fun hne => absurd rfl hne⟩
  · cases h

/-- An entry spells the part that it makes of an empty sort. -/
theorem namedPart_eq_ok_iff {entry : String × Value} {named : String × Sorting} :
    namedPart entry = .ok named ↔ named.1 = entry.1 ∧ empty.takeEntry entry = .ok named.2 := by
  obtain ⟨name, part⟩ := named
  rw [namedPart, Outcome.map_eq_ok_iff]
  constructor
  · rintro ⟨_, htake, hnamed⟩
    obtain ⟨rfl, rfl⟩ := Prod.mk.inj hnamed
    exact ⟨rfl, htake⟩
  · rintro ⟨rfl, htake⟩
    exact ⟨part, htake, rfl⟩

/-- Of two different names, one is not a given third. -/
theorem ne_or_ne_of_ne {name other : String} (h : name ≠ other) (third : String) :
    name ≠ third ∨ other ≠ third := by
  by_contra hboth
  obtain ⟨hname, hother⟩ := not_or.1 hboth
  exact h ((not_not.1 hname).trans (not_not.1 hother).symm)

/-- Two choices can be swapped if one of them is missing. -/
theorem or_left_comm_of_none {α : Type} {a b rest : Option α} (h : a = none ∨ b = none) :
    b.or (a.or rest) = a.or (b.or rest) := by
  rcases h with rfl | rfl
  · rw [Option.none_or, Option.none_or]
  · rw [Option.none_or, Option.none_or]

/-- **Parts of different names may be put to a sort in either order.** -/
theorem merge_right_comm (sort : Sorting) {name other : String} {a b : Sorting}
    (ha : a.OnlyOf name) (hb : b.OnlyOf other) (hne : name ≠ other) :
    (sort.merge a).merge b = (sort.merge b).merge a := by
  have hproperties : sort.properties ++ a.properties ++ b.properties
      = sort.properties ++ b.properties ++ a.properties := by
    rcases ne_or_ne_of_ne hne "property" with h | h
    · rw [ha.properties h, List.append_nil, List.append_nil]
    · rw [hb.properties h, List.append_nil, List.append_nil]
  rw [merge, merge, merge, merge, hproperties,
    or_left_comm_of_none ((ne_or_ne_of_ne hne "order").imp ha.order hb.order),
    or_left_comm_of_none ((ne_or_ne_of_ne hne "offset").imp ha.offset hb.offset),
    or_left_comm_of_none ((ne_or_ne_of_ne hne "limit").imp ha.limit hb.limit)]

end Sorting

/-! ### Queries -/

namespace Query

/-- A document has no stray name when it has only the two names of a query. -/
theorem strayKey?_eq_none_iff {document : Document} :
    strayKey? document = none ↔ ∀ key ∈ document.keys, key = filterKey ∨ key = sortKey := by
  rw [strayKey?, List.find?_eq_none]
  refine forall₂_congr fun key _ => ?_
  rw [decide_eq_true_iff, not_and_or, not_not, not_not]

/-- A part of a query is missing where its entry is missing or null, and otherwise
spelled by the document of that entry. -/
theorem part_eq_ok_iff {α : Type} {document : Document} {key : String} {otherwise : ShapeCause}
    {read : Document → Outcome α} {result : Option α} :
    part document key otherwise read = .ok result ↔
      (document.read key = .null ∧ result = none) ∨
        ∃ entries whole, document.read key = .document entries ∧ read entries = .ok whole ∧
          result = some whole := by
  rw [part, Document.read]
  rcases document.get? key with _ | value
  · constructor
    · intro h
      exact .inl ⟨rfl, (Except.ok.inj h).symm⟩
    · rintro (⟨-, rfl⟩ | ⟨_, _, hread, -⟩)
      · rfl
      · cases hread
  · rw [Option.getD_some]
    cases value with
    | null => simp [eq_comm]
    | document entries =>
      show some <$> read entries = _ ↔ _
      rw [Outcome.map_eq_ok_iff]
      simp [eq_comm]
    | _ => simp

/-- **A document spells a query** exactly when it has no entry but for the two parts
of one, and spells these. -/
theorem ofDocument_eq_ok_iff {document : Document} {query : Query} :
    ofDocument document = .ok query ↔
      (∀ key ∈ document.keys, key = filterKey ∨ key = sortKey) ∧
        part document filterKey .filterNotADocument Filter.ofDocument = .ok query.filter ∧
          part document sortKey .sortNotADocument Sorting.ofDocument = .ok query.sort := by
  rw [ofDocument, ← strayKey?_eq_none_iff]
  rcases strayKey? document with _ | key
  · rw [eq_self, true_and, Outcome.bind_eq_ok_iff]
    constructor
    · rintro ⟨filter, hfilter, hrest⟩
      obtain ⟨sort, hsort, hquery⟩ := Outcome.bind_eq_ok_iff.1 hrest
      rw [← Except.ok.inj hquery]
      exact ⟨hfilter, hsort⟩
    · rintro ⟨hfilter, hsort⟩
      refine ⟨query.filter, hfilter, ?_⟩
      rw [hsort]
      rfl
  · constructor
    · intro h
      cases h
    · rintro ⟨h, -⟩
      cases h

end Query

end RecordStore
