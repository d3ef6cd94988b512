import RecordStore.Proofs.Request.Agreement
import RecordStore.Proofs.Request.Reading
import RecordStore.Proofs.Value.Literal

/-!
# Requests with spelled values in place

What a request asks for is read off it by shapes and names. Replacing the values that it
spells changes neither where the parts of the request are: a document that is read as a
range, as a filter or as a query has names of top-level fields only, and one that spells a
value has none. So the request is read as before, with the operands of its conditions
replaced in the same way (`RecordStore.Query.ofDocument_unspellEntries` and the statements
before it, from the ranges up).

Conversely it is only operands that are replaced. If those of an accepted request are left
as they are, so is the whole of it
(`RecordStore.Query.unspellEntries_eq_self_of_ofDocument`): null bounds, sorts, and the
documents around all of these spell nothing.
-/

namespace RecordStore

variable {forms : Forms}

/-! ### Ranges -/

namespace Range

/-- Replacing values keeps the names, and with them the shape of a range. -/
theorem isSpelledBy_unspellEntries (forms : Forms) (entries : Document) :
    isSpelledBy (forms.unspellEntries entries) = isSpelledBy entries := by
  have hempty : (forms.unspellEntries entries).isEmpty = entries.isEmpty := by
    rw [forms.unspellEntries_eq_map, List.isEmpty_map]
  rw [isSpelledBy, isSpelledBy, hempty, forms.keys_unspellEntries]

/-- The bounds of a range have names of top-level fields. -/
theorem isTopLevel_of_isSpelledBy {entries : Document} (spelled : isSpelledBy entries = true) :
    ∀ entry ∈ entries, FieldName.isTopLevel entry.1 = true := by
  intro entry hentry
  rw [isSpelledBy, Bool.and_eq_true] at spelled
  have hname := List.all_eq_true.1 spelled.2 entry.1 (List.mem_map_of_mem hentry)
  rcases Bool.or_eq_true_iff.1 hname with h | h
  · rw [eq_of_beq h]
    decide
  · rw [eq_of_beq h]
    decide

/-- A value becomes no range, and a range remains one. -/
theorem isRange_unspell (value : Value) : isRange (forms.unspell value) = isRange value := by
  cases value with
  | document entries =>
    rw [Forms.unspell, Forms.ofSpelling]
    rcases hspelled : forms.spelled? (forms.unspellEntries entries) with _ | spelled
    · exact isSpelledBy_unspellEntries forms entries
    · -- a document that spells a value is no range
      have hrange : isSpelledBy entries = false := by
        rw [← isSpelledBy_unspellEntries forms]
        refine Bool.eq_false_iff.2 fun h => ?_
        rw [Forms.spelled?_eq_none_of_isTopLevel (isTopLevel_of_isSpelledBy h)] at hspelled
        cases hspelled
      have hspellable := forms.isSpellable_of_spelled? hspelled
      rw [Option.getD_some, isRange, hrange]
      cases spelled with
      | document _ => cases hspellable
      | _ => rfl
  | codeWithScope source scope =>
    rw [Forms.unspell]
    cases forms.ofSpelling (forms.unspellEntries scope) <;> rfl
  | _ => rfl

/-- The bounds of a range are replaced one by one, and a null bound is still none. -/
theorem ofDocument_unspellEntries (entries : Document) :
    ofDocument (forms.unspellEntries entries) = (ofDocument entries).map forms.unspell := by
  have hbound : ∀ key, bound? (forms.unspellEntries entries) key
      = (bound? entries key).map forms.unspell := by
    intro key
    rw [bound?, bound?, forms.get?_unspellEntries]
    rcases Entries.get? entries key with _ | value
    · rfl
    · rw [Option.map_some, Option.filter_some, Option.filter_some, forms.isNull_unspell]
      split <;> rfl
  rw [ofDocument, hbound, hbound]
  rfl

/-- A range is read off its document with the bounds replaced. -/
theorem ofValue?_unspell (forms : Forms) {value : Value} {range : Range Value}
    (h : ofValue? value = some range) :
    ofValue? (forms.unspell value) = some (range.map forms.unspell) := by
  obtain ⟨entries, rfl, hspelled, rfl⟩ := ofValue?_eq_some_iff.1 h
  rw [forms.unspell_document (isTopLevel_of_isSpelledBy hspelled), ofValue?,
    isSpelledBy_unspellEntries, if_pos hspelled, ofDocument_unspellEntries]

/-- A range whose bounds are left as they are is left as it is. -/
theorem unspell_eq_self {value : Value} {range : Range Value} (wellFormed : value.WellFormed)
    (h : ofValue? value = some range)
    (hbounds : ∀ bound ∈ range.bounds, forms.unspell bound = bound) :
    forms.unspell value = value := by
  obtain ⟨entries, rfl, hspelled, rfl⟩ := ofValue?_eq_some_iff.1 h
  rw [forms.unspell_document (isTopLevel_of_isSpelledBy hspelled), Forms.unspellEntries_eq_self]
  rintro ⟨key, bound⟩ hentry
  cases hnull : bound.isNull with
  | true =>
    cases bound with
    | null => rfl
    | _ => cases hnull
  | false => exact hbounds bound ((mem_bounds_ofDocument wellFormed.1 hspelled).2
      ⟨hnull, key, hentry⟩)

end Range

/-! ### Conditions -/

namespace Condition

variable {field : String} {value : Value} {condition : Condition}

/-- A list spells the same condition with its operands replaced, since it is the same
members that are ranges. -/
theorem ofList_unspell {items : List Value} (h : ofList field items = .ok condition) :
    ofList field (items.map forms.unspell) = .ok (condition.map forms.unspell) := by
  have hall : (items.map forms.unspell).all Range.isRange = items.all Range.isRange := by
    rw [List.all_map]
    exact congrArg items.all (funext Range.isRange_unspell)
  have hany : (items.map forms.unspell).any Range.isRange = items.any Range.isRange := by
    rw [List.any_map]
    exact congrArg items.any (funext Range.isRange_unspell)
  rw [ofList_eq] at h ⊢
  simp only [hall, hany, ne_eq, List.map_eq_nil_iff]
  split at h
  · rename_i hranges
    rw [if_pos hranges, ← Except.ok.inj h, map, List.filterMap_map, List.map_filterMap]
    refine congrArg (Except.ok ∘ withinAny) (List.filterMap_congr fun item hitem => ?_)
    obtain ⟨range, hread⟩ := Range.exists_ofValue?_of_all hranges.2 hitem
    rw [Function.comp_apply, Range.ofValue?_unspell forms hread, hread]
    rfl
  · rename_i hranges
    rw [if_neg hranges]
    split at h
    · cases h
    · rename_i hnone
      rw [if_neg hnone, ← Except.ok.inj h]
      rfl

/-- **A condition is spelled by a value, or with its operands replaced** by the value
with the same replaced. A script that becomes a document would be refused as one. -/
theorem ofValue_unspell (scriptFree : value.ScriptFree) (h : ofValue field value = .ok condition) :
    ofValue field (forms.unspell value) = .ok (condition.map forms.unspell) := by
  cases value with
  | array items =>
    rw [Forms.unspell, forms.unspellItems_eq_map]
    exact ofList_unspell h
  | document entries =>
    rw [ofValue] at h
    split at h
    · rename_i range hrange
      have hunspell := Range.ofValue?_unspell forms hrange
      obtain ⟨_, heq, hspelled, -⟩ := Range.ofValue?_eq_some_iff.1 hrange
      obtain rfl := Value.document.inj heq
      rw [forms.unspell_document (Range.isTopLevel_of_isSpelledBy hspelled)] at hunspell ⊢
      rw [ofValue, hunspell, ← Except.ok.inj h]
      rfl
    · cases h
  | codeWithScope _ _ => cases scriptFree
  | _ =>
    rw [← Except.ok.inj h]
    rfl

/-- If no operand of the condition that a list spells is replaced, no member is. -/
theorem unspell_eq_self_of_ofList {items : List Value}
    (wellFormed : ∀ item ∈ items, item.WellFormed) (h : ofList field items = .ok condition)
    (hoperands : ∀ operand ∈ condition.operands, forms.unspell operand = operand) :
    ∀ item ∈ items, forms.unspell item = item := by
  intro item hitem
  rw [ofList_eq] at h
  split at h
  · rename_i hranges
    obtain ⟨range, hread⟩ := Range.exists_ofValue?_of_all hranges.2 hitem
    refine Range.unspell_eq_self (wellFormed item hitem) hread fun bound hbound => ?_
    rw [← Except.ok.inj h] at hoperands
    exact hoperands bound (List.mem_flatMap.2
      ⟨range, List.mem_filterMap.2 ⟨item, hitem, hread⟩, hbound⟩)
  · split at h
    · cases h
    · rw [← Except.ok.inj h] at hoperands
      exact hoperands item hitem

/-- A condition is spelled by nothing that is replaced but its operands. -/
theorem unspell_eq_self_of_ofValue (wellFormed : value.WellFormed)
    (h : ofValue field value = .ok condition)
    (hoperands : ∀ operand ∈ condition.operands, forms.unspell operand = operand) :
    forms.unspell value = value := by
  cases value with
  | array items =>
    exact Forms.unspell_array_eq_self (unspell_eq_self_of_ofList
      (Value.wellFormedItems_iff.1 wellFormed) h hoperands)
  | document entries =>
    rw [ofValue] at h
    split at h
    · rename_i range hrange
      rw [← Except.ok.inj h] at hoperands
      exact Range.unspell_eq_self wellFormed hrange hoperands
    · cases h
  | _ =>
    rw [← Except.ok.inj h] at hoperands
    exact hoperands _ (List.mem_singleton_self _)

/-- If a condition is the same with its operands replaced, none of them is replaced by another.
-/
theorem unspell_operands_of_map_eq_self (h : condition.map forms.unspell = condition) :
    ∀ operand ∈ condition.operands, forms.unspell operand = operand := by
  have hoperands : condition.operands.map forms.unspell = condition.operands.map id := by
    rw [← operands_map, h, List.map_id]
  exact List.map_inj_left.1 hoperands

end Condition

/-! ### Filters -/

namespace Filter

/-- Applies a function to every value of the conditions of a filter. -/
def map (f : Value → Value) (filter : Filter) : Filter :=
  filter.mapEntries fun _ condition => condition.map f

variable {document : Document} {filter : Filter}

/-- The document of a filter has names of top-level fields only. -/
theorem isTopLevel_of_ofDocument (h : ofDocument document = .ok filter) :
    ∀ entry ∈ document, FieldName.isTopLevel entry.1 = true := by
  intro entry hentry
  obtain ⟨conditions, hconditions, -⟩ := ofDocument_eq_ok_iff.1 h
  obtain ⟨named, hnamed⟩ := Outcome.exists_ok_of_mem hconditions hentry
  exact (namedCondition_eq_ok_iff.1 hnamed).1

/-- **A filter is read off its document with the operands replaced.** -/
theorem ofDocument_unspellEntries (scriptFree : (Value.document document).ScriptFree)
    (h : ofDocument document = .ok filter) :
    ofDocument (forms.unspellEntries document) = .ok (filter.map forms.unspell) := by
  obtain ⟨conditions, hconditions, rfl⟩ := ofDocument_eq_ok_iff.1 h
  refine ofDocument_eq_ok_iff.2
    ⟨conditions.map fun named => (named.1, named.2.map forms.unspell), ?_,
      (FieldMap.mapEntries_ofList (fun _ condition => condition.map forms.unspell)
        conditions).symm⟩
  rw [forms.unspellEntries_eq_map, List.forall₂_map_left_iff, List.forall₂_map_right_iff]
  refine ((List.forall₂_and_left _ _).2
    ⟨Value.scriptFreeEntries_iff.1 scriptFree, hconditions⟩).imp ?_
  rintro entry named ⟨hscriptFree, hnamed⟩
  obtain ⟨hname, hsame, hcondition⟩ := namedCondition_eq_ok_iff.1 hnamed
  exact namedCondition_eq_ok_iff.2 ⟨hname, hsame, Condition.ofValue_unspell hscriptFree hcondition⟩

/-- A filter is spelled by nothing that is replaced but its operands. -/
theorem unspellEntries_eq_self_of_ofDocument (wellFormed : (Value.document document).WellFormed)
    (h : ofDocument document = .ok filter) (hmap : filter.map forms.unspell = filter) :
    forms.unspellEntries document = document := by
  refine Forms.unspellEntries_eq_self fun entry hentry => ?_
  have hget : document.get? entry.1 = some entry.2 :=
    (Entries.get?_eq_some_iff_mem wellFormed.1).2 hentry
  obtain ⟨conditions, hconditions, -⟩ := ofDocument_eq_ok_iff.1 h
  obtain ⟨⟨_, condition⟩, hnamed⟩ := Outcome.exists_ok_of_mem hconditions hentry
  have hcondition : Condition.ofValue entry.1 entry.2 = .ok condition :=
    (namedCondition_eq_ok_iff.1 hnamed).2.2
  have hmem : (entry.1, condition) ∈ filter.entries :=
    FieldMap.mem_entries_iff.2 ((get?_ofDocument wellFormed.1 h).2 ⟨_, hget, hcondition⟩)
  have hvalueWellFormed : entry.2.WellFormed := Value.wellFormedEntries_iff.1 wellFormed.2 _ hentry
  exact Condition.unspell_eq_self_of_ofValue hvalueWellFormed hcondition
    (Condition.unspell_operands_of_map_eq_self (FieldMap.eq_of_mapEntries_eq_self hmap hmem))

end Filter

/-! ### Sorts -/

namespace Sorting

/-- The properties of a sort are texts. -/
theorem isLeaf_of_foldlM_addProperty {properties : List Value} {sort next : Sorting}
    (h : properties.foldlM addProperty sort = .ok next) :
    ∀ property ∈ properties, property.isLeaf = true := by
  induction properties generalizing sort with
  | nil => exact fun _ hproperty => nomatch hproperty
  | cons first rest ih =>
    obtain ⟨_, hfirst, hrest⟩ := Outcome.bind_eq_ok_iff.1 h
    refine List.forall_mem_cons.2 ⟨?_, ih hrest⟩
    unfold addProperty at hfirst
    split at hfirst
    · rfl
    · cases hfirst

/-- A count is a number. -/
theorem isLeaf_of_count {key : String} {value : Value} {n : Nat}
    (h : Sorting.count key value = .ok n) : value.isLeaf = true := by
  cases value with
  | array _ | document _ | codeWithScope _ _ => cases h
  | _ => rfl

/-- An entry of a sort holds nothing that is replaced, and is no part of what spells a
value: it is null, or has the name of a part of sorts. -/
theorem unspell_of_takeEntry {entry : String × Value} {sort next : Sorting}
    (h : sort.takeEntry entry = .ok next) :
    forms.unspell entry.2 = entry.2 ∧
      (entry.2.isNull = true ∨ FieldName.isTopLevel entry.1 = true) := by
  have hnames : ["property", "order", "offset", "limit"].all FieldName.isTopLevel = true := by
    decide
  have hnamed := List.all_eq_true.1 hnames
  unfold takeEntry at h
  split at h
  · exact ⟨rfl, .inl rfl⟩
  · exact ⟨rfl, .inr (hnamed "property" (by decide))⟩
  · exact ⟨Forms.unspell_array_eq_self fun property hproperty =>
      Value.unspell_of_isLeaf (isLeaf_of_foldlM_addProperty h property hproperty),
      .inr (hnamed "property" (by decide))⟩
  · exact ⟨rfl, .inr (hnamed "order" (by decide))⟩
  · obtain ⟨_, hcount, -⟩ := Outcome.bind_eq_ok_iff.1 h
    exact ⟨Value.unspell_of_isLeaf (isLeaf_of_count hcount), .inr (hnamed "offset" (by decide))⟩
  · obtain ⟨_, hcount, -⟩ := Outcome.bind_eq_ok_iff.1 h
    exact ⟨Value.unspell_of_isLeaf (isLeaf_of_count hcount), .inr (hnamed "limit" (by decide))⟩
  · cases h

/-- **A sort is spelled by nothing that is replaced.** -/
theorem unspell_of_ofDocument {document : Document} {sort : Sorting}
    (h : ofDocument document = .ok sort) :
    forms.unspell (.document document) = .document document := by
  have hentry : ∀ entry ∈ document, forms.unspell entry.2 = entry.2 ∧
      (entry.2.isNull = true ∨ FieldName.isTopLevel entry.1 = true) := by
    intro entry hentry
    obtain ⟨parts, hparts, -⟩ := ofDocument_eq_ok_iff.1 h
    obtain ⟨part, hpart⟩ := Outcome.exists_ok_of_mem hparts hentry
    exact unspell_of_takeEntry (namedPart_eq_ok_iff.1 hpart).2
  rw [Forms.unspell, Forms.unspellEntries_eq_self fun entry hmem => (hentry entry hmem).1,
    Forms.ofSpelling_eq_document_iff]
  refine ⟨rfl, Option.eq_none_iff_forall_ne_some.2 fun value hvalue => ?_⟩
  -- the entries of a form are neither null nor named like parts of sorts
  obtain ⟨entry, hmem⟩ := List.exists_mem_of_ne_nil _ (forms.ne_nil_of_spelled? hvalue)
  rcases (hentry entry hmem).2 with hnull | htopLevel
  · exact Bool.eq_false_iff.1 (forms.isNull_of_spelled? hvalue entry hmem) hnull
  · exact Bool.eq_false_iff.1 (forms.isTopLevel_of_spelled? hvalue entry hmem) htopLevel

end Sorting

/-! ### Queries -/

namespace Query

/-- Applies a function to every value of the filter of a query. -/
def map (f : Value → Value) (query : Query) : Query :=
  { query with filter := query.filter.map (Filter.map f) }

variable {document : Document} {query : Query}

/-- Replacing values keeps the names, and with them the shape of a query. -/
theorem isSpelledBy_unspellEntries (forms : Forms) (document : Document) :
    isSpelledBy (forms.unspellEntries document) = isSpelledBy document := by
  have hcontains : ∀ key, Entries.contains (forms.unspellEntries document) key
      = Entries.contains document key := by
    intro key
    rw [Entries.contains, Entries.contains, forms.get?_unspellEntries, Option.isSome_map]
  rw [isSpelledBy, isSpelledBy, hcontains, hcontains]

/-- The two names of a query are names of top-level fields. -/
theorem isTopLevel_of_ofDocument (h : ofDocument document = .ok query) :
    ∀ entry ∈ document, FieldName.isTopLevel entry.1 = true := by
  intro entry hentry
  rcases (ofDocument_eq_ok_iff.1 h).1 entry.1 (List.mem_map_of_mem hentry) with hname | hname
  · rw [hname]
    decide
  · rw [hname]
    decide

section Part

variable {α : Type} {key : String} {otherwise : ShapeCause} {read : Document → Outcome α}
  {part? : Option α}

/-- A part of a query is read off a document with replaced values as the documents
that spell such parts are. -/
theorem part_unspellEntries {f : α → α}
    (hread : ∀ entries whole, document.read key = .document entries → read entries = .ok whole →
      ∃ unspelled, forms.unspell (.document entries) = .document unspelled ∧
        read unspelled = .ok (f whole))
    (h : part document key otherwise read = .ok part?) :
    part (forms.unspellEntries document) key otherwise read = .ok (part?.map f) := by
  rw [part_eq_ok_iff] at h ⊢
  rw [forms.read_unspellEntries]
  rcases h with ⟨hnull, rfl⟩ | ⟨entries, whole, hentries, hwhole, rfl⟩
  · rw [hnull]
    exact .inl ⟨rfl, rfl⟩
  · obtain ⟨unspelled, hunspelled, hresult⟩ := hread entries whole hentries hwhole
    rw [hentries]
    exact .inr ⟨unspelled, f whole, hunspelled, hresult, rfl⟩

/-- A part of a query is left as it is where the document that spells it is. -/
theorem unspell_read_of_part
    (hread : ∀ entries whole, document.read key = .document entries → read entries = .ok whole →
      part? = some whole → forms.unspell (.document entries) = .document entries)
    (h : part document key otherwise read = .ok part?) :
    forms.unspell (document.read key) = document.read key := by
  rcases part_eq_ok_iff.1 h with ⟨hnull, -⟩ | ⟨entries, whole, hentries, hwhole, hpart⟩
  · rw [hnull]
    rfl
  · rw [hentries]
    exact hread entries whole hentries hwhole hpart

end Part

/-- **A query is read off its document with the operands replaced.** -/
theorem ofDocument_unspellEntries (scriptFree : (Value.document document).ScriptFree)
    (h : ofDocument document = .ok query) :
    ofDocument (forms.unspellEntries document) = .ok (query.map forms.unspell) := by
  obtain ⟨hnames, hfilter, hsort⟩ := ofDocument_eq_ok_iff.1 h
  rw [ofDocument_eq_ok_iff, forms.keys_unspellEntries]
  refine ⟨hnames, part_unspellEntries (fun entries filter hentries hread => ?_) hfilter, ?_⟩
  · have hscriptFree := Document.scriptFree_read scriptFree filterKey
    rw [hentries] at hscriptFree
    exact ⟨_, forms.unspell_document (Filter.isTopLevel_of_ofDocument hread),
      Filter.ofDocument_unspellEntries hscriptFree hread⟩
  · have hpart : part (forms.unspellEntries document) sortKey .sortNotADocument Sorting.ofDocument
        = .ok (query.sort.map id) :=
      part_unspellEntries (fun entries sort _ hread =>
        ⟨entries, Sorting.unspell_of_ofDocument hread, hread⟩) hsort
    rwa [Option.map_id_fun, id_eq] at hpart

/-- A query is spelled by nothing that is replaced but the operands of its filter. -/
theorem unspellEntries_eq_self_of_ofDocument (wellFormed : (Value.document document).WellFormed)
    (h : ofDocument document = .ok query) (hmap : query.map forms.unspell = query) :
    forms.unspellEntries document = document := by
  obtain ⟨hnames, hfilter, hsort⟩ := ofDocument_eq_ok_iff.1 h
  have hmap : query.filter.map (Filter.map forms.unspell) = query.filter :=
    congrArg Query.filter hmap
  refine Forms.unspellEntries_eq_self fun entry hentry => ?_
  have hread : document.read entry.1 = entry.2 := by
    rw [Document.read, (Entries.get?_eq_some_iff_mem wellFormed.1).2 hentry]
    rfl
  rw [← hread]
  rcases hnames entry.1 (List.mem_map_of_mem hentry) with hname | hname
  · rw [hname] at hread ⊢
    refine unspell_read_of_part (fun entries filter hentries hfilter hpart => ?_) hfilter
    have hentryWellFormed := Value.wellFormedEntries_iff.1 wellFormed.2 _ hentry
    rw [← hread, hentries] at hentryWellFormed
    rw [hpart] at hmap
    rw [forms.unspell_document (Filter.isTopLevel_of_ofDocument hfilter),
      Filter.unspellEntries_eq_self_of_ofDocument hentryWellFormed hfilter (Option.some.inj hmap)]
  · rw [hname]
    exact unspell_read_of_part (fun _ _ _ hread _ => Sorting.unspell_of_ofDocument hread) hsort

end Query

end RecordStore
