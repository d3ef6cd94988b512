import RecordStore.Proofs.Request.Faults
import RecordStore.Proofs.Request.Image
import RecordStore.Proofs.Request.Reading
import RecordStore.Proofs.Request.Written
import RecordStore.Proofs.Value.Reordered

/-!
# The order of entries in a request

What a request asks for does not depend on the order in which its documents list
their entries: neither that of the request itself, nor those of a filter and a sort
in a query, nor those of ranges, be they on their own or in lists
(`RecordStore.Value.ReorderedRequest`). Requests that differ in nothing else ask for
the same lookup, or are both refused (`RecordStore.Lookup.alike_ofValue`).

Entries are read one after the other and reading stops at the first that is refused,
so that two orders may well be refused for different causes. The kind of the failure
is the same, though (`RecordStore.Failure.kind`), and whether there is one does not
depend on the order either: it is for each entry alone to be refused, and what
entries of different names contribute may be put together in any order
(`RecordStore.Outcome.foldlM_eq_ok_iff_of_perm`).
-/

namespace RecordStore

/-! ### Outcomes that are the same but for the cause of a failure -/

/-- The kinds of failures. -/
inductive FailureKind where
  | serialization
  | initialization
  | validation
  | unbound
  | alreadyBound
  | invalidSchema
  | ambiguousShape
  | invalidQuery
  | invalidDocument
  | backend
  deriving DecidableEq

namespace Failure

/-- The kind of a failure, whatever its cause. -/
def kind : Failure → FailureKind
  | serialization _ => .serialization
  | initialization _ => .initialization
  | validation _ => .validation
  | unbound _ => .unbound
  | alreadyBound _ => .alreadyBound
  | invalidSchema _ => .invalidSchema
  | ambiguousShape _ => .ambiguousShape
  | invalidQuery _ => .invalidQuery
  | invalidDocument _ => .invalidDocument
  | backend _ => .backend

theorem OfQuery.kind_eq {failure : Failure} (h : failure.OfQuery) :
    failure.kind = .invalidQuery := by
  rcases failure with _ | _ | _ | _ | _ | _ | _ | cause | _ | _
  case invalidQuery => rfl
  all_goals exact h.elim

end Failure

namespace Outcome

variable {α β : Type}

/-- Two computations succeed with the same result, or fail with failures of one
kind. -/
inductive Alike : Outcome α → Outcome α → Prop
  | ok (a : α) : Alike (.ok a) (.ok a)
  | error {failure other : Failure} : failure.kind = other.kind →
      Alike (.error failure) (.error other)

theorem Alike.refl (outcome : Outcome α) : Alike outcome outcome := by
  rcases outcome with failure | a
  · exact .error rfl
  · exact .ok a

/-- Of two outcomes that are alike both succeed if one does, with one result. -/
theorem Alike.eq_ok {first second : Outcome α} (h : Alike first second) {a : α}
    (hfirst : first = .ok a) : second = .ok a := by
  rcases h with a' | hkind
  · exact hfirst
  · cases hfirst

/-- Computations are alike that start alike and go on alike. -/
theorem Alike.bind {first second : Outcome α} {step step' : α → Outcome β}
    (h : Alike first second) (hstep : ∀ a, Alike (step a) (step' a)) :
    Alike (first >>= step) (second >>= step') := by
  rcases h with a | hkind
  · exact hstep a
  · exact .error hkind

theorem Alike.map {first second : Outcome α} (h : Alike first second) (f : α → β) :
    Alike (f <$> first) (f <$> second) := by
  rcases h with a | hkind
  · exact .ok (f a)
  · exact .error hkind

/-- Lists of steps that are alike one by one are alike. -/
theorem alike_mapM {step : α → Outcome β} {items others : List α}
    (h : List.Forall₂ (fun a a' => Alike (step a) (step a')) items others) :
    Alike (items.mapM step) (others.mapM step) := by
  induction h with
  | nil => exact .refl _
  | cons hstep _ ih =>
    rw [List.mapM_cons, List.mapM_cons]
    exact hstep.bind fun _ => ih.bind fun _ => .refl _

/-- Computations that succeed alike, and fail in one way only, are alike. -/
theorem alike_of_failsAs {first second : Outcome α} {kind : FailureKind}
    (hok : ∀ a, first = .ok a ↔ second = .ok a)
    (hfirst : FailsAs (fun failure => failure.kind = kind) first)
    (hsecond : FailsAs (fun failure => failure.kind = kind) second) : Alike first second := by
  rcases first with failure | a
  · rcases second with other | b
    · exact .error ((hfirst failure rfl).trans (hsecond other rfl).symm)
    · exact absurd ((hok b).2 rfl) nofun
  · rw [(hok a).1 rfl]
    exact .ok a

end Outcome

open Outcome

/-! ### Documents in another order -/

namespace Document

variable {related : String → Value → Value → Prop} {entries others : Document}

/-- **Reading entry by entry does not depend on the order of entries**, where each
contributes a part of its own, related values contribute the same, and parts of
different names may be put to the rest in either order. -/
theorem Reordered.alike_foldlM {α β : Type} {step : β → String × Value → Outcome β}
    {read : String × Value → Outcome α} {combine : β → α → β} {kind : FailureKind}
    (h : Reordered related entries others) (distinct : entries.keys.Nodup)
    (hstep : ∀ b entry, step b entry = combine b <$> read entry)
    (hsame : ∀ name value other, related name value other →
      ∀ b, step b (name, value) = step b (name, other))
    (hcomm : ∀ entry entry', entry.1 ≠ entry'.1 → ∀ part part', read entry = .ok part →
      read entry' = .ok part' → ∀ b, combine (combine b part) part' = combine (combine b part') part)
    (hfails : ∀ b entry, FailsAs (fun failure => failure.kind = kind) (step b entry)) (start : β) :
    Alike (entries.foldlM step start) (others.foldlM step start) := by
  obtain ⟨inPlace, hrelated, hperm⟩ := h
  have hinPlace : entries.foldlM step start = inPlace.foldlM step start := by
    refine foldlM_eq_of_forall₂ (hrelated.imp ?_) start
    rintro ⟨name, value⟩ ⟨_, other⟩ ⟨rfl, hvalue⟩
    exact hsame name value other hvalue
  rw [hinPlace]
  refine alike_of_failsAs (fun result => foldlM_eq_ok_iff_of_perm hstep hperm ?_)
    (failsAs_foldlM hfails _ _) (failsAs_foldlM hfails _ _)
  intro entry hentry entry' hentry' part part' hpart hpart'
  by_cases hname : entry.1 = entry'.1
  · -- names are distinct, so it is one entry
    obtain rfl := Entries.eq_of_mem_of_fst_eq (keys_eq_of_forall₂ hrelated ▸ distinct)
      hentry hentry' hname
    obtain rfl := Except.ok.inj (hpart.symm.trans hpart')
    exact fun _ => rfl
  · exact hcomm entry entry' hname part part' hpart hpart'

end Document

/-! ### Requests in another order -/

namespace Value

/-- Whether a value is another, with the entries of a range in any order. -/
inductive ReorderedRange : Value → Value → Prop
  | same (value : Value) : ReorderedRange value value
  | range {entries others : Document} : Range.isSpelledBy entries = true → entries.Perm others →
      ReorderedRange (.document entries) (.document others)

/-- Whether a value is another, with the entries of a range, or of the ranges of a
list, in any order. -/
inductive ReorderedCondition : Value → Value → Prop
  | single {value other : Value} : ReorderedRange value other → ReorderedCondition value other
  | list {items others : List Value} : List.Forall₂ ReorderedRange items others →
      ReorderedCondition (.array items) (.array others)

/-- Whether a value is another, where the filter and the sort of a query may have
their entries in any order, and so may ranges. -/
inductive ReorderedPart (name : String) : Value → Value → Prop
  | condition {value other : Value} : ReorderedCondition value other →
      ReorderedPart name value other
  | part {entries others : Document} : name = Query.filterKey ∨ name = Query.sortKey →
      Document.Reordered (fun _ => ReorderedCondition) entries others →
      ReorderedPart name (.document entries) (.document others)

/-- **Whether two requests differ only in the order of entries**: of the document as
a whole, of the filter and the sort of a query, and of ranges. -/
inductive ReorderedRequest : Value → Value → Prop
  | condition {value other : Value} : ReorderedCondition value other →
      ReorderedRequest value other
  | document {entries others : Document} : Document.Reordered ReorderedPart entries others →
      ReorderedRequest (.document entries) (.document others)

theorem ReorderedCondition.refl (value : Value) : ReorderedCondition value value :=
  .single (.same value)

end Value

/-! ### Ranges and conditions -/

namespace Range

/-- Whether a document spells a range does not depend on its order. -/
theorem isSpelledBy_eq_of_perm {entries others : Document} (h : entries.Perm others) :
    isSpelledBy entries = isSpelledBy others := by
  have hall : ∀ p : String → Bool, entries.keys.all p = others.keys.all p := by
    intro p
    have hkeys : entries.keys.Perm others.keys := h.map Prod.fst
    rw [Bool.eq_iff_iff, List.all_eq_true, List.all_eq_true]
    exact forall_congr' fun key => by rw [hkeys.mem_iff]
  rw [isSpelledBy, isSpelledBy, hall, h.isEmpty_eq]

/-- The range that a document spells does not depend on its order. -/
theorem ofDocument_eq_of_perm {entries others : Document} (distinct : entries.keys.Nodup)
    (h : entries.Perm others) : ofDocument entries = ofDocument others := by
  rw [ofDocument, ofDocument, bound?, bound?, bound?, bound?, Entries.get?_eq_of_perm distinct h,
    Entries.get?_eq_of_perm distinct h]

/-- The range that a value spells does not depend on its order. -/
theorem ofValue?_eq_of_reordered {value other : Value} (wellFormed : value.WellFormed)
    (h : Value.ReorderedRange value other) : ofValue? value = ofValue? other := by
  rcases h with _ | ⟨-, hperm⟩
  · rfl
  · rw [ofValue?, ofValue?, isSpelledBy_eq_of_perm hperm,
      ofDocument_eq_of_perm wellFormed.1 hperm]

end Range

namespace Condition

variable {field : String} {value other : Value}

/-- A list with no range among its members is left as it is. -/
theorem eq_of_reordered_of_any_eq_false {items others : List Value}
    (h : List.Forall₂ Value.ReorderedRange items others)
    (hnone : items.any Range.isRange = false) : items = others := by
  induction h with
  | nil => rfl
  | cons hitem _ ih =>
    rw [List.any_cons, Bool.or_eq_false_iff] at hnone
    rcases hitem with _ | ⟨hspelled, -⟩
    · rw [ih hnone.2]
    · exact absurd hspelled (Bool.eq_false_iff.1 hnone.1)

/-- **A list spells one condition in every order of its ranges' entries.** Members that are no
ranges are the same in both lists. -/
theorem ofList_eq_of_reordered {items others : List Value}
    (wellFormed : ∀ item ∈ items, item.WellFormed)
    (h : List.Forall₂ Value.ReorderedRange items others) :
    ofList field items = ofList field others := by
  have hread : items.map Range.ofValue? = others.map Range.ofValue? := by
    rw [← List.forall₂_eq_eq_eq, List.forall₂_map_left_iff, List.forall₂_map_right_iff]
    refine ((List.forall₂_and_left _ _).2 ⟨wellFormed, h⟩).imp ?_
    rintro item other ⟨hitem, hreordered⟩
    exact Range.ofValue?_eq_of_reordered hitem hreordered
  have hkind : items.map Range.isRange = others.map Range.isRange := by
    have hisRange : Range.isRange = Option.isSome ∘ Range.ofValue? :=
      funext fun value => (Range.isSome_ofValue? value).symm
    rw [hisRange, ← List.map_map, ← List.map_map, hread]
  have hranges : items.filterMap Range.ofValue? = others.filterMap Range.ofValue? := by
    have hfilterMap : ∀ values : List Value,
        values.filterMap Range.ofValue? = (values.map Range.ofValue?).filterMap id := by
      intro values
      rw [List.filterMap_map, Function.id_comp]
    rw [hfilterMap, hread, ← hfilterMap]
  have hall : items.all Range.isRange = others.all Range.isRange := by
    simpa using congrArg (List.all · id) hkind
  have hany : items.any Range.isRange = others.any Range.isRange := by
    simpa using congrArg (List.any · id) hkind
  have hempty : items = [] ↔ others = [] := by
    rw [← List.map_eq_nil_iff (f := Range.isRange), hkind, List.map_eq_nil_iff]
  simp only [ofList_eq, hranges, hall, hany, ne_eq, hempty]
  split
  · rfl
  · split
    · rfl
    · rename_i hnone
      rw [eq_of_reordered_of_any_eq_false h (hany.trans (Bool.eq_false_iff.2 hnone))]

/-- **A condition does not depend on the order in which its ranges are spelled.** -/
theorem ofValue_eq_of_reordered (wellFormed : value.WellFormed)
    (h : Value.ReorderedCondition value other) : ofValue field value = ofValue field other := by
  rcases h with hrange | hitems
  · rcases hrange with _ | ⟨hspelled, hperm⟩
    · rfl
    · rw [ofValue, ofValue, Range.ofValue?_eq_of_reordered wellFormed (.range hspelled hperm)]
  · exact ofList_eq_of_reordered (Value.wellFormedItems_iff.1 wellFormed) hitems

end Condition

/-! ### Filters -/

namespace Filter

variable {entries others : Document}

/-- **The order of its entries, and that of its ranges, do not matter for a filter.** -/
theorem alike_ofDocument (wellFormed : (Value.document entries).WellFormed)
    (h : Document.Reordered (fun _ => Value.ReorderedCondition) entries others) :
    Alike (ofDocument entries) (ofDocument others) := by
  refine (h.and_wellFormed wellFormed).alike_foldlM wellFormed.1 requireSpelled_eq ?_ ?_
    (fun filter entry => (failsAs_requireSpelled filter entry).mono fun _ =>
      Failure.OfQuery.kind_eq) empty
  · rintro name value other ⟨hvalue, hreordered⟩ filter
    rw [requireSpelled, requireSpelled, Condition.ofValue_eq_of_reordered hvalue hreordered]
  · intro entry entry' hname named named' hnamed hnamed' filter
    refine FieldMap.insert_comm filter named.2 named'.2 ?_
    rwa [(namedCondition_eq_ok_iff.1 hnamed).2.1, (namedCondition_eq_ok_iff.1 hnamed').2.1]

end Filter

/-! ### Sorts -/

namespace Sorting

variable {entries others : Document} {sort : Sorting}

/-- A property is no range, so its name is the same in every order. -/
theorem foldlM_addProperty_eq_of_reordered {items others : List Value}
    (h : List.Forall₂ Value.ReorderedRange items others) :
    items.foldlM addProperty sort = others.foldlM addProperty sort := by
  refine foldlM_eq_of_forall₂ (h.imp ?_) sort
  rintro _ _ (_ | _) sort
  · rfl
  · rfl

/-- **A part of a sort is read in one way from every order.** No part is spelled by a range. -/
theorem takeEntry_eq_of_reordered {name : String} {value other : Value}
    (h : Value.ReorderedCondition value other) :
    sort.takeEntry (name, value) = sort.takeEntry (name, other) := by
  -- only a count may be of any shape, and no array and no document is one
  by_cases hoffset : name = "offset"
  · subst hoffset
    rcases h with (_ | _) | _ <;> rfl
  by_cases hlimit : name = "limit"
  · subst hlimit
    rcases h with (_ | _) | _ <;> rfl
  rcases h with (_ | _) | hitems
  · rfl
  · simp [takeEntry]
  · by_cases hproperty : name = "property"
    · subst hproperty
      exact foldlM_addProperty_eq_of_reordered hitems
    · simp [takeEntry, hproperty]

/-- **The order of its entries does not matter for a sort.** -/
theorem alike_ofDocument (distinct : entries.keys.Nodup)
    (h : Document.Reordered (fun _ => Value.ReorderedCondition) entries others) :
    Alike (ofDocument entries) (ofDocument others) := by
  refine h.alike_foldlM distinct takeEntry_eq ?_ ?_
    (fun sort entry => (failsAs_takeEntry sort entry).mono fun _ => Failure.OfQuery.kind_eq) empty
  · intro name value other hreordered sort
    exact takeEntry_eq_of_reordered hreordered
  · intro entry entry' hname part part' hpart hpart' sort
    exact merge_right_comm sort (onlyOf_of_takeEntry (namedPart_eq_ok_iff.1 hpart).2)
      (onlyOf_of_takeEntry (namedPart_eq_ok_iff.1 hpart').2) hname

end Sorting

/-! ### Queries -/

namespace Query

variable {entries others : Document}

theorem isSpelledBy_eq_of_reordered (h : Document.Reordered Value.ReorderedPart entries others) :
    isSpelledBy entries = isSpelledBy others := by
  rw [isSpelledBy, isSpelledBy, h.contains_eq, h.contains_eq]

/-- A part of a query does not depend on the order of entries if reading it does
not. -/
theorem alike_part {α : Type} {key : String} {otherwise : ShapeCause}
    {read : Document → Outcome α} (wellFormed : (Value.document entries).WellFormed)
    (h : Document.Reordered Value.ReorderedPart entries others)
    (hread : ∀ document document', (Value.document document).WellFormed →
      Document.Reordered (fun _ => Value.ReorderedCondition) document document' →
      Alike (read document) (read document')) :
    Alike (part entries key otherwise read) (part others key otherwise read) := by
  rw [part, part]
  rcases (h.and_wellFormed wellFormed).get? wellFormed.1 key with
    ⟨hentry, hother⟩ | ⟨value, other, hentry, hother, hvalue, hreordered⟩
  · rw [hentry, hother]
    exact .refl _
  · rw [hentry, hother]
    rcases hreordered with (hrange | _) | ⟨-, hreordered⟩
    · rcases hrange with _ | ⟨-, hperm⟩
      · exact .refl _
      · exact (hread _ _ hvalue (Document.reordered_of_perm
          (fun _ => Value.ReorderedCondition.refl) hperm)).map some
    · exact .refl _
    · exact (hread _ _ hvalue hreordered).map some

/-- **The order of its entries, and that of the entries of its parts, do not matter for
a query.** -/
theorem alike_ofDocument (wellFormed : (Value.document entries).WellFormed)
    (h : Document.Reordered Value.ReorderedPart entries others) :
    Alike (ofDocument entries) (ofDocument others) := by
  have hstray : strayKey? entries = none ↔ strayKey? others = none := by
    rw [strayKey?_eq_none_iff, strayKey?_eq_none_iff]
    exact forall_congr' fun key => by rw [h.keys_perm.mem_iff]
  rw [ofDocument, ofDocument]
  rcases hentries : strayKey? entries with _ | key
  · rw [hstray.1 hentries]
    refine (alike_part wellFormed h fun _ _ => Filter.alike_ofDocument).bind fun _ => ?_
    exact (alike_part wellFormed h fun _ _ hpart => Sorting.alike_ofDocument hpart.1).bind
      fun _ => .refl _
  · rcases hothers : strayKey? others with _ | key'
    · rw [hstray.2 hothers] at hentries
      cases hentries
    · exact .error rfl

end Query

/-! ### Lookups -/

namespace Lookup

variable {κ : Type} [EntityKey κ]

/-- What is no key is refused for its shape. -/
theorem kind_of_keyOf {value : Value} {failure : Failure}
    (h : (keyOf value : Outcome κ) = .error failure) : failure.kind = .ambiguousShape := by
  rw [keyOf] at h
  rcases hkey : (EntityKey.ofNative value : Except DocumentCause κ) with cause | key
  · rw [hkey] at h
    rw [← Except.error.inj h]
    rfl
  · rw [hkey] at h
    cases h

/-- In a document that is no query, only ranges may have their entries in another
order. -/
theorem reordered_conditions {entries others : Document} (hquery : ¬Query.isSpelledBy entries)
    (h : Document.Reordered Value.ReorderedPart entries others) :
    Document.Reordered (fun _ => Value.ReorderedCondition) entries others := by
  obtain ⟨inPlace, hrelated, hperm⟩ := h
  have hnames := isSpelledBy_eq_false_iff.1 (Bool.eq_false_iff.2 hquery)
  have hmembers : ∀ entry ∈ entries, entry ∈ entries := fun _ => id
  refine ⟨inPlace, ((List.forall₂_and_left _ _).2 ⟨hmembers, hrelated⟩).imp ?_, hperm⟩
  rintro ⟨name, value⟩ ⟨_, other⟩ ⟨hentry, hname, hcondition | ⟨hpart, -⟩⟩
  · exact ⟨hname, hcondition⟩
  · obtain ⟨hfilter, hsort⟩ := hnames name (List.mem_map_of_mem hentry)
    exact (hpart.elim hfilter hsort).elim

/-- Documents in another order ask for the same, be they filters or queries. -/
theorem alike_ofValue_document {entries others : Document}
    (wellFormed : (Value.document entries).WellFormed)
    (h : Document.Reordered Value.ReorderedPart entries others) :
    Alike (ofValue (.document entries) : Outcome (Lookup κ)) (ofValue (.document others)) := by
  rw [ofValue, ofValue, ← Query.isSpelledBy_eq_of_reordered h]
  split
  · exact (Query.alike_ofDocument wellFormed h).map byQuery
  · rename_i hquery
    exact (Filter.alike_ofDocument wellFormed (reordered_conditions hquery h)).map byFilter

variable [EntityKey.OfLeaf κ]

/-- A range is no key, whatever its order. -/
theorem alike_keyOf {value other : Value} (h : Value.ReorderedRange value other) :
    Alike (keyOf value : Outcome κ) (keyOf other) := by
  have hdocument : ∀ entries : Document, ∃ failure,
      (keyOf (.document entries) : Outcome κ) = .error failure := by
    intro entries
    rcases hkey : (keyOf (.document entries) : Outcome κ) with failure | key
    · exact ⟨failure, rfl⟩
    · exact absurd (isLeaf_of_keyOf hkey) Bool.false_ne_true
  rcases h with _ | @⟨entries, others, -, -⟩
  · exact .refl _
  · obtain ⟨failure, hentries⟩ := hdocument entries
    obtain ⟨failure', hothers⟩ := hdocument others
    rw [hentries, hothers]
    exact .error ((kind_of_keyOf hentries).trans (kind_of_keyOf hothers).symm)

/-- **Requests in another order ask for the same, or are refused alike.** -/
theorem alike_ofValue_of_reordered {request other : Value} (wellFormed : request.WellFormed)
    (h : Value.ReorderedRequest request other) :
    Alike (ofValue request : Outcome (Lookup κ)) (ofValue other) := by
  rcases h with (hrange | hitems) | hreordered
  · rcases hrange with _ | ⟨-, hperm⟩
    · exact .refl _
    · exact alike_ofValue_document wellFormed (Document.reordered_of_perm
        (fun _ value => .condition (.refl value)) hperm)
  · exact (alike_mapM (hitems.imp fun _ _ => alike_keyOf)).map byIds
  · exact alike_ofValue_document wellFormed hreordered

/-- **The order of entries does not matter.** Requests that differ in nothing else ask
for the same lookup, or are refused by failures of one kind, whatever the keys. -/
theorem alike_ofValue {request other : Value} (wellFormed : request.WellFormed)
    (h : Value.ReorderedRequest request other) :
    Alike (ofValue request : Outcome (Lookup String)) (ofValue other) ∧
      Alike (ofValue request : Outcome (Lookup ObjectId)) (ofValue other) :=
  ⟨alike_ofValue_of_reordered wellFormed h, alike_ofValue_of_reordered wellFormed h⟩

/-- A query for what is due in a span of time, with the sort first and the span
written backwards. -/
def dueBackwards : Value :=
  .document [
    ("sort", .document [("limit", .int32 5), ("property", .string "due")]),
    ("filter", .document [
      ("open", .bool true),
      ("due", .array [.document [("end", .int32 9), ("start", .int32 1)]])])]

/-- The same query in the customary order. -/
def dueForwards : Value :=
  .document [
    ("filter", .document [
      ("due", .array [.document [("start", .int32 1), ("end", .int32 9)]]),
      ("open", .bool true)]),
    ("sort", .document [("property", .string "due"), ("limit", .int32 5)])]

/-- What both queries ask for. -/
def dueQuery : Query where
  filter := some <| (Filter.empty.require "due" (.withinAny [.between (.int32 1) (.int32 9)])).require
    "open" (.equals (.bool true))
  sort := some ⟨["due"], none, none, some 5⟩

/-- The query is asked for in either order. -/
theorem alike_ofValue_due :
    dueForwards.WellFormed ∧ dueForwards.ReorderedRequest dueBackwards ∧
      (ofValue dueForwards : Outcome (Lookup String)) = .ok (byQuery dueQuery) ∧
      (ofValue dueBackwards : Outcome (Lookup String)) = .ok (byQuery dueQuery) := by
  have wellFormed : dueForwards.WellFormed := by
    simp [dueForwards, Value.WellFormed, Value.WellFormedEntries, Value.WellFormedItems]
  have hspan : Value.ReorderedCondition
      (.array [.document [("start", .int32 1), ("end", .int32 9)]])
      (.array [.document [("end", .int32 9), ("start", .int32 1)]]) :=
    .list (.cons (.range rfl (.swap _ _ _)) .nil)
  have h : dueForwards.ReorderedRequest dueBackwards :=
    .document (Document.reordered_swap
      (.part (.inl rfl) (Document.reordered_swap hspan (.refl _)))
      (.part (.inr rfl) (Document.reordered_swap (.refl _) (.refl _))))
  have haccepted : (ofValue dueForwards : Outcome (Lookup String)) = .ok (byQuery dueQuery) := rfl
  exact ⟨wellFormed, h, haccepted, (alike_ofValue wellFormed h).1.eq_ok haccepted⟩

end Lookup

end RecordStore
