import RecordStore.Proofs.Outcome
import RecordStore.Request.Condition

/-!
# Lists that spell conditions

The first member of a list says whether the list is one of ranges or one of values, and
the other members are gone through in a way of its own for each: a list of ranges is
read member by member, up to the first that is none, and a list of values is searched
for a range. What comes of it is the same whichever member is the first
(`RecordStore.Condition.ofList_eq`). A list is one of ranges if all of its members are,
one of values if none is, and refused otherwise, for one and the same reason; so to
move its members about does no more than to move what they spell
(`RecordStore.Condition.ofValue_array`).

The empty list is the one list whose members are all ranges while none of them is. It
has no first member, and is one of values.
-/

namespace RecordStore

namespace Condition

variable {field : String} {items : List Value}

/-! ### The two ways of going through a list -/

/-- A member is read as a range exactly when it spells one. -/
theorem rangeOf_eq_ok_iff {item : Value} {range : Range Value} :
    rangeOf field item = .ok range ↔ Range.ofValue? item = some range := by
  rw [rangeOf]
  rcases Range.ofValue? item with _ | other <;> simp

/-- A list of ranges is read to its end exactly when all of its members are ranges. -/
theorem mapM_rangeOf (field : String) (items : List Value) :
    items.mapM (rangeOf field)
      = if items.all Range.isRange then .ok (items.filterMap Range.ofValue?)
        else .error (.invalidQuery (.mixedList field)) := by
  induction items with
  | nil => rfl
  | cons item rest ih =>
    rw [List.mapM_cons, ih, rangeOf, List.all_cons, List.filterMap_cons,
      ← Range.isSome_ofValue? item]
    rcases Range.ofValue? item with _ | range
    · rfl
    · by_cases hrest : rest.all Range.isRange = true <;> simp [hrest]

/-- **What a list spells, whichever member is the first.** -/
theorem ofList_eq (field : String) (items : List Value) :
    ofList field items
      = if items ≠ [] ∧ items.all Range.isRange then
          .ok (withinAny (items.filterMap Range.ofValue?))
        else if items.any Range.isRange then .error (.invalidQuery (.mixedList field))
        else .ok (oneOf items) := by
  rcases items with _ | ⟨first, rest⟩
  · rfl
  · rw [ofList, List.head?_cons]
    by_cases hfirst : Range.isRange first = true
    · -- all members are read, and if one of them is no range, the first is one beside it
      have hany : (first :: rest).any Range.isRange = true :=
        List.any_eq_true.2 ⟨first, List.mem_cons_self, hfirst⟩
      simp only [hfirst, if_true, mapM_rangeOf, hany]
      by_cases hall : (first :: rest).all Range.isRange = true
      · rw [if_pos hall, if_pos ⟨List.cons_ne_nil _ _, hall⟩]
        rfl
      · rw [if_neg hall, if_neg fun h => hall h.2]
        rfl
    · have hall : ¬ (first :: rest).all Range.isRange = true := fun h =>
        hfirst (List.all_eq_true.1 h first List.mem_cons_self)
      simp only [hfirst, if_neg fun h : _ ∧ _ => hall h.2, if_false, Bool.false_eq_true]

/-! ### The three kinds of lists -/

/-- **A list spells alternatives** exactly when it has members and all of them spell
ranges. -/
theorem ofList_eq_withinAny_iff {ranges : List (Range Value)} :
    ofList field items = .ok (withinAny ranges) ↔
      items ≠ [] ∧
        List.Forall₂ (fun item range => Range.ofValue? item = some range) items ranges := by
  have hread : List.Forall₂ (fun item range => Range.ofValue? item = some range) items ranges ↔
      items.mapM (rangeOf field) = .ok ranges := by
    simp only [Outcome.mapM_eq_ok_iff, rangeOf_eq_ok_iff]
  rw [hread, mapM_rangeOf, ofList_eq]
  by_cases hall : items.all Range.isRange = true
  · by_cases hnil : items = []
    · subst hnil
      simp
    · simp [hall, hnil]
  · rw [if_neg fun h => hall h.2, if_neg hall]
    split <;> simp

/-- **A list spells values**, its own members, exactly when none of them is a range. -/
theorem ofList_eq_oneOf_iff {values : List Value} :
    ofList field items = .ok (oneOf values) ↔
      (∀ item ∈ items, Range.isRange item = false) ∧ values = items := by
  have hnone : (∀ item ∈ items, Range.isRange item = false) ↔
      ¬ items.any Range.isRange = true := by
    simp
  rw [hnone, ofList_eq]
  split
  · -- a list of ranges has a range
    rename_i hranges
    obtain ⟨item, hitem⟩ := List.exists_mem_of_ne_nil items hranges.1
    have hany := List.any_eq_true.2 ⟨item, hitem, List.all_eq_true.1 hranges.2 item hitem⟩
    simp [hany]
  · split
    · rename_i hany
      simp [hany]
    · rename_i hany
      simp [hany, eq_comm]

/-- **A list is refused** exactly when a range and another value are among its
members. -/
theorem ofList_eq_error_iff {failure : Failure} :
    ofList field items = .error failure ↔
      ((∃ item ∈ items, Range.isRange item = true) ∧ ∃ item ∈ items, Range.isRange item = false) ∧
        failure = .invalidQuery (.mixedList field) := by
  have hrange : (∃ item ∈ items, Range.isRange item = true) ↔ items.any Range.isRange = true :=
    List.any_eq_true.symm
  have hvalue : (∃ item ∈ items, Range.isRange item = false) ↔
      ¬ items.all Range.isRange = true := by
    simp
  rw [hrange, hvalue, ofList_eq]
  split
  · rename_i hranges
    simp [hranges.2]
  · rename_i hranges
    split
    · rename_i hany
      have hne : items ≠ [] := by
        rintro rfl
        cases hany
      have hall : ¬ items.all Range.isRange = true := fun h => hranges ⟨hne, h⟩
      simp [hany, hall, eq_comm]
    · rename_i hany
      simp [hany]

/-- A list spells nothing but alternatives and values. -/
theorem form_of_ofList {condition : Condition} (h : ofList field items = .ok condition) :
    (∃ ranges, condition = withinAny ranges) ∨ ∃ values, condition = oneOf values := by
  rw [ofList_eq] at h
  split at h
  · exact .inl ⟨_, (Except.ok.inj h).symm⟩
  · split at h
    · cases h
    · exact .inr ⟨_, (Except.ok.inj h).symm⟩

/-! ### Lists in another order -/

/-- Whether two lists come to the same but for the order of what they spell: they are
refused alike, or they spell conditions of one form, on the same members. -/
inductive Permuted : Outcome Condition → Outcome Condition → Prop
  | refused (failure : Failure) : Permuted (.error failure) (.error failure)
  | withinAny {ranges others : List (Range Value)} : ranges.Perm others →
      Permuted (.ok (.withinAny ranges)) (.ok (.withinAny others))
  | oneOf {values others : List Value} : values.Perm others →
      Permuted (.ok (.oneOf values)) (.ok (.oneOf others))

/-- A list in another order spells the same condition with its members in that order, or is
refused as well. -/
theorem permuted_ofList (field : String) {others : List Value} (h : items.Perm others) :
    Permuted (ofList field items) (ofList field others) := by
  rcases hitems : ofList field items with failure | condition
  · obtain ⟨⟨⟨item, hitem, hrange⟩, other, hother, hvalue⟩, hfailure⟩ :=
      ofList_eq_error_iff.1 hitems
    have hrefused : ofList field others = .error failure :=
      ofList_eq_error_iff.2 ⟨⟨⟨item, h.mem_iff.1 hitem, hrange⟩, other, h.mem_iff.1 hother, hvalue⟩,
        hfailure⟩
    rw [hrefused]
    exact .refused failure
  · rcases form_of_ofList hitems with ⟨ranges, rfl⟩ | ⟨values, rfl⟩
    · obtain ⟨hne, hranges⟩ := ofList_eq_withinAny_iff.1 hitems
      obtain ⟨moved, hmoved, hperm⟩ := List.perm_comp_forall₂ h.symm hranges
      have hothers : ofList field others = .ok (.withinAny moved) :=
        ofList_eq_withinAny_iff.2 ⟨fun hnil => hne (hnil ▸ h).eq_nil, hmoved⟩
      rw [hothers]
      exact .withinAny hperm.symm
    · obtain ⟨hnone, rfl⟩ := ofList_eq_oneOf_iff.1 hitems
      have hothers : ofList field others = .ok (.oneOf others) :=
        ofList_eq_oneOf_iff.2 ⟨fun item hitem => hnone item (h.mem_iff.2 hitem), rfl⟩
      rw [hothers]
      exact .oneOf h

/-- **How a list is read.** It is accepted if all of its members are ranges or none of
them is, and refused otherwise. In the first case it spells alternatives, the ranges of
its members in order, unless it is empty; in the second one it spells values, which are
its members. The order of the members is that of what they spell, and no more. -/
theorem ofValue_array (field : String) (items : List Value) :
    ((∃ condition, ofValue field (.array items) = .ok condition) ↔
      (∀ item ∈ items, Range.isRange item = true) ∨
        ∀ item ∈ items, Range.isRange item = false) ∧
    (items ≠ [] → (∀ item ∈ items, Range.isRange item = true) →
      ∃ ranges, List.Forall₂ (fun item range => Range.ofValue? item = some range) items ranges ∧
        ofValue field (.array items) = .ok (.withinAny ranges)) ∧
    ((∀ item ∈ items, Range.isRange item = false) →
      ofValue field (.array items) = .ok (.oneOf items)) ∧
    (∀ failure, ofValue field (.array items) = .error failure ↔
      ((∃ item ∈ items, Range.isRange item = true) ∧ ∃ item ∈ items, Range.isRange item = false) ∧
        failure = .invalidQuery (.mixedList field)) ∧
    ∀ others : List Value, items.Perm others →
      Permuted (ofValue field (.array items)) (ofValue field (.array others)) := by
  have hranges : items ≠ [] → (∀ item ∈ items, Range.isRange item = true) →
      ∃ ranges, List.Forall₂ (fun item range => Range.ofValue? item = some range) items ranges ∧
        ofList field items = .ok (.withinAny ranges) := by
    intro hne hall
    have hlist : ofList field items = .ok (.withinAny (items.filterMap Range.ofValue?)) := by
      rw [ofList_eq, if_pos ⟨hne, List.all_eq_true.2 hall⟩]
    exact ⟨_, (ofList_eq_withinAny_iff.1 hlist).2, hlist⟩
  have hvalues : (∀ item ∈ items, Range.isRange item = false) →
      ofList field items = .ok (.oneOf items) := fun hnone =>
    ofList_eq_oneOf_iff.2 ⟨hnone, rfl⟩
  refine ⟨⟨?_, ?_⟩, hranges, hvalues, fun failure => ofList_eq_error_iff,
    fun others hperm => permuted_ofList field hperm⟩
  · rintro ⟨condition, haccepted⟩
    by_contra hmixed
    -- a range and another value would have the list refused
    obtain ⟨hranges, hvalues⟩ := not_or.1 hmixed
    have hrefused : ofList field items = .error (.invalidQuery (.mixedList field)) :=
      ofList_eq_error_iff.2 ⟨⟨by simpa using hvalues, by simpa using hranges⟩, rfl⟩
    exact nomatch haccepted.symm.trans hrefused
  · rintro (hall | hnone)
    · by_cases hnil : items = []
      · subst hnil
        exact ⟨_, hvalues (by simp)⟩
      · obtain ⟨ranges, -, hlist⟩ := hranges hnil hall
        exact ⟨_, hlist⟩
    · exact ⟨_, hvalues hnone⟩

/-- The sizes up to three. -/
def smallSizes : Value := .document [("end", .int32 3)]

/-- The sizes from seven on, with a null bound. -/
def largeSizes : Value := .document [("end", .null), ("start", .int32 7)]

/-- Two ranges are read in either order, and neither beside a list with the other. -/
theorem ofValue_array_sizes :
    ofValue "size" (.array [smallSizes, largeSizes])
        = .ok (.withinAny [.endingAt (.int32 3), .startingAt (.int32 7)]) ∧
      Permuted (ofValue "size" (.array [smallSizes, largeSizes]))
        (ofValue "size" (.array [largeSizes, smallSizes])) ∧
      ofValue "size" (.array [.array [smallSizes], largeSizes])
        = .error (.invalidQuery (.mixedList "size")) := by
  have hreadSmall : Range.ofValue? smallSizes = some (.endingAt (.int32 3)) := rfl
  have hreadLarge : Range.ofValue? largeSizes = some (.startingAt (.int32 7)) := rfl
  obtain ⟨-, hranges, -, -, hperm⟩ := ofValue_array "size" [smallSizes, largeSizes]
  obtain ⟨_, _ | ⟨hsmall, _ | ⟨hlarge, ⟨⟩⟩⟩, haccepted⟩ := hranges (by simp) (by decide)
  obtain rfl := Option.some.inj (hreadSmall.symm.trans hsmall)
  obtain rfl := Option.some.inj (hreadLarge.symm.trans hlarge)
  obtain ⟨-, -, -, hrefused, -⟩ := ofValue_array "size" [.array [smallSizes], largeSizes]
  refine ⟨haccepted, hperm _ (.swap _ _ []), (hrefused _).2 ⟨⟨?_, ?_⟩, rfl⟩⟩
  · exact ⟨largeSizes, by simp, rfl⟩
  · exact ⟨.array [smallSizes], by simp, rfl⟩

end Condition

end RecordStore
