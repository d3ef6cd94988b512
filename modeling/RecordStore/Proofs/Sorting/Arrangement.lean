import Mathlib.Data.List.Perm.Basic
import RecordStore.Proofs.Sorting.Compare

/-!
# The list that a sort asks for

Of the ways to list some records, a sort asks for one: no record stands after
one that it comes before, and those that tie with each other stand in the order
in which they were stored (`RecordStore.FindOptions.Arranged`). Two such lists
are equal, because their first records tie and are then the first of their
ties. Sorting stably gives such a list, so it is the only one
(`RecordStore.FindOptions.arranged_iff_eq_arrange`).
-/

namespace RecordStore

namespace FindOptions

/-- **What a sort asks for** of a list of some records. -/
structure Arranged (sort : List (String × SortOrder)) (records listed : List Document) :
    Prop where
  /-- Every record is listed as often as it is there. -/
  perm : listed.Perm records
  /-- A record comes before those listed after it, or ties with them. -/
  ordered : listed.Pairwise fun a b => Before sort a b ∨ Tie sort a b
  /-- The records that tie with a given one keep their order. -/
  stable : ∀ record ∈ records, (listed.filter fun other => Tie sort record other)
    = records.filter fun other => Tie sort record other

section Arranged

variable {sort : List (String × SortOrder)} {records listed other : List Document}

/-- A record is not after another exactly when it is before it or ties with it. -/
theorem isLE_compareOn_iff {a b : Document} :
    (compareOn sort a b).isLE ↔ Before sort a b ∨ Tie sort a b := by
  rw [← compareOn_eq_lt_iff, ← compareOn_eq_eq_iff]
  cases compareOn sort a b <;> decide

/-- Every record ties with itself. -/
theorem tie_self (sort : List (String × SortOrder)) (record : Document) :
    Tie sort record record :=
  fun _ _ => Value.sortCompare_self _

/-- Records that are neither after the other tie. -/
theorem tie_of_isLE {a b : Document} (hab : (compareOn sort a b).isLE)
    (hba : (compareOn sort b a).isLE) : Tie sort a b := by
  rw [← compareOn_eq_eq_iff]
  rw [compareOn_swap sort b a] at hba
  cases h : compareOn sort a b with
  | eq => rfl
  | lt => rw [h] at hba; cases hba
  | gt => rw [h] at hab; cases hab

/-! ### There is at most one -/

/-- **Order and ties settle a list.** The first records of two such lists tie, and the tying
ones come in one order, so they are the same record. -/
theorem eq_of_ordered_of_filter_tie {listed other : List Document} (hperm : listed.Perm other)
    (hlisted : listed.Pairwise fun a b => (compareOn sort a b).isLE)
    (hother : other.Pairwise fun a b => (compareOn sort a b).isLE)
    (hties : ∀ record ∈ listed, (listed.filter fun b => Tie sort record b)
      = other.filter fun b => Tie sort record b) :
    listed = other := by
  induction listed generalizing other with
  | nil => exact hperm.nil_eq
  | cons a rest ih =>
    cases other with
    | nil => exact absurd hperm.symm.nil_eq (List.cons_ne_nil _ _).symm
    | cons b others =>
      obtain ⟨ha, hrest⟩ := List.pairwise_cons.1 hlisted
      obtain ⟨hb, hothers⟩ := List.pairwise_cons.1 hother
      -- each of the two first records is in the other list too
      have htie : Tie sort a b := by
        rcases List.mem_cons.1 (hperm.symm.subset List.mem_cons_self) with rfl | hmem
        · exact tie_self sort b
        · rcases List.mem_cons.1 (hperm.subset List.mem_cons_self) with rfl | hmem'
          · exact tie_self sort a
          · exact tie_of_isLE (ha b hmem) (hb a hmem')
      have hfirst := hties a List.mem_cons_self
      rw [List.filter_cons_of_pos (by simpa using tie_self sort a),
        List.filter_cons_of_pos (by simpa using htie)] at hfirst
      obtain ⟨rfl, -⟩ := List.cons.inj hfirst
      refine congrArg _ (ih hperm.cons_inv hrest hothers fun record hrecord => ?_)
      have hrecord := hties record (List.mem_cons_of_mem _ hrecord)
      rw [List.filter_cons, List.filter_cons] at hrecord
      split at hrecord
      · exact (List.cons.inj hrecord).2
      · exact hrecord

/-- **At most one list is arranged as a sort asks.** -/
theorem Arranged.eq (hlisted : Arranged sort records listed)
    (hother : Arranged sort records other) : listed = other :=
  eq_of_ordered_of_filter_tie (hlisted.perm.trans hother.perm.symm)
    (hlisted.ordered.imp isLE_compareOn_iff.2) (hother.ordered.imp isLE_compareOn_iff.2)
    fun record hrecord =>
      have hrecord := hlisted.perm.subset hrecord
      (hlisted.stable record hrecord).trans (hother.stable record hrecord).symm

end Arranged

/-! ### Sorting gives one -/

section Preorder

variable {α : Type} {cmp : α → α → Ordering} [Std.TransCmp cmp]

theorem isLE_total (x y : α) : (cmp x y).isLE || (cmp y x).isLE := by
  have hswap : cmp x y = (cmp y x).swap := Std.OrientedCmp.eq_swap
  rw [hswap]
  cases cmp y x <;> rfl

theorem ordered_mergeSort (items : List α) :
    (items.mergeSort fun x y => (cmp x y).isLE).Pairwise fun x y => (cmp x y).isLE :=
  List.pairwise_mergeSort (fun _ _ _ => Std.TransCmp.isLE_trans) isLE_total items

variable (cmp) in
/-- A stable sort keeps the order of what ties with an element. -/
theorem filter_mergeSort (items : List α) (a : α) :
    ((items.mergeSort fun x y => (cmp x y).isLE).filter fun x => cmp a x = .eq)
      = items.filter fun x => cmp a x = .eq := by
  have hties : (items.filter fun x => cmp a x = .eq).Pairwise fun x y => (cmp x y).isLE := by
    refine List.pairwise_of_forall_mem_list fun x hx y hy => ?_
    have hx : cmp a x = .eq := of_decide_eq_true (List.mem_filter.1 hx).2
    have hy : cmp a y = .eq := of_decide_eq_true (List.mem_filter.1 hy).2
    have hswap : cmp x a = (cmp a x).swap := Std.OrientedCmp.eq_swap
    refine Std.TransCmp.isLE_trans (b := a) ?_ ?_
    · rw [hswap, hx]
      rfl
    · rw [hy]
      rfl
  -- the ties are a sorted part of the list, so they are a part of what it is sorted into
  have hpart := (List.sublist_mergeSort (fun _ _ _ => Std.TransCmp.isLE_trans) isLE_total hties
    List.filter_sublist).filter fun x => decide (cmp a x = .eq)
  rw [List.filter_filter] at hpart
  simp only [Bool.and_self] at hpart
  have hlength := ((List.mergeSort_perm items fun x y => (cmp x y).isLE).filter
    fun x => decide (cmp a x = .eq)).length_eq
  exact (hpart.eq_of_length hlength.symm).symm

end Preorder

/-- Without keys every two records tie, so that also then records are put in order by sorting
them. -/
theorem arrange_eq_mergeSort (options : FindOptions) (records : List Document) :
    options.arrange records
      = records.mergeSort fun a b => (compareOn options.sort a b).isLE := by
  rw [arrange]
  split
  · rename_i hempty
    rw [List.isEmpty_iff.1 hempty]
    exact (List.mergeSort_of_pairwise (List.pairwise_of_forall fun _ _ => rfl)).symm
  · rfl

/-- **A stable sort lists the records as asked**, where it compares them by a
preorder. -/
theorem arranged_arrange {options : FindOptions} {records : List Document}
    (h : Preordered options.sort records) :
    Arranged options.sort records (options.arrange records) := by
  have := transCmp_compareOn h
  rw [arrange_eq_mergeSort]
  -- only the records at hand are compared by a preorder, so these are what is sorted
  have hattach : records.mergeSort (fun a b => (compareOn options.sort a b).isLE)
      = (records.attach.mergeSort fun a b =>
          (compareOn options.sort a.1 b.1).isLE).map Subtype.val := by
    rw [List.map_mergeSort (f := Subtype.val) (s := fun a b => (compareOn options.sort a b).isLE)
      fun _ _ _ _ => rfl, List.attach_map_subtype_val]
  refine ⟨List.mergeSort_perm records _, ?_, fun record hrecord => ?_⟩
  · rw [hattach, List.pairwise_map]
    exact (ordered_mergeSort records.attach).imp isLE_compareOn_iff.1
  · have hties := congrArg (List.map Subtype.val)
      (filter_mergeSort (fun a b : {record // record ∈ records} => compareOn options.sort a.1 b.1)
        records.attach ⟨record, hrecord⟩)
    simp only [compareOn_eq_eq_iff] at hties
    have hrecords : (records.filter fun other => Tie options.sort record other)
        = (records.attach.filter fun other => Tie options.sort record other.1).map
            Subtype.val := by
      conv_lhs => rw [← List.attach_map_subtype_val records, List.filter_map]
      rfl
    rw [hattach, List.filter_map, hrecords]
    exact hties

/-- **A sort asks for one list**, and it is the one that a find cuts its window
out of. -/
theorem arranged_iff_eq_arrange {options : FindOptions} {records listed : List Document}
    (h : Preordered options.sort records) :
    Arranged options.sort records listed ↔ listed = options.arrange records := by
  constructor
  · intro hlisted
    exact hlisted.eq (arranged_arrange h)
  · rintro rfl
    exact arranged_arrange h

end FindOptions

end RecordStore
