import RecordStore.Sorting.Find

/-!
# How a sort compares records

Comparing two values the other way round turns the result round
(`RecordStore.Value.sortCompare_swap`), so any two values can be listed one way
or the other. What may fail is transitivity: a NaN ties with all numbers, and an
integer that no double holds exactly with a double beside it. Where it holds,
the values form a total preorder (`RecordStore.Value.TotalPreorderOn.of_trans`).

Records are compared key by key. Either they tie on every key, or the first key
on which they do not says which one comes before the other, and so the
comparison of records is a preorder where the comparisons of the values are
(`RecordStore.FindOptions.transCmp_compareOn`).
-/

namespace RecordStore

/-! ### Values -/

/-- Doubles compare the other way round if they are swapped. -/
theorem Double.compare?_swap (a b : Double) :
    a.compare? b = (b.compare? a).map Ordering.swap := by
  rw [compare?, compare?]
  cases a.rank? with
  | none => cases b.rank? <;> rfl
  | some i =>
    cases b.rank? with
    | none => rfl
    | some j => exact congrArg some Std.OrientedCmp.eq_swap

/-- Scalars compare the other way round if they are swapped. -/
theorem Scalar.compare?_swap (a b : Scalar) :
    a.compare? b = (b.compare? a).map Ordering.swap := by
  cases a <;> cases b <;>
    first
    | rfl
    | exact Double.compare?_swap _ _
    | exact congrArg some Std.OrientedCmp.eq_swap

namespace Value

/-- Values compare the other way round if they are swapped. -/
theorem compare?_swap (a b : Value) : a.compare? b = (b.compare? a).map Ordering.swap := by
  rw [compare?, compare?]
  cases a.scalar? with
  | none => cases b.scalar? <;> rfl
  | some x =>
    cases b.scalar? with
    | none => rfl
    | some y => exact Scalar.compare?_swap x y

theorem sortCompare_swap (a b : Value) : a.sortCompare b = (b.sortCompare a).swap := by
  have hrank : compare a.rank b.rank = (compare b.rank a.rank).swap := Std.OrientedCmp.eq_swap
  rw [sortCompare, sortCompare, Ordering.swap_then, hrank, compare?_swap a b]
  cases b.compare? a <;> rfl

/-- **A value ties with itself.** This holds of a NaN too, as it compares to nothing. -/
theorem sortCompare_self (a : Value) : a.sortCompare a = .eq := by
  have hswap := sortCompare_swap a a
  cases h : a.sortCompare a with
  | eq => rfl
  | _ => rw [h] at hswap; cases hswap

/-- The order of sorts is a total preorder on some values. -/
structure TotalPreorderOn (values : List Value) : Prop where
  /-- Every value may stand beside itself. -/
  refl : ∀ a ∈ values, (a.sortCompare a).isLE
  /-- Two values may stand in one order or the other. -/
  total : ∀ a ∈ values, ∀ b ∈ values, (a.sortCompare b).isLE ∨ (b.sortCompare a).isLE
  /-- If a value may precede a second one, and that a third one, then the first
  may precede the third. -/
  trans : ∀ a ∈ values, ∀ b ∈ values, ∀ c ∈ values,
    (a.sortCompare b).isLE → (b.sortCompare c).isLE → (a.sortCompare c).isLE

/-- Only transitivity can fail. -/
theorem TotalPreorderOn.of_trans {values : List Value}
    (trans : ∀ a ∈ values, ∀ b ∈ values, ∀ c ∈ values,
      (a.sortCompare b).isLE → (b.sortCompare c).isLE → (a.sortCompare c).isLE) :
    TotalPreorderOn values where
  refl a _ := by
    rw [sortCompare_self]
    rfl
  total a _ b _ := by
    rw [sortCompare_swap b a]
    cases a.sortCompare b <;> decide
  trans := trans

end Value

/-! ### Records -/

/-- How the value of a record compares with that of another one that it is listed
before. -/
def SortOrder.ofFirst : SortOrder → Ordering
  | ascending => .lt
  | descending => .gt

theorem SortOrder.apply_eq_eq_iff (order : SortOrder) (comparison : Ordering) :
    order.apply comparison = .eq ↔ comparison = .eq := by
  cases order <;> cases comparison <;> decide

theorem SortOrder.apply_eq_lt_iff (order : SortOrder) (comparison : Ordering) :
    order.apply comparison = .lt ↔ comparison = order.ofFirst := by
  cases order <;> cases comparison <;> decide

namespace FindOptions

/-- Whether two records tie on every key of a sort. -/
def Tie (sort : List (String × SortOrder)) (a b : Document) : Prop :=
  ∀ key ∈ sort, (a.read key.1).sortCompare (b.read key.1) = .eq

instance (sort : List (String × SortOrder)) (a b : Document) : Decidable (Tie sort a b) :=
  inferInstanceAs (Decidable (∀ key ∈ sort, _))

/-- **The order of a sort**: a record comes before another if they tie on some of
the first keys, and the next one puts it first. -/
def Before (sort : List (String × SortOrder)) (a b : Document) : Prop :=
  ∃ (tied : List (String × SortOrder)) (key : String × SortOrder)
    (rest : List (String × SortOrder)),
    sort = tied ++ key :: rest ∧ Tie tied a b ∧
      (a.read key.1).sortCompare (b.read key.1) = key.2.ofFirst

/-- A record comes first by the first key, or ties on it and comes first by the others. -/
theorem before_cons_iff {key : String × SortOrder} {rest : List (String × SortOrder)}
    {a b : Document} :
    Before (key :: rest) a b ↔
      (a.read key.1).sortCompare (b.read key.1) = key.2.ofFirst ∨
        (a.read key.1).sortCompare (b.read key.1) = .eq ∧ Before rest a b := by
  constructor
  · rintro ⟨tied, decisive, others, hsort, htie, hfirst⟩
    cases tied with
    | nil =>
      obtain ⟨rfl, rfl⟩ := List.cons.inj hsort
      exact .inl hfirst
    | cons head tied =>
      obtain ⟨rfl, rfl⟩ := List.cons.inj hsort
      obtain ⟨hhead, htie⟩ := List.forall_mem_cons.1 htie
      exact .inr ⟨hhead, tied, decisive, others, rfl, htie, hfirst⟩
  · rintro (hfirst | ⟨hhead, tied, decisive, others, rfl, htie, hfirst⟩)
    · exact ⟨[], key, rest, rfl, by simp [Tie], hfirst⟩
    · exact ⟨key :: tied, decisive, others, rfl, List.forall_mem_cons.2 ⟨hhead, htie⟩, hfirst⟩

/-- Records tie when they do on every key. -/
theorem compareOn_eq_eq_iff {sort : List (String × SortOrder)} {a b : Document} :
    compareOn sort a b = .eq ↔ Tie sort a b := by
  induction sort with
  | nil => simp [compareOn, Tie]
  | cons key rest ih =>
    rw [compareOn, Ordering.then_eq_eq, SortOrder.apply_eq_eq_iff, ih, Tie, Tie,
      List.forall_mem_cons]

/-- A record comes first when it does by the first key that tells the two apart. -/
theorem compareOn_eq_lt_iff {sort : List (String × SortOrder)} {a b : Document} :
    compareOn sort a b = .lt ↔ Before sort a b := by
  induction sort with
  | nil =>
    constructor
    · intro h
      cases h
    · rintro ⟨tied, key, rest, hsort, -⟩
      simp at hsort
  | cons key rest ih =>
    rw [compareOn, Ordering.then_eq_lt, SortOrder.apply_eq_lt_iff, SortOrder.apply_eq_eq_iff, ih,
      before_cons_iff]

/-- Each key of a sort compares the values of some records by a total preorder. -/
def Preordered (sort : List (String × SortOrder)) (records : List Document) : Prop :=
  ∀ key ∈ sort, Value.TotalPreorderOn (records.map fun record => record.read key.1)

/-- Records compare the other way round if they are swapped. -/
theorem compareOn_swap (sort : List (String × SortOrder)) (a b : Document) :
    compareOn sort a b = (compareOn sort b a).swap := by
  induction sort with
  | nil => rfl
  | cons key rest ih =>
    rw [compareOn, compareOn, Ordering.swap_then, ← ih, Value.sortCompare_swap]
    cases key.2 <;> rfl

section Preordered

variable {records : List Document}

/-- On the records at hand a key compares transitively, in either direction, if its values there
do. -/
theorem transCmp_apply_sortCompare {field : String} (order : SortOrder)
    (h : Value.TotalPreorderOn (records.map fun record => record.read field)) :
    Std.TransCmp fun a b : {record // record ∈ records} =>
      order.apply ((a.1.read field).sortCompare (b.1.read field)) := by
  have hmem (record : {record // record ∈ records}) :
      record.1.read field ∈ records.map fun record => record.read field :=
    List.mem_map_of_mem record.2
  have hascending : Std.TransCmp fun a b : {record // record ∈ records} =>
      (a.1.read field).sortCompare (b.1.read field) :=
    { eq_swap := Value.sortCompare_swap _ _
      isLE_trans := fun {a b c} => h.trans _ (hmem a) _ (hmem b) _ (hmem c) }
  cases order with
  | ascending => exact hascending
  | descending =>
    -- turning a comparison round is comparing the other way round
    have hturned : (fun a b : {record // record ∈ records} =>
        SortOrder.descending.apply ((a.1.read field).sortCompare (b.1.read field)))
        = fun a b => (b.1.read field).sortCompare (a.1.read field) :=
      funext fun a => funext fun b => (Value.sortCompare_swap _ _).symm
    rw [hturned]
    infer_instance

/-- **Records are compared by a preorder** if the values on each key are. -/
theorem transCmp_compareOn {sort : List (String × SortOrder)} (h : Preordered sort records) :
    Std.TransCmp fun a b : {record // record ∈ records} => compareOn sort a.1 b.1 := by
  induction sort with
  | nil => exact { eq_swap := rfl, isLE_trans := fun _ _ => rfl }
  | cons key rest ih =>
    obtain ⟨hkey, hrest⟩ := List.forall_mem_cons.1 h
    have hfirst := transCmp_apply_sortCompare key.2 hkey
    have hothers := ih hrest
    exact inferInstanceAs (Std.TransCmp (compareLex _ _))

end Preordered

end FindOptions

end RecordStore
