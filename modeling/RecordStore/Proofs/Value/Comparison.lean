import Mathlib.Data.List.Perm.Subperm
import RecordStore.Proofs.Entries
import RecordStore.Proofs.Predicate.Foreign
import RecordStore.Proofs.Sorting.Compare

/-!
# What equality and order look at

The equality of a store is defined by recursion on both values at once. It is read
off one value here: what is equal to a scalar, to an array, or to a document
(`RecordStore.Value.equivalent_iff_of_scalar?`,
`RecordStore.Value.equivalent_array_iff`, `RecordStore.Value.equivalent_document_iff`).
Statements about it are then proved by induction on that value
(`RecordStore.Value.nestedInduction`).

Two of them say that it does not matter how a comparison is put. Equality is
symmetric (`RecordStore.Value.equivalent_comm`): a document asks for each of its
names in the other, and as both have their names once and equally many, no name of
the other is left over. And it is what the order calls equal, where there is an
order (`RecordStore.Value.compare?_eq_some_eq_iff`): on all types but null, the
special kinds, arrays and documents.
-/

namespace RecordStore

/-! ### Scalars -/

theorem Double.equals_comm (a b : Double) : a.equals b = b.equals a := by
  rw [equals, equals, compare?_swap]
  rcases b.compare? a with _ | order
  · rfl
  · rcases order <;> rfl

namespace Scalar

theorem equivalent_comm (x y : Scalar) : x.equivalent y = y.equivalent x := by
  cases x <;> cases y <;>
    first
    | rfl
    | exact Double.equals_comm _ _
    | exact decide_eq_decide.2 eq_comm

/-- Scalars other than null are equal exactly when neither comes first. -/
theorem compare?_eq_some_eq_iff {x y : Scalar} (h : x ≠ null) :
    x.compare? y = some .eq ↔ x.equivalent y = true := by
  have hdate (a b : Date) : a.millis.toInt = b.millis.toInt ↔ a = b := by
    rw [Int64.toInt_inj, Date.mk.injEq]
  have hid (a b : ObjectId) : a.val = b.val ↔ a = b := by
    rw [ObjectId.mk.injEq]
  cases x <;> cases y <;>
    first
    | exact absurd rfl h
    | exact beq_iff_eq.symm
    | simp [compare?, equivalent, hdate, hid]

end Scalar

namespace Value

/-! ### Induction on nested values -/

mutual

/-- **Induction on a value**: through the members of arrays and the values of
documents, down to what reads as a scalar. A script reads as one, but has values within
it as well. -/
theorem nestedInduction {motive : Value → Prop}
    (scalar : ∀ value x, value.scalar? = some x →
      (∀ source scope, value = .codeWithScope source scope → ∀ entry ∈ scope, motive entry.2) →
      motive value)
    (array : ∀ items, (∀ item ∈ items, motive item) → motive (.array items))
    (document : ∀ entries, (∀ entry ∈ entries, motive entry.2) → motive (.document entries))
    (value : Value) : motive value := by
  match value with
  | .array items => exact array items (nestedInduction_items scalar array document items)
  | .document entries =>
    exact document entries (nestedInduction_entries scalar array document entries)
  | .codeWithScope source scope =>
    refine scalar _ _ rfl ?_
    rintro _ _ ⟨⟩
    exact nestedInduction_entries scalar array document scope
  | .null | .bool _ | .string _ | .int32 _ | .int64 _ | .double _ | .date _ | .objectId _
  | .special _ => exact scalar _ _ rfl nofun

theorem nestedInduction_items {motive : Value → Prop}
    (scalar : ∀ value x, value.scalar? = some x →
      (∀ source scope, value = .codeWithScope source scope → ∀ entry ∈ scope, motive entry.2) →
      motive value)
    (array : ∀ items, (∀ item ∈ items, motive item) → motive (.array items))
    (document : ∀ entries, (∀ entry ∈ entries, motive entry.2) → motive (.document entries))
    (items : List Value) : ∀ item ∈ items, motive item := by
  match items with
  | [] => exact List.forall_mem_nil _
  | item :: rest =>
    exact List.forall_mem_cons.2 ⟨nestedInduction scalar array document item,
      nestedInduction_items scalar array document rest⟩

theorem nestedInduction_entries {motive : Value → Prop}
    (scalar : ∀ value x, value.scalar? = some x →
      (∀ source scope, value = .codeWithScope source scope → ∀ entry ∈ scope, motive entry.2) →
      motive value)
    (array : ∀ items, (∀ item ∈ items, motive item) → motive (.array items))
    (document : ∀ entries, (∀ entry ∈ entries, motive entry.2) → motive (.document entries))
    (entries : List (String × Value)) : ∀ entry ∈ entries, motive entry.2 := by
  match entries with
  | [] => exact List.forall_mem_nil _
  | (_, value) :: rest =>
    exact List.forall_mem_cons.2 ⟨nestedInduction scalar array document value,
      nestedInduction_entries scalar array document rest⟩

end

/-! ### What a value is equal to -/

variable {a b : Value}

/-- Arrays are alike when they are member by member. -/
theorem alikeItems_iff {leaf : Value → Value → Bool} {scopes : Bool} {items others : List Value} :
    alikeItems leaf scopes items others = true ↔
      List.Forall₂ (fun item other => alike leaf scopes item other = true) items others := by
  induction items generalizing others with
  | nil => rcases others with _ | ⟨other, others⟩ <;> simp [alikeItems]
  | cons item rest ih => rcases others with _ | ⟨other, others⟩ <;> simp [alikeItems, ih]

/-- A document is part of another when the other has something like each of its entries. -/
theorem alikeEntries_iff {leaf : Value → Value → Bool} {scopes : Bool}
    {part entries : List (String × Value)} :
    alikeEntries leaf scopes part entries = true ↔
      ∀ entry ∈ part, ∃ value, Entries.get? entries entry.1 = some value ∧
        alike leaf scopes entry.2 value = true := by
  induction part with
  | nil => simp [alikeEntries]
  | cons entry rest ih =>
    obtain ⟨name, value⟩ := entry
    rw [alikeEntries, Bool.and_eq_true, ih, List.forall_mem_cons]
    refine and_congr_left fun _ => ?_
    rcases Entries.get? entries name with _ | other <;> simp

/-- A scalar equals what is an equal scalar. -/
theorem equivalent_iff_of_scalar? {x : Scalar} (h : a.scalar? = some x) :
    a.equivalent b = true ↔ ∃ y, b.scalar? = some y ∧ x.equivalent y = true := by
  rw [equivalent_eq_of_scalar? h, equivalentScalars, h]
  rcases b.scalar? with _ | y <;> simp

/-- An array equals another one of equal members. -/
theorem equivalent_array_iff {items : List Value} :
    (array items).equivalent b = true ↔
      ∃ others, b = array others ∧
        List.Forall₂ (fun item other => item.equivalent other = true) items others := by
  cases b with
  | array others =>
    rw [equivalent, alike, alikeItems_iff]
    constructor
    · intro h
      exact ⟨others, rfl, h⟩
    · rintro ⟨_, ⟨⟩, h⟩
      exact h
  | _ => exact iff_of_false Bool.false_ne_true (by rintro ⟨_, ⟨⟩, _⟩)

/-- A document equals another one that has as many entries, and equal values under
its names. -/
theorem equivalent_document_iff {entries : Document} :
    (document entries).equivalent b = true ↔
      ∃ others : Document, b = document others ∧ entries.length = others.length ∧
        ∀ entry ∈ entries, ∃ value, others.get? entry.1 = some value ∧
          entry.2.equivalent value = true := by
  cases b with
  | document others =>
    rw [equivalent, alike, Bool.and_eq_true, beq_iff_eq, alikeEntries_iff]
    constructor
    · intro h
      exact ⟨others, rfl, h⟩
    · rintro ⟨_, ⟨⟩, h⟩
      exact h
  | _ => exact iff_of_false Bool.false_ne_true (by rintro ⟨_, ⟨⟩, _⟩)

/-! ### Equality is symmetric -/

/-- Names that are all among equally many others leave none of them out. -/
theorem keys_subset_of_length_eq {entries others : Document} (distinct : entries.keys.Nodup)
    (h : entries.keys ⊆ others.keys) (length : entries.length = others.length) :
    others.keys ⊆ entries.keys := by
  have hlength : others.keys.length ≤ entries.keys.length := by
    simp [Entries.keys, length]
  exact ((List.subperm_of_subset distinct h).perm_of_length_le hlength).symm.subset

/-- Equality is symmetric in one direction, by induction on the first value: what the first
document asks for in the second is all that this one has. -/
theorem equivalent_symm (ha : a.WellFormed) (hb : b.WellFormed) (h : a.equivalent b = true) :
    b.equivalent a = true := by
  induction a using nestedInduction generalizing b with
  | scalar a x hx _ =>
    obtain ⟨y, hy, hxy⟩ := (equivalent_iff_of_scalar? hx).1 h
    rw [Scalar.equivalent_comm] at hxy
    exact (equivalent_iff_of_scalar? hy).2 ⟨x, hx, hxy⟩
  | array items ih =>
    obtain ⟨others, rfl, hitems⟩ := equivalent_array_iff.1 h
    refine equivalent_array_iff.2 ⟨items, rfl, ?_⟩
    rw [List.forall₂_iff_get] at hitems ⊢
    refine ⟨hitems.1.symm, fun i hi hi' => ?_⟩
    exact ih _ (List.get_mem _ _) (wellFormedItems_iff.1 ha _ (List.get_mem _ _))
      (wellFormedItems_iff.1 hb _ (List.get_mem _ _)) (hitems.2 i hi' hi)
  | document entries ih =>
    obtain ⟨others, rfl, hlength, hentries⟩ := equivalent_document_iff.1 h
    refine equivalent_document_iff.2 ⟨entries, rfl, hlength.symm, ?_⟩
    have hkeys : Entries.keys others ⊆ Entries.keys entries := by
      refine keys_subset_of_length_eq ha.1 (fun name hname => ?_) hlength
      obtain ⟨entry, hentry, rfl⟩ := List.mem_map.1 hname
      obtain ⟨value, hvalue, -⟩ := hentries entry hentry
      exact Entries.mem_keys_of_mem (Entries.mem_of_get?_eq_some hvalue)
    rintro ⟨name, value⟩ hvalue
    obtain ⟨⟨_, other⟩, hother, rfl⟩ := List.mem_map.1 (hkeys (Entries.mem_keys_of_mem hvalue))
    -- the value that the first document asked for under this name is the one at hand
    obtain ⟨found, hfound, hequal⟩ := hentries _ hother
    rw [(Entries.get?_eq_some_iff_mem hb.1).2 hvalue] at hfound
    obtain rfl := Option.some.inj hfound
    exact ⟨other, (Entries.get?_eq_some_iff_mem ha.1).2 hother,
      ih _ hother (wellFormedEntries_iff.1 ha.2 _ hother) (wellFormedEntries_iff.1 hb.2 _ hvalue)
        hequal⟩

/-- **Equality is symmetric.** -/
theorem equivalent_comm (ha : a.WellFormed) (hb : b.WellFormed) :
    a.equivalent b = b.equivalent a := by
  rw [Bool.eq_iff_iff]
  exact ⟨equivalent_symm ha hb, equivalent_symm hb ha⟩

/-! ### Well-formed parts -/

/-- The items of a well-formed value are well formed. -/
theorem wellFormed_of_mem_candidates (ha : a.WellFormed) {item : Value}
    (h : item ∈ QueryDocument.candidates a) : item.WellFormed := by
  cases a with
  | array items =>
    rcases List.mem_cons.1 h with rfl | hmem
    · exact ha
    · exact wellFormedItems_iff.1 ha item hmem
  | _ =>
    rw [List.mem_singleton.1 h]
    exact ha

end Value

/-- The values of a well-formed document are well formed. -/
theorem Document.wellFormed_read {document : Document}
    (wellFormed : (Value.document document).WellFormed) (name : String) :
    (document.read name).WellFormed := by
  rw [Document.read]
  rcases h : document.get? name with _ | value
  · trivial
  · exact Value.wellFormedEntries_iff.1 wellFormed.2 _ (Entries.mem_of_get?_eq_some h)

/-! ### Equality and order -/

/-- The types whose values are ordered. -/
def ValueType.ordered : List ValueType :=
  [.boolean, .number, .string, .date, .objectId]

namespace Value

variable {a b : Value}

/-- The values of ordered types read as scalars other than null. -/
theorem exists_scalar?_of_ordered (h : a.type ∈ ValueType.ordered) :
    ∃ x, a.scalar? = some x ∧ x ≠ .null := by
  have hnot : ∀ t, t ∉ ValueType.ordered → a.type = t → False :=
    fun t ht heq => ht (heq ▸ h)
  cases a with
  | null => exact (hnot .null (by decide) rfl).elim
  | array _ => exact (hnot .array (by decide) rfl).elim
  | document _ => exact (hnot .document (by decide) rfl).elim
  | special s => exact (hnot (.special s.kind) (by simp [ValueType.ordered]) rfl).elim
  | codeWithScope _ _ => exact (hnot (.special _) (by decide) rfl).elim
  | _ => exact ⟨_, rfl, nofun⟩

/-- The values of ordered types have no names within them. -/
theorem wellFormed_of_ordered (h : a.type ∈ ValueType.ordered) : a.WellFormed := by
  cases a with
  | array _ | document _ | codeWithScope _ _ => exact absurd h (by simp [type, ValueType.ordered])
  | _ => trivial

/-- **A value of an ordered type equals those that come neither before nor after
it.** -/
theorem compare?_eq_some_eq_iff (h : a.type ∈ ValueType.ordered) :
    a.compare? b = some .eq ↔ a.equivalent b = true := by
  obtain ⟨x, hx, hnull⟩ := exists_scalar?_of_ordered h
  rw [equivalent_iff_of_scalar? hx, compare?, hx]
  rcases b.scalar? with _ | y
  · simp
  · simpa using Scalar.compare?_eq_some_eq_iff hnull

end Value

end RecordStore
