import Mathlib.Data.List.Forall2
import RecordStore.Proofs.Value.Comparison
import RecordStore.Proofs.Value.Reordered

/-!
# Values in another encoding

One number can be encoded as an integer of 32 bits or of 64, and the entries of one
document can be listed in any order. A value in another encoding differs from it in
nothing else, at any depth (`RecordStore.Value.Recoded`).

Comparing does not see the difference. The scalar that is left of a value after
stripping is the same, and with it the order of values and their order in sorts. For
arrays and documents there is equality alone, which on its first operand only asks
for the members of the one and for the entries of the other, in no order
(`RecordStore.Value.Recoded.equivalent_left_eq`); as equality is symmetric, the
encoding of its second operand does not count either
(`RecordStore.Value.Recoded.equivalent_eq`).
-/

namespace RecordStore

/-- Whether two entries have one name and related values. -/
inductive SameName (related : Value → Value → Prop) : String × Value → String × Value → Prop
  | intro (name : String) {value other : Value} : related value other →
      SameName related (name, value) (name, other)

namespace Value

/-- Whether the second value is the first one in another encoding: integers may be
widened, and the entries of documents be put in another order, at any depth. -/
inductive Recoded : Value → Value → Prop
  /-- Nothing is changed. -/
  | same (value : Value) : Recoded value value
  /-- An integer of 32 bits is given 64. -/
  | widened (n : Int32) : Recoded (int32 n) (int64 n.toInt64)
  /-- The members of an array are in other encodings. -/
  | array {items others : List Value} :
      List.Forall₂ Recoded items others → Recoded (array items) (array others)
  /-- The values of a document are in other encodings, and its entries in another
  order. -/
  | document {entries inPlace others : List (String × Value)} :
      List.Forall₂ (SameName Recoded) entries inPlace → inPlace.Perm others →
        Recoded (document entries) (document others)
  /-- The variables of a script are recoded as a document is. -/
  | scope (source : String) {entries inPlace others : List (String × Value)} :
      List.Forall₂ (SameName Recoded) entries inPlace → inPlace.Perm others →
        Recoded (codeWithScope source entries) (codeWithScope source others)

namespace Recoded

variable {a a' b b' : Value}

/-! ### What another encoding leaves as it is -/

/-- Another encoding reads as the same scalar. -/
theorem scalar?_eq (h : Recoded a b) : a.scalar? = b.scalar? := by
  cases h with
  | widened n => rw [scalar?, scalar?, Int32.toInt_toInt64]
  | _ => rfl

theorem rank_eq (h : Recoded a b) : a.rank = b.rank := by
  cases h <;> rfl

/-- Another encoding of an array is an array. -/
theorem eq_array {items : List Value} (h : Recoded (.array items) b) :
    ∃ others, b = .array others ∧ List.Forall₂ Recoded items others := by
  cases h with
  | same => exact ⟨items, rfl, List.forall₂_same.2 fun item _ => .same item⟩
  | array h => exact ⟨_, rfl, h⟩

/-- Entries in other encodings and in another order are those of reordered documents. -/
theorem reordered {entries inPlace others : Document}
    (h : List.Forall₂ (SameName Recoded) entries inPlace) (hperm : inPlace.Perm others) :
    Document.Reordered (fun _ => Recoded) entries others := by
  refine ⟨inPlace, h.imp ?_, hperm⟩
  rintro _ _ ⟨name, hvalue⟩
  exact ⟨rfl, hvalue⟩

/-- Another encoding of a document is a document. -/
theorem eq_document {entries : Document} (h : Recoded (.document entries) b) :
    ∃ others, b = .document others ∧ Document.Reordered (fun _ => Recoded) entries others := by
  cases h with
  | same => exact ⟨entries, rfl, Document.reordered_of_perm (fun _ => .same) (.refl _)⟩
  | document h hperm => exact ⟨_, rfl, reordered h hperm⟩

/-- The names of documents are distinct in every encoding, if they are within the values. -/
theorem wellFormedEntries_iff_of_reordered {entries others : Document}
    (h : Document.Reordered (fun _ => Recoded) entries others)
    (ih : ∀ entry ∈ entries, ∀ {b}, Recoded entry.2 b → (entry.2.WellFormed ↔ b.WellFormed)) :
    entries.keys.Nodup ∧ WellFormedEntries entries ↔
      others.keys.Nodup ∧ WellFormedEntries others := by
  rw [wellFormedEntries_iff, wellFormedEntries_iff]
  exact and_congr h.keys_perm.nodup_iff
    (h.forall_iff fun entry hentry other hvalue => ih entry hentry hvalue)

/-- Another encoding has distinct names if this one has. -/
theorem wellFormed_iff (h : Recoded a b) : a.WellFormed ↔ b.WellFormed := by
  induction a using nestedInduction generalizing b with
  | scalar a x hx ih =>
    cases h with
    | same | widened => exact Iff.rfl
    | array | document => cases hx
    | scope source h hperm =>
      exact wellFormedEntries_iff_of_reordered (reordered h hperm) (ih source _ rfl)
  | array items ih =>
    obtain ⟨others, rfl, hitems⟩ := h.eq_array
    rw [WellFormed, WellFormed]
    clear h
    induction hitems with
    | nil => exact Iff.rfl
    | cons hitem _ ihrest =>
      obtain ⟨hfirst, hrest⟩ := List.forall_mem_cons.1 ih
      exact and_congr (hfirst hitem) (ihrest hrest)
  | document entries ih =>
    obtain ⟨others, rfl, hentries⟩ := h.eq_document
    exact wellFormedEntries_iff_of_reordered hentries ih

/-! ### Comparing in another encoding -/

theorem compare?_eq (ha : Recoded a a') (hb : Recoded b b') : a.compare? b = a'.compare? b' := by
  rw [compare?, compare?, ha.scalar?_eq, hb.scalar?_eq]

/-- Recoding changes no comparison. -/
theorem sortCompare_eq (ha : Recoded a a') (hb : Recoded b b') :
    a.sortCompare b = a'.sortCompare b' := by
  rw [sortCompare, sortCompare, ha.rank_eq, hb.rank_eq, ha.compare?_eq hb]

/-- A value in another encoding equals the same values. -/
theorem equivalent_left_eq (h : Recoded a b) : a.equivalent = b.equivalent := by
  induction a using nestedInduction generalizing b with
  | scalar a x hx _ =>
    funext c
    rw [Bool.eq_iff_iff, equivalent_iff_of_scalar? hx,
      equivalent_iff_of_scalar? (h.scalar?_eq ▸ hx)]
  | array items ih =>
    obtain ⟨others, rfl, hitems⟩ := h.eq_array
    -- what the members equal, one after the other
    have hmembers : items.map equivalent = others.map equivalent := by
      rw [← List.forall₂_eq_eq_eq, List.forall₂_map_left_iff, List.forall₂_map_right_iff]
      refine ((List.forall₂_and_left _ _).2 ⟨ih, hitems⟩).imp ?_
      rintro item other ⟨hequal, hitem⟩
      exact hequal hitem
    have hforall : ∀ items wanted : List Value,
        List.Forall₂ (fun item other => item.equivalent other = true) items wanted ↔
          List.Forall₂ (fun test other => test other = true) (items.map equivalent) wanted :=
      fun items wanted => (List.forall₂_map_left_iff (R := fun test other => test other = true)
        (f := equivalent)).symm
    funext c
    rw [Bool.eq_iff_iff, equivalent_array_iff, equivalent_array_iff]
    simp only [hforall, hmembers]
  | document entries ih =>
    obtain ⟨others, rfl, hentries⟩ := h.eq_document
    funext c
    rw [Bool.eq_iff_iff, equivalent_document_iff, equivalent_document_iff]
    refine exists_congr fun wanted => and_congr_right fun _ => ?_
    rw [hentries.length_eq]
    refine and_congr_right fun _ => hentries.forall_iff fun entry hentry other hvalue => ?_
    rw [ih entry hentry hvalue]

/-- **Equality does not depend on the encoding** of either value. -/
theorem equivalent_eq (ha : Recoded a a') (hb : Recoded b b') (wellFormed : a.WellFormed)
    (wellFormed' : b.WellFormed) : a.equivalent b = a'.equivalent b' := by
  have hwell := ha.wellFormed_iff.1 wellFormed
  rw [ha.equivalent_left_eq, equivalent_comm hwell wellFormed', hb.equivalent_left_eq,
    equivalent_comm (hb.wellFormed_iff.1 wellFormed') hwell]

/-! ### Reading in another encoding -/

/-- Fields of one name hold encodings of one value. -/
theorem read {record other : Document} (h : Recoded (.document record) (.document other))
    (wellFormed : (Value.document record).WellFormed) (name : String) :
    Recoded (record.read name) (other.read name) := by
  obtain ⟨_, ⟨⟩, hentries⟩ := h.eq_document
  rw [Document.read, Document.read]
  obtain ⟨hvalue, hother⟩ | ⟨value, value', hvalue, hother, hrecoded⟩ :=
    hentries.get? wellFormed.1 name
  · rw [hvalue, hother]
    exact .same _
  · rw [hvalue, hother]
    exact hrecoded

end Recoded

end Value

end RecordStore
