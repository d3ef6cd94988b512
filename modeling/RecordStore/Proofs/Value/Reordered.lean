import Mathlib.Data.List.Forall2
import RecordStore.Proofs.Entries
import RecordStore.Value.Basic

/-!
# Documents in another order

Two documents have the same contents in another order when the entries of one can be
replaced in place, each by an entry of the same name, and then be rearranged to those
of the other (`RecordStore.Document.Reordered`). What may stand for a value is left
open, and may depend on its name. Where names are distinct, such documents are read
alike under each name (`RecordStore.Document.Reordered.get?`).
-/

namespace RecordStore

namespace Document

/-- Whether two documents have the same names, in any order, and values that are
related. -/
def Reordered (related : String → Value → Value → Prop) (entries others : Document) : Prop :=
  ∃ inPlace : Document,
    List.Forall₂ (fun entry other => entry.1 = other.1 ∧ related entry.1 entry.2 other.2)
      entries inPlace ∧ inPlace.Perm others

variable {related : String → Value → Value → Prop} {entries others : Document}

/-- Every reordering of the entries of a document reorders it. -/
theorem reordered_of_perm (refl : ∀ name value, related name value value)
    (h : entries.Perm others) : Reordered related entries others :=
  ⟨entries, List.forall₂_same.2 fun entry _ => ⟨rfl, refl entry.1 entry.2⟩, h⟩

/-- Two entries may be swapped. -/
theorem reordered_swap {name name' : String} {value value' other other' : Value}
    (h : related name value other) (h' : related name' value' other') :
    Reordered related [(name, value), (name', value')] [(name', other'), (name, other)] :=
  ⟨[(name, other), (name', other')], .cons ⟨rfl, h⟩ (.cons ⟨rfl, h'⟩ .nil), .swap _ _ _⟩

/-- Replacing values in place keeps the names. -/
theorem keys_eq_of_forall₂
    (h : List.Forall₂ (fun entry other : String × Value =>
      entry.1 = other.1 ∧ related entry.1 entry.2 other.2) entries others) :
    entries.keys = others.keys := by
  induction h with
  | nil => rfl
  | cons hentry _ ih => rw [Entries.keys_cons, Entries.keys_cons, hentry.1, ih]

/-- Reordered documents have the same names. -/
theorem Reordered.keys_perm (h : Reordered related entries others) :
    entries.keys.Perm others.keys := by
  obtain ⟨inPlace, hrelated, hperm⟩ := h
  rw [keys_eq_of_forall₂ hrelated]
  exact hperm.map Prod.fst

theorem Reordered.contains_eq (h : Reordered related entries others) (name : String) :
    entries.contains name = others.contains name := by
  rw [Bool.eq_iff_iff, Entries.contains_iff, Entries.contains_iff, h.keys_perm.mem_iff]

theorem Reordered.length_eq (h : Reordered related entries others) :
    entries.length = others.length := by
  obtain ⟨inPlace, hrelated, hperm⟩ := h
  rw [hrelated.length_eq, hperm.length_eq]

/-- What related values have or lack together, all entries of one document have when
those of the other do. -/
theorem Reordered.forall_iff (h : Reordered related entries others) {p : String × Value → Prop}
    (hp : ∀ entry ∈ entries, ∀ other, related entry.1 entry.2 other →
      (p entry ↔ p (entry.1, other))) :
    (∀ entry ∈ entries, p entry) ↔ ∀ other ∈ others, p other := by
  obtain ⟨inPlace, hrelated, hperm⟩ := h
  have hinPlace : (∀ other ∈ inPlace, p other) ↔ ∀ other ∈ others, p other :=
    forall_congr' fun other => imp_congr_left hperm.mem_iff
  rw [← hinPlace]
  clear hperm hinPlace
  induction hrelated with
  | nil => exact Iff.rfl
  | @cons entry other _ _ hentry _ ih =>
    obtain ⟨hfirst, hrest⟩ := List.forall_mem_cons.1 hp
    obtain ⟨_, value⟩ := other
    obtain ⟨rfl, hvalue⟩ := hentry
    rw [List.forall_mem_cons, List.forall_mem_cons]
    exact and_congr (hfirst value hvalue) (ih hrest)

/-- The values of a well-formed document are well formed, those that are related to
others as well. -/
theorem Reordered.and_wellFormed (h : Reordered related entries others)
    (wellFormed : (Value.document entries).WellFormed) :
    Reordered (fun name value other => value.WellFormed ∧ related name value other)
      entries others := by
  obtain ⟨inPlace, hrelated, hperm⟩ := h
  refine ⟨inPlace, ((List.forall₂_and_left _ _).2
    ⟨Value.wellFormedEntries_iff.1 wellFormed.2, hrelated⟩).imp ?_, hperm⟩
  rintro entry other ⟨hvalue, hname, hentry⟩
  exact ⟨hname, hvalue, hentry⟩

/-- What one of two reordered documents has under a name, the other has something
related to. -/
theorem Reordered.get? (h : Reordered related entries others) (distinct : entries.keys.Nodup)
    (name : String) :
    (entries.get? name = none ∧ others.get? name = none) ∨
      ∃ value other, entries.get? name = some value ∧ others.get? name = some other ∧
        related name value other := by
  obtain ⟨inPlace, hrelated, hperm⟩ := h
  rw [← Entries.get?_eq_of_perm (keys_eq_of_forall₂ hrelated ▸ distinct) hperm name]
  clear hperm distinct
  induction hrelated with
  | nil => exact .inl ⟨rfl, rfl⟩
  | @cons entry other _ _ hentry _ ih =>
    obtain ⟨entryName, value⟩ := entry
    obtain ⟨_, otherValue⟩ := other
    obtain ⟨rfl, hvalue⟩ := hentry
    rw [Entries.get?_cons, Entries.get?_cons]
    split
    · rename_i hname
      exact .inr ⟨value, otherValue, rfl, rfl, hname ▸ hvalue⟩
    · exact ih

end Document

end RecordStore
