import RecordStore.Entries

/-!
# Maps from field names, in name order

Filters and predicates assign something to each of a set of fields, and the
order in which a caller named the fields must not show. A
`RecordStore.FieldMap` therefore keeps its entries strictly increasing in their
names, by the order of the names' code points, which is also the order of their
UTF-8 bytes. The order is part of the type, so two maps that hold the same
under every name are equal (`RecordStore.FieldMap.ext_get?`).
-/

namespace RecordStore

/-- A map from field names whose entries are listed in name order. -/
structure FieldMap (α : Type) where
  /-- The entries, in increasing order of their names. -/
  entries : Entries α
  /-- Each name is smaller than the names after it. -/
  sorted : entries.Pairwise fun a b => a.1 < b.1

namespace FieldMap

variable {α β : Type}

/-- Writes an entry at its place in name order, replacing the entry of the same
name. -/
def insertSorted (key : String) (value : α) : Entries α → Entries α
  | [] => [(key, value)]
  | (name, old) :: rest =>
    if key < name then (key, value) :: (name, old) :: rest
    else if name = key then (key, value) :: rest
    else (name, old) :: insertSorted key value rest

/-- After a write there is the new entry, and otherwise only old ones. -/
theorem mem_insertSorted {key : String} {value : α} {entries : Entries α} {entry : String × α} :
    entry ∈ insertSorted key value entries → entry = (key, value) ∨ entry ∈ entries := by
  induction entries with
  | nil => simp [insertSorted]
  | cons head rest ih =>
    obtain ⟨name, old⟩ := head
    rw [insertSorted]
    split
    · simp
    · split
      · intro h
        rcases List.mem_cons.1 h with h | h
        · exact .inl h
        · exact .inr (List.mem_cons_of_mem _ h)
      · intro h
        rcases List.mem_cons.1 h with h | h
        · exact .inr (h ▸ List.mem_cons_self)
        · exact (ih h).imp id (List.mem_cons_of_mem _)

/-- Writing keeps the names in order: the entry goes before the first greater name. -/
theorem insertSorted_sorted (key : String) (value : α) {entries : Entries α}
    (h : entries.Pairwise fun a b => a.1 < b.1) :
    (insertSorted key value entries).Pairwise fun a b => a.1 < b.1 := by
  induction entries with
  | nil => simp [insertSorted]
  | cons head rest ih =>
    obtain ⟨name, old⟩ := head
    obtain ⟨hname, hrest⟩ := List.pairwise_cons.1 h
    rw [insertSorted]
    split
    · rename_i hlt
      refine List.pairwise_cons.2 ⟨fun entry hentry => ?_, h⟩
      rcases List.mem_cons.1 hentry with rfl | hentry
      · exact hlt
      · exact String.lt_trans hlt (hname entry hentry)
    · rename_i hge
      split
      · rename_i heq
        exact List.pairwise_cons.2 ⟨fun entry hentry => heq ▸ hname entry hentry, hrest⟩
      · rename_i hne
        refine List.pairwise_cons.2 ⟨fun entry hentry => ?_, ih hrest⟩
        rcases mem_insertSorted hentry with rfl | hentry
        · exact Decidable.not_not.1 fun hn =>
            hne (String.le_antisymm (String.not_lt.1 hge) (String.not_lt.1 hn))
        · exact hname entry hentry

/-- The map without entries. -/
def empty : FieldMap α := ⟨[], .nil⟩

instance : EmptyCollection (FieldMap α) := ⟨empty⟩

instance : Inhabited (FieldMap α) := ⟨empty⟩

/-- Assigns a value to a name, replacing what the name had. -/
def insert (map : FieldMap α) (key : String) (value : α) : FieldMap α :=
  ⟨insertSorted key value map.entries, insertSorted_sorted key value map.sorted⟩

/-- What a name is assigned, if anything. -/
def get? (map : FieldMap α) (key : String) : Option α :=
  map.entries.get? key

/-- Whether no name is assigned anything. -/
def isEmpty (map : FieldMap α) : Bool :=
  map.entries.isEmpty

/-- Assigns the pairs of a list one after the other. -/
def ofList (pairs : List (String × α)) : FieldMap α :=
  pairs.foldl (fun map entry => map.insert entry.1 entry.2) empty

/-- Maps are compared entry by entry. -/
instance [BEq α] : BEq (FieldMap α) := ⟨fun a b => a.entries == b.entries⟩

/-! ### Reading after writing -/

@[simp] theorem get?_empty (key : String) : (empty : FieldMap α).get? key = none := rfl

/-- **What is written under a name is read back under it**, and under no other. -/
theorem get?_insert (map : FieldMap α) (key : String) (value : α) (other : String) :
    (map.insert key value).get? other = if key = other then some value else map.get? other := by
  obtain ⟨entries, sorted⟩ := map
  simp only [insert, get?]
  clear sorted
  induction entries with
  | nil => rfl
  | cons head rest ih =>
    obtain ⟨name, old⟩ := head
    rw [insertSorted]
    split
    · rfl
    · split
      · rename_i heq
        subst heq
        simp only [Entries.get?_cons]
        split <;> rfl
      · rename_i hne
        simp only [Entries.get?_cons, ih]
        by_cases h : name = other
        · subst h
          simp [Ne.symm hne]
        · simp [h]

@[simp] theorem get?_insert_self (map : FieldMap α) (key : String) (value : α) :
    (map.insert key value).get? key = some value := by
  simp [get?_insert]

/-! ### Extensionality -/

/-- A name below all names of a list is none of them. -/
theorem get?_eq_none_of_forall_lt {entries : Entries α} {key : String}
    (h : ∀ entry ∈ entries, key < entry.1) : entries.get? key = none :=
  Entries.get?_eq_none_iff.2 fun hk => by
    obtain ⟨entry, hentry, rfl⟩ := List.mem_map.1 hk
    exact String.lt_irrefl _ (h entry hentry)

/-- The first name of a sorted list is not before all names of a list that reads alike. -/
theorem not_lt_of_forall_get?_eq {name name' : String} {value value' : α} {rest rest' : Entries α}
    (hlt' : ∀ entry ∈ rest', name' < entry.1)
    (h : ∀ key,
      Entries.get? ((name, value) :: rest) key = Entries.get? ((name', value') :: rest') key) :
    ¬ name < name' := by
  intro hlt
  have hnone : Entries.get? rest' name = none :=
    get?_eq_none_of_forall_lt fun entry hentry => String.lt_trans hlt (hlt' entry hentry)
  have hname := h name
  rw [Entries.get?_cons, if_pos rfl, Entries.get?_cons, if_neg (String.ne_of_lt hlt).symm,
    hnone] at hname
  cases hname

/-- Sorted lists that read alike under every name are the same list: the least name of one is
the least of the other. -/
theorem entries_ext {a b : Entries α} (ha : a.Pairwise fun x y => x.1 < y.1)
    (hb : b.Pairwise fun x y => x.1 < y.1) (h : ∀ key, a.get? key = b.get? key) : a = b := by
  induction a generalizing b with
  | nil =>
    cases b with
    | nil => rfl
    | cons head rest => simpa [Entries.get?] using h head.1
  | cons head rest ih =>
    cases b with
    | nil => simpa [Entries.get?] using h head.1
    | cons head' rest' =>
      obtain ⟨name, value⟩ := head
      obtain ⟨name', value'⟩ := head'
      obtain ⟨hlt, hrest⟩ := List.pairwise_cons.1 ha
      obtain ⟨hlt', hrest'⟩ := List.pairwise_cons.1 hb
      have hname : name = name' := String.le_antisymm
        (String.not_lt.1 (not_lt_of_forall_get?_eq hlt fun key => (h key).symm))
        (String.not_lt.1 (not_lt_of_forall_get?_eq hlt' h))
      subst hname
      have hvalue : value = value' := by simpa [Entries.get?] using h name
      subst hvalue
      refine congrArg _ (ih hrest hrest' fun key => ?_)
      by_cases hk : name = key
      · -- behind the first entry neither list has its name
        subst hk
        rw [get?_eq_none_of_forall_lt hlt, get?_eq_none_of_forall_lt hlt']
      · simpa [Entries.get?, hk] using h key

/-- **A map is determined by what it assigns.** -/
theorem ext_get? {a b : FieldMap α} (h : ∀ key, a.get? key = b.get? key) : a = b := by
  obtain ⟨a, ha⟩ := a
  obtain ⟨b, hb⟩ := b
  simpa using entries_ext ha hb h

/-- Assignments to different names commute. -/
theorem insert_comm (map : FieldMap α) {key other : String} (value value' : α)
    (h : key ≠ other) :
    (map.insert key value).insert other value' = (map.insert other value').insert key value :=
  ext_get? fun name => by
    simp only [get?_insert]
    by_cases h₁ : other = name
    · subst h₁
      simp [h]
    · simp [h₁]

/-- A second assignment to a name replaces the first. -/
theorem insert_insert (map : FieldMap α) (key : String) (value value' : α) :
    (map.insert key value).insert key value' = map.insert key value' :=
  ext_get? fun name => by
    simp only [get?_insert]
    split <;> rfl

end FieldMap

end RecordStore
