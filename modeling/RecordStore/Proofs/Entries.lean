import Mathlib.Data.List.Nodup
import RecordStore.FieldMap

/-!
# Entries whose names are distinct

Writing entries under names that are not taken is appending them
(`RecordStore.Entries.insertAll_eq_append`), and a list that names nothing twice
holds an entry exactly when it reads it back
(`RecordStore.Entries.get?_eq_some_iff_mem`). The entries of a
`RecordStore.FieldMap` are such a list.
-/

namespace RecordStore

namespace Entries

variable {α : Type}

@[simp] theorem keys_append (entries more : Entries α) :
    keys (entries ++ more) = keys entries ++ keys more := by
  simp [keys]

/-- Of two lists with a name the first one is read. -/
theorem get?_append (entries more : Entries α) (key : String) :
    get? (entries ++ more) key = (get? entries key).or (get? more key) := by
  induction entries with
  | nil => rfl
  | cons entry rest ih =>
    obtain ⟨name, value⟩ := entry
    rw [List.cons_append, get?_cons, get?_cons]
    split
    · rfl
    · exact ih

/-! ### Writing under new names -/

/-- A new name is written at the end. -/
theorem insert_eq_append {entries : Entries α} {key : String} (h : key ∉ keys entries)
    (value : α) : insert entries key value = entries ++ [(key, value)] := by
  induction entries with
  | nil => rfl
  | cons entry rest ih =>
    obtain ⟨name, old⟩ := entry
    rw [keys_cons, List.mem_cons, not_or] at h
    rw [insert, if_neg (Ne.symm h.1), ih h.2, List.cons_append]

/-- **Writing entries under new and distinct names appends them.** -/
theorem insertAll_eq_append {entries more : Entries α}
    (h : (keys entries ++ keys more).Nodup) : insertAll entries more = entries ++ more := by
  induction more generalizing entries with
  | nil => exact (List.append_nil entries).symm
  | cons entry rest ih =>
    obtain ⟨key, value⟩ := entry
    have hkey : key ∉ keys entries := fun hmem =>
      (List.nodup_append.1 h).2.2 key hmem key (by simp) rfl
    have hrest : (keys (entries ++ [(key, value)]) ++ keys rest).Nodup := by
      simpa using h
    calc insertAll entries ((key, value) :: rest)
        = insertAll (insert entries key value) rest := rfl
      _ = insertAll (entries ++ [(key, value)]) rest := by rw [insert_eq_append hkey]
      _ = (entries ++ [(key, value)]) ++ rest := ih hrest
      _ = entries ++ (key, value) :: rest := by simp

/-- A list that names nothing twice is its own reading. -/
theorem ofList_eq_self {pairs : Entries α} (h : (keys pairs).Nodup) : ofList pairs = pairs := by
  have h' : (keys ([] : Entries α) ++ keys pairs).Nodup := by simpa using h
  exact insertAll_eq_append h'

/-! ### Writing entries one after the other -/

/-- Writing entries adds the names that were not taken, each at its first place. -/
theorem keys_insertAll (entries more : Entries α) :
    keys (insertAll entries more)
      = keys entries ++ ((keys more).filter fun key => key ∉ keys entries).eraseDups := by
  induction more generalizing entries with
  | nil => simp [insertAll]
  | cons entry rest ih =>
    obtain ⟨key, value⟩ := entry
    have hstep : insertAll entries ((key, value) :: rest)
        = insertAll (insert entries key value) rest := rfl
    rw [hstep, ih, keys_insert, keys_cons]
    by_cases hkey : key ∈ keys entries
    · rw [if_pos hkey, List.filter_cons_of_neg (by simpa using hkey)]
    · rw [if_neg hkey, List.filter_cons_of_pos (by simpa using hkey), List.eraseDups_cons,
        List.filter_filter, List.append_assoc, List.singleton_append]
      congr 3
      refine List.filter_congr fun other _ => ?_
      by_cases hother : other = key <;> simp [hother]

/-- A list read as entries keeps each name once, where it came first. -/
theorem keys_ofList (pairs : Entries α) : keys (ofList pairs) = (keys pairs).eraseDups := by
  rw [ofList, keys_insertAll]
  simp

/-- What is read after writing was written. -/
theorem mem_of_get?_insertAll {entries more : Entries α} {key : String} {value : α}
    (h : get? (insertAll entries more) key = some value) :
    get? entries key = some value ∨ (key, value) ∈ more := by
  induction more generalizing entries with
  | nil => exact .inl h
  | cons entry rest ih =>
    rcases ih h with hwritten | hmem
    · rw [get?_insert] at hwritten
      split at hwritten
      · rename_i hkey
        obtain rfl := Option.some.inj hwritten
        exact .inr (hkey ▸ List.mem_cons_self)
      · exact .inl hwritten
    · exact .inr (List.mem_cons_of_mem _ hmem)

/-! ### Writing under a name that is taken -/

/-- Writing what is there already changes nothing. -/
theorem insert_eq_self {entries : Entries α} {key : String} {value : α}
    (h : get? entries key = some value) : insert entries key value = entries := by
  induction entries with
  | nil => simp at h
  | cons entry rest ih =>
    obtain ⟨name, old⟩ := entry
    rw [get?_cons] at h
    rw [insert]
    split
    · rename_i hname
      rw [if_pos hname] at h
      rw [Option.some.inj h]
    · rename_i hname
      rw [if_neg hname] at h
      rw [ih h]

/-- Of two writes under one name the last one counts. -/
theorem insert_insert (entries : Entries α) (key : String) (value value' : α) :
    insert (insert entries key value) key value' = insert entries key value' := by
  induction entries with
  | nil => simp [insert]
  | cons entry rest ih =>
    obtain ⟨name, old⟩ := entry
    by_cases h : name = key
    · simp [insert, h]
    · simp [insert, h, ih]

/-! ### Reading from distinct names -/

/-- What is read under a name is an entry of it. -/
theorem mem_of_get?_eq_some {entries : Entries α} {key : String} {value : α}
    (h : get? entries key = some value) : (key, value) ∈ entries := by
  induction entries with
  | nil => simp at h
  | cons entry rest ih =>
    obtain ⟨name, old⟩ := entry
    rw [get?_cons] at h
    split at h
    · rename_i hname
      rw [hname, Option.some.inj h]
      exact List.mem_cons_self
    · exact List.mem_cons_of_mem _ (ih h)

theorem mem_keys_of_mem {entries : Entries α} {key : String} {value : α}
    (h : (key, value) ∈ entries) : key ∈ keys entries :=
  List.mem_map.2 ⟨(key, value), h, rfl⟩

/-- **Where names are distinct, an entry is there exactly when it is read.** -/
theorem get?_eq_some_iff_mem {entries : Entries α} (h : (keys entries).Nodup) {key : String}
    {value : α} : get? entries key = some value ↔ (key, value) ∈ entries := by
  refine ⟨mem_of_get?_eq_some, fun hmem => ?_⟩
  induction entries with
  | nil => simp at hmem
  | cons entry rest ih =>
    obtain ⟨name, old⟩ := entry
    rw [keys_cons, List.nodup_cons] at h
    rw [get?_cons]
    rcases List.mem_cons.1 hmem with heq | hmem
    · rw [(Prod.mk.inj heq).1, if_pos rfl, (Prod.mk.inj heq).2]
    · have hne : name ≠ key := fun hname => h.1 (by
        rw [hname]
        exact mem_keys_of_mem hmem)
      rw [if_neg hne]
      exact ih h.2 hmem

theorem eq_of_mem_of_fst_eq {entries : Entries α} (h : (keys entries).Nodup)
    {entry other : String × α} (hentry : entry ∈ entries) (hother : other ∈ entries)
    (hname : entry.1 = other.1) : entry = other :=
  List.inj_on_of_nodup_map h hentry hother hname

/-- Where names are distinct, their order does not matter for reading. -/
theorem get?_eq_of_perm {entries others : Entries α} (distinct : (keys entries).Nodup)
    (h : entries.Perm others) (key : String) : get? entries key = get? others key := by
  have distinct' : (keys others).Nodup := (h.map Prod.fst).nodup_iff.1 distinct
  refine Option.ext fun value => ?_
  rw [get?_eq_some_iff_mem distinct, get?_eq_some_iff_mem distinct', h.mem_iff]

/-- The entry of a name can be moved to the end. -/
theorem perm_erase_append {entries : Entries α} (distinct : (keys entries).Nodup) {key : String}
    {value : α} (h : get? entries key = some value) :
    entries.Perm (erase entries key ++ [(key, value)]) := by
  have hfilter : (entries.filter fun entry => entry.1 = key) = [(key, value)] := by
    induction entries with
    | nil => cases h
    | cons entry rest ih =>
      obtain ⟨name, old⟩ := entry
      obtain ⟨hname, hrest⟩ := List.nodup_cons.1 distinct
      rw [get?_cons] at h
      split at h
      · rename_i hkey
        subst hkey
        obtain rfl := Option.some.inj h
        rw [List.filter_cons_of_pos (by simp), List.filter_eq_nil_iff.2]
        intro entry hentry hsame
        exact hname (of_decide_eq_true hsame ▸ mem_keys_of_mem hentry)
      · rename_i hkey
        rw [List.filter_cons_of_neg (by simpa using hkey), ih hrest h]
  have hsplit := List.filter_append_perm (fun entry : String × α => entry.1 ≠ key) entries
  simp only [ne_eq, decide_not, Bool.not_not, hfilter] at hsplit
  simpa [erase] using hsplit.symm

/-! ### Rewriting values -/

/-- A change of all values changes what is read in the same way. -/
theorem get?_map {β : Type} (f : α → β) (entries : Entries α) (key : String) :
    get? (entries.map fun entry => (entry.1, f entry.2)) key = (get? entries key).map f := by
  induction entries with
  | nil => rfl
  | cons entry rest ih =>
    rw [List.map_cons, get?_cons, get?_cons, ih]
    split <;> rfl

/-- Values may be rewritten before or after a write. -/
theorem map_insert {β : Type} (f : α → β) (entries : Entries α) (key : String) (value : α) :
    (insert entries key value).map (fun entry => (entry.1, f entry.2))
      = insert (entries.map fun entry => (entry.1, f entry.2)) key (f value) := by
  induction entries with
  | nil => rfl
  | cons entry rest ih =>
    rw [insert, List.map_cons, insert]
    split
    · rfl
    · rw [List.map_cons, ih]

/-! ### Entries that are found equal -/

section Equal

variable [BEq α] {entries others : Entries α}

/-- Lists that compare equal have the same names in the same order. -/
theorem keys_eq_of_beq (h : (entries == others) = true) : entries.keys = others.keys := by
  induction entries generalizing others with
  | nil =>
    cases others with
    | nil => rfl
    | cons other more => cases h
  | cons entry rest ih =>
    cases others with
    | nil => cases h
    | cons other more =>
      obtain ⟨hentry, hrest⟩ := Bool.and_eq_true_iff.1 h
      have hname : entry.1 = other.1 := eq_of_beq (Bool.and_eq_true_iff.1 hentry).1
      rw [keys_cons, keys_cons, hname, ih hrest]

/-- Entries under the same names are found equal when what is read from them is. -/
theorem beq_iff_of_keys_eq (distinct : entries.keys.Nodup) (hkeys : entries.keys = others.keys) :
    (entries == others) = true ↔ ∀ key, (entries.get? key == others.get? key) = true := by
  induction entries generalizing others with
  | nil =>
    obtain rfl : others = [] := List.map_eq_nil_iff.1 hkeys.symm
    exact ⟨fun _ _ => rfl, fun _ => rfl⟩
  | cons entry rest ih =>
    cases others with
    | nil => cases hkeys
    | cons other more =>
      obtain ⟨name, value⟩ := entry
      obtain ⟨_, value'⟩ := other
      obtain ⟨rfl, hmore⟩ := List.cons.inj hkeys
      obtain ⟨hname, hdistinct⟩ := List.nodup_cons.1 distinct
      have hcons : ((name, value) :: rest == (name, value') :: more) = true ↔
          (value == value') = true ∧ (rest == more) = true := by
        rw [List.cons_beq_cons, Bool.and_eq_true_iff]
        refine and_congr_left fun _ => ?_
        show ((name == name) && (value == value')) = true ↔ _
        rw [beq_self_eq_true, Bool.true_and]
      rw [hcons, ih hdistinct hmore]
      constructor
      · rintro ⟨hvalue, hrest⟩ key
        rw [get?_cons, get?_cons]
        split
        · exact hvalue
        · exact hrest key
      · intro h
        have hfirst := h name
        rw [get?_cons, get?_cons, if_pos rfl, if_pos rfl] at hfirst
        refine ⟨hfirst, fun key => ?_⟩
        by_cases hkey : name = key
        · -- the name is that of the first entry and of no other
          subst hkey
          have hname' : name ∉ keys more := fun hmem => hname (hmore ▸ hmem)
          rw [get?_eq_none_iff.2 hname, get?_eq_none_iff.2 hname']
          rfl
        · have hrest := h key
          rwa [get?_cons, get?_cons, if_neg hkey, if_neg hkey] at hrest

end Equal

end Entries

namespace FieldMap

variable {α : Type}

/-- A map sorted by name holds no name twice. -/
theorem nodup_keys (map : FieldMap α) : map.entries.keys.Nodup :=
  List.pairwise_map.2 (map.sorted.imp String.ne_of_lt)

theorem mem_entries_iff {map : FieldMap α} {key : String} {value : α} :
    (key, value) ∈ map.entries ↔ map.get? key = some value :=
  (Entries.get?_eq_some_iff_mem map.nodup_keys).symm

end FieldMap

end RecordStore
