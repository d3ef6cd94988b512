import RecordStore.Proofs.Entries
import RecordStore.Proofs.Outcome

/-!
# Maps built name by name

A map that is built by assigning to one name after the other, in increasing
order, is just the list of what was assigned
(`RecordStore.FieldMap.foldlM_insert`). This is what reading a map off a
document, or rewriting one map into another, comes to. In any other order the
map is the same, as long as no name comes twice
(`RecordStore.FieldMap.ofList_eq_of_perm`).

Two maps are found equal exactly when they are found to assign equal values to
every name (`RecordStore.FieldMap.beq_iff_get?`), whatever it takes for values to be
found equal.
-/

namespace RecordStore

namespace FieldMap

variable {α β γ : Type}

/-- A map is the list of its entries. -/
theorem ext_entries {a b : FieldMap α} (h : a.entries = b.entries) : a = b := by
  obtain ⟨entries, sorted⟩ := a
  obtain ⟨_, _⟩ := b
  obtain rfl : entries = _ := h
  rfl

/-! ### Rewriting what the names are assigned -/

/-- Rewrites what each name is assigned. -/
def mapEntries (f : String → α → β) (map : FieldMap α) : FieldMap β :=
  ⟨map.entries.map fun entry => (entry.1, f entry.1 entry.2),
    List.pairwise_map.2 map.sorted⟩

theorem mapEntries_mapEntries (f : String → α → β) (g : String → β → γ) (map : FieldMap α) :
    (map.mapEntries f).mapEntries g = map.mapEntries fun name a => g name (f name a) :=
  ext_entries List.map_map

theorem forall_mem_mapEntries {f : String → α → β} {map : FieldMap α} {P : String × β → Prop} :
    (∀ entry ∈ (map.mapEntries f).entries, P entry) ↔
      ∀ entry ∈ map.entries, P (entry.1, f entry.1 entry.2) :=
  List.forall_mem_map

/-- A change of all values changes what is read in the same way. -/
theorem get?_mapEntries (f : String → α → β) (map : FieldMap α) (key : String) :
    (map.mapEntries f).get? key = (map.get? key).map (f key) := by
  show Entries.get? (map.entries.map fun entry => (entry.1, f entry.1 entry.2)) key
    = (Entries.get? map.entries key).map (f key)
  induction map.entries with
  | nil => rfl
  | cons entry rest ih =>
    rw [List.map_cons, Entries.get?_cons, Entries.get?_cons, ih]
    split
    · rename_i hname
      rw [Option.map_some, ← hname]
    · rfl

/-- Writing first and changing all values then comes to changing the values and writing the
changed one. -/
theorem map_insertSorted (f : String → α → β) (key : String) (value : α) (entries : Entries α) :
    (insertSorted key value entries).map (fun entry => (entry.1, f entry.1 entry.2))
      = insertSorted key (f key value) (entries.map fun entry => (entry.1, f entry.1 entry.2)) := by
  induction entries with
  | nil => rfl
  | cons head rest ih =>
    obtain ⟨name, old⟩ := head
    rw [insertSorted, List.map_cons, insertSorted]
    split
    · rfl
    · split
      · rfl
      · rw [List.map_cons, ih]

/-- What the names are assigned may be rewritten before or after an assignment. -/
theorem mapEntries_insert (f : String → α → β) (map : FieldMap α) (key : String) (value : α) :
    (map.insert key value).mapEntries f = (map.mapEntries f).insert key (f key value) :=
  ext_entries (map_insertSorted f key value map.entries)

/-- It does not matter whether values are changed before or after they are gathered in a map. -/
theorem mapEntries_ofList (f : String → α → β) (pairs : List (String × α)) :
    (ofList pairs).mapEntries f = ofList (pairs.map fun entry => (entry.1, f entry.1 entry.2)) := by
  have hfold : ∀ map : FieldMap α,
      (pairs.foldl (fun map entry => map.insert entry.1 entry.2) map).mapEntries f
        = (pairs.map fun entry => (entry.1, f entry.1 entry.2)).foldl
            (fun map entry => map.insert entry.1 entry.2) (map.mapEntries f) := by
    induction pairs with
    | nil => exact fun _ => rfl
    | cons entry rest ih =>
      intro map
      rw [List.foldl_cons, ih, mapEntries_insert]
      rfl
  exact hfold empty

/-- If a change of all values leaves a map as it is, it leaves each value as it is. -/
theorem eq_of_mapEntries_eq_self {f : String → α → α} {map : FieldMap α}
    (h : map.mapEntries f = map) {entry : String × α} (hentry : entry ∈ map.entries) :
    f entry.1 entry.2 = entry.2 := by
  have hentries : map.entries.map (fun entry => (entry.1, f entry.1 entry.2))
      = map.entries.map id := by
    rw [List.map_id]
    exact congrArg FieldMap.entries h
  exact (Prod.mk.inj (List.map_inj_left.1 hentries entry hentry)).2

/-! ### Assigning in increasing order -/

/-- A name greater than all others comes last. -/
theorem insertSorted_eq_append {key : String} (value : α) {entries : Entries α}
    (h : ∀ entry ∈ entries, entry.1 < key) :
    insertSorted key value entries = entries ++ [(key, value)] := by
  induction entries with
  | nil => rfl
  | cons head rest ih =>
    obtain ⟨name, old⟩ := head
    have hlt : name < key := h (name, old) List.mem_cons_self
    rw [insertSorted, if_neg (String.lt_asymm hlt), if_neg (String.ne_of_lt hlt),
      ih fun entry hentry => h entry (List.mem_cons_of_mem _ hentry), List.cons_append]

section Steps

variable {step : FieldMap β → String × α → Outcome (FieldMap β)} {f : String → α → β}

/-- Steps that assign to ever greater names append what they assign. -/
theorem foldlM_insert_append {entries : Entries α} (built : FieldMap β)
    (h : ∀ entry ∈ entries, ∀ other,
      step other entry = .ok (other.insert entry.1 (f entry.1 entry.2)))
    (sorted : (built.entries ++ entries.map fun entry => (entry.1, f entry.1 entry.2)).Pairwise
      fun a b => a.1 < b.1) :
    ∃ result, entries.foldlM step built = .ok result ∧
      result.entries = built.entries ++ entries.map fun entry => (entry.1, f entry.1 entry.2) := by
  induction entries generalizing built with
  | nil => exact ⟨built, rfl, (List.append_nil _).symm⟩
  | cons entry rest ih =>
    -- the names that are assigned already are all less than this one
    have hlast : (built.insert entry.1 (f entry.1 entry.2)).entries
        = built.entries ++ [(entry.1, f entry.1 entry.2)] :=
      insertSorted_eq_append _ fun old hold =>
        (List.pairwise_append.1 sorted).2.2 old hold _ List.mem_cons_self
    obtain ⟨result, hresult, hentries⟩ := ih (built.insert entry.1 (f entry.1 entry.2))
      (fun other hother => h other (List.mem_cons_of_mem _ hother)) (by
        rw [hlast, List.append_assoc]
        exact sorted)
    refine ⟨result, ?_, ?_⟩
    · rw [List.foldlM_cons, h entry List.mem_cons_self, Outcome.ok_bind]
      exact hresult
    · rw [hentries, hlast, List.append_assoc]
      rfl

/-- **Steps that assign to the names of a map**, one after the other, rewrite the
map. -/
theorem foldlM_insert {map : FieldMap α}
    (h : ∀ entry ∈ map.entries, ∀ other,
      step other entry = .ok (other.insert entry.1 (f entry.1 entry.2))) :
    map.entries.foldlM step empty = .ok (map.mapEntries f) := by
  obtain ⟨result, hresult, hentries⟩ := foldlM_insert_append empty h (map.mapEntries f).sorted
  rw [hresult]
  exact congrArg _ (ext_entries hentries)

end Steps

/-! ### Assigning in any order -/

/-- After writing distinct names, one of them reads what was written and any other what was
there before. -/
theorem get?_foldl_insert {pairs : List (String × α)} (h : (Entries.keys pairs).Nodup)
    (map : FieldMap α) (key : String) :
    (pairs.foldl (fun map entry => map.insert entry.1 entry.2) map).get? key
      = (Entries.get? pairs key).or (map.get? key) := by
  induction pairs generalizing map with
  | nil => rfl
  | cons entry rest ih =>
    obtain ⟨name, value⟩ := entry
    obtain ⟨hname, hrest⟩ := List.nodup_cons.1 h
    rw [List.foldl_cons, ih hrest, get?_insert, Entries.get?_cons]
    by_cases hkey : name = key
    · -- the names are distinct, so none of the later pairs replaces this one
      subst hkey
      rw [if_pos rfl, if_pos rfl, Entries.get?_eq_none_iff.2 hname]
      rfl
    · rw [if_neg hkey, if_neg hkey]

/-- **The entries of a map, in any order, make up the map.** -/
theorem ofList_eq_of_perm {pairs : List (String × α)} {map : FieldMap α}
    (h : pairs.Perm map.entries) : ofList pairs = map := by
  have hnodup : (Entries.keys pairs).Nodup := (h.map Prod.fst).nodup_iff.2 map.nodup_keys
  refine ext_get? fun key => ?_
  rw [ofList, get?_foldl_insert hnodup, get?_empty, Option.or_none]
  refine Option.ext fun value => ?_
  rw [Entries.get?_eq_some_iff_mem hnodup, h.mem_iff, mem_entries_iff]

/-! ### Maps that are found equal -/

section Equal

variable [BEq α] {a b : FieldMap α}

/-- Optional values that compare equal are there or missing together. -/
theorem map_unit_eq_of_beq {x y : Option α} (h : (x == y) = true) :
    x.map (fun _ => ()) = y.map fun _ => () := by
  rcases x with _ | value
  · rcases y with _ | value'
    · rfl
    · cases h
  · rcases y with _ | value'
    · cases h
    · rfl

/-- **Maps are found equal when what they assign is**, name by name. -/
theorem beq_iff_get? : (a == b) = true ↔ ∀ key, (a.get? key == b.get? key) = true := by
  constructor
  · intro h
    exact (Entries.beq_iff_of_keys_eq a.nodup_keys (Entries.keys_eq_of_beq h)).1 h
  · intro h
    -- the names that are assigned anything are the same, and so is their order
    have hnames : a.mapEntries (fun _ _ => ()) = b.mapEntries fun _ _ => () := by
      refine ext_get? fun key => ?_
      rw [get?, mapEntries, get?, mapEntries, Entries.get?_map (fun _ => ()),
        Entries.get?_map (fun _ => ())]
      exact map_unit_eq_of_beq (h key)
    have hkeys : a.entries.keys = b.entries.keys := by
      have hmap := congrArg (fun map => map.entries.keys) hnames
      simpa [mapEntries, Entries.keys, Function.comp_def] using hmap
    exact (Entries.beq_iff_of_keys_eq a.nodup_keys hkeys).2 h

end Equal

end FieldMap

end RecordStore
