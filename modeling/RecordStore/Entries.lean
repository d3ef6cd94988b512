/-!
# Named entries in order of arrival

A document, a JSON object and the collections of a store are all lists of named
entries. A name keeps the place at which it was first written, and a later
write under the same name replaces the value without moving it. This file holds
the reading and writing of such lists, and the laws that tie the two together:
what `RecordStore.Entries.insert` writes is what `RecordStore.Entries.get?`
reads back (`RecordStore.Entries.get?_insert`), and writing never makes a name
occur twice (`RecordStore.Entries.nodup_keys_insert`).
-/

namespace RecordStore

/-- A list of named entries, in the order in which the names were first
written. -/
abbrev Entries (α : Type) := List (String × α)

namespace Entries

variable {α β : Type}

/-- The value written under a name, if any. -/
def get? : Entries α → String → Option α
  | [], _ => none
  | (name, value) :: rest, key => if name = key then some value else get? rest key

/-- Writes a value under a name: in place when the name is taken, at the end
otherwise. -/
def insert : Entries α → String → α → Entries α
  | [], key, value => [(key, value)]
  | (name, old) :: rest, key, value =>
    if name = key then (name, value) :: rest else (name, old) :: insert rest key value

/-- Drops the entry of a name, the others keeping their order. -/
def erase (entries : Entries α) (key : String) : Entries α :=
  entries.filter fun entry => entry.1 ≠ key

/-- The names, in order. -/
def keys (entries : Entries α) : List String :=
  entries.map Prod.fst

/-- Whether a name is taken. -/
def contains (entries : Entries α) (key : String) : Bool :=
  (get? entries key).isSome

/-- Writes every entry of a second list, one after the other. -/
def insertAll (entries : Entries α) (more : List (String × α)) : Entries α :=
  more.foldl (fun acc entry => insert acc entry.1 entry.2) entries

/-- Reads a list of pairs as entries: a repeated name keeps its first place and
takes its last value. -/
def ofList (pairs : List (String × α)) : Entries α :=
  insertAll [] pairs

/-! ### Reading after writing -/

@[simp] theorem get?_nil (key : String) : get? ([] : Entries α) key = none := rfl

theorem get?_cons (name : String) (value : α) (rest : Entries α) (key : String) :
    get? ((name, value) :: rest) key = if name = key then some value else get? rest key := rfl

/-- **What is written under a name is read back under it**, and under no other. -/
theorem get?_insert (entries : Entries α) (key : String) (value : α) (other : String) :
    get? (insert entries key value) other
      = if key = other then some value else get? entries other := by
  induction entries with
  | nil => rfl
  | cons entry rest ih =>
    obtain ⟨name, old⟩ := entry
    by_cases h : name = key
    · subst h
      by_cases h' : name = other <;> simp [insert, get?, h']
    · by_cases h' : name = other
      · subst h'
        simp [insert, get?, h, Ne.symm h]
      · simp [insert, get?, h, h', ih]

@[simp] theorem get?_insert_self (entries : Entries α) (key : String) (value : α) :
    get? (insert entries key value) key = some value := by
  simp [get?_insert]

/-- Setting one key leaves what is under every other key. -/
theorem get?_insert_of_ne (entries : Entries α) {key other : String} (value : α)
    (h : key ≠ other) : get? (insert entries key value) other = get? entries other := by
  simp [get?_insert, h]

/-! ### The names of a list of entries -/

@[simp] theorem keys_nil : keys ([] : Entries α) = [] := rfl

@[simp] theorem keys_cons (entry : String × α) (rest : Entries α) :
    keys (entry :: rest) = entry.1 :: keys rest := rfl

/-- Nothing is read under a name exactly when the list does not have it. -/
theorem get?_eq_none_iff {entries : Entries α} {key : String} :
    get? entries key = none ↔ key ∉ keys entries := by
  induction entries with
  | nil => simp
  | cons entry rest ih =>
    obtain ⟨name, value⟩ := entry
    by_cases h : name = key
    · simp [get?, h]
    · simp [get?, h, ih, Ne.symm h]

theorem contains_iff {entries : Entries α} {key : String} :
    contains entries key = true ↔ key ∈ keys entries := by
  have h : get? entries key = none ↔ key ∉ keys entries := get?_eq_none_iff
  cases hg : get? entries key with
  | none => simp [contains, hg, h.1 hg]
  | some value =>
    have : key ∈ keys entries := Decidable.not_not.1 fun hn => by simp [h.2 hn] at hg
    simp [contains, hg, this]

/-- Writing adds at most one name, at the end. -/
theorem keys_insert (entries : Entries α) (key : String) (value : α) :
    keys (insert entries key value)
      = if key ∈ keys entries then keys entries else keys entries ++ [key] := by
  induction entries with
  | nil => rfl
  | cons entry rest ih =>
    obtain ⟨name, old⟩ := entry
    by_cases h : name = key
    · simp [insert, h]
    · by_cases h' : key ∈ keys rest <;> simp [insert, h, ih, h', Ne.symm h]

/-- A list that names nothing twice still does so after a write. -/
theorem nodup_keys_insert {entries : Entries α} (h : (keys entries).Nodup) (key : String)
    (value : α) : (keys (insert entries key value)).Nodup := by
  rw [keys_insert]
  by_cases hk : key ∈ keys entries
  · simpa [hk] using h
  · rw [if_neg hk, List.nodup_append]
    refine ⟨h, by simp, ?_⟩
    intro a ha b hb hab
    exact hk (List.mem_singleton.1 hb ▸ hab ▸ ha)

/-- Writing several entries never makes a name occur twice. -/
theorem nodup_keys_insertAll {entries : Entries α} (h : (keys entries).Nodup)
    (more : List (String × α)) : (keys (insertAll entries more)).Nodup := by
  induction more generalizing entries with
  | nil => exact h
  | cons entry rest ih => exact ih (nodup_keys_insert h entry.1 entry.2)

/-- **Entries read from any list of pairs name nothing twice.** -/
theorem nodup_keys_ofList (pairs : List (String × α)) : (keys (ofList pairs)).Nodup :=
  nodup_keys_insertAll (by simp) pairs

end Entries

end RecordStore
