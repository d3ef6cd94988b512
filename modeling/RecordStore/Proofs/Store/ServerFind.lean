import RecordStore.Proofs.Entries
import RecordStore.Proofs.Sorting.Compare
import RecordStore.Proofs.Store.Settled

/-!
# The order and the window of a find on a server

A server is told the order of a find as a document of directions, and a document has
a name once. Of a key that comes twice – in one sort, or because `id` and `_id` are
one field of a record – the document has the first place and the last direction. The
place is the right one, for records that tied on a key tie on it again
(`RecordStore.FindOptions.compareOn_append_cons_of_mem`); the direction is, as long as
keys on one field agree about it, and a resolved sort has a single direction for all
its properties. So the document puts records in the order that the sort asks for
(`RecordStore.FindOptions.compareOn_ofList`).

The window is cut differently on the two sides in two cases. A limit of zero stands
for none on a server, and is answered without it; a limit that the server cannot count
is left out, and only a list longer than such a limit would show it
(`RecordStore.FindOptions.window_forServer`). Altogether, a find on a server pages as a
find in memory does (`RecordStore.ResolvedSorting.find_alike`).
-/

namespace RecordStore

/-! ### What a server makes of the options of a find -/

/-- The number that stands for a direction. -/
def SortOrder.number : SortOrder → Int32
  | ascending => 1
  | descending => -1

/-- The direction that a value of a document of directions stands for. -/
def Value.direction? : Value → Option SortOrder
  | int32 n => if n = 1 then some .ascending else if n = -1 then some .descending else none
  | _ => none

/-- The keys that a document of directions lists, in its order. -/
def Document.sortKeys? (document : Document) : Option (List (String × SortOrder)) :=
  document.mapM fun entry => entry.2.direction?.map fun order => (entry.1, order)

namespace ServerFindOptions

/-- The keys by which a server sorts, the most significant first. Without a document
there are none. -/
def keys? (options : ServerFindOptions) : Option (List (String × SortOrder)) :=
  match options.sort with
  | some document => document.sortKeys?
  | none => some []

/-- The window that a server cuts out of a list: it passes over some items, and then
lists as many as the limit says; neither a missing limit nor zero is one. -/
def window {α : Type} (options : ServerFindOptions) (items : List α) : List α :=
  match options.limit with
  | none | some 0 => items.drop (options.skip.getD 0)
  | some limit => (items.drop (options.skip.getD 0)).take limit

end ServerFindOptions

/-! ### Reading the document of directions -/

/-- The number an order is rendered by reads back as the order. -/
theorem Value.direction?_number (order : SortOrder) :
    (int32 order.number).direction? = some order := by
  cases order <;> decide

/-- **A document of directions is read as the keys that it was written from.** -/
theorem Document.sortKeys?_map (keys : List (String × SortOrder)) :
    sortKeys? (keys.map fun key => (key.1, .int32 key.2.number)) = some keys := by
  induction keys with
  | nil => rfl
  | cons key rest ih =>
    rw [sortKeys?] at ih
    rw [sortKeys?, List.map_cons, List.mapM_cons, ih, Value.direction?_number]
    rfl

/-- Values may be rewritten before or after entries are written. -/
theorem Entries.map_insertAll {α β : Type} (f : α → β) (entries : Entries α)
    (more : List (String × α)) :
    (insertAll entries more).map (fun entry => (entry.1, f entry.2))
      = insertAll (entries.map fun entry => (entry.1, f entry.2))
          (more.map fun entry => (entry.1, f entry.2)) := by
  induction more generalizing entries with
  | nil => rfl
  | cons entry rest ih =>
    have hrest := ih (insert entries entry.1 entry.2)
    rw [map_insert] at hrest
    exact hrest

namespace FindOptions

/-- A sort is rendered key by key, a repeated one at its first place and with its last
direction. -/
theorem sortDocument_eq (options : FindOptions) (h : options.sort ≠ []) :
    options.sortDocument
      = some ((Entries.ofList options.sort).map fun key => (key.1, .int32 key.2.number)) := by
  have hnumber : options.sortDocument
      = some (Entries.ofList (options.sort.map fun key => (key.1, .int32 key.2.number))) := by
    rw [sortDocument, if_neg (by simpa using h)]
    refine congrArg some (congrArg Entries.ofList (List.map_congr_left ?_))
    rintro ⟨field, order⟩ -
    cases order <;> rfl
  have hmap := Entries.map_insertAll (fun order : SortOrder => Value.int32 order.number) []
    options.sort
  rw [hnumber]
  exact congrArg some hmap.symm

/-- **A server reads the keys of a sort**, each at the first place that it has. -/
theorem keys?_forServer (options : FindOptions) :
    options.forServer.keys? = some (Entries.ofList options.sort) := by
  by_cases h : options.sort = []
  · rw [ServerFindOptions.keys?, forServer, sortDocument, h]
    rfl
  · rw [ServerFindOptions.keys?, forServer, sortDocument_eq options h]
    exact Document.sortKeys?_map _

/-! ### Keys that come twice -/

variable {a b : Document}

/-- Records are compared on the first keys, and where they tie on the others. -/
theorem compareOn_append (first rest : List (String × SortOrder)) (a b : Document) :
    compareOn (first ++ rest) a b = (compareOn first a b).then (compareOn rest a b) := by
  induction first with
  | nil => rfl
  | cons key others ih => rw [List.cons_append, compareOn, compareOn, ih, Ordering.then_assoc]

/-- **A key says nothing new when it comes again.** -/
theorem compareOn_append_cons_of_mem {first : List (String × SortOrder)}
    {key : String × SortOrder} (h : key ∈ first) (rest : List (String × SortOrder))
    (a b : Document) : compareOn (first ++ key :: rest) a b = compareOn (first ++ rest) a b := by
  rw [compareOn_append, compareOn_append, compareOn]
  cases hfirst : compareOn first a b with
  | eq =>
    -- records that tie on the first keys tie on this one
    rw [compareOn_eq_eq_iff.1 hfirst key h, (SortOrder.apply_eq_eq_iff key.2 .eq).2 rfl]
    rfl
  | _ => rfl

/-- Whether keys on one field have one direction. -/
def Consistent (keys : List (String × SortOrder)) : Prop :=
  ∀ key ∈ keys, ∀ other ∈ keys, key.1 = other.1 → key = other

theorem Consistent.mono {keys others : List (String × SortOrder)} (h : Consistent keys)
    (hsubset : others ⊆ keys) : Consistent others :=
  fun key hkey other hother => h key (hsubset hkey) other (hsubset hother)

/-- Keys that are written after others compare as if they followed them. -/
theorem compareOn_insertAll {built rest : List (String × SortOrder)}
    (distinct : (Entries.keys built).Nodup) (consistent : Consistent (built ++ rest))
    (a b : Document) :
    compareOn (Entries.insertAll built rest) a b = compareOn (built ++ rest) a b := by
  induction rest generalizing built with
  | nil =>
    rw [List.append_nil]
    rfl
  | cons key rest ih =>
    show compareOn (Entries.insertAll (Entries.insert built key.1 key.2) rest) a b = _
    by_cases htaken : key.1 ∈ Entries.keys built
    · -- the name is taken, and by the very same key, so writing it changes nothing
      obtain ⟨other, hother, hname⟩ := List.mem_map.1 htaken
      obtain rfl : other = key := consistent other (List.mem_append_left _ hother) key
        (List.mem_append_right _ List.mem_cons_self) hname
      have hkept : built ++ rest ⊆ built ++ other :: rest :=
        List.append_subset.2 ⟨List.subset_append_left _ _,
          List.Subset.trans (List.subset_cons_self _ _) (List.subset_append_right _ _)⟩
      rw [Entries.insert_eq_self ((Entries.get?_eq_some_iff_mem distinct).2 hother),
        compareOn_append_cons_of_mem hother, ih distinct (consistent.mono hkept)]
    · -- a new name comes after all others
      have hnext : Entries.insert built key.1 key.2 ++ rest = built ++ key :: rest := by
        rw [Entries.insert_eq_append htaken, List.append_assoc]
        rfl
      rw [ih (Entries.nodup_keys_insert distinct _ _) (hnext ▸ consistent), hnext]

/-- **The entries that keys are read as put records in the same order** as the keys,
as long as keys on one field agree about the direction. -/
theorem compareOn_ofList {keys : List (String × SortOrder)} (consistent : Consistent keys)
    (a b : Document) : compareOn (Entries.ofList keys) a b = compareOn keys a b := by
  have hnone : (Entries.keys ([] : Entries SortOrder)).Nodup := List.nodup_nil
  exact compareOn_insertAll hnone consistent a b

/-- One record comes after another when the other comes before it. -/
theorem compareOn_eq_gt_iff {sort : List (String × SortOrder)} :
    compareOn sort a b = .gt ↔ Before sort b a := by
  rw [compareOn_swap, Ordering.swap_eq_gt, compareOn_eq_lt_iff]

/-! ### The window -/

/-- **A server cuts the same window** out of a list that is shorter than the limits
that it cannot count, unless the limit is zero. -/
theorem window_forServer {α : Type} {options : FindOptions} (h : options.limit ≠ some 0)
    {items : List α} (short : items.length < 2 ^ 63) :
    options.forServer.window items = options.window items := by
  rw [ServerFindOptions.window, window, forServer]
  rcases hlimit : options.limit with _ | limit
  · rfl
  · have hzero : limit ≠ 0 := fun hzero => h (hlimit.trans (congrArg some hzero))
    by_cases hcounted : limit ≤ ServerFindOptions.largestLimit
    · rw [Option.filter_some, if_pos (decide_eq_true hcounted)]
      obtain ⟨count, rfl⟩ := Nat.exists_eq_succ_of_ne_zero hzero
      rfl
    · -- the limit is left out, and the list is too short to reach it
      rw [Option.filter_some, if_neg (by simpa using hcounted)]
      refine (List.take_of_length_le ?_).symm
      rw [List.length_drop]
      simp only [ServerFindOptions.largestLimit] at hcounted
      omega

end FindOptions

namespace ResolvedSorting

/-- The properties of a resolved sort have one direction, also where `id` and `_id`
name one field. -/
theorem consistent_sort (sort : ResolvedSorting) :
    FindOptions.Consistent sort.findOptions.sort := by
  intro key hkey other hother hname
  obtain ⟨property, -, rfl⟩ := List.mem_map.1 hkey
  obtain ⟨property', -, rfl⟩ := List.mem_map.1 hother
  exact Prod.ext hname rfl

/-- **A find on a server pages as a find in memory.** Whatever the properties of a
sort, the server is told keys on distinct fields, and by these keys one record comes
before another, or ties with it, exactly when a store in memory has it so. Whatever
the window, in a bound collection either the store settles that nothing is listed, or
the server cuts the window that a store in memory does out of every list that it could
count. -/
theorem find_alike (sort : ResolvedSorting) :
    (∃ keys, sort.findOptions.forServer.keys? = some keys ∧ (Entries.keys keys).Nodup ∧
      ∀ a b : Document,
        (sort.findOptions.compareRecords a b = .lt ↔ FindOptions.Before keys a b) ∧
        (sort.findOptions.compareRecords a b = .eq ↔ FindOptions.Tie keys a b) ∧
        (sort.findOptions.compareRecords a b = .gt ↔ FindOptions.Before keys b a)) ∧
    ∀ (store : ServerStore) (name : String) (predicate : Predicate),
      (store.models.get? name).isSome = true →
        (ServerStore.find name predicate sort.findOptions).exec store = (.ok (.settled []), store) ∧
          (∀ items : List Document, sort.findOptions.window items = []) ∨
        (ServerStore.find name predicate sort.findOptions).exec store
            = (.ok (.requested (.find name predicate.query sort.findOptions.forServer)), store) ∧
          ∀ items : List Document, items.length < 2 ^ 63 →
            sort.findOptions.forServer.window items = sort.findOptions.window items := by
  constructor
  · refine ⟨_, FindOptions.keys?_forServer _, Entries.nodup_keys_ofList _, fun a b => ?_⟩
    rw [FindOptions.compareRecords, ← FindOptions.compareOn_ofList sort.consistent_sort]
    exact ⟨FindOptions.compareOn_eq_lt_iff, FindOptions.compareOn_eq_eq_iff,
      FindOptions.compareOn_eq_gt_iff⟩
  · intro store name predicate bound
    obtain ⟨schema, hschema⟩ := Option.isSome_iff_exists.1 bound
    have hschemaOf : store.schemaOf name = .ok schema := by
      rw [ServerStore.schemaOf, hschema]
    rw [ServerStore.exec_find, hschemaOf, Outcome.ok_bind]
    by_cases hlimit : sort.findOptions.limit = some 0
    · rw [if_pos hlimit]
      refine .inl ⟨rfl, fun items => ?_⟩
      rw [FindOptions.window, hlimit]
      rfl
    · rw [if_neg hlimit]
      exact .inr ⟨rfl, fun items => FindOptions.window_forServer hlimit⟩

/-- A sort by the identifier under both of its names, with a limit that no server can
count. -/
def byBothNames : ResolvedSorting :=
  ⟨["_id", "name", "id", "name"], .descending, 1, 2 ^ 64 - 1⟩

/-- The server is told each field once, and cuts the same window out of two records
without a limit. -/
theorem find_byBothNames :
    byBothNames.findOptions.forServer.keys? = some [("_id", .descending), ("name", .descending)] ∧
    (∀ a b : Document, byBothNames.findOptions.compareRecords a b = .lt ↔
      FindOptions.Before [("_id", .descending), ("name", .descending)] a b) ∧
    byBothNames.findOptions.forServer.limit = none ∧
    ∀ a b : Document, byBothNames.findOptions.forServer.window [a, b] = [b] := by
  have hread : byBothNames.findOptions.forServer.keys?
      = some [("_id", .descending), ("name", .descending)] := rfl
  obtain ⟨⟨keys, hkeys, -, hcompare⟩, hfind⟩ := find_alike byBothNames
  obtain rfl := Option.some.inj (hkeys.symm.trans hread)
  refine ⟨hread, fun a b => (hcompare a b).1, rfl, fun a b => ?_⟩
  have hmemory : byBothNames.findOptions.window [a, b] = [b] := rfl
  rcases hfind ⟨[("people", .empty)]⟩ "people" .empty rfl with ⟨-, hempty⟩ | ⟨-, hwindow⟩
  · rw [hempty] at hmemory
    cases hmemory
  · rw [hwindow [a, b] (by simp), hmemory]

end ResolvedSorting

end RecordStore
