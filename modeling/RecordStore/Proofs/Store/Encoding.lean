import RecordStore.Proofs.Store.Find
import RecordStore.Proofs.Value.Encoding

/-!
# Finding in another encoding

Records and the operands of predicates may be in another encoding
(`RecordStore.Value.Recoded`) without any difference to a find. A clause compares the
value of a field, or members of it, with its operands, and a sort the values of
fields with each other, and comparing does not see the difference. So the same
records match (`RecordStore.Predicate.holds_eq_of_recoded`), and any two compare the
same (`RecordStore.FindOptions.compareOn_eq_of_recoded`).

Nothing else is known to a find about its records, so it can be made on pairs of
records that differ in their encoding alone
(`RecordStore.Collection.find_eq_map_select`). It picks the same pairs in the same
order by looking at either side (`RecordStore.MemoryStore.exec_find_recoded`).
-/

namespace RecordStore

/-! ### Predicates in another encoding -/

/-- Whether bounds are other ones in another encoding. -/
structure Bounds.Recoded (bounds others : Bounds) : Prop where
  atLeast : Option.Rel Value.Recoded bounds.atLeast others.atLeast
  atMost : Option.Rel Value.Recoded bounds.atMost others.atMost

/-- Whether a clause is another one with its operands in another encoding. -/
inductive Clause.Recoded : Clause → Clause → Prop
  | equals {value other : Value} : Value.Recoded value other →
      Recoded (.equals value) (.equals other)
  | among {values others : List Value} : List.Forall₂ Value.Recoded values others →
      Recoded (.among values) (.among others)
  | within {bounds others : Bounds} : Bounds.Recoded bounds others →
      Recoded (.within bounds) (.within others)
  | withinAny {alternatives others : List Bounds} :
      List.Forall₂ Bounds.Recoded alternatives others →
        Recoded (.withinAny alternatives) (.withinAny others)

namespace Predicate

/-- Whether a predicate is another one with its operands in another encoding. -/
def Recoded (predicate other : Predicate) : Prop :=
  List.Forall₂ (fun entry entry' => entry.1 = entry'.1 ∧ Clause.Recoded entry.2 entry'.2)
    predicate.entries other.entries

/-- The operands of a predicate have no two entries of one name. -/
def WellFormed (predicate : Predicate) : Prop :=
  ∀ entry ∈ predicate.entries, ∀ operand ∈ entry.2.operands, operand.WellFormed

end Predicate

/-! ### Matching in another encoding -/

section Related

variable {α β : Type} {related : α → β → Prop} {p : α → Bool} {q : β → Bool}

/-- Some of two lists passes two tests if the tests agree on each pair. -/
theorem any_eq_of_forall₂ {items : List α} {others : List β} (h : List.Forall₂ related items others)
    (hpq : ∀ item ∈ items, ∀ other, related item other → p item = q other) :
    items.any p = others.any q := by
  induction h with
  | nil => rfl
  | cons hitem _ ih =>
    obtain ⟨hfirst, hrest⟩ := List.forall_mem_cons.1 hpq
    rw [List.any_cons, List.any_cons, hfirst _ hitem, ih hrest]

/-- All of two lists pass two tests alike if the tests agree on each pair. -/
theorem all_eq_of_forall₂ {items : List α} {others : List β} (h : List.Forall₂ related items others)
    (hpq : ∀ item ∈ items, ∀ other, related item other → p item = q other) :
    items.all p = others.all q := by
  induction h with
  | nil => rfl
  | cons hitem _ ih =>
    obtain ⟨hfirst, hrest⟩ := List.forall_mem_cons.1 hpq
    rw [List.all_cons, List.all_cons, hfirst _ hitem, ih hrest]

theorem all_eq_of_rel {item : Option α} {other : Option β} (h : Option.Rel related item other)
    (hpq : ∀ item other, related item other → p item = q other) : item.all p = other.all q := by
  rcases h with ⟨hitem⟩ | _
  · exact hpq _ _ hitem
  · rfl

end Related

namespace Value

variable {value other : Value}

/-- The items of a value and of another encoding of it correspond. -/
theorem Recoded.candidates (h : Recoded value other) :
    List.Forall₂ Recoded (QueryDocument.candidates value) (QueryDocument.candidates other) := by
  cases h with
  | same => exact List.forall₂_same.2 fun item _ => .same item
  | widened n => exact .cons (.widened n) .nil
  | array hitems => exact .cons (.array hitems) hitems
  | document hentries hperm => exact .cons (.document hentries hperm) .nil
  | scope source hentries hperm => exact .cons (.scope source hentries hperm) .nil

/-- A test that sees no encodings comes out the same on one of the values compared. -/
theorem anyItem_eq_of_recoded (h : Recoded value other) (wellFormed : value.WellFormed)
    {test test' : Value → Bool}
    (htest : ∀ item item', item.WellFormed → Recoded item item' → test item = test' item') :
    value.anyItem test = other.anyItem test' := by
  rw [← QueryDocument.any_candidates, ← QueryDocument.any_candidates]
  exact any_eq_of_forall₂ h.candidates fun item hitem item' hrecoded =>
    htest item item' (wellFormed_of_mem_candidates wellFormed hitem) hrecoded

end Value

/-- **Bounds do not see encodings.** -/
theorem Bounds.hold_eq_of_recoded {bounds others : Bounds} (h : bounds.Recoded others)
    {item item' : Value} (hitem : Value.Recoded item item') :
    bounds.hold item = others.hold item' := by
  have hleast : bounds.atLeastHolds item = others.atLeastHolds item' :=
    all_eq_of_rel h.atLeast fun bound bound' hbound => by rw [hitem.compare?_eq hbound]
  have hmost : bounds.atMostHolds item = others.atMostHolds item' :=
    all_eq_of_rel h.atMost fun bound bound' hbound => by rw [hitem.compare?_eq hbound]
  rw [hold, hold, hleast, hmost]

/-- **A clause does not see encodings**, neither that of a field nor those of its
operands. -/
theorem Clause.holds_eq_of_recoded {clause other : Clause} (h : clause.Recoded other)
    (operands : ∀ operand ∈ clause.operands, operand.WellFormed) {value value' : Value}
    (hvalue : Value.Recoded value value') (wellFormed : value.WellFormed) :
    clause.holds value = other.holds value' := by
  have hexpected : ∀ operand ∈ clause.expected, operand.WellFormed := fun operand hoperand =>
    operands operand (List.mem_append_left _ hoperand)
  cases h with
  | equals hrecoded =>
    have hwanted := hexpected _ (List.mem_singleton_self _)
    exact Value.anyItem_eq_of_recoded hvalue wellFormed fun item item' hitem hitem' =>
      hitem'.equivalent_eq hrecoded hitem hwanted
  | among hmembers =>
    rw [holds, holds]
    refine Value.anyItem_eq_of_recoded hvalue wellFormed fun item item' hitem hitem' => ?_
    exact any_eq_of_forall₂ hmembers fun member hmember member' hrecoded =>
      hrecoded.equivalent_eq hitem' (hexpected member hmember) hitem
  | within hbounds =>
    exact Value.anyItem_eq_of_recoded hvalue wellFormed fun item item' _ hitem' =>
      Bounds.hold_eq_of_recoded hbounds hitem'
  | withinAny halternatives =>
    refine any_eq_of_forall₂ halternatives fun bounds _ others hbounds => ?_
    exact Value.anyItem_eq_of_recoded hvalue wellFormed fun item item' _ hitem' =>
      Bounds.hold_eq_of_recoded hbounds hitem'

section Records

variable {record record' other other' : Document}

/-- **A predicate does not see encodings.** -/
theorem Predicate.holds_eq_of_recoded {predicate predicate' : Predicate}
    (h : predicate.Recoded predicate') (operands : predicate.WellFormed)
    (hrecord : Value.Recoded (.document record) (.document record'))
    (wellFormed : (Value.document record).WellFormed) :
    predicate.holds record = predicate'.holds record' := by
  refine all_eq_of_forall₂ h ?_
  rintro ⟨field, clause⟩ hclause ⟨_, clause'⟩ ⟨rfl, hrecoded⟩
  exact Clause.holds_eq_of_recoded hrecoded (operands _ hclause) (hrecord.read wellFormed field)
    (Document.wellFormed_read wellFormed field)

/-- **A sort does not see encodings.** -/
theorem FindOptions.compareOn_eq_of_recoded (sort : List (String × SortOrder))
    (hrecord : Value.Recoded (.document record) (.document record'))
    (hother : Value.Recoded (.document other) (.document other'))
    (wellFormed : (Value.document record).WellFormed)
    (wellFormed' : (Value.document other).WellFormed) :
    compareOn sort record other = compareOn sort record' other' := by
  induction sort with
  | nil => rfl
  | cons key rest ih =>
    obtain ⟨field, order⟩ := key
    rw [compareOn, compareOn, ih,
      (hrecord.read wellFormed field).sortCompare_eq (hother.read wellFormed' field)]

end Records

/-! ### Finding by places -/

namespace FindOptions

variable {α β : Type}

/-- A window can be cut out before or after a change of all items. -/
theorem map_window (options : FindOptions) (f : α → β) (items : List α) :
    (options.window items).map f = options.window (items.map f) := by
  rw [window, window]
  rcases options.limit with _ | limit
  · exact List.map_drop
  · simp only [List.map_take, List.map_drop]

/-- What is in a window is in the list, in its order. -/
theorem window_sublist (options : FindOptions) (items : List α) :
    (options.window items).Sublist items := by
  rw [window]
  rcases options.limit with _ | limit
  · exact List.drop_sublist _ _
  · exact (List.take_sublist _ _).trans (List.drop_sublist _ _)

/-- What a find makes of some items, given which of them match and how any two of
them compare. -/
def select (options : FindOptions) (test : α → Bool) (le : α → α → Bool) (items : List α) :
    List α :=
  options.window ((items.filter test).mergeSort le)

theorem select_subperm (options : FindOptions) (test : α → Bool) (le : α → α → Bool)
    (items : List α) : (options.select test le items).Subperm items :=
  ((options.window_sublist _).subperm.trans (List.mergeSort_perm _ _).subperm).trans
    List.filter_sublist.subperm

end FindOptions

/-- **A find knows of its records** only which of them match and how any two of them
compare: it can be made on anything that stands for them. -/
theorem Collection.find_eq_map_select {α : Type} {collection : Collection} {items : List α}
    (record : α → Document) (records : collection.records = items.map record)
    {predicate : Predicate} {options : FindOptions} {test : α → Bool} {le : α → α → Bool}
    (htest : ∀ item ∈ items, predicate.holds (record item) = test item)
    (hle : ∀ item ∈ items, ∀ other ∈ items,
      le item other = (options.compareRecords (record item) (record other)).isLE) :
    collection.find predicate options = (options.select test le items).map record := by
  have hmatching : collection.records.filter predicate.holds = (items.filter test).map record := by
    rw [records, List.filter_map]
    exact congrArg _ (List.filter_congr htest)
  rw [find, FindOptions.arrange_eq_mergeSort, hmatching, FindOptions.select,
    FindOptions.map_window]
  refine congrArg _ (List.map_mergeSort fun item hitem other hother => ?_).symm
  exact hle item (List.mem_of_mem_filter hitem) other (List.mem_of_mem_filter hother)

namespace MemoryStore

variable {store store' : MemoryStore} {name name' : String} {collection collection' : Collection}

/-- **A find does not depend on encodings.** Of two collections of the same records,
encoded differently, and with the operands of its predicate encoded differently too,
a find returns records and their counterparts in the same order: a record matches if
its counterpart does, and any two compare like theirs. -/
theorem exec_find_recoded (found : store.bound? name = some collection)
    (found' : store'.bound? name' = some collection')
    (records : List.Forall₂ (fun record record' =>
      Value.Recoded (.document record) (.document record')) collection.records collection'.records)
    (wellFormed : ∀ record ∈ collection.records, (Value.document record).WellFormed)
    {predicate predicate' : Predicate} (operands : predicate.Recoded predicate')
    (wellFormed' : predicate.WellFormed) (options : FindOptions) :
    (∀ pair ∈ collection.records.zip collection'.records,
      predicate.holds pair.1 = predicate'.holds pair.2) ∧
    (∀ pair ∈ collection.records.zip collection'.records,
      ∀ other ∈ collection.records.zip collection'.records,
        options.compareRecords pair.1 other.1 = options.compareRecords pair.2 other.2) ∧
    ∃ listed : List (Document × Document),
      listed.Subperm (collection.records.zip collection'.records) ∧
      (find name predicate options).exec store = (.ok (listed.map Prod.fst), store) ∧
      (find name' predicate' options).exec store' = (.ok (listed.map Prod.snd), store') := by
  have hrecoded : ∀ pair ∈ collection.records.zip collection'.records,
      Value.Recoded (.document pair.1) (.document pair.2) ∧ (Value.document pair.1).WellFormed :=
    fun pair hpair =>
      ⟨List.forall₂_zip records hpair, wellFormed _ (List.of_mem_zip hpair).1⟩
  have hholds : ∀ pair ∈ collection.records.zip collection'.records,
      predicate.holds pair.1 = predicate'.holds pair.2 := by
    intro pair hpair
    obtain ⟨hsame, hwell⟩ := hrecoded pair hpair
    exact Predicate.holds_eq_of_recoded operands wellFormed' hsame hwell
  have hcompare : ∀ pair ∈ collection.records.zip collection'.records,
      ∀ other ∈ collection.records.zip collection'.records,
        options.compareRecords pair.1 other.1 = options.compareRecords pair.2 other.2 := by
    intro pair hpair other hother
    obtain ⟨hsame, hwell⟩ := hrecoded pair hpair
    obtain ⟨hsame', hwell'⟩ := hrecoded other hother
    exact FindOptions.compareOn_eq_of_recoded options.sort hsame hsame' hwell hwell'
  -- the find is made on the pairs, by what is known of their first members
  refine ⟨hholds, hcompare, options.select (fun pair => predicate.holds pair.1)
    (fun pair other => (options.compareRecords pair.1 other.1).isLE)
    (collection.records.zip collection'.records), options.select_subperm _ _ _, ?_, ?_⟩
  · have hfirst := (List.map_fst_zip (Nat.le_of_eq records.length_eq)).symm
    rw [exec_find_of_bound found, Collection.find_eq_map_select Prod.fst hfirst (fun _ _ => rfl)
      fun _ _ _ _ => rfl]
  · have hsecond := (List.map_snd_zip (Nat.le_of_eq records.length_eq.symm)).symm
    rw [exec_find_of_bound found', Collection.find_eq_map_select Prod.snd hsecond
      (fun pair hpair => (hholds pair hpair).symm)
      fun pair hpair other hother => congrArg Ordering.isLE (hcompare pair hpair other hother)]

/-- A box with an identifier, a weight and a size. -/
def box (serial : Nat) (weight : Value) (size : Document) : Document :=
  [(FieldName.nativeId, .objectId (.ofParts 0 serial)), ("weight", weight),
    ("size", .document size)]

/-- Two boxes of two by three, the heavier one first, and a smaller one between them. -/
def boxes : List Document :=
  [box 0 (.int32 7) [("width", .int32 2), ("height", .int32 3)],
    box 1 (.int32 5) [("width", .int32 1), ("height", .int32 1)],
    box 2 (.int32 5) [("width", .int32 2), ("height", .int32 3)]]

/-- The same boxes, their weights and sizes encoded differently. -/
def recodedBoxes : List Document :=
  [box 0 (.int64 7) [("height", .int64 3), ("width", .int32 2)],
    box 1 (.int32 5) [("width", .int64 1), ("height", .int32 1)],
    box 2 (.int32 5) [("height", .int32 3), ("width", .int64 2)]]

/-- A store with one collection of records, without an index. -/
def holding (records : List Document) : MemoryStore :=
  ⟨[("boxes", ⟨⟨[]⟩, records, []⟩)]⟩

/-- The predicate that asks for a size. -/
def ofSize (size : Document) : Predicate :=
  .alone "size" (.equals (.document size))

/-- A sort that puts the lightest box first. -/
def byWeight : FindOptions := ⟨[("weight", .ascending)], none, none⟩

/-- Asking for a size with its height first finds the boxes of this size in either encoding,
and the lighter one first although it was stored last. -/
theorem exec_find_recodedBoxes :
    ∃ heavy other light heavy' other' light',
      boxes = [heavy, other, light] ∧ recodedBoxes = [heavy', other', light'] ∧
      (find "boxes" (ofSize [("width", .int32 2), ("height", .int32 3)]) byWeight).exec
          (holding boxes) = (.ok [light, heavy], holding boxes) ∧
      ∃ listed : List (Document × Document), listed.map Prod.fst = [light, heavy] ∧
        listed.Subperm [(heavy, heavy'), (other, other'), (light, light')] ∧
        (find "boxes" (ofSize [("height", .int32 3), ("width", .int64 2)]) byWeight).exec
            (holding recodedBoxes) = (.ok (listed.map Prod.snd), holding recodedBoxes) := by
  have hsize (width height : Int32) : Value.Recoded
      (.document [("width", .int32 width), ("height", .int32 height)])
      (.document [("height", .int32 height), ("width", .int64 width.toInt64)]) :=
    .document (.cons ⟨_, .widened width⟩ (.cons ⟨_, .same _⟩ .nil)) (.swap _ _ _)
  have hrecords : List.Forall₂ (fun record record' =>
      Value.Recoded (.document record) (.document record')) boxes recodedBoxes := by
    refine .cons (.document (.cons ⟨_, .same _⟩ (.cons ⟨_, .widened 7⟩ (.cons ⟨_, ?_⟩ .nil)))
      (.refl _)) (.cons (.document (.cons ⟨_, .same _⟩ (.cons ⟨_, .same _⟩ (.cons ⟨_, ?_⟩ .nil)))
      (.refl _)) (.cons (.document (.cons ⟨_, .same _⟩ (.cons ⟨_, .same _⟩ (.cons ⟨_, ?_⟩ .nil)))
      (.refl _)) .nil))
    · exact .document (.cons ⟨_, .same _⟩ (.cons ⟨_, .widened 3⟩ .nil)) (.swap _ _ _)
    · exact .document (.cons ⟨_, .widened 1⟩ (.cons ⟨_, .same _⟩ .nil)) (.refl _)
    · exact hsize 2 3
  have hpredicate : Predicate.Recoded (ofSize [("width", .int32 2), ("height", .int32 3)])
      (ofSize [("height", .int32 3), ("width", .int64 2)]) :=
    .cons ⟨rfl, .equals (hsize 2 3)⟩ .nil
  have wellFormed : ∀ record ∈ boxes, (Value.document record).WellFormed := by
    simp [boxes, box, Value.WellFormed, Value.WellFormedEntries, FieldName.nativeId]
  have wellFormed' : (ofSize [("width", .int32 2), ("height", .int32 3)]).WellFormed := by
    refine List.forall_mem_singleton.2 (List.forall_mem_singleton.2 ?_)
    simp [Value.WellFormed, Value.WellFormedEntries]
  have found : (holding boxes).bound? "boxes" = some ⟨⟨[]⟩, boxes, []⟩ := rfl
  have found' : (holding recodedBoxes).bound? "boxes" = some ⟨⟨[]⟩, recodedBoxes, []⟩ := rfl
  have hsorted : [boxes[2], boxes[0]] = byWeight.arrange [boxes[0], boxes[2]] := by
    have preordered : FindOptions.Preordered byWeight.sort [boxes[0], boxes[2]] :=
      List.forall_mem_singleton.2 (.of_trans (by decide))
    refine (FindOptions.arranged_iff_eq_arrange preordered).1 ⟨.swap _ _ _,
      List.Pairwise.imp FindOptions.isLE_compareOn_iff.1 (by decide), ?_⟩
    exact List.forall_mem_cons.2 ⟨rfl, List.forall_mem_singleton.2 rfl⟩
  have hfound : (find "boxes" (ofSize [("width", .int32 2), ("height", .int32 3)]) byWeight).exec
      (holding boxes) = (.ok [boxes[2], boxes[0]], holding boxes) := by
    rw [exec_find_of_bound found, hsorted]
    rfl
  obtain ⟨-, -, listed, hlisted, hboxes, hrecoded⟩ := exec_find_recoded found found'
    hrecords wellFormed hpredicate wellFormed' byWeight
  rw [hfound] at hboxes
  exact ⟨_, _, _, _, _, _, rfl, rfl, hfound, listed,
    (Except.ok.inj (Prod.mk.inj hboxes).1).symm, hlisted, hrecoded⟩

end MemoryStore

end RecordStore
