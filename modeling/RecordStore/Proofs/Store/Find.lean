import RecordStore.Proofs.Sorting.Arrangement
import RecordStore.Proofs.Store.Calls

/-!
# What a find returns

A find tests the records one by one, lists those that meet the predicate, and
cuts a window out of the list. The list is the only one that its sort asks for,
so what it returns is settled by the records and the options alone, whatever the
sorting does on the way (`RecordStore.MemoryStore.exec_find_window_of_arranged`).
-/

namespace RecordStore

theorem Predicate.holds_identifiedBy (ids : List Value) (record : Document) :
    (identifiedBy ids).holds record = (Clause.among ids).holds (record.read FieldName.nativeId) :=
  Bool.and_true _

/-- The records of a collection that meet a predicate, in the order in which they
were stored. -/
def Collection.matching (collection : Collection) (predicate : Predicate) : List Document :=
  collection.records.filter predicate.holds

/-- The record that a value names, if it is an identifier. -/
def Collection.named? (collection : Collection) : Value → Option Document
  | .objectId id => collection.recordOf? id
  | _ => none

/-- A window has the items of a list from the offset on, as many as the limit
allows. -/
theorem FindOptions.getElem?_window {α : Type} (options : FindOptions) (items : List α) (i : Nat) :
    (options.window items)[i]?
      = if options.limit.all (i < ·) then items[options.offset.getD 0 + i]? else none := by
  rw [window]
  cases options.limit with
  | none =>
    rw [Option.all_none, if_pos rfl]
    exact List.getElem?_drop
  | some limit =>
    rw [Option.all_some]
    simp only [decide_eq_true_eq, List.getElem?_take, List.getElem?_drop]

namespace MemoryStore

variable {store : MemoryStore} {name : String} {collection : Collection}

theorem exec_findById_of_bound (found : store.bound? name = some collection) (id : Value) :
    (findById name id).exec store = (.ok (collection.named? id), store) := by
  rw [findById, Action.exec_bind_of_ok (exec_collection_of_bound found)]
  cases id <;> rfl

/-- In a bound collection a find returns what the collection finds. -/
theorem exec_find_of_bound (found : store.bound? name = some collection) (predicate : Predicate)
    (options : FindOptions) :
    (find name predicate options).exec store
      = (.ok (collection.find predicate options), store) := by
  rw [find, Action.exec_bind_of_ok (exec_collection_of_bound found)]
  rfl

/-- **A find returns the window of the one list that its sort asks for**, where
the values of the records on each key are compared by a total preorder. Without
keys, that list is the records in the order in which they were stored. -/
theorem exec_find_window_of_arranged (found : store.bound? name = some collection)
    (predicate : Predicate) (options : FindOptions)
    (preordered : FindOptions.Preordered options.sort (collection.matching predicate)) :
    ∃ listed,
      (∀ other, FindOptions.Arranged options.sort (collection.matching predicate) other ↔
        other = listed) ∧
      (options.sort = [] → listed = collection.matching predicate) ∧
      ∃ records, (find name predicate options).exec store = (.ok records, store) ∧
        ∀ i : Nat, records[i]?
          = if options.limit.all (i < ·) then listed[options.offset.getD 0 + i]? else none := by
  refine ⟨options.arrange (collection.matching predicate),
    fun other => FindOptions.arranged_iff_eq_arrange preordered, fun hsort => ?_,
    _, exec_find_of_bound found predicate options, FindOptions.getElem?_window options _⟩
  rw [FindOptions.arrange, hsort]
  rfl

/-- The payload of a task with a priority, and its stamp. -/
def task (number : Nat) (priority : Int32) : Stamp × Document :=
  (⟨.ofParts 0 number, .ofMillis 1700000000000⟩, [("priority", .int32 priority)])

/-- A run that stores three tasks, the second one of a higher priority. -/
def threeTasks : List Call :=
  [.bindModel "tasks" ⟨[⟨"priority", .number, true⟩]⟩,
    .insertMany "tasks" [task 0 2, task 1 5, task 2 2]]

/-- Tasks of one priority stay in the order in which they were stored, also when
those of the highest priority come first. -/
theorem exec_find_threeTasks :
    ∃ a b c, ((empty.afterAll threeTasks).bound? "tasks").map Collection.records = some [a, b, c] ∧
      (find "tasks" .empty ⟨[("priority", .descending)], some 1, some 1⟩).exec
        (empty.afterAll threeTasks) = (.ok [a], empty.afterAll threeTasks) := by
  have stored : ∃ collection a b c,
      (empty.afterAll threeTasks).bound? "tasks" = some collection ∧
      collection.records = [a, b, c] ∧ collection.matching .empty = [a, b, c] ∧
      FindOptions.Preordered [("priority", .descending)] [a, b, c] ∧
      FindOptions.Arranged [("priority", .descending)] [a, b, c] [b, a, c] := by
    refine ⟨_, _, _, _, rfl, rfl, rfl, ?_, ?_⟩
    · exact List.forall_mem_singleton.2 (.of_trans (by decide))
    · refine ⟨.swap _ _ _, List.Pairwise.imp FindOptions.isLE_compareOn_iff.1 (by decide), ?_⟩
      exact List.forall_mem_cons.2 ⟨rfl, List.forall_mem_cons.2 ⟨rfl,
        List.forall_mem_singleton.2 rfl⟩⟩
  obtain ⟨collection, a, b, c, found, records, matching, preordered, arranged⟩ := stored
  refine ⟨a, b, c, by rw [found, Option.map_some, records], ?_⟩
  obtain ⟨listed, hlisted, -, result, hresult, hwindow⟩ :=
    exec_find_window_of_arranged found .empty ⟨[("priority", .descending)], some 1, some 1⟩
      (matching ▸ preordered)
  obtain rfl := (hlisted [b, a, c]).1 (matching ▸ arranged)
  have hone : result = [a] := List.ext_getElem? fun i => by
    rw [hwindow]
    cases i with
    | zero => rfl
    | succ i => exact if_neg (by simp)
  rw [hresult, hone]

end MemoryStore

end RecordStore
