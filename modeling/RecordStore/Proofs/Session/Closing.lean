import RecordStore.Proofs.Session.Handles
import RecordStore.Proofs.Store.Calls

/-!
# Closing a session

To see what reaches the store of a session, the calls on the store are written
down as they arrive (`RecordStore.Recorded`). Two facts come out of the list.

* **The store is closed once at most**, by whichever clone is closed first. What
  counts is that the session is open exactly as long as its store was not closed:
  every step of a run keeps the number of closing calls together with the one that
  is still to come (`RecordStore.Session.Turns.closings_add`).
* **Nothing else reaches it afterwards**, whatever is tried: every clone reports that
  the session is closed, and no repository can be bound or used, those included
  that were there before (`RecordStore.Handles.Lapsed`).

The store itself may be any, and may fail in any call.
-/

namespace RecordStore

open MemoryStore (Call)

/-! ### Writing calls down -/

/-- Whether a call closes a store. -/
def MemoryStore.Call.isClose : Call → Bool
  | close => true
  | _ => false

/-- A store together with the calls that reached it, the first one first. -/
structure Recorded (σ : Type) where
  store : σ
  calls : List Call

namespace Recorded

variable {σ α : Type}

/-- A store that no call has reached. -/
def fresh (store : σ) : Recorded σ := ⟨store, []⟩

/-- Writes a call down and makes it. -/
def pass (call : Call) (action : Action σ α) : Action (Recorded σ) α := do
  modify fun recorded => { recorded with calls := recorded.calls ++ [call] }
  Action.onPart store (fun store recorded => { recorded with store }) action

instance [Backend σ] : Backend (Recorded σ) where
  bindModel name schema := pass (.bindModel name schema) (Backend.bindModel name schema)
  insertOne name stamp payload :=
    pass (.insertOne name stamp payload) (Backend.insertOne name stamp payload)
  insertMany name payloads := pass (.insertMany name payloads) (Backend.insertMany name payloads)
  findById name id := pass (.findById name id) (Backend.findById name id)
  find name predicate options :=
    pass (.find name predicate options) (Backend.find name predicate options)
  close := pass .close Backend.close

theorem exec_pass (call : Call) (action : Action σ α) (recorded : Recorded σ) :
    (pass call action).exec recorded
      = ((action.exec recorded.store).1,
          ⟨(action.exec recorded.store).2, recorded.calls ++ [call]⟩) := rfl

/-- How often a store was closed. -/
def closings (recorded : Recorded σ) : Nat := recorded.calls.countP Call.isClose

/-- Whether a store was not closed in between. -/
def SameClosings (recorded next : Recorded σ) : Prop := next.closings = recorded.closings

/-- A call that is passed on is counted if it is one to close. -/
theorem closings_pass (call : Call) (action : Action σ α) (recorded : Recorded σ) :
    ((pass call action).exec recorded).2.closings = recorded.closings + call.isClose.toNat := by
  rw [exec_pass, closings, List.countP_append, List.countP_singleton, ← closings]
  cases call.isClose <;> rfl

theorem leads_pass {call : Call} (noClose : call.isClose = false) (action : Action σ α) :
    (pass call action).Leads SameClosings := by
  intro recorded
  rw [SameClosings, closings_pass, noClose, Bool.toNat_false, Nat.add_zero]

variable [Backend σ]

/-- No call closes a store but the one that does. -/
theorem runsWithin_sameClosings : Backend.RunsWithin (@SameClosings σ) where
  cumulative := ⟨fun _ => rfl, fun h h' => h'.trans h⟩
  findById _ _ := leads_pass rfl _
  find _ _ _ := leads_pass rfl _
  bindModel _ _ := leads_pass rfl _
  insertOne _ _ _ := leads_pass rfl _
  insertMany _ _ := leads_pass rfl _

theorem closings_close (recorded : Recorded σ) :
    ((Backend.close : Action (Recorded σ) Unit).exec recorded).2.closings
      = recorded.closings + 1 :=
  closings_pass .close Backend.close recorded

end Recorded

/-! ### Closing calls -/

namespace Session

open Recorded (SameClosings)

variable {σ : Type} [Backend σ] {session next final : Session (Recorded σ)}
  {act : Handles.Act} {acts : List Handles.Act}

/-- **Every turn keeps the sum of the closings and of what can still be closed**, so that a
store is closed when its session is, and then only. -/
theorem Turn.closings_add (h : session.Turn SameClosings act next) :
    next.store.closings + next.isOpen.toNat
      = session.store.closings + session.isOpen.toNat := by
  cases h with
  | used isOpen noClose beside => rw [beside.1, beside.2]
  | closing isOpen =>
    rw [isOpen, Recorded.closings_close]
    rfl
  | idle closed => rfl

/-- **The closing calls made, together with the one to come**, are as many at the end
of a run as they were at its beginning. -/
theorem Turns.closings_add (h : Turns SameClosings session acts final) :
    final.store.closings + final.isOpen.toNat
      = session.store.closings + session.isOpen.toNat := by
  induction h with
  | nil session => rfl
  | cons turn rest ih => rw [ih, turn.closings_add]

end Session

/-! ### After the first closing -/

namespace Handles

variable {σ : Type}

/-- Whether nothing gets through any of the handles: every clone reports that the
session is closed, binding a repository fails, as does every operation of one, and
none of this changes anything. -/
structure Lapsed [Backend σ] (handles : Handles σ) : Prop where
  clones : ∀ clone ∈ handles.clones,
    (handles.host.session? clone).map Session.isOpen = some false
  builders : ∀ builder ∈ handles.builders, ∃ failure,
    handles.host.run builder.session builder.repository.bind = some (.error failure, handles.host)
  repositories : ∀ held ∈ handles.repositories, ∀ operation : Repository.Operation held.type,
    ∃ failure, handles.host.run held.session (operation.action held.repository)
      = some (.error failure, handles.host)

/-- The calls that reached the stores of a host. -/
def calls (handles : Handles (Recorded σ)) : List Call :=
  handles.host.stores.toList.flatMap Recorded.calls

/-- Handles record the calls of the session that they share. -/
theorem Shares.calls_eq {handles : Handles (Recorded σ)} {session : Session (Recorded σ)}
    (shared : handles.Shares session) : handles.calls = session.store.calls := by
  rw [calls, shared.host]
  exact List.flatMap_singleton _ _

variable [Backend σ]

/-- Handles on a closed session have lapsed, builders and clones included. -/
theorem Shares.lapsed {handles : Handles σ} {session : Session σ}
    (shared : handles.Shares session) (closed : session.isOpen = false) : handles.Lapsed where
  clones clone h := by
    rw [shared.clones clone h, shared.host, Host.session?_single, Option.map_some, closed]
  builders builder h :=
    ⟨_, shared.run_of_same (shared.builders builder h) (Repository.exec_bind_of_closed closed)⟩
  repositories held h operation :=
    ⟨_, shared.run_of_same (shared.repositories held h) (operation.exec_of_closed closed)⟩

/-- **The store of a session is closed once at most, and is silent from then on.** In
every run it is closed once if a clone is, and else not at all, and every clone
reports as much. Once any clone has been closed, no step of any run that follows
makes a call on the store, nor lets anything through any of the handles. -/
theorem silent_of_closed {store : σ} {handles final : Handles (Recorded σ)}
    {acts later : List Act} (run : (start (.fresh store)).Run acts handles)
    (since : handles.Run later final) :
    handles.calls.countP Call.isClose = (if .close ∈ acts then 1 else 0) ∧
      (∀ clone ∈ handles.clones,
        (handles.host.session? clone).map Session.isOpen = some (decide (.close ∉ acts))) ∧
      (.close ∈ acts → final.calls = handles.calls ∧ final.Lapsed) := by
  obtain ⟨session, shared, turns⟩ :=
    (shares_start (Recorded.fresh store)).exists_of_run Recorded.runsWithin_sameClosings run
  obtain ⟨last, sharedLast, turnsLast⟩ := shared.exists_of_run Recorded.runsWithin_sameClosings since
  have hopen : session.isOpen = decide (.close ∉ acts) := by
    rw [Bool.eq_iff_iff, turns.isOpen_iff, decide_eq_true_iff]
    exact ⟨And.right, fun noClose => ⟨rfl, noClose⟩⟩
  refine ⟨?_, fun clone h => ?_, fun closed => ?_⟩
  · -- the session was open, with its closing call still to come
    have hone : session.store.closings + session.isOpen.toNat = 1 := turns.closings_add
    rw [shared.calls_eq, ← Recorded.closings]
    by_cases closed : .close ∈ acts
    · rw [hopen, decide_eq_false (not_not_intro closed)] at hone
      rw [if_pos closed]
      exact hone
    · rw [hopen, decide_eq_true closed] at hone
      rw [if_neg closed]
      exact Nat.succ.inj hone
  · rw [shared.clones clone h, shared.host, Host.session?_single, Option.map_some, hopen]
  · have hclosed : session.isOpen = false := by rw [hopen, decide_eq_false (not_not_intro closed)]
    obtain rfl := turnsLast.eq_of_closed hclosed
    exact ⟨by rw [sharedLast.calls_eq, shared.calls_eq], sharedLast.lapsed hclosed⟩

/-- A task, and the stamp to create it under. -/
def oneTask : Repository.Operation tasks.type :=
  .create ⟨.ofParts 0 1, .ofMillis 1700000000000⟩ (Value.document [("title", .string "a")])

/-- Two unbound repositories are made, one of them is bound and creates a task through
its copy, and one of two clones is closed; what is left is tried, and then closed. -/
theorem silent_twoClones :
    ∃ handles final : Handles (Recorded MemoryStore),
      (start (.fresh .empty)).Run [.build, .clone, .build, .bind, .copy, .call, .close] handles ∧
      handles.Run [.bind, .call, .close] final ∧
      handles.calls.length = 3 ∧ handles.calls.countP Call.isClose = 1 ∧
      final.clones.length = 2 ∧ final.builders.length = 2 ∧ final.repositories.length = 2 ∧
      final.calls = handles.calls ∧ final.Lapsed := by
  have runs : ∃ handles final : Handles (Recorded MemoryStore),
      (start (.fresh .empty)).Run [.build, .clone, .build, .bind, .copy, .call, .close] handles ∧
      handles.Run [.bind, .call, .close] final ∧ handles.calls.length = 3 ∧
      final.clones.length = 2 ∧ final.builders.length = 2 ∧ final.repositories.length = 2 := by
    refine ⟨_, _,
      .cons (.build List.mem_cons_self tasks.repository) (.cons (.clone List.mem_cons_self)
        (.cons (.build List.mem_cons_self tasks.repository)
          (.cons (.bound List.mem_cons_self rfl) (.cons (.copy List.mem_cons_self)
            (.cons (.call List.mem_cons_self oneTask rfl)
              (.cons (.close List.mem_cons_self rfl) (.nil _))))))),
      .cons (.refused List.mem_cons_self rfl) (.cons (.call List.mem_cons_self oneTask rfl)
        (.cons (.close List.mem_cons_self rfl) (.nil _))), rfl, rfl, rfl, rfl⟩
  obtain ⟨handles, final, run, since, hcalls, hclones, hbuilders, hrepositories⟩ := runs
  obtain ⟨hcount, -, hafter⟩ := silent_of_closed run since
  have closed : Act.close ∈ [Act.build, .clone, .build, .bind, .copy, .call, .close] := by decide
  rw [if_pos closed] at hcount
  exact ⟨handles, final, run, since, hcalls, hcount, hclones, hbuilders, hrepositories,
    hafter closed⟩

end Handles

end RecordStore
