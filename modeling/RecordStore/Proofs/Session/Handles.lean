import RecordStore.Proofs.Session.Operations
import RecordStore.Session.Host

/-!
# Handles on a session

A program has a session in its hands in three ways: as clones of it, as
repositories that are still to be bound, and as repositories that are. Each of
them refers to the session, and the session is one for all of them: what one
clone closes is closed for every handle, those that were there before included
(`RecordStore.Handles.Shares`).

The handles are used in steps, in any order (`RecordStore.Handles.Run`), and none
of them is used up: a program that gives up a clone when it closes it, or an
unbound repository when it binds it, goes through some of these runs only. What is
called on the store itself, past its session, is no step.

A run does to the session what its steps do, one after the other
(`RecordStore.Handles.Shares.exists_of_run`); so the session is open until a clone
is closed (`RecordStore.Session.Turns.isOpen_iff`), and every operation of every
repository fails from then on (`RecordStore.Handles.refused_of_closed`).
-/

namespace RecordStore

/-- A repository in a program, bound or not, with the session that it refers to. -/
structure Held where
  type : EntityType
  session : Nat
  repository : Repository type

/-- The handles on a session in a program, with the host that they refer to. -/
structure Handles (σ : Type) where
  host : Host σ
  /-- The session that each clone refers to. -/
  clones : List Nat
  /-- The repositories still to be bound. -/
  builders : List Held
  repositories : List Held

namespace Handles

/-- What is done in a step. -/
inductive Act where
  | clone
  | build
  | bind
  | copy
  | call
  | close
  deriving DecidableEq

variable {σ : Type}

/-- A session that was just opened over a store: one clone, and nothing else. -/
def start (store : σ) : Handles σ := ⟨Host.empty.openStore store, [0], [], []⟩

variable [Backend σ]

/-- What a program may do with its handles. -/
inductive Step (handles : Handles σ) : Act → Handles σ → Prop
  | clone {session : Nat} (held : session ∈ handles.clones) :
      Step handles .clone { handles with clones := session :: handles.clones }
  | build {session : Nat} (held : session ∈ handles.clones) {type : EntityType}
      (repository : Repository type) :
      Step handles .build
        { handles with builders := ⟨type, session, repository⟩ :: handles.builders }
  | bound {builder : Held} (held : builder ∈ handles.builders) {host : Host σ}
      (run : handles.host.run builder.session builder.repository.bind = some (.ok (), host)) :
      Step handles .bind { handles with host, repositories := builder :: handles.repositories }
  | refused {builder : Held} (held : builder ∈ handles.builders) {failure : Failure} {host : Host σ}
      (run : handles.host.run builder.session builder.repository.bind
        = some (.error failure, host)) :
      Step handles .bind { handles with host }
  | copy {repository : Held} (held : repository ∈ handles.repositories) :
      Step handles .copy { handles with repositories := repository :: handles.repositories }
  | call {repository : Held} (held : repository ∈ handles.repositories)
      (operation : Repository.Operation repository.type) {outcome : Outcome Unit} {host : Host σ}
      (run : handles.host.run repository.session (operation.action repository.repository)
        = some (outcome, host)) :
      Step handles .call { handles with host }
  | close {session : Nat} (held : session ∈ handles.clones) {outcome : Outcome Unit} {host : Host σ}
      (run : handles.host.run session Session.close = some (outcome, host)) :
      Step handles .close { handles with host }

/-- Steps one after the other, from the first one on. -/
inductive Run : Handles σ → List Act → Handles σ → Prop
  | nil (handles : Handles σ) : Run handles [] handles
  | cons {handles next final : Handles σ} {act : Act} {acts : List Act}
      (step : handles.Step act next) (rest : Run next acts final) : Run handles (act :: acts) final

end Handles

/-! ### What steps do to a session -/

namespace Session

open Handles (Act)

variable {σ : Type} [Backend σ] {related : σ → σ → Prop} {session next final : Session σ}
  {act : Act} {acts : List Act}

/-- Closing an open session closes its store. -/
theorem exec_close_of_open (isOpen : session.isOpen = true) :
    (close.exec session).2 = ⟨((Backend.close : Action σ Unit).exec session.store).2, false⟩ := by
  rw [close, Action.exec_bind_of_ok (Action.exec_get session), if_pos isOpen]
  rfl

theorem exec_close_of_closed (closed : session.isOpen = false) :
    (close.exec session).2 = session := by
  rw [close, Action.exec_bind_of_ok (Action.exec_get session), closed]
  rfl

/-- What a step may do to a session: one that is open is used or closed, one that is
closed stays as it is. -/
inductive Turn (related : σ → σ → Prop) (session : Session σ) : Act → Session σ → Prop
  | used {act : Act} {next : Session σ} (isOpen : session.isOpen = true) (noClose : act ≠ .close)
      (beside : Beside related session next) : Turn related session act next
  | closing (isOpen : session.isOpen = true) :
      Turn related session .close ⟨((Backend.close : Action σ Unit).exec session.store).2, false⟩
  | idle {act : Act} (closed : session.isOpen = false) : Turn related session act session

/-- What steps may do to a session, one after the other. -/
inductive Turns (related : σ → σ → Prop) : Session σ → List Act → Session σ → Prop
  | nil (session : Session σ) : Turns related session [] session
  | cons {session next final : Session σ} {act : Act} {acts : List Act}
      (turn : session.Turn related act next) (rest : Turns related next acts final) :
      Turns related session (act :: acts) final

/-- An action that lapses when the session is closed, and else leads its store along, takes a
turn. -/
theorem turn_of_leads {action : Action (Session σ) Unit} (h : action.Leads (Beside related))
    (lapses : session.isOpen = false → (action.exec session).2 = session) (noClose : act ≠ .close) :
    session.Turn related act (action.exec session).2 := by
  cases isOpen : session.isOpen with
  | true => exact .used isOpen noClose (h session)
  | false =>
    rw [lapses isOpen]
    exact .idle isOpen

/-- Closing takes a turn: of an open session it is the last one that counts. -/
theorem turn_close : session.Turn related .close (close.exec session).2 := by
  cases isOpen : session.isOpen with
  | true =>
    rw [exec_close_of_open isOpen]
    exact .closing isOpen
  | false =>
    rw [exec_close_of_closed isOpen]
    exact .idle isOpen

/-- No turn changes a closed session. -/
theorem Turn.eq_of_closed (h : session.Turn related act next) (closed : session.isOpen = false) :
    next = session := by
  cases h with
  | used isOpen noClose beside => exact absurd isOpen (closed ▸ Bool.false_ne_true)
  | closing isOpen => exact absurd isOpen (closed ▸ Bool.false_ne_true)
  | idle closed => rfl

/-- A session is open after a turn if it was before, and the turn was not to close it. -/
theorem Turn.isOpen_iff (h : session.Turn related act next) :
    next.isOpen = true ↔ session.isOpen = true ∧ act ≠ .close := by
  cases h with
  | used isOpen noClose beside => exact iff_of_true (beside.1.trans isOpen) ⟨isOpen, noClose⟩
  | closing isOpen => exact iff_of_false Bool.false_ne_true fun h => h.2 rfl
  | idle closed =>
    have hclosed : ¬session.isOpen = true := closed ▸ Bool.false_ne_true
    exact iff_of_false hclosed fun h => hclosed h.1

/-- **A closed session stays as it is.** -/
theorem Turns.eq_of_closed (h : Turns related session acts final)
    (closed : session.isOpen = false) : final = session := by
  induction h with
  | nil session => rfl
  | cons turn rest ih =>
    obtain rfl := turn.eq_of_closed closed
    exact ih closed

/-- **A session is open until it is closed.** -/
theorem Turns.isOpen_iff (h : Turns related session acts final) :
    final.isOpen = true ↔ session.isOpen = true ∧ .close ∉ acts := by
  induction h with
  | nil session => exact ⟨fun isOpen => ⟨isOpen, List.not_mem_nil⟩, And.left⟩
  | cons turn rest ih =>
    rw [ih, turn.isOpen_iff, List.mem_cons, not_or, ne_comm, and_assoc]

end Session

/-! ### All handles share one session -/

namespace Host

variable {σ α : Type}

/-- The host of one session over one store. -/
def single (session : Session σ) : Host σ := ⟨#[session.store], #[(0, session.isOpen)]⟩

theorem session?_single (session : Session σ) : (single session).session? 0 = some session := rfl

/-- With one session to run on, a step runs on it. -/
theorem run_single (session : Session σ) (action : Action (Session σ) α) :
    (single session).run 0 action
      = some ((action.exec session).1, single (action.exec session).2) := rfl

end Host

namespace Handles

variable {σ : Type} {handles next final : Handles σ} {session : Session σ}

/-- Whether all handles refer to one session. -/
structure Shares (handles : Handles σ) (session : Session σ) : Prop where
  host : handles.host = .single session
  clones : ∀ clone ∈ handles.clones, clone = 0
  builders : ∀ builder ∈ handles.builders, builder.session = 0
  repositories : ∀ held ∈ handles.repositories, held.session = 0

theorem shares_start (store : σ) : (start store).Shares (.start store) where
  host := rfl
  clones _ h := List.mem_singleton.1 h
  builders _ h := absurd h List.not_mem_nil
  repositories _ h := absurd h List.not_mem_nil

/-- Every handle refers to the one session that all share. -/
theorem Shares.run_eq_some_iff (shared : handles.Shares session) {reference : Nat}
    (href : reference = 0) {action : Action (Session σ) Unit} {outcome : Outcome Unit}
    {host : Host σ} :
    handles.host.run reference action = some (outcome, host) ↔
      (action.exec session).1 = outcome ∧ .single (action.exec session).2 = host := by
  rw [href, shared.host, Host.run_single, Option.some_inj, Prod.mk.injEq]

/-- What leaves the session as it is changes nothing for any handle. -/
theorem Shares.run_of_same (shared : handles.Shares session) {reference : Nat}
    (href : reference = 0) {action : Action (Session σ) Unit} {outcome : Outcome Unit}
    (h : action.exec session = (outcome, session)) :
    handles.host.run reference action = some (outcome, handles.host) := by
  rw [shared.run_eq_some_iff href, h]
  exact ⟨rfl, shared.host.symm⟩

/-- Handles that use their session share what becomes of it. -/
theorem Shares.put (shared : handles.Shares session) (after : Session σ) :
    Shares { handles with host := .single after } after :=
  ⟨rfl, shared.clones, shared.builders, shared.repositories⟩

section New

variable (shared : handles.Shares session)
include shared

theorem Shares.withClone {clone : Nat} (h : clone = 0) :
    Shares { handles with clones := clone :: handles.clones } session :=
  ⟨shared.host, List.forall_mem_cons.2 ⟨h, shared.clones⟩, shared.builders, shared.repositories⟩

theorem Shares.withBuilder {builder : Held} (h : builder.session = 0) :
    Shares { handles with builders := builder :: handles.builders } session :=
  ⟨shared.host, shared.clones, List.forall_mem_cons.2 ⟨h, shared.builders⟩, shared.repositories⟩

theorem Shares.withRepository {held : Held} (h : held.session = 0) :
    Shares { handles with repositories := held :: handles.repositories } session :=
  ⟨shared.host, shared.clones, shared.builders, List.forall_mem_cons.2 ⟨h, shared.repositories⟩⟩

end New

/-! ### What a run does to the session -/

variable [Backend σ] {related : σ → σ → Prop} {act : Act} {acts : List Act}

/-- **A step does one thing to the one session** that all handles share. -/
theorem Shares.exists_of_step (within : Backend.RunsWithin related)
    (shared : handles.Shares session) (step : handles.Step act next) :
    ∃ after, next.Shares after ∧ session.Turn related act after := by
  have still : ∀ act, act ≠ .close → session.Turn related act session := fun act noClose =>
    Session.turn_of_leads (Action.leads_pure (Session.cumulative_beside within.cumulative) ())
      (fun _ => rfl) noClose
  have bind : ∀ builder : Held, session.Turn related .bind (builder.repository.bind.exec session).2 :=
    fun builder => Session.turn_of_leads (Repository.leads_bind within)
      (fun closed => congrArg Prod.snd (Repository.exec_bind_of_closed closed)) nofun
  cases step with
  | clone held => exact ⟨session, shared.withClone (shared.clones _ held), still _ nofun⟩
  | build held repository =>
    exact ⟨session, shared.withBuilder (shared.clones _ held), still _ nofun⟩
  | @bound builder held host run =>
    have reference := shared.builders _ held
    obtain ⟨-, rfl⟩ := (shared.run_eq_some_iff reference).1 run
    exact ⟨_, (shared.put _).withRepository reference, bind builder⟩
  | @refused builder held failure host run =>
    obtain ⟨-, rfl⟩ := (shared.run_eq_some_iff (shared.builders _ held)).1 run
    exact ⟨_, shared.put _, bind builder⟩
  | copy held => exact ⟨session, shared.withRepository (shared.repositories _ held), still _ nofun⟩
  | call held operation run =>
    obtain ⟨-, rfl⟩ := (shared.run_eq_some_iff (shared.repositories _ held)).1 run
    exact ⟨_, shared.put _, Session.turn_of_leads (operation.leads within)
      (fun closed => congrArg Prod.snd (operation.exec_of_closed closed)) nofun⟩
  | close held run =>
    obtain ⟨-, rfl⟩ := (shared.run_eq_some_iff (shared.clones _ held)).1 run
    exact ⟨_, shared.put _, Session.turn_close⟩

/-- **A run does to the one session what its steps do**, one after the other. -/
theorem Shares.exists_of_run (within : Backend.RunsWithin related)
    (run : handles.Run acts final) (shared : handles.Shares session) :
    ∃ after, final.Shares after ∧ session.Turns related acts after := by
  induction run generalizing session with
  | nil handles => exact ⟨session, shared, .nil session⟩
  | cons step rest ih =>
    obtain ⟨between, hbetween, turn⟩ := shared.exists_of_step within step
    obtain ⟨after, hafter, turns⟩ := ih hbetween
    exact ⟨after, hafter, .cons turn turns⟩

/-! ### Once a clone is closed -/

theorem runsWithin_any : Backend.RunsWithin fun _ _ : σ => True where
  cumulative := ⟨fun _ => trivial, fun _ _ => trivial⟩
  findById _ _ _ := trivial
  find _ _ _ _ := trivial
  bindModel _ _ _ := trivial
  insertOne _ _ _ _ := trivial
  insertMany _ _ _ := trivial

/-- After a run with a closing in it the shared session is closed. -/
theorem exists_closed_of_run {store : σ} (run : (start store).Run acts handles)
    (closed : .close ∈ acts) : ∃ session, handles.Shares session ∧ session.isOpen = false := by
  obtain ⟨session, shared, turns⟩ := (shares_start store).exists_of_run runsWithin_any run
  refine ⟨session, shared, Bool.eq_false_iff.2 fun isOpen => ?_⟩
  exact (turns.isOpen_iff.1 isOpen).2 closed

/-- **Once any clone of a session is closed**, every operation of every repository of
the session fails, and changes nothing. A repository fails because its collection
counts as unbound, if and only if the operation has no request that has to be read
first, or one without a fault; a fault of the request is reported in place of
that. -/
theorem refused_of_closed {store : σ} (run : (start store).Run acts handles)
    (closed : .close ∈ acts) {held : Held} (h : held ∈ handles.repositories)
    (operation : Repository.Operation held.type) :
    ∃ failure, handles.host.run held.session (operation.action held.repository)
        = some (.error failure, handles.host) ∧
      (∀ fault, operation.fault? held.repository = some fault → failure = fault) ∧
      (failure = .unbound held.repository.collection ↔
        operation.fault? held.repository = none) := by
  obtain ⟨session, shared, hclosed⟩ := exists_closed_of_run run closed
  refine ⟨_, shared.run_of_same (shared.repositories held h) (operation.exec_of_closed hclosed),
    fun fault hfault => by rw [hfault, Option.getD_some], ?_⟩
  cases hfault : operation.fault? held.repository with
  | none => exact iff_of_true rfl rfl
  | some fault =>
    have ofRequest := Repository.Operation.ofRequest_of_fault? hfault
    exact iff_of_false (ofRequest.ne_unbound _) (Option.some_ne_none fault)

/-- A repository of tasks, as a program holds it that has one session. -/
def tasks : Held := ⟨.dynamic String, 0, ⟨"tasks", ⟨[⟨"title", .string, true⟩]⟩, .standard⟩⟩

/-- A number is no key of a task, and a closed session says so; only what it can read
is refused because the session is closed. -/
theorem refused_tasks :
    ∃ handles : Handles MemoryStore, (start .empty).Run [.build, .bind, .clone, .close] handles ∧
      tasks ∈ handles.repositories ∧
      handles.host.run 0
          ((Repository.Operation.getDynamic (some (.int32 4))).action tasks.repository)
        = some (.error (.ambiguousShape (.notAnIdentifier (.notTextIdentifier .int32))),
            handles.host) ∧
      handles.host.run 0 (Repository.Operation.getAll.action tasks.repository)
        = some (.error (.unbound "tasks"), handles.host) := by
  have run : ∃ handles : Handles MemoryStore,
      (start .empty).Run [.build, .bind, .clone, .close] handles ∧
        tasks ∈ handles.repositories := by
    refine ⟨_, .cons (.build List.mem_cons_self tasks.repository) (.cons (.bound
      List.mem_cons_self rfl) (.cons (.clone List.mem_cons_self)
        (.cons (.close List.mem_cons_self rfl) (.nil _)))), List.mem_cons_self⟩
  obtain ⟨handles, run, held⟩ := run
  refine ⟨handles, run, held, ?_, ?_⟩
  · obtain ⟨failure, hrun, hfault, -⟩ := refused_of_closed run (by decide) held
      (.getDynamic (some (.int32 4)))
    obtain rfl := hfault _ rfl
    exact hrun
  · obtain ⟨failure, hrun, -, hunbound⟩ := refused_of_closed run (by decide) held .getAll
    obtain rfl := hunbound.2 rfl
    exact hrun

end Handles

end RecordStore
