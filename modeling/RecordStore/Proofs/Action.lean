import RecordStore.Store.Backend

/-!
# Running actions

An action on a store comes to an outcome and a state, and the two are all that
a caller can see of it (`RecordStore.Action.exec`). The lemmas below say what
the building blocks of actions come to, so that no later proof has to open the
monads that actions are made of.

Of many actions only the states matter that they lead to. If a relation holds
between equal states and is transitive, then an action leads to related states as
soon as each of its steps does (`RecordStore.Action.Leads.bind`); an action that
only reads is the case of equality (`RecordStore.Action.Keeps`).
-/

namespace RecordStore

namespace Action

variable {σ α β : Type}

/-- The outcome of an action in a state, and the state that it leaves. -/
def exec (action : Action σ α) (state : σ) : Outcome α × σ :=
  action.run.run state

@[simp] theorem exec_pure (a : α) (state : σ) : exec (pure a) state = (.ok a, state) := rfl

@[simp] theorem exec_throw (failure : Failure) (state : σ) :
    exec (throw failure : Action σ α) state = (.error failure, state) := rfl

@[simp] theorem exec_get (state : σ) : exec get state = (.ok state, state) := rfl

@[simp] theorem exec_modify (f : σ → σ) (state : σ) :
    exec (modify f) state = (.ok (), f state) := rfl

@[simp] theorem exec_ofOutcome (outcome : Outcome α) (state : σ) :
    exec (ofOutcome outcome) state = (outcome, state) := rfl

/-! ### One action after another -/

/-- **Two actions run one after the other**: the second starts where the first one ended, unless
that failed. -/
theorem exec_bind (first : Action σ α) (next : α → Action σ β) (state : σ) :
    exec (first >>= next) state
      = match exec first state with
        | (.ok a, between) => exec (next a) between
        | (.error failure, between) => (.error failure, between) := by
  rw [exec, exec, ExceptT.run_bind, StateT.run_bind]
  obtain ⟨_ | _, between⟩ := first.run.run state <;> rfl

/-- An action that succeeds hands its result and its state on. -/
theorem exec_bind_of_ok {first : Action σ α} {state between : σ} {a : α}
    (h : exec first state = (.ok a, between)) (next : α → Action σ β) :
    exec (first >>= next) state = exec (next a) between := by
  rw [exec_bind, h]

/-- An action that fails is the last one. -/
theorem exec_bind_of_error {first : Action σ α} {state between : σ} {failure : Failure}
    (h : exec first state = (.error failure, between)) (next : α → Action σ β) :
    exec (first >>= next) state = (.error failure, between) := by
  rw [exec_bind, h]

theorem exec_map (f : α → β) (action : Action σ α) (state : σ) :
    exec (f <$> action) state = ((exec action state).1.map f, (exec action state).2) := by
  rw [map_eq_pure_bind, exec_bind]
  obtain ⟨_ | _, between⟩ := exec action state <;> rfl

/-! ### What an action leads to -/

/-- A relation between states that one step after another keeps to, if each step
does. -/
structure Cumulative (related : σ → σ → Prop) : Prop where
  refl : ∀ state, related state state
  trans : ∀ {first second third}, related first second → related second third →
    related first third

/-- Whether an action leads from every state to a related one, also when it fails. -/
def Leads (related : σ → σ → Prop) (action : Action σ α) : Prop :=
  ∀ state, related state (exec action state).2

section Leads

variable {related : σ → σ → Prop} (cumulative : Cumulative related)
include cumulative

theorem leads_pure (a : α) : (pure a : Action σ α).Leads related :=
  cumulative.refl

theorem leads_ofOutcome (outcome : Outcome α) : (ofOutcome outcome : Action σ α).Leads related :=
  cumulative.refl

/-- What two actions each lead to, both together do, if it can be chained. -/
theorem Leads.bind {first : Action σ α} {next : α → Action σ β} (hfirst : first.Leads related)
    (hnext : ∀ a, (next a).Leads related) : (first >>= next).Leads related := by
  intro state
  have hbetween := hfirst state
  rw [exec_bind]
  revert hbetween
  rcases exec first state with ⟨_ | a, between⟩
  · exact fun hbetween => hbetween
  · exact fun hbetween => cumulative.trans hbetween (hnext a between)

end Leads

theorem Leads.map {related : σ → σ → Prop} (f : α → β) {action : Action σ α}
    (h : action.Leads related) : (f <$> action).Leads related := by
  intro state
  rw [exec_map]
  exact h state

/-! ### Actions that only read -/

/-- Whether an action leaves every state as it is. -/
def Keeps (action : Action σ α) : Prop :=
  ∀ state, (exec action state).2 = state

theorem keeps_iff_leads {action : Action σ α} :
    action.Keeps ↔ action.Leads fun state next => next = state := .rfl

theorem cumulative_same : Cumulative fun state next : σ => next = state :=
  ⟨fun _ => rfl, fun h h' => h'.trans h⟩

theorem Keeps.map (f : α → β) {action : Action σ α} (h : action.Keeps) : (f <$> action).Keeps :=
  keeps_iff_leads.2 ((keeps_iff_leads.1 h).map f)

end Action

end RecordStore
