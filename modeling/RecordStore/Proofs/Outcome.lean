import Mathlib.Data.List.Forall2
import Mathlib.Data.List.Perm.Basic
import RecordStore.Failure

/-!
# Outcomes, step by step

A computation that may fail is a chain of steps, and it succeeds exactly when
every step does: two steps in a row (`RecordStore.Outcome.bind_eq_ok_iff`) as
well as a step made on each member of a list
(`RecordStore.Outcome.mapM_eq_ok_iff`), or that adds something to what the steps
before it have built (`RecordStore.Outcome.foldlM_eq_ok_iff`), in which case the
steps may often be made in any order
(`RecordStore.Outcome.foldlM_eq_ok_iff_of_perm`). Such a list of steps stops at the
first one that fails, and fails as that one does
(`RecordStore.Outcome.mapM_eq_error_iff`). So the ways in which a computation can
fail are those of its steps (`RecordStore.Outcome.FailsAs`).
-/

namespace RecordStore

namespace Outcome

variable {α β : Type}

/-- How a computation failed, if it did. -/
def failure? : Outcome α → Option Failure
  | .ok _ => none
  | .error failure => some failure

@[simp] theorem failure?_ok (a : α) : failure? (.ok a) = none := rfl

@[simp] theorem failure?_error (failure : Failure) :
    failure? (.error failure : Outcome α) = some failure := rfl

/-- An outcome with a failure is that failure. -/
theorem eq_error_of_failure? {outcome : Outcome α} {failure : Failure}
    (h : outcome.failure? = some failure) : outcome = .error failure := by
  rcases outcome with other | a
  · exact congrArg _ (Option.some.inj h)
  · cases h

/-! ### Two steps in a row -/

@[simp] theorem ok_bind (a : α) (step : α → Outcome β) :
    ((.ok a : Outcome α) >>= step) = step a := rfl

@[simp] theorem error_bind (failure : Failure) (step : α → Outcome β) :
    ((.error failure : Outcome α) >>= step) = .error failure := rfl

@[simp] theorem pure_eq_ok (a : α) : (pure a : Outcome α) = .ok a := rfl

/-- Two steps succeed when the first does and the second does on its result. -/
theorem bind_eq_ok_iff {first : Outcome α} {step : α → Outcome β} {b : β} :
    (first >>= step) = .ok b ↔ ∃ a, first = .ok a ∧ step a = .ok b := by
  cases first with
  | ok a => simp
  | error failure => simp

/-- A changed result is the change of a result. -/
theorem map_eq_ok_iff {f : α → β} {outcome : Outcome α} {b : β} :
    f <$> outcome = .ok b ↔ ∃ a, outcome = .ok a ∧ f a = b := by
  rcases outcome with failure | a
  · exact ⟨nofun, nofun⟩
  · constructor
    · intro h
      exact ⟨a, rfl, Except.ok.inj h⟩
    · rintro ⟨other, hother, rfl⟩
      rw [Except.ok.inj hother]
      rfl

/-! ### A step for each member of a list -/

/-- **A step made on each member of a list succeeds** with the results of the
single steps, in order. -/
theorem mapM_eq_ok_iff {step : α → Outcome β} {items : List α} {results : List β} :
    items.mapM step = .ok results ↔ List.Forall₂ (fun a b => step a = .ok b) items results := by
  induction items generalizing results with
  | nil =>
    rw [List.mapM_nil, pure_eq_ok, List.forall₂_nil_left_iff]
    exact ⟨fun h => (Except.ok.inj h).symm, fun h => h ▸ rfl⟩
  | cons item rest ih =>
    simp only [List.mapM_cons, bind_eq_ok_iff, pure_eq_ok, List.forall₂_cons_left_iff, ih]
    constructor
    · rintro ⟨first, hfirst, others, hothers, h⟩
      exact ⟨first, others, hfirst, hothers, (Except.ok.inj h).symm⟩
    · rintro ⟨first, others, hfirst, hothers, rfl⟩
      exact ⟨first, hfirst, others, hothers, rfl⟩

/-- Every result of a list of steps is that of one of them. -/
theorem exists_of_mem_mapM {step : α → Outcome β} {items : List α} {results : List β}
    (h : items.mapM step = .ok results) {result : β} (hresult : result ∈ results) :
    ∃ item ∈ items, step item = .ok result := by
  obtain ⟨i, hi, rfl⟩ := List.getElem_of_mem hresult
  have hsteps := mapM_eq_ok_iff.1 h
  have hlt : i < items.length := hsteps.length_eq ▸ hi
  exact ⟨_, List.getElem_mem hlt, hsteps.get hlt hi⟩

/-- Where all steps of a list succeed, each does. -/
theorem exists_ok_of_mem {step : α → Outcome β} {items : List α} {results : List β}
    (h : List.Forall₂ (fun a b => step a = .ok b) items results) {item : α} (hitem : item ∈ items) :
    ∃ result, step item = .ok result := by
  induction h with
  | nil => cases hitem
  | cons hfirst _ ih =>
    rcases List.mem_cons.1 hitem with rfl | hrest
    · exact ⟨_, hfirst⟩
    · exact ih hrest

/-- A list of steps succeeds if each of them does. -/
theorem exists_mapM_eq_ok {step : α → Outcome β} {items : List α}
    (h : ∀ item ∈ items, ∃ result, step item = .ok result) :
    ∃ results, items.mapM step = .ok results := by
  induction items with
  | nil => exact ⟨[], rfl⟩
  | cons item rest ih =>
    obtain ⟨hitem, hrest⟩ := List.forall_mem_cons.1 h
    obtain ⟨result, hresult⟩ := hitem
    obtain ⟨results, hresults⟩ := ih hrest
    exact ⟨result :: results, mapM_eq_ok_iff.2 (.cons hresult (mapM_eq_ok_iff.1 hresults))⟩

theorem mapM_map_eq_ok {γ : Type} {f : γ → α} {step : α → Outcome β} {result : γ → β}
    {items : List γ} (h : ∀ item ∈ items, step (f item) = .ok (result item)) :
    (items.map f).mapM step = .ok (items.map result) :=
  mapM_eq_ok_iff.2 (List.forall₂_map_left_iff.2 (List.forall₂_map_right_iff.2
    (List.forall₂_same.2 h)))

/-- A list of steps is settled by what each of them does on its item. -/
theorem mapM_congr {step step' : α → Outcome β} {items : List α}
    (h : ∀ item ∈ items, step item = step' item) : items.mapM step = items.mapM step' := by
  induction items with
  | nil => rfl
  | cons item rest ih =>
    rw [List.mapM_cons, List.mapM_cons, h item List.mem_cons_self,
      ih fun other hother => h other (List.mem_cons_of_mem _ hother)]

/-- A chain of steps is settled by what each of them does on its item, whatever came before. -/
theorem foldlM_congr {step step' : β → α → Outcome β} {items : List α}
    (h : ∀ item ∈ items, ∀ b, step b item = step' b item) (start : β) :
    items.foldlM step start = items.foldlM step' start := by
  induction items generalizing start with
  | nil => rfl
  | cons item rest ih =>
    rw [List.foldlM_cons, List.foldlM_cons, h item List.mem_cons_self]
    exact congrArg _ (funext fun next =>
      ih (fun other hother => h other (List.mem_cons_of_mem _ hother)) next)

/-- **What every step keeps is kept by a list of steps.** -/
theorem of_foldlM_eq_ok {step : β → α → Outcome β} {kept : β → Prop} {items : List α}
    {start result : β} (h : items.foldlM step start = .ok result) (first : kept start)
    (keeps : ∀ item ∈ items, ∀ before after, kept before → step before item = .ok after →
      kept after) : kept result := by
  induction items generalizing start with
  | nil => exact Except.ok.inj h ▸ first
  | cons item rest ih =>
    rw [List.foldlM_cons] at h
    obtain ⟨next, hnext, hrest⟩ := bind_eq_ok_iff.1 h
    exact ih hrest (keeps item List.mem_cons_self start next first hnext)
      fun other hother => keeps other (List.mem_cons_of_mem _ hother)

/-- **Steps that read a part off each member**, and then put it to the others,
succeed exactly when every part is read. -/
theorem foldlM_eq_ok_iff {γ : Type} {step : β → α → Outcome β} {read : α → Outcome γ}
    {combine : β → γ → β} (h : ∀ b a, step b a = combine b <$> read a) {items : List α}
    {start result : β} :
    items.foldlM step start = .ok result ↔
      ∃ parts, List.Forall₂ (fun a part => read a = .ok part) items parts ∧
        parts.foldl combine start = result := by
  induction items generalizing start with
  | nil =>
    simp only [List.forall₂_nil_left_iff, exists_eq_left]
    exact ⟨Except.ok.inj, congrArg _⟩
  | cons item rest ih =>
    simp only [List.foldlM_cons, h, bind_eq_ok_iff, map_eq_ok_iff, List.forall₂_cons_left_iff, ih]
    constructor
    · rintro ⟨_, ⟨part, hpart, rfl⟩, parts, hparts, hresult⟩
      exact ⟨part :: parts, ⟨part, parts, hpart, hparts, rfl⟩, hresult⟩
    · rintro ⟨_, ⟨part, parts, hpart, hparts, rfl⟩, hresult⟩
      exact ⟨_, ⟨part, hpart, rfl⟩, parts, hparts, hresult⟩

/-- Two chains of steps over different lists are one if their steps are, pair by pair. -/
theorem foldlM_eq_of_forall₂ {γ : Type} {step : β → α → Outcome β} {step' : β → γ → Outcome β}
    {items : List α} {others : List γ}
    (h : List.Forall₂ (fun a c => ∀ b, step b a = step' b c) items others) (start : β) :
    items.foldlM step start = others.foldlM step' start := by
  induction h generalizing start with
  | nil => rfl
  | cons hstep _ ih =>
    rw [List.foldlM_cons, List.foldlM_cons, hstep]
    exact congrArg _ (funext ih)

section AnyOrder

variable {γ : Type} {step : β → α → Outcome β} {read : α → Outcome γ} {combine : β → γ → β}
  {items others : List α}

/-- A chain of steps that succeeds does so in any other order, and with the same result, if each
step reads its item first and what is read can be combined in either order. -/
theorem foldlM_eq_ok_of_perm (h : ∀ b a, step b a = combine b <$> read a)
    (hperm : items.Perm others)
    (hcomm : ∀ a ∈ items, ∀ a' ∈ items, ∀ part part', read a = .ok part → read a' = .ok part' →
      ∀ b, combine (combine b part) part' = combine (combine b part') part)
    {start result : β} (hitems : items.foldlM step start = .ok result) :
    others.foldlM step start = .ok result := by
  obtain ⟨parts, hparts, hresult⟩ := (foldlM_eq_ok_iff h).1 hitems
  obtain ⟨moved, hmoved, hmovedParts⟩ := List.perm_comp_forall₂ hperm.symm hparts
  have hread : ∀ part ∈ moved, ∃ a ∈ items, read a = .ok part := by
    intro part hpart
    obtain ⟨a, ha, hreadPart⟩ := exists_of_mem_mapM (mapM_eq_ok_iff.2 hmoved) hpart
    exact ⟨a, hperm.mem_iff.2 ha, hreadPart⟩
  refine (foldlM_eq_ok_iff h).2 ⟨moved, hmoved, ?_⟩
  rw [← hresult]
  refine hmovedParts.foldl_eq' (fun part hpart part' hpart' b => ?_) start
  obtain ⟨a, ha, hreadPart⟩ := hread part hpart
  obtain ⟨a', ha', hreadPart'⟩ := hread part' hpart'
  exact hcomm a ha a' ha' part part' hreadPart hreadPart' b

/-- **Steps whose parts may be put to the rest in either order** may be made in any
order. -/
theorem foldlM_eq_ok_iff_of_perm (h : ∀ b a, step b a = combine b <$> read a)
    (hperm : items.Perm others)
    (hcomm : ∀ a ∈ items, ∀ a' ∈ items, ∀ part part', read a = .ok part → read a' = .ok part' →
      ∀ b, combine (combine b part) part' = combine (combine b part') part)
    {start result : β} :
    items.foldlM step start = .ok result ↔ others.foldlM step start = .ok result := by
  constructor
  · exact foldlM_eq_ok_of_perm h hperm hcomm
  · refine foldlM_eq_ok_of_perm h hperm.symm fun a ha a' ha' => ?_
    exact hcomm a (hperm.mem_iff.2 ha) a' (hperm.mem_iff.2 ha')

end AnyOrder

/-- **A list of steps fails as the first failing one does.** -/
theorem mapM_eq_error_iff {step : α → Outcome β} {items : List α} {failure : Failure} :
    items.mapM step = .error failure ↔
      (items.findSome? fun item => (step item).failure?) = some failure := by
  induction items with
  | nil => simp
  | cons item rest ih =>
    rw [List.mapM_cons, List.findSome?_cons]
    cases hitem : step item with
    | error other => simp
    | ok result =>
      -- a step that succeeds leaves it to the others to fail
      rw [ok_bind, failure?_ok, ← ih]
      cases rest.mapM step <;> simp

theorem failure?_map (f : α → β) (outcome : Outcome α) :
    (f <$> outcome).failure? = outcome.failure? := by
  rcases outcome with failure | a <;> rfl

/-- A list of steps fails as its first failing step does. -/
theorem failure?_mapM (step : α → Outcome β) (items : List α) :
    (items.mapM step).failure? = items.findSome? fun item => (step item).failure? := by
  refine Option.ext fun failure => ?_
  rw [← mapM_eq_error_iff]
  rcases items.mapM step with other | results <;> simp

/-- Steps that each read a part off a member fail as the first part does that
cannot be read. -/
theorem failure?_foldlM {γ : Type} {step : β → α → Outcome β} {read : α → Outcome γ}
    {combine : β → γ → β} (h : ∀ b a, step b a = combine b <$> read a) (items : List α)
    (start : β) :
    (items.foldlM step start).failure? = items.findSome? fun item => (read item).failure? := by
  induction items generalizing start with
  | nil => rfl
  | cons item rest ih =>
    rw [List.foldlM_cons, List.findSome?_cons, h]
    rcases read item with failure | part
    · rfl
    · exact ih _

/-! ### The kinds of failures -/

/-- Whether a computation can only fail as a predicate allows. -/
def FailsAs (allowed : Failure → Prop) (outcome : Outcome α) : Prop :=
  ∀ failure, outcome = .error failure → allowed failure

section FailsAs

variable {allowed : Failure → Prop}

/-- What succeeds fails in no forbidden way. -/
theorem failsAs_ok (a : α) : FailsAs allowed (.ok a : Outcome α) := nofun

theorem failsAs_error {failure : Failure} (h : allowed failure) :
    FailsAs allowed (.error failure : Outcome α) :=
  fun _ hfailure => Except.error.inj hfailure ▸ h

/-- More failures may be allowed. -/
theorem FailsAs.mono {outcome : Outcome α} {more : Failure → Prop} (h : FailsAs allowed outcome)
    (hmore : ∀ failure, allowed failure → more failure) : FailsAs more outcome :=
  fun failure hfailure => hmore failure (h failure hfailure)

/-- What both of two steps may fail with bounds what they fail with together. -/
theorem FailsAs.bind {first : Outcome α} {step : α → Outcome β} (hfirst : FailsAs allowed first)
    (hstep : ∀ a, FailsAs allowed (step a)) : FailsAs allowed (first >>= step) := by
  rcases first with failure | a
  · exact failsAs_error (hfirst failure rfl)
  · exact hstep a

theorem FailsAs.map {outcome : Outcome α} (h : FailsAs allowed outcome) (f : α → β) :
    FailsAs allowed (f <$> outcome) := by
  rcases outcome with failure | a
  · exact failsAs_error (h failure rfl)
  · exact failsAs_ok (f a)

theorem failsAs_mapM {step : α → Outcome β} {items : List α}
    (h : ∀ item ∈ items, FailsAs allowed (step item)) : FailsAs allowed (items.mapM step) := by
  intro failure hfailure
  obtain ⟨item, hitem, hstep⟩ := List.exists_of_findSome?_eq_some (mapM_eq_error_iff.1 hfailure)
  exact h item hitem failure (eq_error_of_failure? hstep)

/-- What each step of a chain may fail with bounds what the chain fails with. -/
theorem failsAs_foldlM {step : β → α → Outcome β}
    (h : ∀ b item, FailsAs allowed (step b item)) (items : List α) (start : β) :
    FailsAs allowed (items.foldlM step start) := by
  induction items generalizing start with
  | nil => exact failsAs_ok start
  | cons item rest ih =>
    rw [List.foldlM_cons]
    exact (h start item).bind ih

theorem failsAs_option_mapM {step : α → Outcome β} (h : ∀ a, FailsAs allowed (step a))
    (item? : Option α) : FailsAs allowed (item?.mapM step) := by
  rcases item? with _ | item
  · exact failsAs_ok none
  · exact (h item).map some

end FailsAs

end Outcome

end RecordStore
