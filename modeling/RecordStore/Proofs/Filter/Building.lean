import Mathlib.Data.List.Induction
import RecordStore.Filter.Typed
import RecordStore.Predicate.QueryDocument
import RecordStore.Proofs.FieldMap
import RecordStore.Proofs.Filter.Lowering

/-!
# Filters built step by step

A program builds a filter in steps, each of which puts a condition on a field. There
are four typed steps, which make the condition out of values, and an untyped one,
which is handed it. A condition takes the place of the one that its field had, so all
that is left of the steps is the last condition on each field
(`RecordStore.Filter.get?_build`), and the filters of two sequences of steps are the
same exactly when these conditions are (`RecordStore.Filter.build_settled`).

Everything that is made of a filter is then the same as well, up to the order of the
entries in its query document. It does not come to light either that a condition was
malformed if another one took its place: a filter is refused for the first of its
fields, in the order of their names, whose last condition is refused
(`RecordStore.Filter.lower_eq_error_iff`).
-/

namespace RecordStore

namespace Filter

/-! ### Steps -/

/-- A step of building a filter. -/
inductive Step : Type 1 where
  /-- Requires a field to equal a value. -/
  | eq {α : Type} [Comparable α] (field : Field α) (value : α)
  /-- Requires a field to equal one of some values. -/
  | oneOf {α : Type} [Listable α] (field : Field α) (values : List α)
  /-- Requires a field to lie in a range. -/
  | within {α : Type} [Rangeable α] (field : Field α) (range : Range α)
  /-- Requires a field to lie in one of some ranges. -/
  | withinAny {α : Type} [Rangeable α] (field : Field α) (ranges : List (Range α))
  /-- Puts a condition on a field. -/
  | require (field : String) (condition : Condition)

namespace Step

/-- Makes a step. -/
def apply (filter : Filter) : Step → Filter
  | eq field value => filter.eq field value
  | oneOf field values => filter.oneOf field values
  | within field range => filter.within field range
  | withinAny field ranges => filter.withinAny field ranges
  | require field condition => filter.require field condition

/-- The name of the field that a step is about. -/
def name : Step → String
  | eq field _ => field.name
  | oneOf field _ => field.name
  | within field _ => field.name
  | withinAny field _ => field.name
  | require field _ => field

/-- The condition that a step puts on its field. -/
def condition : Step → Condition
  | eq _ value => .equals (Comparable.toValue value)
  | oneOf _ values => .oneOf (values.map Comparable.toValue)
  | within _ range => .within (range.map Comparable.toValue)
  | withinAny _ ranges => .withinAny (ranges.map (Range.map Comparable.toValue))
  | require _ condition => condition

/-- Every step assigns its condition to its field. -/
theorem apply_eq (filter : Filter) (step : Step) :
    step.apply filter = filter.insert step.name step.condition := by
  cases step <;> rfl

end Step

/-- The filter that steps build. -/
def build (steps : List Step) : Filter :=
  steps.foldl Step.apply empty

/-- The last condition that steps put on a field, if they put any on it. -/
def lastCondition? (steps : List Step) (name : String) : Option Condition :=
  (steps.reverse.find? fun step => step.name = name).map Step.condition

variable {steps others : List Step}

/-- **What is left of steps is the last condition on each field.** -/
theorem get?_build (steps : List Step) (name : String) :
    (build steps).get? name = lastCondition? steps name := by
  induction steps using List.reverseRecOn with
  | nil => rfl
  | append_singleton steps step ih =>
    rw [build, List.foldl_append, List.foldl_cons, List.foldl_nil, Step.apply_eq,
      FieldMap.get?_insert, lastCondition?, List.reverse_append, List.reverse_singleton,
      List.singleton_append, List.find?_cons]
    by_cases hname : step.name = name
    · simp [hname]
    · simp only [hname, if_false, decide_false]
      exact ih

/-- **Filters are equal exactly when the last conditions are**, name by name. -/
theorem build_eq_iff :
    build steps = build others ↔
      ∀ name, lastCondition? steps name = lastCondition? others name := by
  simp only [← get?_build]
  exact ⟨fun h _ => congrArg (FieldMap.get? · _) h, FieldMap.ext_get?⟩

/-! ### Steps that come later -/

/-- A step in the middle puts its condition on what the steps before it built. -/
theorem build_append_cons (step : Step) :
    build (steps ++ step :: others)
      = others.foldl Step.apply ((build steps).insert step.name step.condition) := by
  rw [build, List.foldl_append, List.foldl_cons, Step.apply_eq]
  rfl

/-- Steps on different fields may change places. -/
theorem build_swap {first second : Step} (h : first.name ≠ second.name) :
    build (steps ++ first :: second :: others) = build (steps ++ second :: first :: others) := by
  rw [build_append_cons, build_append_cons, List.foldl_cons, List.foldl_cons, Step.apply_eq,
    Step.apply_eq, FieldMap.insert_comm _ _ _ h]

/-- Of two runs of steps the last condition is that of the second, unless it has none for the
name. -/
theorem lastCondition?_append (name : String) :
    lastCondition? (steps ++ others) name
      = (lastCondition? others name).or (lastCondition? steps name) := by
  rw [lastCondition?, List.reverse_append, List.find?_append, Option.map_or]
  rfl

theorem lastCondition?_singleton (step : Step) (name : String) :
    lastCondition? [step] name = if step.name = name then some step.condition else none := by
  by_cases h : step.name = name <;> simp [lastCondition?, h]

/-- A field has a last condition when some step has set one on it. -/
theorem isSome_lastCondition?_iff {name : String} :
    (lastCondition? steps name).isSome = true ↔ ∃ step ∈ steps, step.name = name := by
  simp [lastCondition?]

/-- A step has no effect if a later one is about the same field. -/
theorem build_overwritten {first : Step} (h : ∃ later ∈ others, later.name = first.name) :
    build (steps ++ first :: others) = build (steps ++ others) := by
  refine build_eq_iff.2 fun name => ?_
  have hsplit : first :: others = [first] ++ others := rfl
  rw [hsplit, lastCondition?_append, lastCondition?_append, lastCondition?_append,
    lastCondition?_singleton]
  split
  · rename_i hname
    subst hname
    obtain ⟨condition, hlast⟩ := Option.isSome_iff_exists.1 (isSome_lastCondition?_iff.2 h)
    rw [hlast]
    rfl
  · rw [Option.or_none]

/-- **What a filter is after any steps.** Two sequences of steps build the same filter
exactly when they leave the same condition on every field, and a filter that is found
equal exactly when they leave conditions that are; then the filters are lowered to the
same predicate, or refused for the same reason, and the query documents are the same.
A filter is refused for one of the conditions that were left. In particular, steps on
different fields may change places, and a step before another on its field may be left
out. -/
theorem build_settled (steps others : List Step) :
    (build steps = build others ↔
      ∀ name, lastCondition? steps name = lastCondition? others name) ∧
    ((build steps == build others) = true ↔
      ∀ name, (lastCondition? steps name == lastCondition? others name) = true) ∧
    ((∀ name, lastCondition? steps name = lastCondition? others name) →
      (build steps).lower = (build others).lower ∧
        Predicate.query <$> (build steps).lower = Predicate.query <$> (build others).lower) ∧
    (∀ failure, (build steps).lower = .error failure ↔
      ∃ name condition, lastCondition? steps name = some condition ∧
        (namedClause (name, condition)).failure? = some failure ∧
        ∀ earlier other, earlier < name → lastCondition? steps earlier = some other →
          Lowerable (earlier, other)) ∧
    (∀ first second : Step, first.name ≠ second.name →
      build (steps ++ first :: second :: others) = build (steps ++ second :: first :: others)) ∧
    ∀ first : Step, (∃ later ∈ others, later.name = first.name) →
      build (steps ++ first :: others) = build (steps ++ others) := by
  refine ⟨build_eq_iff, ?_, ?_, ?_, fun _ _ => build_swap, fun _ => build_overwritten⟩
  · simp only [← get?_build]
    exact FieldMap.beq_iff_get?
  · intro same
    rw [build_eq_iff.2 same]
    exact ⟨rfl, rfl⟩
  · intro failure
    simp only [lower_eq_error_iff, get?_build]

/-- The age of a person. -/
def age : Field Int64 := ⟨"age"⟩

/-- The name that a person is called by. -/
def called : Field String := ⟨"name"⟩

/-- A range without bounds does no harm if the age is asked for again, and it does not
matter when the name is asked for. -/
theorem build_settled_adults :
    build [.within age .unbounded, .eq called "Alice", .within age (.startingAt 18)]
        = build [.within age (.startingAt 18), .eq called "Alice"] ∧
      Predicate.query <$>
          (build [.within age .unbounded, .eq called "Alice", .within age (.startingAt 18)]).lower
        = .ok [("age", .document [("$gte", .int64 18)]),
            ("name", .document [("$eq", .string "Alice")])] := by
  have hoverwritten : build [.within age .unbounded, .eq called "Alice",
      .within age (.startingAt 18)] = build [.eq called "Alice", .within age (.startingAt 18)] :=
    (build_settled [] [.eq called "Alice", .within age (.startingAt 18)]).2.2.2.2.2
      (.within age .unbounded) ⟨.within age (.startingAt 18), by simp, rfl⟩
  have hswap : build [.eq called "Alice", .within age (.startingAt 18)]
      = build [.within age (.startingAt 18), .eq called "Alice"] :=
    (build_settled [] []).2.2.2.2.1 (.eq called "Alice") (.within age (.startingAt 18)) (by decide)
  have hsame := hoverwritten.trans hswap
  refine ⟨hsame, ?_⟩
  rw [((build_settled _ _).2.2.1 ((build_settled _ _).1.1 hsame)).2]
  rfl

end Filter

end RecordStore
