import RecordStore.Filter.Typed
import RecordStore.Proofs.Lookup.Cast
import RecordStore.Proofs.Request.Embedded
import RecordStore.Proofs.Time.Written

/-!
# Dates that are built and dates that are sent

There are two ways for an instant into a filter. A program hands it to a typed filter,
which stores the last millisecond that is not after it. A request spells it as a text,
and what the text is cast to is the instant without its digits below the millisecond.
From 1970 on this is the same. Before, it is the next millisecond, unless the instant
is one of whole milliseconds (`RecordStore.Instant.floorDate_eq_truncDate_iff`).

So of a condition on instants, in whichever form it is, each operand that is before
1970 and not of whole milliseconds is one millisecond later when the condition is sent
than when it is built, and all else is the same (`RecordStore.Lookup.dates_sent`).
A range that begins at such an instant leaves out a millisecond in the one case that it
has in the other, and one that ends there the reverse.
-/

namespace RecordStore

/-! ### Rounding -/

/-- The next millisecond is another date, also where the count wraps around. -/
theorem Date.ofMillis_succ_ne (millis : Int) : ofMillis (millis + 1) ≠ ofMillis millis := by
  intro h
  have hmillis : Int64.ofInt (millis + 1) = Int64.ofInt millis := congrArg Date.millis h
  have hresidue : (millis + 1).bmod (2 ^ 64) = millis.bmod (2 ^ 64) := by
    rw [← Int64.toInt_ofInt, ← Int64.toInt_ofInt, hmillis]
  rw [Int.bmod_def, Int.bmod_def] at hresidue
  omega

namespace Instant

/-- Whether an instant is rounded to one date in both ways: it is not before 1970, or
one of whole milliseconds. -/
def RoundsAlike (instant : Instant) : Prop :=
  0 ≤ instant.nanos ∨ (10 ^ 6 : Int) ∣ instant.nanos

instance (instant : Instant) : Decidable instant.RoundsAlike :=
  inferInstanceAs (Decidable (_ ∨ _))

variable {instant : Instant}

/-- An instant that is rounded to two dates is rounded to two that follow one
another. -/
theorem truncDate_eq (instant : Instant) :
    instant.truncDate
      = .ofMillis (instant.nanos.fdiv (10 ^ 6) + if instant.RoundsAlike then 0 else 1) := by
  rw [truncDate, Int.tdiv_eq_ediv, Int.fdiv_eq_ediv_of_nonneg _ (by decide)]
  rfl

/-- Where the two roundings part, cutting off lands one millisecond later. -/
theorem truncDate_of_not_roundsAlike (h : ¬ instant.RoundsAlike) :
    instant.truncDate = .ofMillis (instant.nanos.fdiv (10 ^ 6) + 1) := by
  rw [truncDate_eq, if_neg h]

/-- **Rounding down and cutting off agree** except before 1970 within a millisecond. -/
theorem floorDate_eq_truncDate_iff :
    instant.floorDate = instant.truncDate ↔ instant.RoundsAlike := by
  constructor
  · intro h
    by_contra hnot
    rw [truncDate_of_not_roundsAlike hnot] at h
    exact Date.ofMillis_succ_ne _ h.symm
  · intro h
    rw [truncDate_eq, if_pos h, Int.add_zero]
    rfl

end Instant

/-! ### Instants that are sent -/

/-- The text of an instant is read as the instant, cut off at the millisecond. -/
theorem Rfc3339.date?_text {instant : Instant} (h : instant.InWrittenYears) :
    date? instant.text = some instant.truncDate := by
  rw [date?, Instant.instant?_text h]
  rfl

/-- On a date field the text of an instant is cast to the instant, cut off at the millisecond.
-/
theorem Value.castOn_text {schema : Schema} {field : String} {instant : Instant}
    (dates : schema.kindOf? field = some .date) (h : instant.InWrittenYears) :
    (string instant.text).castOn schema field = .ok (date instant.truncDate) := by
  rw [castOn, dates]
  show (string instant.text).cast field .date = _
  rw [cast, Rfc3339.date?_text h]

/-! ### The forms of a typed condition -/

namespace Filter

/-- What a typed filter asks of a field, in one of the four forms of a condition. -/
inductive Form (α : Type) where
  | eq (value : α)
  | oneOf (values : List α)
  | within (range : Range α)
  | withinAny (ranges : List (Range α))

namespace Form

variable {α : Type}

/-- Asks it of a field. -/
def ask [Rangeable α] (filter : Filter) (field : Field α) : Form α → Filter
  | eq value => filter.eq field value
  | oneOf values => filter.oneOf field values
  | within range => filter.within field range
  | withinAny ranges => filter.withinAny field ranges

/-- The elements that it is made of, bounds of ranges included. -/
def members : Form α → List α
  | eq value => [value]
  | oneOf values => values
  | within range => range.bounds
  | withinAny ranges => ranges.flatMap Range.bounds

/-- The condition that it comes to, if each element stands for a value. -/
def condition (f : α → Value) : Form α → Condition
  | eq value => .equals (f value)
  | oneOf values => .oneOf (values.map f)
  | within range => .within (range.map f)
  | withinAny ranges => .withinAny (ranges.map (Range.map f))

theorem ask_eq [Rangeable α] (filter : Filter) (field : Field α) (form : Form α) :
    form.ask filter field = filter.require field.name (form.condition Comparable.toValue) := by
  cases form <;> rfl

variable {form : Form α} {f g : α → Value}

/-- A condition compares with the members of its form. -/
theorem operands_condition (f : α → Value) (form : Form α) :
    (form.condition f).operands = form.members.map f := by
  cases form with
  | within range => exact Range.bounds_map f range
  | withinAny ranges =>
    simp [condition, Condition.operands, members, List.flatMap_map, List.map_flatMap,
      Range.bounds_map]
  | _ => rfl

/-- Changing the values of a condition comes to making it from changed ones. -/
theorem map_condition (h : Value → Value) (form : Form α) :
    (form.condition f).map h = form.condition (h ∘ f) := by
  cases form with
  | eq value => rfl
  | oneOf values => exact congrArg Condition.oneOf List.map_map
  | within range => exact congrArg Condition.within (Range.map_map h f range)
  | withinAny ranges =>
    simp only [condition, Condition.map, List.map_map, Function.comp_def, Range.map_map]

/-- Conditions of one form are the same exactly when their operands are. -/
theorem condition_eq_iff :
    form.condition f = form.condition g ↔ ∀ a ∈ form.members, f a = g a := by
  constructor
  · intro h
    have hoperands := congrArg Condition.operands h
    rwa [operands_condition, operands_condition, List.map_inj_left] at hoperands
  · intro h
    cases form with
    | eq value => exact congrArg _ (h value (List.mem_singleton_self _))
    | oneOf values => exact congrArg _ (List.map_congr_left h)
    | within range => exact congrArg _ (Range.map_congr h)
    | withinAny ranges =>
      exact congrArg _ (List.map_congr_left fun range hrange =>
        Range.map_congr fun a ha => h a (List.mem_flatMap.2 ⟨range, hrange, ha⟩))

/-- An empty list of ranges is the only form that is changed by being listed. -/
theorem listed_condition_eq_iff :
    form.condition f = (form.condition g).listed ↔
      form ≠ .withinAny [] ∧ form.condition f = form.condition g := by
  cases form with
  | withinAny ranges =>
    cases ranges with
    | nil => simp [condition, Condition.listed]
    | cons range rest => simp [condition, Condition.listed]
  | _ => simp [condition, Condition.listed]

/-! ### Conditions on instants that are sent -/

section Sent

variable {form : Form Instant} {schema : Schema} {name : String}

/-- The condition as it is sent, with the texts of its instants. -/
def sent (form : Form Instant) : Condition :=
  form.condition fun instant => .string instant.text

/-- The condition as it is received, with the dates that the texts are cast to. -/
def received (form : Form Instant) : Condition :=
  (form.condition fun instant => .date instant.truncDate).listed

theorem plain_sent (form : Form Instant) : form.sent.Plain := by
  refine Condition.plain_of_operands ?_
  rw [sent, operands_condition, List.forall_mem_map]
  exact fun _ _ => ⟨rfl, rfl⟩

theorem ofValue_sent (name : String) (form : Form Instant) :
    Condition.ofValue name form.sent.spelling = .ok form.sent.listed :=
  Condition.ofValue_spelling name form.plain_sent

/-- **The condition of a typed filter is received as it is** exactly when its instants
are rounded alike, and it is not an empty list of ranges. -/
theorem condition_eq_received_iff :
    form.condition Comparable.toValue = form.received ↔
      form ≠ .withinAny [] ∧ ∀ instant ∈ form.members, instant.RoundsAlike := by
  have hvalue : ∀ instant : Instant,
      Comparable.toValue instant = Value.date instant.truncDate ↔ instant.RoundsAlike := by
    intro instant
    rw [← Instant.floorDate_eq_truncDate_iff]
    exact ⟨Value.date.inj, congrArg Value.date⟩
  rw [received, listed_condition_eq_iff, condition_eq_iff]
  simp only [hvalue]

section Dates

variable (dates : schema.kindOf? name = some .date)
  (inYears : ∀ instant ∈ form.members, instant.InWrittenYears)
include dates inYears

/-- Every text that was sent can be cast. -/
theorem castOn_sent {value : Value} (h : value ∈ form.sent.listed.operands) :
    (value.castOn schema name).failure? = none := by
  rw [Condition.operands_listed, sent, operands_condition, List.mem_map] at h
  obtain ⟨instant, hinstant, rfl⟩ := h
  rw [Value.castOn_text dates (inYears instant hinstant)]
  rfl

/-- Casting what was sent gives the condition on the instants, cut off. -/
theorem map_recast_sent : form.sent.listed.map (Value.recast schema name) = form.received := by
  rw [← Condition.listed_map, sent, map_condition, received]
  refine congrArg Condition.listed (condition_eq_iff.2 fun instant hinstant => ?_)
  show ((Value.string instant.text).castOn schema name).toOption.getD _ = _
  rw [Value.castOn_text dates (inYears instant hinstant)]
  rfl

/-- **The texts of a condition are cast to dates.** -/
theorem cast_sent : form.sent.listed.cast schema name = .ok form.received := by
  rw [Condition.cast_eq_map_recast fun _ => castOn_sent dates inYears,
    map_recast_sent dates inYears]

/-- What is received for a field does not depend on the other fields of the filter. -/
theorem get?_of_sent {document : Document} {filter result : Filter}
    (distinct : document.keys.Nodup) (read : ofDocument document = .ok filter)
    (hcast : filter.cast schema = .ok result)
    (entry : document.get? name = some form.sent.spelling) :
    result.get? name = some form.received := by
  have hget : filter.get? name = some form.sent.listed :=
    (get?_ofDocument distinct read).2 ⟨_, entry, ofValue_sent name form⟩
  rw [← mapValues_recast_of_cast hcast, mapValues, FieldMap.get?_mapEntries, hget,
    Option.map_some, map_recast_sent dates inYears]

/-- A filter of this one condition is accepted. -/
theorem cast_of_sent (top : FieldName.isTopLevel name = true) :
    (ofDocument [(name, form.sent.spelling)] >>= Filter.cast schema)
      = .ok (empty.require name form.received) := by
  have hread : ofDocument [(name, form.sent.spelling)]
      = .ok (empty.require name form.sent.listed) := by
    rw [ofDocument, List.foldlM_cons, requireSpelled, FieldName.check_eq_ok_iff.2 top,
      Outcome.ok_bind, ofValue_sent]
    rfl
  rw [hread, Outcome.ok_bind]
  show castEntry schema empty (name, form.sent.listed) >>= _ = _
  rw [castEntry, cast_sent dates inYears]
  rfl

end Dates

end Sent

end Form

end Filter

/-! ### Lookups with instants -/

namespace Lookup

variable {κ : Type} {schema : Schema}

/-- Casting a lookup casts its filter. -/
theorem filter?_cast {lookup result : Lookup κ} (h : lookup.cast schema = .ok result) :
    lookup.filter?.mapM (Filter.cast schema) = .ok result.filter? := by
  cases lookup with
  | byId key => rw [← Except.ok.inj h]; rfl
  | byIds keys => rw [← Except.ok.inj h]; rfl
  | byFilter filter =>
    obtain ⟨other, hcast, rfl⟩ := Outcome.map_eq_ok_iff.1 h
    rw [filter?, Option.mapM_some, hcast]
    rfl
  | byQuery query =>
    obtain ⟨other, hcast, hresult⟩ := Outcome.bind_eq_ok_iff.1 h
    rw [filter?, hcast, ← Except.ok.inj hresult]
    rfl

section Read

variable [EntityKey κ] {request : Document} {lookup : Lookup κ}

/-- The filter of an accepted request is the cast of the one that its conditions
spell. -/
theorem cast_filter_of_accepted
    (accepted : (ofValue (.document request) >>= Lookup.cast schema) = .ok lookup)
    (hne : conditionsIn request ≠ []) :
    ∃ read filter, Filter.ofDocument (conditionsIn request) = .ok read ∧
      read.cast schema = .ok filter ∧ lookup.filter? = some filter := by
  obtain ⟨uncast, hread, hcast⟩ := Outcome.bind_eq_ok_iff.1 accepted
  obtain ⟨read, hfilter⟩ := exists_filter? hread hne
  have hcastFilter := filter?_cast hcast
  rw [hfilter, Option.mapM_some] at hcastFilter
  obtain ⟨filter, hfilterCast, hsome⟩ := Outcome.map_eq_ok_iff.1 hcastFilter
  exact ⟨read, filter, ofDocument_conditionsIn hread hfilter, hfilterCast, hsome.symm⟩

/-- A filter is read and cast as a whole request, and as the only part of a query. -/
theorem accepted_filter {document : Document} {filter : Filter}
    (h : (Filter.ofDocument document >>= Filter.cast schema) = .ok filter) :
    (ofValue (.document [(Query.filterKey, .document document)]) >>= Lookup.cast schema)
        = .ok (.byQuery ⟨some filter, none⟩ : Lookup κ) ∧
      (Query.isSpelledBy document = false →
        (ofValue (.document document) >>= Lookup.cast schema)
          = .ok (.byFilter filter : Lookup κ)) := by
  obtain ⟨read, hread, hcast⟩ := Outcome.bind_eq_ok_iff.1 h
  constructor
  · have hquery : Query.ofDocument [(Query.filterKey, .document document)]
        = .ok ⟨some read, none⟩ :=
      Query.ofDocument_eq_ok_iff.2 ⟨by simp, Query.part_eq_ok_iff.2 (.inr ⟨_, _, rfl, hread, rfl⟩),
        Query.part_eq_ok_iff.2 (.inl ⟨rfl, rfl⟩)⟩
    have hspelled : Query.isSpelledBy [(Query.filterKey, .document document)] = true := rfl
    have hlookup : ofValue (.document [(Query.filterKey, .document document)])
        = .ok (.byQuery ⟨some read, none⟩ : Lookup κ) := by
      rw [ofValue, if_pos hspelled, hquery]
      rfl
    rw [hlookup, Outcome.ok_bind, cast, Option.mapM_some, hcast]
    rfl
  · intro hspelled
    have hlookup : ofValue (.document document) = .ok (.byFilter read : Lookup κ) := by
      rw [ofValue, if_neg (by simp [hspelled]), hread]
      rfl
    rw [hlookup, Outcome.ok_bind, cast, hcast]
    rfl

end Read

/-- **A condition on instants that is sent, and the same condition built.** In every
request that is accepted, the instants of a condition that is sent are received as
their dates rounded towards 1970, and the request with nothing else in it is accepted,
as a query or as a filter. This is the condition that a typed filter would have exactly
when all of its instants are rounded alike, and it is not an empty list of ranges. An
instant that is not rounded alike is sent as a date one millisecond later. -/
theorem dates_sent (κ : Type) [EntityKey κ] (schema : Schema) (field : Field Instant)
    (dates : schema.kindOf? field.name = some .date) (form : Filter.Form Instant)
    (inYears : ∀ instant ∈ form.members, instant.InWrittenYears) :
    (∀ (request : Document) (lookup : Lookup κ), (Value.document request).WellFormed →
      (conditionsIn request).get? field.name = some form.sent.spelling →
      (ofValue (.document request) >>= Lookup.cast schema) = .ok lookup →
      ∃ filter, lookup.filter? = some filter ∧ filter.get? field.name = some form.received) ∧
    (FieldName.isTopLevel field.name = true →
      (ofValue (.document [(Query.filterKey, .document [(field.name, form.sent.spelling)])])
          >>= Lookup.cast schema)
        = .ok (.byQuery ⟨some (Filter.empty.require field.name form.received), none⟩ : Lookup κ) ∧
      (Query.isSpelledBy [(field.name, form.sent.spelling)] = false →
        (ofValue (.document [(field.name, form.sent.spelling)]) >>= Lookup.cast schema)
          = .ok (.byFilter (Filter.empty.require field.name form.received) : Lookup κ))) ∧
    (∀ filter, (form.ask filter field).get? field.name = some form.received ↔
      form ≠ .withinAny [] ∧ ∀ instant ∈ form.members, instant.RoundsAlike) ∧
    ∀ instant ∈ form.members, ¬ instant.RoundsAlike →
      instant.truncDate = .ofMillis (instant.nanos.fdiv (10 ^ 6) + 1) := by
  refine ⟨?_, ?_, ?_, fun _ _ => Instant.truncDate_of_not_roundsAlike⟩
  · intro request lookup wellFormed entry accepted
    have hne : conditionsIn request ≠ [] := by
      intro hnil
      rw [hnil] at entry
      cases entry
    obtain ⟨read, filter, hread, hcast, hfilter⟩ := cast_filter_of_accepted accepted hne
    exact ⟨filter, hfilter, Filter.Form.get?_of_sent dates inYears
      (wellFormed_conditionsIn wellFormed).1 hread hcast entry⟩
  · exact fun top => accepted_filter (Filter.Form.cast_of_sent dates inYears top)
  · intro filter
    rw [Filter.Form.ask_eq, Filter.require, FieldMap.get?_insert_self, Option.some_inj]
    exact Filter.Form.condition_eq_received_iff

/-- The time at which a booking is due. -/
def due : Field Instant := ⟨"due"⟩

/-- The bookings that are due from the last nanosecond before 1970 on: when this is
sent, the last millisecond before 1970 is left out. -/
theorem dates_sent_due :
    (ofValue (.document [("due",
          .document [("start", .string "1969-12-31T23:59:59.999999999Z")])])
        >>= Lookup.cast Repository.bookings.schema)
      = .ok (.byFilter (Filter.empty.require "due" (.within (.startingAt (.date ⟨0⟩))))
          : Lookup String) ∧
    (Filter.empty.within due (.startingAt ⟨-1⟩)).get? "due"
      = some (.within (.startingAt (.date ⟨-1⟩))) ∧
    (Filter.empty.within due (.startingAt ⟨-1⟩)).get? "due"
      ≠ some (.within (.startingAt (.date ⟨0⟩))) := by
  have inYears : ∀ instant ∈ (Filter.Form.within (.startingAt (⟨-1⟩ : Instant))).members,
      instant.InWrittenYears :=
    List.forall_mem_singleton.2 ⟨by decide, by decide⟩
  obtain ⟨-, haccepted, hagree, -⟩ := dates_sent String Repository.bookings.schema due rfl
    (.within (.startingAt ⟨-1⟩)) inYears
  refine ⟨(haccepted (by decide)).2 rfl, rfl, fun h => ?_⟩
  exact absurd (((hagree Filter.empty).1 h).2 ⟨-1⟩ (List.mem_singleton_self _)) (by decide)

end Lookup

end RecordStore
