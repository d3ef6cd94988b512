import RecordStore.Proofs.Entries
import RecordStore.Value.Extended

/-!
# Values that spell nothing

Replacing spelled values leaves a value as it is exactly when there is nothing to
replace: when no document within it, down to the innermost, spells another value
(`RecordStore.Forms.unspell_eq_self_iff`). Such values are *literal*. Which they are
depends on the table of forms, and that they are just these does not: what is spelled is
never a document, so a document that is replaced is changed.

A document of top-level fields is replaced field by field, since the names of forms are
no names of fields (`RecordStore.Forms.spelled?_eq_none_of_isTopLevel`).
-/

namespace RecordStore

namespace Forms

variable (forms : Forms)

mutual

/-- No document within the value, the value itself included, spells another value, and
neither do the variables of a script. -/
def Literal : Value → Prop
  | .array items => LiteralItems items
  | .document entries | .codeWithScope _ entries =>
    LiteralEntries entries ∧ forms.spelled? entries = none
  | _ => True

/-- Every member of an array is literal. -/
def LiteralItems : List Value → Prop
  | [] => True
  | item :: rest => Literal item ∧ LiteralItems rest

/-- Every value of a document is literal. -/
def LiteralEntries : List (String × Value) → Prop
  | [] => True
  | (_, value) :: rest => Literal value ∧ LiteralEntries rest

end

variable {forms}

/-! ### What a document spells -/

/-- Documents that have the name of a top-level field spell nothing. -/
theorem spelled?_eq_none_of_isTopLevel {entries : Document}
    (h : ∀ entry ∈ entries, FieldName.isTopLevel entry.1 = true) :
    forms.spelled? entries = none := by
  rw [Option.eq_none_iff_forall_ne_some]
  intro value hvalue
  obtain ⟨entry, hentry⟩ := List.exists_mem_of_ne_nil _ (forms.ne_nil_of_spelled? hvalue)
  have hname := forms.isTopLevel_of_spelled? hvalue entry hentry
  rw [h entry hentry] at hname
  cases hname

/-- A document remains one, and the same, exactly when it spells nothing. -/
theorem ofSpelling_eq_document_iff {entries others : List (String × Value)} :
    forms.ofSpelling entries = .document others ↔
      entries = others ∧ forms.spelled? entries = none := by
  rw [ofSpelling]
  rcases hspelled : forms.spelled? entries with _ | spelled
  · simp
  · -- what is spelled is no document
    have hspellable := forms.isSpellable_of_spelled? hspelled
    refine iff_of_false (fun h => ?_) (fun h => nomatch h.2)
    rw [Option.getD_some] at h
    rw [h] at hspellable
    cases hspellable

/-- A script remains one, and the same, exactly when its variables remain a document. -/
theorem scriptWithin_eq_codeWithScope_iff {source : String} {value : Value}
    {scope : List (String × Value)} :
    scriptWithin source value = .codeWithScope source scope ↔ value = .document scope := by
  cases value <;> simp [scriptWithin]

/-! ### Values without spellings -/

mutual

/-- **A value is left as it is exactly when it is literal.** -/
theorem unspell_eq_self_iff (value : Value) :
    forms.unspell value = value ↔ forms.Literal value := by
  match value with
  | .array items =>
    rw [unspell, Literal, Value.array.injEq]
    exact unspellItems_eq_self_iff items
  | .document entries =>
    rw [unspell, Literal]
    exact ofSpelling_unspellEntries_iff entries
  | .codeWithScope source scope =>
    rw [unspell, Literal, scriptWithin_eq_codeWithScope_iff]
    exact ofSpelling_unspellEntries_iff scope
  | .null | .bool _ | .string _ | .int32 _ | .int64 _ | .double _ | .date _ | .objectId _
  | .special _ => exact iff_of_true rfl trivial

theorem unspellItems_eq_self_iff (items : List Value) :
    forms.unspellItems items = items ↔ forms.LiteralItems items := by
  match items with
  | [] => exact iff_of_true rfl trivial
  | item :: rest =>
    rw [unspellItems, LiteralItems, List.cons.injEq, unspell_eq_self_iff item,
      unspellItems_eq_self_iff rest]

theorem unspellEntries_eq_self_iff (entries : List (String × Value)) :
    forms.unspellEntries entries = entries ↔ forms.LiteralEntries entries := by
  match entries with
  | [] => exact iff_of_true rfl trivial
  | (name, value) :: rest =>
    rw [unspellEntries, LiteralEntries, List.cons.injEq, Prod.mk.injEq, unspell_eq_self_iff value,
      unspellEntries_eq_self_iff rest]
    exact and_congr_left' (and_iff_right rfl)

/-- A document is left as it is when its values are and it spells nothing. -/
theorem ofSpelling_unspellEntries_iff (entries : List (String × Value)) :
    forms.ofSpelling (forms.unspellEntries entries) = .document entries ↔
      forms.LiteralEntries entries ∧ forms.spelled? entries = none := by
  rw [ofSpelling_eq_document_iff, ← unspellEntries_eq_self_iff entries]
  exact and_congr_right fun h => by rw [h]

end

/-! ### Replacing within documents -/

variable (forms)

theorem keys_unspellEntries (entries : Document) :
    Entries.keys (forms.unspellEntries entries) = Entries.keys entries := by
  rw [unspellEntries_eq_map, Entries.keys, List.map_map]
  rfl

/-- Under each name a document has the value of that name replaced. -/
theorem get?_unspellEntries (entries : Document) (key : String) :
    Entries.get? (forms.unspellEntries entries) key
      = (Entries.get? entries key).map forms.unspell := by
  rw [unspellEntries_eq_map]
  exact Entries.get?_map forms.unspell entries key

theorem read_unspellEntries (entries : Document) (key : String) :
    Document.read (forms.unspellEntries entries) key
      = forms.unspell (Document.read entries key) := by
  rw [Document.read, Document.read, get?_unspellEntries]
  rcases Entries.get? entries key with _ | value <;> rfl

/-- A document of top-level fields is replaced field by field. -/
theorem unspell_document {entries : Document}
    (h : ∀ entry ∈ entries, FieldName.isTopLevel entry.1 = true) :
    forms.unspell (.document entries) = .document (forms.unspellEntries entries) := by
  rw [unspell, ofSpelling_eq_document_iff]
  refine ⟨rfl, spelled?_eq_none_of_isTopLevel fun entry hentry => ?_⟩
  rw [unspellEntries_eq_map] at hentry
  obtain ⟨original, hmem, rfl⟩ := List.mem_map.1 hentry
  exact h original hmem

/-- Nothing becomes null, and null becomes nothing else. -/
theorem isNull_unspell (value : Value) : (forms.unspell value).isNull = value.isNull := by
  cases value with
  | document entries =>
    rw [unspell, ofSpelling]
    rcases hspelled : forms.spelled? (forms.unspellEntries entries) with _ | spelled
    · rfl
    · have hspellable := forms.isSpellable_of_spelled? hspelled
      cases spelled with
      | null => cases hspellable
      | _ => rfl
  | codeWithScope source scope =>
    rw [unspell]
    cases forms.ofSpelling (forms.unspellEntries scope) <;> rfl
  | _ => rfl

variable {forms}

/-- Where every value is left as it is, so is the list of entries. -/
theorem unspellEntries_eq_self {entries : Document}
    (h : ∀ entry ∈ entries, forms.unspell entry.2 = entry.2) :
    forms.unspellEntries entries = entries := by
  have hmap : entries.map (fun entry => (entry.1, forms.unspell entry.2)) = entries.map id :=
    List.map_congr_left fun entry hentry => congrArg (Prod.mk entry.1) (h entry hentry)
  rw [unspellEntries_eq_map, hmap, List.map_id]

/-- Where every member is left as it is, so is the array. -/
theorem unspell_array_eq_self {items : List Value} (h : ∀ item ∈ items, forms.unspell item = item) :
    forms.unspell (.array items) = .array items := by
  have hmap : items.map forms.unspell = items.map id := List.map_congr_left h
  rw [unspell, unspellItems_eq_map, hmap, List.map_id]

end Forms

namespace Value

/-! ### Values without other values -/

/-- Whether a value has no other values within it. -/
def isLeaf : Value → Bool
  | array _ | document _ | codeWithScope _ _ => false
  | _ => true

/-- Where there are no other values there is nothing to replace. -/
theorem unspell_of_isLeaf {forms : Forms} {value : Value} (h : value.isLeaf = true) :
    forms.unspell value = value := by
  cases value with
  | array _ | document _ | codeWithScope _ _ => cases h
  | _ => rfl

mutual

/-- No script with variables is within the value. A script whose variables spell a value
is replaced by a document. -/
def ScriptFree : Value → Prop
  | array items => ScriptFreeItems items
  | document entries => ScriptFreeEntries entries
  | codeWithScope _ _ => False
  | _ => True

/-- No member of an array has a script with variables within it. -/
def ScriptFreeItems : List Value → Prop
  | [] => True
  | item :: rest => ScriptFree item ∧ ScriptFreeItems rest

/-- No value of a document has a script with variables within it. -/
def ScriptFreeEntries : List (String × Value) → Prop
  | [] => True
  | (_, value) :: rest => ScriptFree value ∧ ScriptFreeEntries rest

end

theorem scriptFreeEntries_iff {entries : List (String × Value)} :
    ScriptFreeEntries entries ↔ ∀ entry ∈ entries, ScriptFree entry.2 := by
  induction entries with
  | nil => simp [ScriptFreeEntries]
  | cons entry rest ih => simp [ScriptFreeEntries, ih]

end Value

/-- The values of a document without scripts are without scripts. -/
theorem Document.scriptFree_read {document : Document}
    (scriptFree : (Value.document document).ScriptFree) (name : String) :
    (document.read name).ScriptFree := by
  rw [Document.read]
  rcases h : document.get? name with _ | value
  · trivial
  · exact Value.scriptFreeEntries_iff.1 scriptFree _ (Entries.mem_of_get?_eq_some h)

end RecordStore
