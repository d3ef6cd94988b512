import RecordStore.Json
import RecordStore.Proofs.Request.Replaced

/-!
# Requests in JSON and their images

A request in JSON should ask for what its image asks for, the value of the same
structure. It is not its image that is read, though: every object that spells a
value of some other kind is replaced by that value first, and a request is then
read as if it had arrived so. Names that begin with a dollar sign, and documents
that are no ranges, are only refused where they are left.

Which objects spell values is said by a table of forms, and what is proved here holds for
every one. What the image asks for is never refused, but asked for with its operands replaced
(`RecordStore.Lookup.ofValue_unspell`). A JSON request that is accepted is read as
its image exactly when the image is literal, which is to say that nothing in it, in
whatever place and at whatever depth, spells anything
(`RecordStore.Json.ReadAs`); a literal image is read just as the request, also when
it is refused.
-/

namespace RecordStore

variable {forms : Forms}

/-! ### Lookups -/

/-- Whether keys of a type are only read off values that have no others within them. -/
class EntityKey.OfLeaf (κ : Type) [EntityKey κ] : Prop where
  isLeaf_of_ofNative {value : Value} {key : κ} :
    EntityKey.ofNative value = .ok key → value.isLeaf = true

instance : EntityKey.OfLeaf String where
  isLeaf_of_ofNative {value _} h := by
    cases value with
    | array _ | document _ | codeWithScope _ _ => cases h
    | _ => rfl

instance : EntityKey.OfLeaf ObjectId where
  isLeaf_of_ofNative {value _} h := by
    cases value with
    | array _ | document _ | codeWithScope _ _ => cases h
    | _ => rfl

namespace Lookup

variable {κ : Type}

/-- Applies a function to every value that a lookup compares with. -/
def map (f : Value → Value) : Lookup κ → Lookup κ
  | byFilter filter => byFilter (filter.map f)
  | byQuery query => byQuery (query.map f)
  | lookup => lookup

variable [EntityKey κ] [EntityKey.OfLeaf κ]

/-- Only a value that has no others within it is a key. -/
theorem isLeaf_of_keyOf {value : Value} {key : κ} (h : keyOf value = .ok key) :
    value.isLeaf = true := by
  rw [keyOf] at h
  rcases hkey : (EntityKey.ofNative value : Except DocumentCause κ) with cause | other
  · rw [hkey] at h
    cases h
  · exact EntityKey.OfLeaf.isLeaf_of_ofNative hkey

/-- A list of keys is left as it is. -/
theorem unspell_array_of_mapM_keyOf {items : List Value} {keys : List κ}
    (h : items.mapM keyOf = .ok keys) : forms.unspell (.array items) = .array items := by
  refine Forms.unspell_array_eq_self fun item hitem => ?_
  obtain ⟨key, hkey⟩ := Outcome.exists_ok_of_mem (Outcome.mapM_eq_ok_iff.1 h) hitem
  exact Value.unspell_of_isLeaf (isLeaf_of_keyOf hkey)

variable {value : Value} {lookup : Lookup κ}

/-- **What a value asks for is asked for by the value with its spelled values
replaced**, with the operands of the filter replaced in the same way. -/
theorem ofValue_unspell (scriptFree : value.ScriptFree) (h : ofValue value = .ok lookup) :
    ofValue (forms.unspell value) = .ok (lookup.map forms.unspell) := by
  cases value with
  | array items =>
    obtain ⟨keys, hkeys, rfl⟩ := Outcome.map_eq_ok_iff.1 h
    rw [unspell_array_of_mapM_keyOf hkeys]
    exact h
  | document entries =>
    rw [ofValue] at h
    split at h
    · rename_i hspelled
      obtain ⟨query, hquery, rfl⟩ := Outcome.map_eq_ok_iff.1 h
      rw [forms.unspell_document (Query.isTopLevel_of_ofDocument hquery), ofValue,
        Query.isSpelledBy_unspellEntries, if_pos hspelled,
        Query.ofDocument_unspellEntries scriptFree hquery]
      rfl
    · rename_i hspelled
      obtain ⟨filter, hfilter, rfl⟩ := Outcome.map_eq_ok_iff.1 h
      rw [forms.unspell_document (Filter.isTopLevel_of_ofDocument hfilter), ofValue,
        Query.isSpelledBy_unspellEntries, if_neg hspelled,
        Filter.ofDocument_unspellEntries scriptFree hfilter]
      rfl
  | codeWithScope _ _ => cases scriptFree
  | null =>
    rw [← Except.ok.inj h]
    rfl
  | _ =>
    obtain ⟨key, hkey, rfl⟩ := Outcome.map_eq_ok_iff.1 h
    exact h

/-- A value that asks for what it asks for with its spelled values replaced has
none. -/
theorem unspell_eq_self_of_ofValue (wellFormed : value.WellFormed)
    (h : ofValue value = .ok lookup) (hmap : lookup.map forms.unspell = lookup) :
    forms.unspell value = value := by
  cases value with
  | array items =>
    obtain ⟨keys, hkeys, -⟩ := Outcome.map_eq_ok_iff.1 h
    exact unspell_array_of_mapM_keyOf hkeys
  | document entries =>
    rw [ofValue] at h
    split at h
    · obtain ⟨query, hquery, rfl⟩ := Outcome.map_eq_ok_iff.1 h
      rw [forms.unspell_document (Query.isTopLevel_of_ofDocument hquery),
        Query.unspellEntries_eq_self_of_ofDocument wellFormed hquery (byQuery.inj hmap)]
    · obtain ⟨filter, hfilter, rfl⟩ := Outcome.map_eq_ok_iff.1 h
      rw [forms.unspell_document (Filter.isTopLevel_of_ofDocument hfilter),
        Filter.unspellEntries_eq_self_of_ofDocument wellFormed hfilter (byFilter.inj hmap)]
  | codeWithScope _ _ =>
    obtain ⟨key, hkey, -⟩ := Outcome.map_eq_ok_iff.1 h
    cases isLeaf_of_keyOf hkey
  | _ => rfl

/-- The lookup that a request in JSON asks for, where a table of forms says what is
spelled. -/
def ofJson (forms : Forms) (json : Json) : Outcome (Lookup κ) := do
  ofValue (← json.toValue forms)

end Lookup

/-! ### Requests in JSON -/

namespace Json

mutual

/-- Every integer within the value fits into 64 bits with a sign, and every object
within it has distinct names. -/
def Proper : Json → Prop
  | int n => -(2 ^ 63) ≤ n ∧ n < 2 ^ 63
  | array items => ProperItems items
  | object entries => (Entries.keys entries).Nodup ∧ ProperEntries entries
  | _ => True

/-- Every member of an array is proper. -/
def ProperItems : List Json → Prop
  | [] => True
  | item :: rest => Proper item ∧ ProperItems rest

/-- Every member of an object is proper. -/
def ProperEntries : List (String × Json) → Prop
  | [] => True
  | (_, item) :: rest => Proper item ∧ ProperEntries rest

end

mutual

/-- **A proper JSON value has an image**: a value with distinct names, and without the
kinds that JSON lacks. -/
theorem exists_image {json : Json} (proper : json.Proper) :
    ∃ value, json.image = .ok value ∧ value.WellFormed ∧ value.ScriptFree := by
  match json with
  | null => exact ⟨_, rfl, trivial, trivial⟩
  | bool b => exact ⟨_, rfl, trivial, trivial⟩
  | string s => exact ⟨_, rfl, trivial, trivial⟩
  | int n => exact ⟨_, if_pos proper, trivial, trivial⟩
  | float d => exact ⟨_, rfl, trivial, trivial⟩
  | array items =>
    obtain ⟨values, hvalues, hkinds⟩ := exists_imageItems proper
    refine ⟨.array values, ?_, hkinds⟩
    rw [image, hvalues]
    rfl
  | object entries =>
    obtain ⟨values, hvalues, hwellFormed, hscriptFree, hkeys⟩ := exists_imageEntries proper.2
    refine ⟨.document values, ?_, ⟨hkeys ▸ proper.1, hwellFormed⟩, hscriptFree⟩
    rw [image, hvalues]
    rfl

/-- The members of a proper array have images. -/
theorem exists_imageItems {items : List Json} (proper : ProperItems items) :
    ∃ values, imageItems items = .ok values ∧ Value.WellFormedItems values ∧
      Value.ScriptFreeItems values := by
  match items with
  | [] => exact ⟨[], rfl, trivial, trivial⟩
  | item :: rest =>
    obtain ⟨value, hvalue, hwellFormed, hscriptFree⟩ := exists_image proper.1
    obtain ⟨values, hvalues, hrest, hrestFree⟩ := exists_imageItems proper.2
    refine ⟨value :: values, ?_, ⟨hwellFormed, hrest⟩, hscriptFree, hrestFree⟩
    rw [imageItems, hvalue, hvalues]
    rfl

/-- The members of a proper object have images, under the same names. -/
theorem exists_imageEntries {entries : List (String × Json)} (proper : ProperEntries entries) :
    ∃ values, imageEntries entries = .ok values ∧ Value.WellFormedEntries values ∧
      Value.ScriptFreeEntries values ∧ Entries.keys values = Entries.keys entries := by
  match entries with
  | [] => exact ⟨[], rfl, trivial, trivial, rfl⟩
  | (name, item) :: rest =>
    obtain ⟨value, hvalue, hwellFormed, hscriptFree⟩ := exists_image proper.1
    obtain ⟨values, hvalues, hrest, hrestFree, hkeys⟩ := exists_imageEntries proper.2
    refine ⟨(name, value) :: values, ?_, ⟨hwellFormed, hrest⟩, ⟨hscriptFree, hrestFree⟩,
      congrArg _ hkeys⟩
    rw [imageEntries, hvalue, hvalues]
    rfl

end

/-- How a request in JSON is read with a table of forms, where some value says what it
should ask for: just as the value if this is literal, and as nothing else than the value
only then. What the value asks for is asked for in any case, if with replaced operands. -/
structure ReadAs (forms : Forms) (κ : Type) [EntityKey κ] (json : Json) (value : Value) :
    Prop where
  of_literal : forms.Literal value →
    (Lookup.ofJson forms json : Outcome (Lookup κ)) = Lookup.ofValue value
  iff_literal (lookup : Lookup κ) : Lookup.ofJson forms json = .ok lookup →
    (Lookup.ofValue value = .ok lookup ↔ forms.Literal value)
  of_ofValue (lookup : Lookup κ) : Lookup.ofValue value = .ok lookup →
    Lookup.ofJson forms json = .ok (lookup.map forms.unspell)

/-- **A request in JSON is read as its image with the spelled values in place**, so as the image
itself exactly when this has none. That the operands of the image tell is what excludes a
coincidence. -/
theorem readAs_of_image (forms : Forms) (κ : Type) [EntityKey κ] [EntityKey.OfLeaf κ]
    {json : Json} {value : Value} (himage : json.image = .ok value)
    (wellFormed : value.WellFormed) (scriptFree : value.ScriptFree) :
    ReadAs forms κ json value := by
  have hread : (Lookup.ofJson forms json : Outcome (Lookup κ))
      = Lookup.ofValue (forms.unspell value) := by
    rw [Lookup.ofJson, toValue, himage]
    rfl
  refine ⟨fun literal => ?_, fun lookup haccepted => ⟨fun hsame => ?_, fun literal => ?_⟩,
    fun lookup h => ?_⟩
  · rw [hread, (Forms.unspell_eq_self_iff value).2 literal]
  · -- the operands were replaced by themselves, so there was nothing to replace
    rw [hread, Lookup.ofValue_unspell scriptFree hsame] at haccepted
    exact (Forms.unspell_eq_self_iff value).1
      (Lookup.unspell_eq_self_of_ofValue wellFormed hsame (Except.ok.inj haccepted))
  · rwa [hread, (Forms.unspell_eq_self_iff value).2 literal] at haccepted
  · rw [hread, Lookup.ofValue_unspell scriptFree h]

/-- **A request in JSON has an image**, and is read as this exactly when the image is
literal, whatever the forms are. An accepted request whose image spells anything, wherever
it does, is not read as its image. -/
theorem exists_readAs_image (forms : Forms) {json : Json} (proper : json.Proper) :
    ∃ value, json.image = .ok value ∧
      ReadAs forms String json value ∧ ReadAs forms ObjectId json value := by
  obtain ⟨value, himage, wellFormed, scriptFree⟩ := exists_image proper
  exact ⟨value, himage, readAs_of_image forms String himage wellFormed scriptFree,
    readAs_of_image forms ObjectId himage wellFormed scriptFree⟩

/-- The text of an identifier. -/
def someIdentifier : String := "0123456789abcdef01234567"

/-- A filter on a field whose name is none, and that spells an identifier. -/
def filterOnIdentifier : Json :=
  .object [("$oid", .string someIdentifier)]

/-- A filter on a field with a dollar sign is refused as a value, but asks for an
entity in JSON. -/
theorem readAs_image_filterOnIdentifier :
    filterOnIdentifier.Proper ∧
    Lookup.ofJson .extended filterOnIdentifier = .ok (.byId someIdentifier : Lookup String) ∧
    ∃ value, filterOnIdentifier.image = .ok value ∧
      (Lookup.ofValue value : Outcome (Lookup String)) ≠ .ok (.byId someIdentifier) := by
  have proper : filterOnIdentifier.Proper :=
    ⟨List.nodup_singleton _, trivial, trivial⟩
  have haccepted : Lookup.ofJson .extended filterOnIdentifier
      = .ok (.byId someIdentifier : Lookup String) := rfl
  obtain ⟨value, himage, hread, -⟩ := exists_readAs_image .extended proper
  refine ⟨proper, haccepted, value, himage, fun hsame => ?_⟩
  have hvalue : value = .document [("$oid", .string someIdentifier)] :=
    (Except.ok.inj himage).symm
  have literal := (hread.iff_literal _ haccepted).1 hsame
  rw [hvalue] at literal
  cases literal.2

end Json

end RecordStore
