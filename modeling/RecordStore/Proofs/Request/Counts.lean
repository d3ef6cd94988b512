import RecordStore.Proofs.Double.Value
import RecordStore.Proofs.Request.Order

/-!
# The counts of a sort

An offset or a limit may be given as an integer of either width or as a double, and
what counts is the number that the value stands for (`RecordStore.Value.toRat?`). It is
accepted exactly when that is a natural number, and is then read as this number if
it is below `2 ^ 63`. Only a double can be larger. It is not refused, though no count
of 64 bits stands for it, but read as the largest one
(`RecordStore.Sorting.ofDocument_count`).

The entries of a sort are read in order, and a count has one of its own. It is moved to
the end first, which changes nothing (`RecordStore.Sorting.alike_ofDocument`), so that
what the other entries spell is read before.
-/

namespace RecordStore

/-! ### The number that a value stands for -/

namespace Value

/-- The number that a value stands for, if it is of a numeric kind and finite. -/
def toRat? : Value → Option ℚ
  | int32 n => some n.toInt
  | int64 n => some n.toInt
  | double d => d.toRat?
  | _ => none

theorem some_intCast_eq_iff {i : ℤ} {m : ℕ} : some (i : ℚ) = some (m : ℚ) ↔ i = m := by
  rw [Option.some_inj]
  norm_cast

/-- An integer of at most 64 bits is read as it is: it is not too large for a count. -/
theorem toNat?_eq_some_iff_of_lt {i : ℤ} {n : ℕ} (h : i < 2 ^ 63) :
    i.toNat? = some n ↔ ∃ m : ℕ, some (i : ℚ) = some (m : ℚ) ∧ n = min m largestCount := by
  simp only [some_intCast_eq_iff, largestCount]
  constructor
  · intro hn
    have hi := Int.mem_toNat?.1 hn
    exact ⟨n, hi, by omega⟩
  · rintro ⟨m, hi, hn⟩
    exact Int.mem_toNat?.2 (by omega)

/-- **A value is read as a count exactly when it stands for a natural number**, and as
that number unless it is too large. -/
theorem count?_eq_some_iff {value : Value} {n : ℕ} :
    value.count? = some n ↔ ∃ m : ℕ, value.toRat? = some (m : ℚ) ∧ n = min m largestCount := by
  cases value with
  | int32 i =>
    have hlt := i.toInt_lt
    exact toNat?_eq_some_iff_of_lt (by omega)
  | int64 i => exact toNat?_eq_some_iff_of_lt i.toInt_lt
  | double d =>
    rw [count?, toRat?, Option.bind_eq_some_iff]
    constructor
    · rintro ⟨i, hi, hn⟩
      obtain ⟨m, hm, rfl⟩ := Option.map_eq_some_iff.1 hn
      rw [Int.mem_toNat?.1 hm, Double.toInt?_eq_some_iff] at hi
      exact ⟨m, by exact_mod_cast hi, rfl⟩
    · rintro ⟨m, hm, rfl⟩
      refine ⟨m, Double.toInt?_eq_some_iff.2 (by exact_mod_cast hm), ?_⟩
      rw [Int.mem_toNat?.2 rfl, Option.map_some]
  | _ => simp [count?, toRat?]

/-- Only a double can stand for a number that is larger than all integers of 64
bits. -/
theorem lt_or_double {value : Value} {m : ℕ} (h : value.toRat? = some (m : ℚ)) :
    m < 2 ^ 63 ∨ ∃ d, value = double d := by
  cases value with
  | int32 i =>
    have hlt := i.toInt_lt
    have hi := some_intCast_eq_iff.1 h
    exact .inl (by omega)
  | int64 i =>
    have hlt := i.toInt_lt
    have hi := some_intCast_eq_iff.1 h
    exact .inl (by omega)
  | double d => exact .inr ⟨d, rfl⟩
  | _ => cases h

end Value

namespace Sorting

/-- The count of a sort under the name of its entry. -/
def countUnder (sort : Sorting) (key : String) : Option ℕ :=
  if key = "offset" then sort.offset else sort.limit

/-- Puts a count under the name of its entry. -/
def setCount (sort : Sorting) (key : String) (n : ℕ) : Sorting :=
  if key = "offset" then { sort with offset := some n } else { sort with limit := some n }

variable {document : Document} {sort : Sorting} {key : String} {value : Value}

theorem countUnder_setCount (sort : Sorting) (key : String) (n : ℕ) :
    (sort.setCount key n).countUnder key = some n := by
  rw [setCount, countUnder]
  split <;> rfl

/-- A count is accepted when the value stands for it. -/
theorem count_eq_ok_iff {n : ℕ} : count key value = .ok n ↔ value.count? = some n := by
  rw [count]
  rcases value.count? with _ | m <;> simp

/-- **An offset or a limit is taken over exactly when its value stands for a count.** -/
theorem takeEntry_count (hkey : key = "offset" ∨ key = "limit") (hvalue : value ≠ .null)
    {next : Sorting} :
    sort.takeEntry (key, value) = .ok next ↔
      ∃ n, value.count? = some n ∧ next = sort.setCount key n := by
  have htake : sort.takeEntry (key, value) = sort.setCount key <$> count key value := by
    rcases hkey with rfl | rfl
    · cases value <;> first | rfl | exact absurd rfl hvalue
    · cases value <;> first | rfl | exact absurd rfl hvalue
  rw [htake, Outcome.map_eq_ok_iff]
  exact exists_congr fun n => and_congr count_eq_ok_iff eq_comm

/-- The entries of a sort may come in any order. -/
theorem ofDocument_eq_ok_iff_of_perm {others : Document} (distinct : document.keys.Nodup)
    (h : document.Perm others) : ofDocument document = .ok sort ↔ ofDocument others = .ok sort := by
  have hsame : ∀ entries others : Document, entries.keys.Nodup → entries.Perm others →
      ofDocument entries = .ok sort → ofDocument others = .ok sort := by
    intro entries others distinct hperm hentries
    exact (alike_ofDocument distinct (Document.reordered_of_perm
      (fun _ => Value.ReorderedCondition.refl) hperm)).eq_ok hentries
  exact ⟨hsame _ _ distinct h, hsame _ _ ((h.map Prod.fst).nodup distinct) h.symm⟩

/-- A count is put to what the other entries spell. -/
theorem ofDocument_eq_ok_iff_of_count (distinct : document.keys.Nodup)
    (hkey : key = "offset" ∨ key = "limit") (given : document.get? key = some value)
    (hvalue : value ≠ .null) :
    ofDocument document = .ok sort ↔
      ∃ rest n, ofDocument (document.erase key) = .ok rest ∧ value.count? = some n ∧
        sort = rest.setCount key n := by
  rw [ofDocument_eq_ok_iff_of_perm distinct (Entries.perm_erase_append distinct given), ofDocument,
    List.foldlM_append, Outcome.bind_eq_ok_iff]
  simp only [List.foldlM_cons, List.foldlM_nil, bind_pure, takeEntry_count hkey hvalue]
  constructor
  · rintro ⟨rest, hrest, n, hn, rfl⟩
    exact ⟨rest, n, hrest, hn, rfl⟩
  · rintro ⟨rest, n, hrest, hn, rfl⟩
    exact ⟨rest, hrest, n, hn, rfl⟩

/-- **How the counts of a sort are read.** An offset or a limit is accepted exactly when
it stands for a natural number, whatever the rest of the document. It is read as this
number if it is below `2 ^ 63`; from there on it can only be a double, and is read as
the number before `2 ^ 63`. -/
theorem ofDocument_count (distinct : document.keys.Nodup)
    (hkey : key = "offset" ∨ key = "limit") (given : document.get? key = some value)
    (hvalue : value ≠ .null) :
    ((∃ sort, ofDocument document = .ok sort) ↔
      (∃ rest, ofDocument (document.erase key) = .ok rest) ∧
        ∃ m : ℕ, value.toRat? = some (m : ℚ)) ∧
    ∀ sort, ofDocument document = .ok sort →
      ∃ m n : ℕ, value.toRat? = some (m : ℚ) ∧ sort.countUnder key = some n ∧
        (n = m ↔ m < 2 ^ 63) ∧ (2 ^ 63 ≤ m → n = 2 ^ 63 - 1 ∧ ∃ d, value = .double d) := by
  have hread : ∀ sort, ofDocument document = .ok sort ↔ ∃ rest n,
      ofDocument (document.erase key) = .ok rest ∧ value.count? = some n ∧
        sort = rest.setCount key n :=
    fun _ => ofDocument_eq_ok_iff_of_count distinct hkey given hvalue
  constructor
  · constructor
    · rintro ⟨sort, hsort⟩
      obtain ⟨rest, n, hrest, hcount, -⟩ := (hread sort).1 hsort
      obtain ⟨m, hm, -⟩ := Value.count?_eq_some_iff.1 hcount
      exact ⟨⟨rest, hrest⟩, m, hm⟩
    · rintro ⟨⟨rest, hrest⟩, m, hm⟩
      exact ⟨_, (hread _).2 ⟨rest, _, hrest, Value.count?_eq_some_iff.2 ⟨m, hm, rfl⟩, rfl⟩⟩
  · intro sort hsort
    obtain ⟨rest, n, -, hcount, rfl⟩ := (hread sort).1 hsort
    obtain ⟨m, hm, hn⟩ := Value.count?_eq_some_iff.1 hcount
    refine ⟨m, n, hm, countUnder_setCount rest key n, ?_, fun hlarge => ⟨?_, ?_⟩⟩
    · rw [Value.largestCount] at hn
      omega
    · rw [Value.largestCount] at hn
      omega
    · exact (Value.lt_or_double hm).resolve_left (Nat.not_lt.2 hlarge)

/-- A sort with a limit of `2 ^ 63`. -/
def farLimit : Document :=
  [("limit", .double ⟨0x43e0000000000000⟩)]

/-- A limit of `2 ^ 63` is accepted and read as one less. -/
theorem ofDocument_farLimit :
    (Value.double ⟨0x43e0000000000000⟩).toRat? = some (2 ^ 63) ∧
      ∃ sort, ofDocument farLimit = .ok sort ∧ sort.limit = some (2 ^ 63 - 1) := by
  have hinteger : (Double.mk 0x43e0000000000000).toInt? = some ((2 ^ 63 : ℕ) : ℤ) := by decide
  have hnumber : (Value.double ⟨0x43e0000000000000⟩).toRat? = some ((2 ^ 63 : ℕ) : ℚ) :=
    Double.toInt?_eq_some_iff.1 hinteger
  have given : farLimit.get? "limit" = some (.double ⟨0x43e0000000000000⟩) := rfl
  obtain ⟨haccepted, hread⟩ := ofDocument_count (by decide) (.inr rfl) given nofun
  obtain ⟨sort, hsort⟩ := haccepted.2 ⟨⟨empty, rfl⟩, 2 ^ 63, hnumber⟩
  obtain ⟨m, n, hm, hn, -, hlarge⟩ := hread sort hsort
  rw [hnumber, Option.some_inj, Nat.cast_inj] at hm
  have hcount : n = 2 ^ 63 - 1 := (hlarge (Nat.le_of_eq hm)).1
  refine ⟨by exact_mod_cast hnumber, sort, hsort, ?_⟩
  rw [← hcount, ← hn]
  rfl

end Sorting

end RecordStore
