import CorpusKit.Library.Json
import Mathlib.Data.Int.Log
import Mathlib.Data.Rat.Floor

/-! # Equality of decoded JSON

Python compares decoded values by `==`: a boolean is a number, an integer and a
float are equal when their values are, and a dictionary is compared key by key.
`reading` is what such a comparison can see of a value: two values are equal
exactly when they read the same. -/

namespace Json

/-! ## The number a float stands for -/

def signedDigits : List Char → Int
  | '-' :: digits => -(Nat.ofDigitChars 10 digits 0 : Int)
  | '+' :: digits => Nat.ofDigitChars 10 digits 0
  | digits => Nat.ofDigitChars 10 digits 0

/-- Digits with an optional fraction and an optional exponent. -/
def unsignedDecimal (chars : List Char) : ℚ :=
  let mantissa := chars.takeWhile (· != 'e')
  let exponent := (chars.dropWhile (· != 'e')).drop 1
  let whole := mantissa.takeWhile (· != '.')
  let fraction := (mantissa.dropWhile (· != '.')).drop 1
  (Nat.ofDigitChars 10 (whole ++ fraction) 0 : ℚ) *
    10 ^ (signedDigits exponent - fraction.length)

def decimal : List Char → ℚ
  | '-' :: chars => -unsignedDecimal chars
  | chars => unsignedDecimal chars

/-- The double nearest to a rational, ties to even; texts of finite doubles do
not overflow. -/
def binary64 (q : ℚ) : ℚ :=
  if q = 0 then 0 else
    let unit := (2 : ℚ) ^ (max (Int.log 2 |q|) (-1022) - 52)
    let below := ⌊|q| / unit⌋
    let rest := |q| / unit - below
    let significand := if rest < 1 / 2 ∨ rest = 1 / 2 ∧ below % 2 = 0 then below else below + 1
    if q < 0 then -(significand * unit) else significand * unit

/-- Integers below `2 ^ 53` are doubles. -/
theorem binary64_natCast {n : Nat} (h : n < 2 ^ 53) : binary64 n = n := by
  by_cases hzero : n = 0
  · subst hzero
    simp [binary64]
  have hpos : (0 : ℚ) < n := by exact_mod_cast Nat.pos_of_ne_zero hzero
  have hlog : Int.log 2 (n : ℚ) = (Nat.log 2 n : Int) := Int.log_natCast 2 n
  have hbound : Nat.log 2 n ≤ 52 := by
    have := Nat.log_lt_of_lt_pow hzero h
    omega
  have hmax : max (Int.log 2 (n : ℚ)) (-1022) - 52 = -((52 - Nat.log 2 n : Nat) : Int) := by
    rw [hlog, max_eq_left (by omega)]
    omega
  have hunit : (0 : ℚ) < 2 ^ (52 - Nat.log 2 n) := by positivity
  have hdiv : (n : ℚ) / 2 ^ (-((52 - Nat.log 2 n : Nat) : Int)) =
      ((n * 2 ^ (52 - Nat.log 2 n) : Nat) : ℚ) := by
    rw [zpow_neg, zpow_natCast, div_inv_eq_mul]
    push_cast
    rfl
  simp only [binary64, if_neg (ne_of_gt hpos), abs_of_pos hpos, hmax, hdiv, Int.floor_natCast,
    Int.cast_natCast, sub_self, not_lt.mpr (le_of_lt hpos), if_false]
  rw [if_pos (Or.inl (by norm_num)), zpow_neg, zpow_natCast, Int.cast_natCast]
  push_cast
  rw [mul_assoc, mul_inv_cancel₀ (ne_of_gt hunit), mul_one]

def FloatText.value (x : FloatText) : ℚ := binary64 (decimal x.chars)

/-! ## Python's `==` -/

def Value.number : Value → Option ℚ
  | .bool b => some (if b then 1 else 0)
  | .int n => some n
  | .float x => some x.value
  | _ => none

mutual

def pyEq : Value → Value → Bool
  | .null, .null => true
  | .str s, .str t => s == t
  | .arr xs, .arr ys => pyEqItems xs ys
  | .obj xs, .obj ys => xs.length == ys.length && pyEqFields xs ys
  | .bool b, w => w.number == some (if b then 1 else 0)
  | .int n, w => w.number == some (n : ℚ)
  | .float x, w => w.number == some x.value
  | _, _ => false

def pyEqItems : List Value → List Value → Bool
  | [], [] => true
  | x :: xs, y :: ys => pyEq x y && pyEqItems xs ys
  | _, _ => false

/-- Every field of the first dictionary has an equal one in the second. -/
def pyEqFields : List (List Char × Value) → List (List Char × Value) → Bool
  | [], _ => true
  | (key, x) :: xs, ys =>
    (match ys.lookup key with
      | some y => pyEq x y
      | none => false) && pyEqFields xs ys

end

/-! ## Readings -/

/-- A value as `==` sees it. -/
inductive Reading
  | null
  | number (value : ℚ)
  | str (value : List Char)
  | arr (items : List Reading)
  | obj (fields : List (List Char × Reading))

mutual

def Value.reading : Value → Reading
  | .null => .null
  | .bool b => .number (if b then 1 else 0)
  | .int n => .number n
  | .float x => .number x.value
  | .str s => .str s
  | .arr items => .arr (readItems items)
  | .obj fields => .obj (readFields fields)

def readItems : List Value → List Reading
  | [] => []
  | item :: items => item.reading :: readItems items

def readFields : List (List Char × Value) → List (List Char × Reading)
  | [] => []
  | (key, value) :: fields => (key, value.reading) :: readFields fields

end

/-! ## Fields by key -/

section Lookup

variable {κ ρ : Type} [BEq κ] [LawfulBEq κ] {xs : List (κ × ρ)}

theorem mem_of_lookup {key : κ} {r : ρ} (h : xs.lookup key = some r) : (key, r) ∈ xs := by
  obtain ⟨before, after, rfl, -⟩ := List.lookup_eq_some_iff.mp h
  exact List.mem_append_right _ List.mem_cons_self

theorem lookup_of_mem (hxs : (xs.map Prod.fst).Nodup) {key : κ} {r : ρ}
    (h : (key, r) ∈ xs) : xs.lookup key = some r := by
  induction xs with
  | nil => cases h
  | cons x xs ih =>
    obtain ⟨hx, hxs⟩ := List.nodup_cons.mp hxs
    rw [List.lookup_cons]
    rcases List.mem_cons.mp h with rfl | h
    · simp
    · have hne : (key == x.1) = false := by
        rw [beq_eq_false_iff_ne]
        rintro rfl
        exact hx (List.mem_map.mpr ⟨_, h, rfl⟩)
      rw [hne]
      exact ih hxs h

end Lookup

section Fields

variable {ρ : Type} {xs ys : List (List Char × ρ)}

/-- Where no key occurs twice, the order of the fields does not matter. -/
theorem lookup_perm (h : xs.Perm ys) (hxs : (xs.map Prod.fst).Nodup) (key : List Char) :
    xs.lookup key = ys.lookup key := by
  have hys : (ys.map Prod.fst).Nodup := (h.map Prod.fst).nodup_iff.mp hxs
  cases hx : xs.lookup key with
  | some r => exact (lookup_of_mem hys (h.subset (mem_of_lookup hx))).symm
  | none =>
    cases hy : ys.lookup key with
    | none => rfl
    | some r =>
      rw [lookup_of_mem hxs (h.symm.subset (mem_of_lookup hy))] at hx
      cases hx

theorem pairwise_sort (h : (xs.map Prod.fst).Nodup) :
    (xs.insertionSort fun a b => a.1 ≤ b.1).Pairwise fun a b => a.1 < b.1 := by
  have : Std.Total fun a b : List Char × ρ => a.1 ≤ b.1 := ⟨fun a b => le_total a.1 b.1⟩
  have : IsTrans (List Char × ρ) fun a b => a.1 ≤ b.1 := ⟨fun a b c => le_trans⟩
  have hle := List.pairwise_insertionSort (fun a b : List Char × ρ => a.1 ≤ b.1) xs
  have hne : (xs.insertionSort fun a b => a.1 ≤ b.1).Pairwise fun a b => a.1 ≠ b.1 :=
    List.pairwise_map.mp (((List.perm_insertionSort _ xs).map Prod.fst).nodup_iff.mpr h)
  exact (hle.and hne).imp fun hab => lt_of_le_of_ne hab.1 hab.2

theorem perm_sort (xs : List (List Char × ρ)) :
    (xs.insertionSort fun a b => a.1 ≤ b.1).Perm xs :=
  List.perm_insertionSort _ xs

theorem perm_of_sort_eq
    (h : (xs.insertionSort fun a b => a.1 ≤ b.1) = ys.insertionSort fun a b => a.1 ≤ b.1) :
    xs.Perm ys := by
  have hys := perm_sort ys
  rw [← h] at hys
  exact (perm_sort xs).symm.trans hys

/-- Two dictionaries of one size, one of which has the fields of the other, are
the same once both are in order. -/
theorem sorted_fields_eq (hxs : (xs.map Prod.fst).Nodup) (hys : (ys.map Prod.fst).Nodup) :
    (xs.length = ys.length ∧ ∀ x ∈ xs, ys.lookup x.1 = some x.2) ↔
      (xs.insertionSort fun a b => a.1 ≤ b.1) = ys.insertionSort fun a b => a.1 ≤ b.1 := by
  constructor
  · rintro ⟨hlength, hfields⟩
    have hperm : xs.Perm ys :=
      (List.subperm_of_subset hxs.of_map fun x hx => mem_of_lookup (hfields x hx)).perm_of_length_le
        hlength.ge
    have hsort := ((perm_sort xs).trans hperm).trans (perm_sort ys).symm
    exact hsort.eq_of_pairwise (fun a b _ _ hab hba => absurd hab (lt_asymm hba))
      (pairwise_sort hxs) (pairwise_sort hys)
  · intro hsort
    have hperm : xs.Perm ys := perm_of_sort_eq hsort
    exact ⟨hperm.length_eq, fun x hx => lookup_of_mem hys (hperm.mem_iff.mp hx)⟩

/-- A permutation that leaves the keys where they are changes nothing. -/
theorem eq_of_perm_of_keys (hperm : xs.Perm ys) (hkeys : xs.map Prod.fst = ys.map Prod.fst)
    (hnodup : (xs.map Prod.fst).Nodup) : xs = ys := by
  induction xs generalizing ys with
  | nil => exact hperm.nil_eq
  | cons x xs ih =>
    cases ys with
    | nil => cases hkeys
    | cons y ys =>
      rw [List.map_cons, List.map_cons, List.cons.injEq] at hkeys
      obtain ⟨hkey, hkeys⟩ := hkeys
      obtain ⟨hx, hnodup⟩ := List.nodup_cons.mp hnodup
      have hxy : x = y := by
        rcases List.mem_cons.mp (hperm.mem_iff.mp List.mem_cons_self) with hxy | hmem
        · exact hxy
        · exact absurd (hkeys ▸ List.mem_map_of_mem hmem) hx
      subst hxy
      rw [ih hperm.cons_inv hkeys hnodup]

end Fields

/-- Two objects over one list of keys have the same text when their fields do. -/
theorem sorted_obj_inj {xs ys : List (List Char × Value)}
    (hkeys : xs.map Prod.fst = ys.map Prod.fst) (hnodup : (xs.map Prod.fst).Nodup) :
    (Value.obj xs).sorted = (Value.obj ys).sorted ↔ sortedFields xs = sortedFields ys := by
  have hmap (fields : List (List Char × Value)) :
      (sortedFields fields).map Prod.fst = fields.map Prod.fst := by
    rw [sortedFields_eq_map, List.map_map]
    rfl
  rw [Value.sorted, Value.sorted, Value.obj.injEq]
  refine ⟨fun hsort => ?_, fun h => by rw [h]⟩
  exact eq_of_perm_of_keys (perm_of_sort_eq hsort) (by rw [hmap, hmap, hkeys])
    (by rw [hmap]; exact hnodup)

/-! ## Dictionaries and loaded values -/

mutual

/-- Every object is a dictionary: no key occurs twice. -/
def Value.Dict : Value → Prop
  | .arr items => DictItems items
  | .obj fields => (fields.map Prod.fst).Nodup ∧ DictFields fields
  | _ => True

def DictItems : List Value → Prop
  | [] => True
  | item :: items => item.Dict ∧ DictItems items

def DictFields : List (List Char × Value) → Prop
  | [] => True
  | (_, value) :: fields => value.Dict ∧ DictFields fields

end

mutual

/-- A value read back from sorted text: the keys of every object are in order. -/
def Value.Loaded : Value → Prop
  | .arr items => LoadedItems items
  | .obj fields => (fields.Pairwise fun a b => a.1 < b.1) ∧ LoadedFields fields
  | _ => True

def LoadedItems : List Value → Prop
  | [] => True
  | item :: items => item.Loaded ∧ LoadedItems items

def LoadedFields : List (List Char × Value) → Prop
  | [] => True
  | (_, value) :: fields => value.Loaded ∧ LoadedFields fields

end

theorem loadedFields_iff {fields : List (List Char × Value)} :
    LoadedFields fields ↔ ∀ field ∈ fields, field.2.Loaded := by
  induction fields with
  | nil => simp [LoadedFields]
  | cons field fields ih => simp [LoadedFields, ih]

theorem dictItems_iff {items : List Value} : DictItems items ↔ ∀ item ∈ items, item.Dict := by
  induction items with
  | nil => simp [DictItems]
  | cons item items ih => simp [DictItems, ih]

theorem dictFields_iff {fields : List (List Char × Value)} :
    DictFields fields ↔ ∀ field ∈ fields, field.2.Dict := by
  induction fields with
  | nil => simp [DictFields]
  | cons field fields ih => simp [DictFields, ih]

mutual

/-- `json.loads(json.dumps(value, sort_keys=True))` of a dictionary is loaded. -/
theorem Value.Dict.loaded {v : Value} (h : v.Dict) : v.sorted.Loaded := by
  match v with
  | .null => trivial
  | .bool b => trivial
  | .int n => trivial
  | .float x => trivial
  | .str s => trivial
  | .arr items => exact DictItems.loaded h
  | .obj fields =>
    refine ⟨pairwise_sort ?_, loadedFields_iff.mpr fun field hfield => ?_⟩
    · rw [sortedFields_eq_map, List.map_map]
      exact h.1
    · exact loadedFields_iff.mp (DictFields.loaded h.2) field
        ((List.perm_insertionSort _ _).mem_iff.mp hfield)

theorem DictItems.loaded {items : List Value} (h : DictItems items) :
    LoadedItems (sortedItems items) := by
  match items with
  | [] => trivial
  | item :: items => exact ⟨Value.Dict.loaded h.1, DictItems.loaded h.2⟩

theorem DictFields.loaded {fields : List (List Char × Value)} (h : DictFields fields) :
    LoadedFields (sortedFields fields) := by
  match fields with
  | [] => trivial
  | (key, value) :: fields => exact ⟨Value.Dict.loaded h.1, DictFields.loaded h.2⟩

end

mutual

theorem Value.Loaded.dict {v : Value} (h : v.Loaded) : v.Dict := by
  match v with
  | .null => trivial
  | .bool b => trivial
  | .int n => trivial
  | .float x => trivial
  | .str s => trivial
  | .arr items => exact LoadedItems.dict h
  | .obj fields =>
    exact ⟨List.pairwise_map.mpr (h.1.imp fun hab => ne_of_lt hab), LoadedFields.dict h.2⟩

theorem LoadedItems.dict {items : List Value} (h : LoadedItems items) : DictItems items := by
  match items with
  | [] => trivial
  | item :: items => exact ⟨Value.Loaded.dict h.1, LoadedItems.dict h.2⟩

theorem LoadedFields.dict {fields : List (List Char × Value)} (h : LoadedFields fields) :
    DictFields fields := by
  match fields with
  | [] => trivial
  | (key, value) :: fields => exact ⟨Value.Loaded.dict h.1, LoadedFields.dict h.2⟩

end

mutual

theorem Value.Loaded.sorted {v : Value} (h : v.Loaded) : v.sorted = v := by
  match v with
  | .null => rfl
  | .bool b => rfl
  | .int n => rfl
  | .float x => rfl
  | .str s => rfl
  | .arr items => rw [Value.sorted, LoadedItems.sorted h]
  | .obj fields =>
    rw [Value.sorted, LoadedFields.sorted h.2,
      List.Pairwise.insertionSort_eq (h.1.imp fun hab => le_of_lt hab)]

theorem LoadedItems.sorted {items : List Value} (h : LoadedItems items) :
    sortedItems items = items := by
  match items with
  | [] => rfl
  | item :: items => rw [sortedItems, Value.Loaded.sorted h.1, LoadedItems.sorted h.2]

theorem LoadedFields.sorted {fields : List (List Char × Value)} (h : LoadedFields fields) :
    sortedFields fields = fields := by
  match fields with
  | [] => rfl
  | (key, value) :: fields => rw [sortedFields, Value.Loaded.sorted h.1, LoadedFields.sorted h.2]

end

/-- The text of a loaded value determines it. -/
theorem Value.Loaded.dumps_injective {v w : Value} (hv : v.Loaded) (hw : w.Loaded)
    (h : dumps v = dumps w) : v = w := by
  rw [← hv.sorted, ← hw.sorted]
  exact Json.dumps_injective h

/-! ## Equal values read the same -/

theorem number_eq_some {w : Value} {q : ℚ} : w.number = some q ↔ w.reading = .number q := by
  cases w <;> simp [Value.number, Value.reading]

/-- Putting keys in order leaves numbers as they are. -/
theorem sorted_reading_number {w : Value} {q : ℚ} :
    w.sorted.reading = .number q ↔ w.reading = .number q := by
  cases w <;> simp [Value.sorted, Value.reading]

theorem readFields_eq_map (fields : List (List Char × Value)) :
    readFields fields = fields.map fun field => (field.1, field.2.reading) := by
  induction fields with
  | nil => rfl
  | cons field fields ih => rw [readFields, ih]; rfl

theorem readFields_lookup (fields : List (List Char × Value)) (key : List Char) :
    (readFields fields).lookup key = (fields.lookup key).map Value.reading := by
  induction fields with
  | nil => rfl
  | cons field fields ih =>
    rw [readFields, List.lookup_cons, List.lookup_cons, ih]
    cases key == field.1 <;> rfl

theorem sortedFields_lookup (fields : List (List Char × Value)) (key : List Char) :
    (sortedFields fields).lookup key = (fields.lookup key).map Value.sorted := by
  induction fields with
  | nil => rfl
  | cons field fields ih =>
    rw [sortedFields, List.lookup_cons, List.lookup_cons, ih]
    cases key == field.1 <;> rfl

theorem readFields_lookup_sorted (fields : List (List Char × Value)) (key : List Char) :
    (readFields (sortedFields fields)).lookup key =
      (fields.lookup key).map fun value => value.sorted.reading := by
  rw [readFields_lookup, sortedFields_lookup, Option.map_map]
  rfl

theorem sort_readFields (fields : List (List Char × Value)) :
    readFields (fields.insertionSort fun a b => a.1 ≤ b.1) =
      (readFields fields).insertionSort fun a b => a.1 ≤ b.1 := by
  rw [readFields_eq_map, readFields_eq_map]
  exact List.map_insertionSort (fun a b : List Char × Value => a.1 ≤ b.1)
    (fun a b : List Char × Reading => a.1 ≤ b.1) (fun field => (field.1, field.2.reading)) fields
    fun a _ b _ => Iff.rfl

theorem keys_readFields (fields : List (List Char × Value)) :
    (readFields (sortedFields fields)).map Prod.fst = fields.map Prod.fst := by
  rw [readFields_eq_map, sortedFields_eq_map, List.map_map, List.map_map]
  rfl

mutual

/-- **Equality of decoded values.** Two dictionaries are equal for Python exactly
when they read the same once their keys are in order. -/
theorem pyEq_iff_reading {v w : Value} (hv : v.Dict) (hw : w.Dict) :
    pyEq v w = true ↔ v.sorted.reading = w.sorted.reading := by
  match v, w with
  | .null, w => cases w <;> simp [pyEq, Value.sorted, Value.reading]
  | .bool b, w =>
    rw [pyEq, beq_iff_eq, number_eq_some, ← sorted_reading_number, Value.sorted, Value.reading,
      eq_comm]
  | .int n, w =>
    rw [pyEq, beq_iff_eq, number_eq_some, ← sorted_reading_number, Value.sorted, Value.reading,
      eq_comm]
  | .float x, w =>
    rw [pyEq, beq_iff_eq, number_eq_some, ← sorted_reading_number, Value.sorted, Value.reading,
      eq_comm]
  | .str s, w => cases w <;> simp [pyEq, Value.sorted, Value.reading]
  | .arr xs, .arr ys =>
    rw [pyEq, pyEqItems_iff hv hw, Value.sorted, Value.sorted, Value.reading, Value.reading,
      Reading.arr.injEq]
  | .arr xs, .null | .arr xs, .bool _ | .arr xs, .int _ | .arr xs, .float _ | .arr xs, .str _
  | .arr xs, .obj _ => simp [pyEq, Value.sorted, Value.reading]
  | .obj xs, .obj ys =>
    rw [pyEq, Bool.and_eq_true, beq_iff_eq, pyEqFields_iff hv.2 hw.2, Value.sorted, Value.sorted,
      Value.reading, Value.reading, Reading.obj.injEq, sort_readFields, sort_readFields,
      ← sorted_fields_eq (by rw [keys_readFields]; exact hv.1)
        (by rw [keys_readFields]; exact hw.1)]
    simp [readFields_eq_map, sortedFields_eq_map]
  | .obj xs, .null | .obj xs, .bool _ | .obj xs, .int _ | .obj xs, .float _ | .obj xs, .str _
  | .obj xs, .arr _ => simp [pyEq, Value.sorted, Value.reading]

theorem pyEqItems_iff {xs ys : List Value} (hxs : DictItems xs) (hys : DictItems ys) :
    pyEqItems xs ys = true ↔ readItems (sortedItems xs) = readItems (sortedItems ys) := by
  match xs, ys with
  | [], [] => simp [pyEqItems]
  | [], y :: ys => simp [pyEqItems, sortedItems, readItems]
  | x :: xs, [] => simp [pyEqItems, sortedItems, readItems]
  | x :: xs, y :: ys =>
    rw [pyEqItems, Bool.and_eq_true, pyEq_iff_reading hxs.1 hys.1, pyEqItems_iff hxs.2 hys.2,
      sortedItems, sortedItems, readItems, readItems, List.cons.injEq]

theorem pyEqFields_iff {xs ys : List (List Char × Value)} (hxs : DictFields xs)
    (hys : DictFields ys) :
    pyEqFields xs ys = true ↔
      ∀ x ∈ readFields (sortedFields xs),
        (readFields (sortedFields ys)).lookup x.1 = some x.2 := by
  match xs with
  | [] => simp [pyEqFields, sortedFields, readFields]
  | (key, x) :: xs =>
    rw [pyEqFields, Bool.and_eq_true, pyEqFields_iff hxs.2 hys, sortedFields, readFields,
      List.forall_mem_cons]
    refine and_congr_left fun _ => ?_
    rw [readFields_lookup_sorted]
    cases hy : ys.lookup key with
    | none => simp
    | some y =>
      have hdict : y.Dict := dictFields_iff.mp hys _ (mem_of_lookup hy)
      show pyEq x y = true ↔ some y.sorted.reading = some x.sorted.reading
      rw [pyEq_iff_reading hxs.1 hdict, Option.some.injEq, eq_comm]

end

/-! ## Values without booleans and floats -/

mutual

/-- No boolean and no float occurs in the value. -/
def Value.Plain : Value → Prop
  | .bool _ => False
  | .float _ => False
  | .arr items => PlainItems items
  | .obj fields => PlainFields fields
  | _ => True

def PlainItems : List Value → Prop
  | [] => True
  | item :: items => item.Plain ∧ PlainItems items

def PlainFields : List (List Char × Value) → Prop
  | [] => True
  | (_, value) :: fields => value.Plain ∧ PlainFields fields

end

theorem plainItems_iff {items : List Value} : PlainItems items ↔ ∀ item ∈ items, item.Plain := by
  induction items with
  | nil => simp [PlainItems]
  | cons item items ih => simp [PlainItems, ih]

theorem plainFields_iff {fields : List (List Char × Value)} :
    PlainFields fields ↔ ∀ field ∈ fields, field.2.Plain := by
  induction fields with
  | nil => simp [PlainFields]
  | cons field fields ih => simp [PlainFields, ih]

mutual

theorem Value.Plain.sorted {v : Value} (h : v.Plain) : v.sorted.Plain := by
  match v with
  | .null => trivial
  | .int n => trivial
  | .str s => trivial
  | .arr items => exact PlainItems.sorted h
  | .obj fields =>
    refine plainFields_iff.mpr fun field hfield => ?_
    exact plainFields_iff.mp (PlainFields.sorted h) field
      ((List.perm_insertionSort _ _).mem_iff.mp hfield)

theorem PlainItems.sorted {items : List Value} (h : PlainItems items) :
    PlainItems (sortedItems items) := by
  match items with
  | [] => trivial
  | item :: items => exact ⟨Value.Plain.sorted h.1, PlainItems.sorted h.2⟩

theorem PlainFields.sorted {fields : List (List Char × Value)} (h : PlainFields fields) :
    PlainFields (sortedFields fields) := by
  match fields with
  | [] => trivial
  | (key, value) :: fields => exact ⟨Value.Plain.sorted h.1, PlainFields.sorted h.2⟩

end

mutual

/-- Without booleans and floats the reading is the value. -/
theorem Value.Plain.reading_inj {v w : Value} (hv : v.Plain) (hw : w.Plain)
    (h : v.reading = w.reading) : v = w := by
  match v, w with
  | .null, .null => rfl
  | .null, .int _ | .null, .str _ | .null, .arr _ | .null, .obj _ => simp [Value.reading] at h
  | .int m, .int n =>
    rw [Value.reading, Value.reading, Reading.number.injEq, Int.cast_inj] at h
    rw [h]
  | .int _, .null | .int _, .str _ | .int _, .arr _ | .int _, .obj _ => simp [Value.reading] at h
  | .str s, .str t =>
    rw [Value.reading, Value.reading, Reading.str.injEq] at h
    rw [h]
  | .str _, .null | .str _, .int _ | .str _, .arr _ | .str _, .obj _ => simp [Value.reading] at h
  | .arr xs, .arr ys =>
    rw [Value.reading, Value.reading, Reading.arr.injEq] at h
    rw [PlainItems.reading_inj hv hw h]
  | .arr _, .null | .arr _, .int _ | .arr _, .str _ | .arr _, .obj _ => simp [Value.reading] at h
  | .obj xs, .obj ys =>
    rw [Value.reading, Value.reading, Reading.obj.injEq] at h
    rw [PlainFields.reading_inj hv hw h]
  | .obj _, .null | .obj _, .int _ | .obj _, .str _ | .obj _, .arr _ => simp [Value.reading] at h

theorem PlainItems.reading_inj {xs ys : List Value} (hxs : PlainItems xs) (hys : PlainItems ys)
    (h : readItems xs = readItems ys) : xs = ys := by
  match xs, ys with
  | [], [] => rfl
  | [], y :: ys => simp [readItems] at h
  | x :: xs, [] => simp [readItems] at h
  | x :: xs, y :: ys =>
    rw [readItems, readItems, List.cons.injEq] at h
    rw [Value.Plain.reading_inj hxs.1 hys.1 h.1, PlainItems.reading_inj hxs.2 hys.2 h.2]

theorem PlainFields.reading_inj {xs ys : List (List Char × Value)} (hxs : PlainFields xs)
    (hys : PlainFields ys) (h : readFields xs = readFields ys) : xs = ys := by
  match xs, ys with
  | [], [] => rfl
  | [], y :: ys => simp [readFields] at h
  | x :: xs, [] => simp [readFields] at h
  | (key, x) :: xs, (key', y) :: ys =>
    rw [readFields, readFields, List.cons.injEq, Prod.mk.injEq] at h
    obtain ⟨⟨rfl, hvalue⟩, hrest⟩ := h
    rw [Value.Plain.reading_inj hxs.1 hys.1 hvalue, PlainFields.reading_inj hxs.2 hys.2 hrest]

end

/-- Plain dictionaries are equal for Python exactly when they have one text. -/
theorem Value.Plain.pyEq_iff {v w : Value} (hv : v.Plain) (hw : w.Plain) (hdv : v.Dict)
    (hdw : w.Dict) : pyEq v w = true ↔ v.sorted = w.sorted := by
  rw [pyEq_iff_reading hdv hdw]
  exact ⟨fun h => hv.sorted.reading_inj hw.sorted h, fun h => congrArg Value.reading h⟩

end Json
