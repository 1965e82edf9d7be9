import CorpusKit.Library.JsonReader
import CorpusKit.Services.SpecIntegrity

/-! # Run specs in canonical form

What `inspect` counts and looks for is the same however the keys of a value are
ordered, so normalization depends on the sorted value alone, which is what its text
reads back as; it is idempotent, and a stored spec passes its integrity check through
any retries and replays. -/

namespace CorpusKit.SpecIntegrity

open Documents Json

/-! ## Sizes, depths and keys -/

mutual

/-- The nodes `inspect` counts. -/
def size : Value → Nat
  | .obj fields => 1 + sizeFields fields
  | .arr items => 1 + sizeItems items
  | _ => 1

def sizeItems : List Value → Nat
  | [] => 0
  | item :: items => size item + sizeItems items

def sizeFields : List (List Char × Value) → Nat
  | [] => 0
  | (_, value) :: fields => size value + sizeFields fields

end

mutual

/-- The levels below a value. -/
def height : Value → Nat
  | .obj fields => heightFields fields
  | .arr items => heightItems items
  | _ => 0

def heightItems : List Value → Nat
  | [] => 0
  | item :: items => max (height item + 1) (heightItems items)

def heightFields : List (List Char × Value) → Nat
  | [] => 0
  | (_, value) :: fields => max (height value + 1) (heightFields fields)

end

mutual

/-- The keys at any depth. -/
def keys : Value → List (List Char)
  | .obj fields => keysFields fields
  | .arr items => keysItems items
  | _ => []

def keysItems : List Value → List (List Char)
  | [] => []
  | item :: items => keys item ++ keysItems items

def keysFields : List (List Char × Value) → List (List Char)
  | [] => []
  | (key, value) :: fields => key :: keys value ++ keysFields fields

end

/-- No key looks like a credential. -/
def Harmless (ks : List (List Char)) : Prop := ∀ key ∈ ks, isSensitiveKey key = false

theorem harmless_append {ks ls : List (List Char)} :
    Harmless (ks ++ ls) ↔ Harmless ks ∧ Harmless ls := List.forall_mem_append

theorem harmless_cons {key : List Char} {ks : List (List Char)} :
    Harmless (key :: ks) ↔ isSensitiveKey key = false ∧ Harmless ks := List.forall_mem_cons

/-! ## What inspection accepts -/

variable {limits : Limits}

theorem enter_eq_ok {depth nodes n : Nat} :
    enter limits depth nodes = .ok n ↔
      n = nodes + 1 ∧ nodes + 1 ≤ limits.maxNodes ∧ depth ≤ limits.maxDepth := by
  unfold enter
  split
  · simp only [reject, reduceCtorEq, false_iff]
    omega
  · rw [Except.ok.injEq]
    omega

theorem bind_eq_ok {α β : Type} {x : Except Error α} {f : α → Except Error β} {b : β} :
    (x >>= f) = .ok b ↔ ∃ a, x = .ok a ∧ f a = .ok b := by
  cases x with
  | error e => simp [bind, Except.bind]
  | ok a => simp [bind, Except.bind]

/-- A key is refused before its value is looked at. -/
theorem inspectFields_cons {depth nodes n : Nat} {key : List Char} {value : Value}
    {fields : List (List Char × Value)} :
    inspectFields limits depth nodes ((key, value) :: fields) = .ok n ↔
      isSensitiveKey key = false ∧ ∃ m, inspect limits depth nodes value = .ok m ∧
        inspectFields limits depth m fields = .ok n := by
  rw [inspectFields]
  cases hkey : isSensitiveKey key with
  | true => simp [reject, bind, Except.bind]
  | false =>
    simp only [Bool.false_eq_true, if_false, true_and]
    exact bind_eq_ok

mutual

theorem inspect_eq_ok (v : Value) {depth nodes n : Nat} :
    inspect limits depth nodes v = .ok n ↔
      Harmless (keys v) ∧ n = nodes + size v ∧ n ≤ limits.maxNodes ∧
        depth + height v ≤ limits.maxDepth := by
  have hleaf : enter limits depth nodes = .ok n ↔ Harmless [] ∧ n = nodes + 1 ∧
      n ≤ limits.maxNodes ∧ depth + 0 ≤ limits.maxDepth := by
    rw [enter_eq_ok]
    constructor
    · rintro ⟨rfl, hmax, hdepth⟩
      exact ⟨nofun, rfl, hmax, hdepth⟩
    · rintro ⟨-, rfl, hmax, hdepth⟩
      exact ⟨rfl, hmax, hdepth⟩
  match v with
  | .obj fields =>
    rw [inspect, keys, size, height, bind_eq_ok]
    constructor
    · rintro ⟨m, hm, hfields⟩
      obtain ⟨rfl, hmax, hdepth⟩ := enter_eq_ok.mp hm
      obtain ⟨hkeys, hn, hle, hlevel⟩ := (inspectFields_eq_ok fields hmax hdepth).mp hfields
      exact ⟨hkeys, by omega, hle, hlevel⟩
    · rintro ⟨hkeys, hn, hle, hlevel⟩
      have hmax : nodes + 1 ≤ limits.maxNodes := by omega
      have hdepth : depth ≤ limits.maxDepth := by omega
      exact ⟨nodes + 1, enter_eq_ok.mpr ⟨rfl, hmax, hdepth⟩,
        (inspectFields_eq_ok fields hmax hdepth).mpr ⟨hkeys, by omega, hle, hlevel⟩⟩
  | .arr items =>
    rw [inspect, keys, size, height, bind_eq_ok]
    constructor
    · rintro ⟨m, hm, hitems⟩
      obtain ⟨rfl, hmax, hdepth⟩ := enter_eq_ok.mp hm
      obtain ⟨hkeys, hn, hle, hlevel⟩ := (inspectItems_eq_ok items hmax hdepth).mp hitems
      exact ⟨hkeys, by omega, hle, hlevel⟩
    · rintro ⟨hkeys, hn, hle, hlevel⟩
      have hmax : nodes + 1 ≤ limits.maxNodes := by omega
      have hdepth : depth ≤ limits.maxDepth := by omega
      exact ⟨nodes + 1, enter_eq_ok.mpr ⟨rfl, hmax, hdepth⟩,
        (inspectItems_eq_ok items hmax hdepth).mpr ⟨hkeys, by omega, hle, hlevel⟩⟩
  | .null => exact hleaf
  | .bool b => exact hleaf
  | .int k => exact hleaf
  | .float x => exact hleaf
  | .str s => exact hleaf

/-- Below a value at `depth`, whose nodes are within the limit. -/
theorem inspectItems_eq_ok (items : List Value) {depth nodes n : Nat} (hmax : nodes ≤ limits.maxNodes)
    (hdepth : depth ≤ limits.maxDepth) :
    inspectItems limits (depth + 1) nodes items = .ok n ↔
      Harmless (keysItems items) ∧ n = nodes + sizeItems items ∧ n ≤ limits.maxNodes ∧
        depth + heightItems items ≤ limits.maxDepth := by
  match items with
  | [] =>
    rw [inspectItems, keysItems, sizeItems, heightItems, Except.ok.injEq]
    constructor
    · rintro rfl
      exact ⟨nofun, rfl, hmax, hdepth⟩
    · rintro ⟨-, hn, -, -⟩
      exact hn.symm
  | item :: items =>
    rw [inspectItems, keysItems, sizeItems, heightItems, bind_eq_ok, harmless_append]
    constructor
    · rintro ⟨m, hitem, hitems⟩
      obtain ⟨hkeys, rfl, hle, hlevel⟩ := (inspect_eq_ok item).mp hitem
      obtain ⟨hkeys', hn, hle', hlevel'⟩ := (inspectItems_eq_ok items hle hdepth).mp hitems
      exact ⟨⟨hkeys, hkeys'⟩, by omega, hle', by omega⟩
    · rintro ⟨⟨hkeys, hkeys'⟩, hn, hle, hlevel⟩
      have hmid : nodes + size item ≤ limits.maxNodes := by omega
      exact ⟨nodes + size item, (inspect_eq_ok item).mpr ⟨hkeys, rfl, hmid, by omega⟩,
        (inspectItems_eq_ok items hmid hdepth).mpr ⟨hkeys', by omega, hle, by omega⟩⟩

theorem inspectFields_eq_ok (fields : List (List Char × Value)) {depth nodes n : Nat}
    (hmax : nodes ≤ limits.maxNodes) (hdepth : depth ≤ limits.maxDepth) :
    inspectFields limits (depth + 1) nodes fields = .ok n ↔
      Harmless (keysFields fields) ∧ n = nodes + sizeFields fields ∧ n ≤ limits.maxNodes ∧
        depth + heightFields fields ≤ limits.maxDepth := by
  match fields with
  | [] =>
    rw [inspectFields, keysFields, sizeFields, heightFields, Except.ok.injEq]
    constructor
    · rintro rfl
      exact ⟨nofun, rfl, hmax, hdepth⟩
    · rintro ⟨-, hn, -, -⟩
      exact hn.symm
  | (key, value) :: fields =>
    rw [inspectFields_cons, keysFields, sizeFields, heightFields, List.cons_append, harmless_cons,
      harmless_append]
    constructor
    · rintro ⟨hkey, m, hvalue, hfields⟩
      obtain ⟨hkeys, rfl, hle, hlevel⟩ := (inspect_eq_ok value).mp hvalue
      obtain ⟨hkeys', hn, hle', hlevel'⟩ := (inspectFields_eq_ok fields hle hdepth).mp hfields
      exact ⟨⟨hkey, hkeys, hkeys'⟩, by omega, hle', by omega⟩
    · rintro ⟨⟨hkey, hkeys, hkeys'⟩, hn, hle, hlevel⟩
      have hmid : nodes + size value ≤ limits.maxNodes := by omega
      exact ⟨hkey, nodes + size value, (inspect_eq_ok value).mpr ⟨hkeys, rfl, hmid, by omega⟩,
        (inspectFields_eq_ok fields hmid hdepth).mpr ⟨hkeys', by omega, hle, by omega⟩⟩

end

/-! ## The order of keys -/

section Fields

variable {xs ys : List (List Char × Value)}

theorem sizeFields_eq_sum (fields : List (List Char × Value)) :
    sizeFields fields = (fields.map fun field => size field.2).sum := by
  induction fields with
  | nil => rfl
  | cons field fields ih => rw [sizeFields, ih]; rfl

theorem heightFields_le {fields : List (List Char × Value)} {n : Nat} :
    heightFields fields ≤ n ↔ ∀ field ∈ fields, height field.2 + 1 ≤ n := by
  induction fields with
  | nil => simp [heightFields]
  | cons field fields ih => rw [heightFields, max_le_iff, ih, List.forall_mem_cons]

theorem mem_keysFields {fields : List (List Char × Value)} {key : List Char} :
    key ∈ keysFields fields ↔ ∃ field ∈ fields, key = field.1 ∨ key ∈ keys field.2 := by
  induction fields with
  | nil => simp [keysFields]
  | cons field fields ih =>
    rw [keysFields, List.cons_append, List.mem_cons, List.mem_append, ih]
    simp only [List.mem_cons, exists_eq_or_imp, or_assoc]

theorem writableFields_iff {fields : List (List Char × Value)} :
    writableFields fields = true ↔ ∀ field ∈ fields, writable field.2 = true := by
  induction fields with
  | nil => simp [writableFields]
  | cons field fields ih => rw [writableFields, Bool.and_eq_true, ih, List.forall_mem_cons]

/-- What a value shows of itself: its nodes, levels and keys, and whether Python
writes its numbers. -/
structure SameShape (v w : Value) : Prop where
  size : size v = size w
  height : height v = height w
  keys : ∀ key, key ∈ keys v ↔ key ∈ keys w
  writable : writable v = writable w

theorem SameShape.refl (v : Value) : SameShape v v := ⟨rfl, rfl, fun _ => Iff.rfl, rfl⟩

theorem SameShape.trans {u v w : Value} (h : SameShape u v) (h' : SameShape v w) : SameShape u w :=
  ⟨h.size.trans h'.size, h.height.trans h'.height, fun key => (h.keys key).trans (h'.keys key),
    h.writable.trans h'.writable⟩

theorem SameShape.symm {v w : Value} (h : SameShape v w) : SameShape w v :=
  ⟨h.size.symm, h.height.symm, fun key => (h.keys key).symm, h.writable.symm⟩

/-- An object shows the same in any order of its fields. -/
theorem sameShape_perm (h : xs.Perm ys) : SameShape (.obj xs) (.obj ys) where
  size := by
    show 1 + sizeFields xs = 1 + sizeFields ys
    rw [sizeFields_eq_sum, sizeFields_eq_sum, (h.map _).sum_eq]
  height := by
    show heightFields xs = heightFields ys
    refine le_antisymm (heightFields_le.mpr fun field hfield => ?_)
      (heightFields_le.mpr fun field hfield => ?_)
    · exact heightFields_le.mp (le_refl _) field (h.mem_iff.mp hfield)
    · exact heightFields_le.mp (le_refl _) field (h.mem_iff.mpr hfield)
  keys key := by
    show key ∈ keysFields xs ↔ key ∈ keysFields ys
    simp only [mem_keysFields, h.mem_iff]
  writable := by
    show writableFields xs = writableFields ys
    rw [Bool.eq_iff_iff, writableFields_iff, writableFields_iff]
    simp only [h.mem_iff]

end Fields

mutual

/-- Sorting the keys at every level changes nothing a value shows. -/
theorem sameShape_sorted (v : Value) : SameShape v.sorted v := by
  match v with
  | .null => exact .refl _
  | .bool b => exact .refl _
  | .int n => exact .refl _
  | .float x => exact .refl _
  | .str s => exact .refl _
  | .arr items => exact sameShape_sortedItems items
  | .obj fields =>
    rw [Value.sorted]
    exact (sameShape_perm (perm_sort _)).trans (sameShape_sortedFields fields)

theorem sameShape_sortedItems (items : List Value) :
    SameShape (.arr (sortedItems items)) (.arr items) := by
  match items with
  | [] => exact .refl _
  | item :: items =>
    have hitem := sameShape_sorted item
    have hitems := sameShape_sortedItems items
    have hsize : 1 + sizeItems (sortedItems items) = 1 + sizeItems items := hitems.size
    have hheight : heightItems (sortedItems items) = heightItems items := hitems.height
    have hkeys : ∀ key, key ∈ keysItems (sortedItems items) ↔ key ∈ keysItems items := hitems.keys
    have hwritable : writableItems (sortedItems items) = writableItems items := hitems.writable
    refine ⟨?_, ?_, fun key => ?_, ?_⟩
    · show 1 + (size item.sorted + sizeItems (sortedItems items)) = 1 + (size item + sizeItems items)
      rw [hitem.size]
      omega
    · show max (height item.sorted + 1) (heightItems (sortedItems items)) =
        max (height item + 1) (heightItems items)
      rw [hitem.height, hheight]
    · show key ∈ keys item.sorted ++ keysItems (sortedItems items) ↔ key ∈ keys item ++ keysItems items
      rw [List.mem_append, List.mem_append, hitem.keys, hkeys]
    · show (writable item.sorted && writableItems (sortedItems items)) =
        (writable item && writableItems items)
      rw [hitem.writable, hwritable]

theorem sameShape_sortedFields (fields : List (List Char × Value)) :
    SameShape (.obj (sortedFields fields)) (.obj fields) := by
  match fields with
  | [] => exact .refl _
  | (name, value) :: fields =>
    have hvalue := sameShape_sorted value
    have hfields := sameShape_sortedFields fields
    have hsize : 1 + sizeFields (sortedFields fields) = 1 + sizeFields fields := hfields.size
    have hheight : heightFields (sortedFields fields) = heightFields fields := hfields.height
    have hkeys : ∀ key, key ∈ keysFields (sortedFields fields) ↔ key ∈ keysFields fields :=
      hfields.keys
    have hwritable : writableFields (sortedFields fields) = writableFields fields := hfields.writable
    refine ⟨?_, ?_, fun key => ?_, ?_⟩
    · show 1 + (size value.sorted + sizeFields (sortedFields fields)) =
        1 + (size value + sizeFields fields)
      rw [hvalue.size]
      omega
    · show max (height value.sorted + 1) (heightFields (sortedFields fields)) =
        max (height value + 1) (heightFields fields)
      rw [hvalue.height, hheight]
    · show key ∈ name :: keys value.sorted ++ keysFields (sortedFields fields) ↔
        key ∈ name :: keys value ++ keysFields fields
      rw [List.cons_append, List.cons_append, List.mem_cons, List.mem_cons, List.mem_append,
        List.mem_append, hvalue.keys, hkeys]
    · show (writable value.sorted && writableFields (sortedFields fields)) =
        (writable value && writableFields fields)
      rw [hvalue.writable, hwritable]

end

/-- One value is the other with the keys of some of its objects in another order. -/
inductive Reordered : Value → Value → Prop
  | refl (v : Value) : Reordered v v
  | trans {u v w : Value} : Reordered u v → Reordered v w → Reordered u w
  | keys {xs ys : List (List Char × Value)} : xs.Perm ys → Reordered (.obj xs) (.obj ys)
  | item {v w : Value} (xs ys : List Value) :
    Reordered v w → Reordered (.arr (xs ++ v :: ys)) (.arr (xs ++ w :: ys))
  | field {v w : Value} (key : List Char) (xs ys : List (List Char × Value)) :
    Reordered v w → Reordered (.obj (xs ++ (key, v) :: ys)) (.obj (xs ++ (key, w) :: ys))

/-- The sorted value forgets the order of the keys. -/
theorem Reordered.sorted {v w : Value} (h : Reordered v w) (hv : v.Dict) :
    w.Dict ∧ v.sorted = w.sorted := by
  induction h with
  | refl v => exact ⟨hv, rfl⟩
  | trans _ _ ih ih' =>
    obtain ⟨hmid, hfirst⟩ := ih hv
    obtain ⟨hlast, hsecond⟩ := ih' hmid
    exact ⟨hlast, hfirst.trans hsecond⟩
  | @keys xs ys hperm =>
    have hnodup : (ys.map Prod.fst).Nodup := (hperm.map Prod.fst).nodup_iff.mp hv.1
    refine ⟨⟨hnodup, dictFields_iff.mpr fun field hfield => ?_⟩, ?_⟩
    · exact dictFields_iff.mp hv.2 field (hperm.mem_iff.mpr hfield)
    · have hsorted : (sortedFields xs).Perm (sortedFields ys) := by
        rw [sortedFields_eq_map, sortedFields_eq_map]
        exact hperm.map _
      have hkeys : ∀ fields : List (List Char × Value),
          (sortedFields fields).map Prod.fst = fields.map Prod.fst := by
        intro fields
        rw [sortedFields_eq_map, List.map_map]
        rfl
      rw [Value.sorted, Value.sorted, Value.obj.injEq]
      exact (((perm_sort _).trans hsorted).trans (perm_sort _).symm).eq_of_pairwise
        (fun a b _ _ hab hba => absurd hab (lt_asymm hba))
        (pairwise_sort (by rw [hkeys]; exact hv.1)) (pairwise_sort (by rw [hkeys]; exact hnodup))
  | item xs ys _ ih =>
    have hitems := dictItems_iff.mp hv
    obtain ⟨hw, heq⟩ := ih (hitems _ (List.mem_append_right _ List.mem_cons_self))
    refine ⟨dictItems_iff.mpr fun item hitem => ?_, ?_⟩
    · rcases List.mem_append.mp hitem with hfront | hback
      · exact hitems item (List.mem_append_left _ hfront)
      · rcases List.mem_cons.mp hback with rfl | hback
        · exact hw
        · exact hitems item (List.mem_append_right _ (List.mem_cons_of_mem _ hback))
    · have hmap : ∀ items : List Value, sortedItems items = items.map Value.sorted := by
        intro items
        induction items with
        | nil => rfl
        | cons item items ih => rw [sortedItems, ih]; rfl
      simp only [Value.sorted, hmap, List.map_append, List.map_cons, heq]
  | field key xs ys _ ih =>
    have hfields := dictFields_iff.mp hv.2
    obtain ⟨hw, heq⟩ := ih (hfields _ (List.mem_append_right _ List.mem_cons_self))
    refine ⟨⟨?_, dictFields_iff.mpr fun field hfield => ?_⟩, ?_⟩
    · have hnodup := hv.1
      simpa only [List.map_append, List.map_cons] using hnodup
    · rcases List.mem_append.mp hfield with hfront | hback
      · exact hfields field (List.mem_append_left _ hfront)
      · rcases List.mem_cons.mp hback with rfl | hback
        · exact hw
        · exact hfields field (List.mem_append_right _ (List.mem_cons_of_mem _ hback))
    · simp only [Value.sorted, sortedFields_eq_map, List.map_append, List.map_cons, heq]

/-! ## Normalization -/

def specValue (spec : Dictionary) : Value := .obj spec.fields

/-- What normalization accepts, and what it returns. -/
theorem normalize_eq_ok {spec : Dictionary} {document : Document} {encoded : List Char} :
    Documents.normalize limits spec = .ok (document, encoded) ↔
      (Harmless (keys (specValue spec)) ∧ size (specValue spec) ≤ limits.maxNodes ∧
        height (specValue spec) ≤ limits.maxDepth ∧ writable (specValue spec) = true ∧
        (utf8 (dumps (specValue spec))).size ≤ limits.maxBytes) ∧
      document = spec.loaded ∧ encoded = dumps (specValue spec) := by
  have hwritable : writable (specValue spec) = writableFields spec.fields := rfl
  constructor
  · intro h
    rw [Documents.normalize, bind_eq_ok] at h
    obtain ⟨nodes, hinspect, h⟩ := h
    obtain ⟨hkeys, rfl, hnodes, hdepth⟩ := (inspect_eq_ok _).mp hinspect
    cases hdigits : writableFields spec.fields with
    | false =>
      rw [hdigits] at h
      cases h
    | true =>
      rw [hdigits] at h
      simp only [Bool.not_true, Bool.false_eq_true, if_false] at h
      split at h
      · cases h
      · next hsize =>
        cases h
        rw [Nat.zero_add] at hnodes hdepth
        exact ⟨⟨hkeys, hnodes, hdepth, hwritable.trans hdigits, not_lt.mp hsize⟩, rfl, rfl⟩
  · rintro ⟨⟨hkeys, hnodes, hdepth, hdigits, hsize⟩, rfl, rfl⟩
    have hinspect : inspect limits 0 0 (.obj spec.fields) = .ok (0 + size (specValue spec)) :=
      (inspect_eq_ok _).mpr ⟨hkeys, rfl, by omega, by rw [Nat.zero_add]; exact hdepth⟩
    exact normalize_ok hinspect hdigits hsize

/-- Normalization sees the sorted value only. -/
theorem normalize_congr {spec spec' : Dictionary} {result : Document × List Char}
    (h : (specValue spec).sorted = (specValue spec').sorted)
    (hok : Documents.normalize limits spec = .ok result) :
    Documents.normalize limits spec' = .ok result := by
  have hshape : SameShape (specValue spec) (specValue spec') :=
    (sameShape_sorted _).symm.trans (h ▸ sameShape_sorted _)
  have hdumps : dumps (specValue spec) = dumps (specValue spec') := by rw [dumps, dumps, h]
  have hloaded : spec.loaded = spec'.loaded := Document.value_injective h
  obtain ⟨⟨hkeys, hnodes, hdepth, hdigits, hsize⟩, hdocument, hencoded⟩ := normalize_eq_ok.mp hok
  refine normalize_eq_ok.mpr ⟨⟨fun key hkey => hkeys key ((hshape.keys key).mpr hkey), ?_, ?_, ?_, ?_⟩,
    hdocument.trans hloaded, hencoded.trans hdumps⟩
  · exact hshape.size ▸ hnodes
  · exact hshape.height ▸ hdepth
  · exact hshape.writable ▸ hdigits
  · exact hdumps ▸ hsize

theorem normalizeRunSpec_congr {sha256 : List Char → Sha256} {spec spec' : Dictionary}
    {result : Document × Sha256} (h : (specValue spec).sorted = (specValue spec').sorted)
    (hok : Documents.normalizeRunSpec sha256 spec = .ok result) :
    Documents.normalizeRunSpec sha256 spec' = .ok result := by
  rw [Documents.normalizeRunSpec, bind_eq_ok] at hok ⊢
  obtain ⟨normalized, hnormalized, hresult⟩ := hok
  exact ⟨normalized, normalize_congr h hnormalized, hresult⟩

theorem normalizeRunSpec_eq_ok {sha256 : List Char → Sha256} {spec : Dictionary}
    {normalized : Document} {digest : Sha256} :
    Documents.normalizeRunSpec sha256 spec = .ok (normalized, digest) ↔ ∃ encoded,
      Documents.normalize specLimits spec = .ok (normalized, encoded) ∧ digest = sha256 encoded := by
  rw [Documents.normalizeRunSpec, bind_eq_ok]
  constructor
  · rintro ⟨⟨document, encoded⟩, hnormalized, hresult⟩
    cases hresult
    exact ⟨encoded, hnormalized, rfl⟩
  · rintro ⟨encoded, hnormalized, rfl⟩
    exact ⟨(normalized, encoded), hnormalized, rfl⟩

/-- The value normalization returns is the sorted one. -/
theorem normalizeRunSpec_value {sha256 : List Char → Sha256} {spec : Dictionary}
    {normalized : Document} {digest : Sha256}
    (h : Documents.normalizeRunSpec sha256 spec = .ok (normalized, digest)) :
    normalized.value = (specValue spec).sorted := by
  obtain ⟨encoded, hnormalized, -⟩ := normalizeRunSpec_eq_ok.mp h
  obtain ⟨-, rfl, -⟩ := normalize_eq_ok.mp hnormalized
  rfl

theorem normalizeRunSpec_again {sha256 : List Char → Sha256} {spec : Dictionary}
    {normalized : Document} {digest : Sha256}
    (h : Documents.normalizeRunSpec sha256 spec = .ok (normalized, digest)) :
    Documents.normalizeRunSpec sha256 (dictionaryOf normalized) = .ok (normalized, digest) := by
  refine normalizeRunSpec_congr ?_ h
  have hvalue : specValue (dictionaryOf normalized) = (specValue spec).sorted :=
    normalizeRunSpec_value h
  rw [hvalue, sorted_sorted]

/-- No key of a normalized spec, at any depth, looks like a credential. -/
theorem normalizeRunSpec_harmless {sha256 : List Char → Sha256} {spec : Dictionary}
    {normalized : Document} {digest : Sha256}
    (h : Documents.normalizeRunSpec sha256 spec = .ok (normalized, digest)) :
    Harmless (keys normalized.value) := by
  rw [normalizeRunSpec_value h]
  obtain ⟨encoded, hnormalized, -⟩ := normalizeRunSpec_eq_ok.mp h
  obtain ⟨⟨hkeys, -⟩, -⟩ := normalize_eq_ok.mp hnormalized
  exact fun key hkey => hkeys key (((sameShape_sorted _).keys key).mp hkey)

/-! ## Reading the text back -/

mutual

theorem nesting_le (v : Value) : Reader.nesting v ≤ height v + 1 := by
  cases v with
  | arr items => exact Nat.succ_le_succ (nestingItems_le items)
  | obj fields => exact Nat.succ_le_succ (nestingFields_le fields)
  | _ => exact Nat.zero_le _

theorem nestingItems_le (items : List Value) : Reader.nestingItems items ≤ heightItems items := by
  cases items with
  | nil => exact Nat.le_refl 0
  | cons item items => exact max_le_max (nesting_le item) (nestingItems_le items)

theorem nestingFields_le (fields : List (List Char × Value)) :
    Reader.nestingFields fields ≤ heightFields fields := by
  cases fields with
  | nil => exact Nat.le_refl 0
  | cons field fields => exact max_le_max (nesting_le field.2) (nestingFields_le fields)

end

variable {float : List Char → Option FloatText}

/-- The reader knows the floats by their texts. -/
def ReadsFloats (float : List Char → Option FloatText) : Prop :=
  ∀ x : FloatText, Reader.readNumber float x.chars = .ok (.float x)

mutual

theorem readable_of (hfloat : ReadsFloats float) (v : Value) (hdict : v.Dict) (hwritable : writable v = true) :
    Reader.Readable float v := by
  cases v with
  | int n =>
    rw [writable, decide_eq_true_eq] at hwritable
    exact hwritable
  | float x => exact hfloat x
  | arr items => exact readableItems_of hfloat items hdict hwritable
  | obj fields => exact ⟨hdict.1, readableFields_of hfloat fields hdict.2 hwritable⟩
  | _ => exact trivial

theorem readableItems_of (hfloat : ReadsFloats float) (items : List Value)
    (hdict : DictItems items) (hwritable : writableItems items = true) : Reader.ReadableItems float items := by
  cases items with
  | nil => exact trivial
  | cons item items =>
    obtain ⟨hitem, hitems⟩ := Bool.and_eq_true_iff.mp hwritable
    exact ⟨readable_of hfloat item hdict.1 hitem, readableItems_of hfloat items hdict.2 hitems⟩

theorem readableFields_of (hfloat : ReadsFloats float) (fields : List (List Char × Value))
    (hdict : DictFields fields) (hwritable : writableFields fields = true) : Reader.ReadableFields float fields := by
  cases fields with
  | nil => exact trivial
  | cons field fields =>
    obtain ⟨hfield, hfields⟩ := Bool.and_eq_true_iff.mp hwritable
    exact ⟨readable_of hfloat field.2 hdict.1 hfield, readableFields_of hfloat fields hdict.2 hfields⟩

end

variable {limits : Limits} {limit : Nat}

/-- What normalization returns is what `json.loads` reads in the text it returns. -/
theorem normalize_loads (hfloat : ReadsFloats float) (hlimit : limits.maxDepth < limit)
    {spec : Dictionary} {normalized : Document} {encoded : List Char}
    (h : Documents.normalize limits spec = .ok (normalized, encoded)) :
    Reader.loads float limit (.ofChars encoded) = .ok (Reader.decoded normalized.value) := by
  obtain ⟨⟨-, -, hheight, hwritable, -⟩, rfl, rfl⟩ := normalize_eq_ok.mp h
  have hshape := sameShape_sorted (specValue spec)
  have hreadable : Reader.Readable float (specValue spec).sorted :=
    readable_of hfloat _ spec.loaded.loaded.dict (hshape.writable.trans hwritable)
  refine Reader.loads_encode hreadable ?_
  have hnesting := nesting_le (specValue spec).sorted
  rw [hshape.height] at hnesting
  exact hnesting.trans (hheight.trans_lt hlimit)

/-! ## Histories -/

/-- The columns agree: the spec still has the recorded digest. -/
def Intact (sha256 : List Char → Sha256) (run : SpecColumns) : Prop :=
  ∃ normalized, Documents.normalizeRunSpec sha256 run.spec = .ok (normalized, run.specSha256)

section

variable {sha256 : List Char → Sha256} {column : Dictionary → Dictionary} {run : SpecColumns}

theorem Intact.verifySpec (h : Intact sha256 run) :
    verifySpec sha256 run run.specSha256 = .ok () := by
  obtain ⟨normalized, hnormalized⟩ := h
  simp [SpecIntegrity.verifySpec, hnormalized]

theorem Intact.verifyReference (h : Intact sha256 run) :
    verifyReference sha256 run run.specSha256 = .ok () := by
  obtain ⟨normalized, hnormalized⟩ := h
  simp [SpecIntegrity.verifyReference, hnormalized]

theorem Intact.authoritativeSpec (h : Intact sha256 run) :
    ∃ bytes, authoritativeSpec sha256 run = .ok (run.specSha256, bytes) := by
  obtain ⟨normalized, hnormalized⟩ := h
  refine ⟨(utf8 (dumps normalized.value)).size, ?_⟩
  simp [SpecIntegrity.authoritativeSpec, hnormalized, bind, Except.bind]

variable (hcolumn : ∀ spec, Reordered (specValue spec) (specValue (column spec)))

include hcolumn in
/-- A column that returns equal JSON keeps the digest of what it stores. -/
theorem stored_intact {spec : Dictionary} {normalized : Document} {digest : Sha256}
    (h : Documents.normalizeRunSpec sha256 spec = .ok (normalized, digest)) :
    Intact sha256 ⟨column spec, digest⟩ :=
  ⟨normalized, normalizeRunSpec_congr ((hcolumn spec).sorted spec.dict).2 h⟩

include hcolumn in
theorem Intact.copied (h : Intact sha256 run) :
    Intact sha256 ⟨column run.spec, run.specSha256⟩ := by
  obtain ⟨normalized, hnormalized⟩ := h
  exact stored_intact hcolumn hnormalized

include hcolumn in
theorem step_intact {runs : List SpecColumns} (h : ∀ run ∈ runs, Intact sha256 run) (event : Event) :
    ∀ run ∈ step sha256 column runs event, Intact sha256 run := by
  have hcopied : ∀ source : Nat, ∀ run ∈ runs[source]?.map fun run : SpecColumns =>
      (⟨column run.spec, run.specSha256⟩ : SpecColumns), Intact sha256 run := by
    intro source run hrun
    obtain ⟨original, horiginal, rfl⟩ := Option.map_eq_some_iff.mp hrun
    exact (h original (List.mem_of_getElem? horiginal)).copied hcolumn
  cases event with
  | submit spec =>
    intro run hrun
    cases hspec : Documents.normalizeRunSpec sha256 spec with
    | error e =>
      simp only [step, submit, hspec] at hrun
      exact h run hrun
    | ok result =>
      obtain ⟨normalized, digest⟩ := result
      simp only [step, submit, hspec] at hrun
      rcases List.mem_append.mp hrun with hold | hnew
      · exact h run hold
      · rw [List.mem_singleton.mp hnew]
        exact stored_intact hcolumn (normalizeRunSpec_again hspec)
  | retry source =>
    intro run hrun
    rcases List.mem_append.mp hrun with hold | hnew
    · exact h run hold
    · exact hcopied source run (Option.mem_toList.mp hnew)
  | submitReplay source =>
    intro run hrun
    rcases List.mem_append.mp hrun with hold | hnew
    · exact h run hold
    · exact hcopied source run (Option.mem_toList.mp hnew)

include hcolumn in
theorem history_intact (events : List Event) :
    ∀ run ∈ history sha256 column events, Intact sha256 run := by
  have hrun : ∀ runs : List SpecColumns, (∀ run ∈ runs, Intact sha256 run) →
      ∀ run ∈ events.foldl (step sha256 column) runs, Intact sha256 run := by
    induction events with
    | nil => exact fun _ h => h
    | cons event events ih => exact fun runs h => ih _ (step_intact hcolumn h event)
  exact hrun [] nofun

end

/-- Normalization is a canonical form, and the specs of all runs, however often
retried and replayed, pass the checks of the worker and of the recorder. -/
theorem run_spec_canonical (sha256 : List Char → Sha256) (column : Dictionary → Dictionary)
    (hcolumn : ∀ spec, Reordered (.obj spec.fields) (.obj (column spec).fields)) :
    (∀ spec normalized digest, Documents.normalizeRunSpec sha256 spec = .ok (normalized, digest) →
      (∀ key ∈ keys normalized.value, isSensitiveKey key = false) ∧
      Documents.normalizeRunSpec sha256 (dictionaryOf normalized) = .ok (normalized, digest) ∧
      ∀ spec' : Dictionary, Reordered (.obj spec.fields) (.obj spec'.fields) →
        Documents.normalizeRunSpec sha256 spec' = .ok (normalized, digest)) ∧
    ∀ events, ∀ run ∈ history sha256 column events,
      verifySpec sha256 run run.specSha256 = .ok () ∧
      verifyReference sha256 run run.specSha256 = .ok () ∧
      ∃ bytes, authoritativeSpec sha256 run = .ok (run.specSha256, bytes) := by
  refine ⟨fun spec normalized digest h => ⟨normalizeRunSpec_harmless h, normalizeRunSpec_again h,
    fun spec' hspec' => ?_⟩, fun events run hrun => ?_⟩
  · exact normalizeRunSpec_congr (hspec'.sorted spec.dict).2 h
  · have hintact : Intact sha256 run := history_intact hcolumn events run hrun
    exact ⟨hintact.verifySpec, hintact.verifyReference, hintact.authoritativeSpec⟩

/-! ## A column that reorders keys -/

/-- Shorter keys come first. -/
def isShorter (a b : List Char × Value) : Prop :=
  a.1.length < b.1.length ∨ a.1.length = b.1.length ∧ a.1 ≤ b.1

instance (a b : List Char × Value) : Decidable (isShorter a b) :=
  inferInstanceAs (Decidable (_ ∨ _ ∧ _))

mutual

/-- A value with the shorter keys first in each of its objects. -/
def stored : Value → Value
  | .arr items => .arr (storedItems items)
  | .obj fields => .obj ((storedFields fields).insertionSort isShorter)
  | value => value

def storedItems : List Value → List Value
  | [] => []
  | item :: items => stored item :: storedItems items

def storedFields : List (List Char × Value) → List (List Char × Value)
  | [] => []
  | (key, value) :: fields => (key, stored value) :: storedFields fields

end

mutual

theorem reordered_stored (v : Value) : Reordered v (stored v) := by
  cases v with
  | arr items => exact reordered_storedItems [] items
  | obj fields =>
    exact (reordered_storedFields [] fields).trans (.keys (List.perm_insertionSort _ _).symm)
  | _ => exact .refl _

theorem reordered_storedItems (front items : List Value) :
    Reordered (.arr (front ++ items)) (.arr (front ++ storedItems items)) := by
  cases items with
  | nil => exact .refl _
  | cons item items =>
    have hitem := Reordered.item front items (reordered_stored item)
    have hitems := reordered_storedItems (front ++ [stored item]) items
    rw [List.append_assoc, List.append_assoc] at hitems
    exact hitem.trans hitems

theorem reordered_storedFields (front fields : List (List Char × Value)) :
    Reordered (.obj (front ++ fields)) (.obj (front ++ storedFields fields)) := by
  cases fields with
  | nil => exact .refl _
  | cons field fields =>
    have hfield := Reordered.field field.1 front fields (reordered_stored field.2)
    have hfields := reordered_storedFields (front ++ [(field.1, stored field.2)]) fields
    rw [List.append_assoc, List.append_assoc] at hfields
    exact hfield.trans hfields

end

def storedColumn (spec : Dictionary) : Dictionary where
  fields := (storedFields spec.fields).insertionSort isShorter
  dict := ((reordered_stored (.obj spec.fields)).sorted spec.dict).1

/-- A spec with nested fields and a reference to a secret. -/
def generateSpec : Dictionary where
  fields :=
    [("options".toList, .obj
        [("stopping".toList, .obj [("max_sentences".toList, .int 5), ("seed".toList, .null)]),
          ("ids".toList, .arr [.str "a".toList,
            .obj [("text".toList, .str "b".toList), ("n".toList, .bool true)]])]),
      ("secret_ref".toList, .str "vault:7".toList),
      ("kind".toList, .str "generate".toList)]
  dict := by simp [Value.Dict, DictFields, DictItems]

def analyzeSpec : Dictionary where
  fields := [("kind".toList, .str "analyze".toList), ("text".toList, .str "c".toList)]
  dict := by simp [Value.Dict, DictFields]

/-- A spec with a credential two levels down. -/
def leakySpec : Dictionary where
  fields :=
    [("kind".toList, .str "generate".toList),
      ("options".toList, .arr [.obj [("apiKey".toList, .str "k".toList)]])]
  dict := by simp [Value.Dict, DictFields, DictItems]

def generateDigest : Sha256 := 0x3e24750baba9f51d332cd5e1b035be7f49d1bec0716dc5f17c4b20bf5c589dc1#256

def analyzeDigest : Sha256 := 0xe80565cc47cb959f135399d2dde97d0f911248e9aeca273a7cd429ea245f529d#256

/-- SHA-256 of the texts of the two specs. -/
def specSha256 (text : List Char) : Sha256 :=
  ([(dumps (specValue generateSpec), generateDigest),
    (dumps (specValue analyzeSpec), analyzeDigest)].lookup text).getD 0

/-- Two submitted specs, a retry of the first, and a replay of the retry. -/
def specEvents : List Event :=
  [.submit generateSpec, .submit analyzeSpec, .retry 0, .submitReplay 2]

theorem spec_digests :
    (Documents.normalizeRunSpec specSha256 generateSpec).map Prod.snd = .ok generateDigest ∧
      (history specSha256 storedColumn specEvents).map SpecColumns.specSha256 =
        [generateDigest, analyzeDigest, generateDigest, generateDigest] ∧
      (Documents.normalizeRunSpec specSha256 leakySpec).isOk = false := by
  decide +kernel

/-- The nested spec, whose reference to a secret is no credential, is stored with its keys
in another order, and is the same spec: also for a retry, and for a replay of the retry. -/
theorem run_spec_canonical_stored :
    (∃ normalized,
      Documents.normalizeRunSpec specSha256 generateSpec = .ok (normalized, generateDigest) ∧
      (∀ key ∈ keys normalized.value, isSensitiveKey key = false) ∧
      Documents.normalizeRunSpec specSha256 (dictionaryOf normalized) =
        .ok (normalized, generateDigest) ∧
      Documents.normalizeRunSpec specSha256 (storedColumn generateSpec) =
        .ok (normalized, generateDigest)) ∧
    (Documents.normalizeRunSpec specSha256 leakySpec).isOk = false ∧
    (history specSha256 storedColumn specEvents).length = 4 ∧
    ∀ run ∈ history specSha256 storedColumn specEvents,
      verifySpec specSha256 run run.specSha256 = .ok () ∧
      verifyReference specSha256 run run.specSha256 = .ok () ∧
      ∃ bytes, authoritativeSpec specSha256 run = .ok (run.specSha256, bytes) := by
  obtain ⟨hcanonical, hruns⟩ := run_spec_canonical specSha256 storedColumn
    fun spec => reordered_stored (.obj spec.fields)
  obtain ⟨hdigest, hhistory, hleaky⟩ := spec_digests
  refine ⟨?_, hleaky, ?_, hruns specEvents⟩
  · cases hnormalized : Documents.normalizeRunSpec specSha256 generateSpec with
    | error e =>
      rw [hnormalized] at hdigest
      cases hdigest
    | ok result =>
      obtain ⟨normalized, digest⟩ := result
      rw [hnormalized] at hdigest
      cases hdigest
      obtain ⟨hharmless, hagain, hreordered⟩ := hcanonical generateSpec normalized _ hnormalized
      exact ⟨normalized, rfl, hharmless, hagain,
        hreordered _ (reordered_stored (.obj generateSpec.fields))⟩
  · rw [← List.length_map SpecColumns.specSha256, hhistory]
    rfl

end CorpusKit.SpecIntegrity
