import Mathlib.Data.List.Dedup
import Mathlib.Data.List.DropRight

/-! # Ordered dictionaries and recency

A dictionary that keeps its entries in the order they were put last. Moving an
entry to the end on every use and dropping entries from the front beyond a limit
keeps the keys used most recently. -/

/-- Entries from the oldest to the newest, one for a key. -/
structure OrderedDict (κ ν : Type*) where
  entries : List (κ × ν)
  nodup : (entries.map Prod.fst).Nodup

namespace OrderedDict

variable {κ ν : Type*}

def empty : OrderedDict κ ν := ⟨[], List.nodup_nil⟩

def keys (d : OrderedDict κ ν) : List κ := d.entries.map Prod.fst

theorem ext {d d' : OrderedDict κ ν} (h : d.entries = d'.entries) : d = d' := by
  cases d
  cases d'
  cases h
  rfl

/-- The entries the oldest of which go until no more than `limit` are left. -/
def popOldest (limit : Nat) : List (κ × ν) → List (κ × ν) × List (κ × ν)
  | [] => ([], [])
  | e :: rest =>
    if limit < (e :: rest).length then
      let popped := popOldest limit rest
      (popped.1, e :: popped.2)
    else (e :: rest, [])

theorem popOldest_eq (limit : Nat) (l : List (κ × ν)) :
    popOldest limit l = (l.rtake limit, l.rdrop limit) := by
  induction l with
  | nil => simp [popOldest]
  | cons e rest ih =>
    unfold popOldest
    split
    · next hlong =>
      rw [List.length_cons, Nat.lt_succ_iff] at hlong
      have hlength : (e :: rest).length - limit = rest.length - limit + 1 := by
        rw [List.length_cons]
        omega
      simp only [ih, List.rtake, List.rdrop, hlength, List.drop_succ_cons, List.take_succ_cons]
    · next hshort =>
      have hlength : (e :: rest).length - limit = 0 := by omega
      rw [List.rtake, List.rdrop, hlength]
      rfl

theorem rdrop_append_rtake (l : List (κ × ν)) (limit : Nat) : l.rdrop limit ++ l.rtake limit = l :=
  List.take_append_drop _ l

theorem rtake_suffix (l : List κ) (limit : Nat) : l.rtake limit <:+ l := List.drop_suffix _ l

theorem map_rtake (l : List (κ × ν)) (limit : Nat) :
    (l.rtake limit).map Prod.fst = (l.map Prod.fst).rtake limit := by
  rw [List.rtake, List.rtake, List.map_drop, List.length_map]

/-- `while len(d) > limit: d.popitem(last=False)`, with what was popped. -/
def trim (d : OrderedDict κ ν) (limit : Nat) : OrderedDict κ ν × List (κ × ν) :=
  (⟨(popOldest limit d.entries).1, by
    rw [popOldest_eq]
    exact d.nodup.sublist ((rtake_suffix _ _).sublist.map _)⟩, (popOldest limit d.entries).2)

theorem keys_trim (d : OrderedDict κ ν) (limit : Nat) :
    (d.trim limit).1.keys = d.keys.rtake limit := by
  simp only [trim, keys, popOldest_eq, map_rtake]

theorem trim_append (d : OrderedDict κ ν) (limit : Nat) :
    (d.trim limit).2 ++ (d.trim limit).1.entries = d.entries := by
  simp only [trim, popOldest_eq, rdrop_append_rtake]

section Keys

variable [DecidableEq κ]

def get? (d : OrderedDict κ ν) (key : κ) : Option ν :=
  (d.entries.find? fun e => e.1 = key).map Prod.snd

/-- `d[key] = value` of a key that is not there, and `d.move_to_end(key)` of one that is
there with this value. -/
def put (d : OrderedDict κ ν) (key : κ) (value : ν) : OrderedDict κ ν where
  entries := (d.entries.filter fun e => e.1 ≠ key) ++ [(key, value)]
  nodup := by
    rw [List.map_append, List.nodup_append]
    refine ⟨d.nodup.sublist (List.filter_sublist.map _), List.nodup_singleton _, ?_⟩
    intro a ha b hb
    obtain ⟨e, he, rfl⟩ := List.mem_map.mp ha
    obtain rfl := List.mem_singleton.mp hb
    simpa using (List.mem_filter.mp he).2

theorem get?_eq_some {d : OrderedDict κ ν} {key : κ} {value : ν} :
    d.get? key = some value ↔ (key, value) ∈ d.entries := by
  unfold get?
  rw [Option.map_eq_some_iff]
  constructor
  · rintro ⟨e, he, rfl⟩
    have hkey : e.1 = key := by simpa using List.find?_some he
    subst hkey
    exact List.mem_of_find?_eq_some he
  · intro hmem
    cases hfind : d.entries.find? fun e => e.1 = key with
    | none =>
      have hmiss := List.find?_eq_none.mp hfind _ hmem
      simp at hmiss
    | some e =>
      have hkey : e.1 = key := by simpa using List.find?_some hfind
      have he := List.inj_on_of_nodup_map d.nodup (List.mem_of_find?_eq_some hfind) hmem hkey
      exact ⟨e, rfl, congrArg Prod.snd he⟩

theorem get?_eq_none {d : OrderedDict κ ν} {key : κ} : d.get? key = none ↔ key ∉ d.keys := by
  rw [← not_iff_not, not_not, ← ne_eq, Option.ne_none_iff_exists']
  constructor
  · rintro ⟨value, hvalue⟩
    exact List.mem_map.mpr ⟨_, get?_eq_some.mp hvalue, rfl⟩
  · intro hkey
    obtain ⟨⟨k, value⟩, he, rfl⟩ := List.mem_map.mp hkey
    exact ⟨value, get?_eq_some.mpr he⟩

theorem keys_put (d : OrderedDict κ ν) (key : κ) (value : ν) :
    (d.put key value).keys = d.keys.erase key ++ [key] := by
  rw [keys, put, List.map_append, keys, d.nodup.erase_eq_filter, List.filter_map]
  congr 2
  refine List.filter_congr fun e _ => ?_
  by_cases he : e.1 = key <;> simp [he]

theorem get?_put (d : OrderedDict κ ν) (key : κ) (value : ν) :
    (d.put key value).get? key = some value :=
  get?_eq_some.mpr (List.mem_append_right _ (List.mem_singleton.mpr rfl))

theorem put_new {d : OrderedDict κ ν} {key : κ} (h : key ∉ d.keys) (value : ν) :
    (d.put key value).entries = d.entries ++ [(key, value)] := by
  have hall : (d.entries.filter fun e => e.1 ≠ key) = d.entries := by
    refine List.filter_eq_self.mpr fun e he => ?_
    have hne : e.1 ≠ key := fun heq => h (heq ▸ List.mem_map_of_mem he)
    simpa using hne
  show (d.entries.filter fun e => e.1 ≠ key) ++ _ = _
  rw [hall]

/-- Moving an entry to the end only moves it. -/
theorem put_perm {d : OrderedDict κ ν} {key : κ} {value : ν} (h : d.get? key = some value) :
    (d.put key value).entries.Perm d.entries := by
  have hmem := get?_eq_some.mp h
  rw [List.perm_ext_iff_of_nodup (d.put key value).nodup.of_map d.nodup.of_map]
  intro e
  rw [put, List.mem_append, List.mem_filter, List.mem_singleton]
  constructor
  · rintro (⟨he, -⟩ | rfl)
    · exact he
    · exact hmem
  · intro he
    by_cases hkey : e.1 = key
    · exact .inr (List.inj_on_of_nodup_map d.nodup he hmem hkey)
    · exact .inl ⟨he, by simpa using hkey⟩

/-- The entry put last is not dropped. -/
theorem get?_trim_put (d : OrderedDict κ ν) (key : κ) (value : ν) {limit : Nat} (h : 1 ≤ limit) :
    ((d.put key value).trim limit).1.get? key = some value := by
  obtain ⟨n, rfl⟩ := Nat.exists_eq_add_of_le' h
  have hkept : (key, value) ∈ (popOldest (n + 1) (d.put key value).entries).1 := by
    rw [popOldest_eq, put, List.rtake_concat_succ]
    exact List.mem_append_right _ (List.mem_singleton.mpr rfl)
  exact get?_eq_some.mpr hkept

end Keys

end OrderedDict

/-! ## Recency -/

namespace Recency

variable {κ : Type*}

section Trim

variable {l t : List κ} {limit : Nat}

theorem rtake_append (h : limit ≤ t.length) : (l ++ t).rtake limit = t.rtake limit := by
  have hlength : (l ++ t).length - limit = l.length + (t.length - limit) := by
    rw [List.length_append]
    omega
  rw [List.rtake, List.rtake, hlength, List.drop_append, List.drop_eq_nil_of_le (by omega)]
  simp

theorem rtake_of_length_le (h : l.length ≤ limit) : l.rtake limit = l := by
  rw [List.rtake, Nat.sub_eq_zero_of_le h, List.drop_zero]

end Trim

variable [DecidableEq κ]

/-- The last occurrences, after one more use: the key moves to the end. -/
theorem dedup_concat (uses : List κ) (key : κ) :
    (uses ++ [key]).dedup = uses.dedup.erase key ++ [key] := by
  induction uses with
  | nil => simp
  | cons a uses ih =>
    rw [List.cons_append]
    by_cases ha : a ∈ uses
    · rw [List.dedup_cons_of_mem (List.mem_append_left _ ha), ih, List.dedup_cons_of_mem ha]
    · rw [List.dedup_cons_of_notMem ha]
      by_cases hkey : a = key
      · subst hkey
        rw [List.dedup_cons_of_mem (by simp), ih, List.erase_cons_head,
          List.erase_of_not_mem (mt List.mem_dedup.mp ha)]
      · rw [List.dedup_cons_of_notMem (by simp [ha, hkey]), ih,
          List.erase_cons_tail (by simpa using hkey), List.cons_append]

/-- What is kept of a list before a use decides what is kept after it. -/
theorem rtake_use {l : List κ} (hl : l.Nodup) (key : κ) (limit : Nat) :
    ((l.rtake limit).erase key ++ [key]).rtake limit = (l.erase key ++ [key]).rtake limit := by
  by_cases hshort : l.length ≤ limit
  · rw [rtake_of_length_le hshort]
  have hsplit : l.rdrop limit ++ l.rtake limit = l := List.take_append_drop _ l
  have hkept : (l.rtake limit).length = limit := by
    rw [List.rtake, List.length_drop]
    omega
  generalize l.rtake limit = kept at hsplit hkept ⊢
  generalize l.rdrop limit = gone at hsplit
  subst hsplit
  by_cases hmem : key ∈ kept
  · have hgone : key ∉ gone := fun hin => (List.nodup_append.mp hl).2.2 key hin key hmem rfl
    have hlength : limit ≤ (kept.erase key ++ [key]).length := by
      rw [List.length_append, List.length_erase_of_mem hmem, List.length_singleton]
      have := List.length_pos_of_mem hmem
      omega
    rw [List.erase_append_right _ hgone, List.append_assoc, rtake_append hlength]
  · have hright : (gone ++ kept).erase key = gone.erase key ++ kept := by
      by_cases hgone : key ∈ gone
      · exact List.erase_append_left _ hgone
      · rw [List.erase_of_not_mem hgone, List.erase_of_not_mem (by simp [hgone, hmem])]
    have hlength : limit ≤ (kept ++ [key]).length := by
      rw [List.length_append]
      omega
    rw [List.erase_of_not_mem hmem, hright, List.append_assoc, rtake_append hlength]

end Recency
