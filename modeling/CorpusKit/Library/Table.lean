import Mathlib.Data.List.AList
import Mathlib.Data.List.Sort
import Mathlib.Algebra.BigOperators.Group.List.Basic
import Mathlib.Algebra.GroupWithZero.Nat

/-! # Tables

A table is an association list from primary keys to rows. Besides Mathlib's
lookups it has the statements a relational program makes about all rows at
once: the rows matching a condition (`select`), deletion of the rows matching a
condition (`deleteWhere`), an update of every row (`mapRows`), and the sum of a
weight over all rows (`total`), with the effect each write has on that sum. -/

abbrev Table (κ ρ : Type) := AList fun _ : κ => ρ

namespace Table

variable {κ ρ : Type}

/-- All rows with their keys. -/
def rows (t : Table κ ρ) : List (κ × ρ) := t.entries.map fun e => (e.1, e.2)

def select (p : κ → ρ → Bool) (t : Table κ ρ) : List (κ × ρ) := t.rows.filter fun e => p e.1 e.2

/-- The first row matching a condition; the callers' conditions match at most one. -/
def find (p : κ → ρ → Bool) (t : Table κ ρ) : Option (κ × ρ) := t.rows.find? fun e => p e.1 e.2

def deleteWhere (p : κ → ρ → Bool) (t : Table κ ρ) : Table κ ρ where
  entries := t.entries.filter fun e => !p e.1 e.2
  nodupKeys := t.nodupKeys.sublist List.filter_sublist

def mapRows (f : κ → ρ → ρ) (t : Table κ ρ) : Table κ ρ where
  entries := t.entries.map fun e => ⟨e.1, f e.1 e.2⟩
  nodupKeys := by
    have h : (t.entries.map fun e => (⟨e.1, f e.1 e.2⟩ : Sigma fun _ : κ => ρ)).keys =
        t.entries.keys := by
      simp [List.keys, Function.comp_def]
    exact show List.Nodup _ from h ▸ t.nodupKeys

/-- The sum of a weight over all rows. -/
def total (w : ρ → Nat) (t : Table κ ρ) : Nat := (t.entries.map fun e => w e.2).sum

theorem rows_nodup {t : Table κ ρ} : t.rows.Nodup := by
  refine List.Nodup.map ?_ t.nodupKeys.nodup
  rintro ⟨k, r⟩ ⟨k', r'⟩ h
  cases h
  rfl

theorem select_nodup {t : Table κ ρ} {p : κ → ρ → Bool} : (t.select p).Nodup := rows_nodup.filter _

/-- Deleting nothing leaves the table. -/
theorem deleteWhere_none {t : Table κ ρ} {p : κ → ρ → Bool}
    (h : ∀ e ∈ t.entries, p e.1 e.2 = false) : t.deleteWhere p = t := by
  refine AList.ext (List.filter_eq_self.mpr fun e he => ?_)
  rw [h e he, Bool.not_false]

theorem deleteWhere_deleteWhere {t : Table κ ρ} {p q : κ → ρ → Bool} :
    (t.deleteWhere p).deleteWhere q = t.deleteWhere fun k r => p k r || q k r := by
  refine AList.ext ?_
  simp only [deleteWhere, List.filter_filter, Bool.not_or, Bool.and_comm]

section Lookup

variable [DecidableEq κ] {t : Table κ ρ} {k : κ} {r : ρ}

theorem mem_rows : (k, r) ∈ t.rows ↔ t.lookup k = some r := by
  have h : (k, r) ∈ t.rows ↔ (⟨k, r⟩ : Sigma fun _ : κ => ρ) ∈ t.entries := by
    simp only [rows, List.mem_map, Prod.mk.injEq]
    constructor
    · rintro ⟨⟨k', r'⟩, he, rfl, rfl⟩; exact he
    · intro he; exact ⟨⟨k, r⟩, he, rfl, rfl⟩
  rw [h, ← AList.mem_lookup_iff, Option.mem_def]

theorem mem_select {p : κ → ρ → Bool} :
    (k, r) ∈ t.select p ↔ t.lookup k = some r ∧ p k r = true := by
  simp only [select, List.mem_filter, mem_rows]

theorem find_some {p : κ → ρ → Bool} (h : t.find p = some (k, r)) :
    t.lookup k = some r ∧ p k r = true :=
  ⟨mem_rows.mp (List.mem_of_find?_eq_some h), by simpa using List.find?_some h⟩

theorem find_none {p : κ → ρ → Bool} (h : t.find p = none) (hk : t.lookup k = some r) :
    p k r = false := by
  have := List.find?_eq_none.mp h (k, r) (mem_rows.mpr hk)
  simpa using this

theorem find_isSome {p : κ → ρ → Bool} (hk : t.lookup k = some r) (hp : p k r = true) :
    ∃ e, t.find p = some e := by
  cases h : t.find p with
  | some e => exact ⟨e, rfl⟩
  | none => rw [find_none h hk] at hp; cases hp

theorem lookup_insert_cases {k' : κ} {r' : ρ} (h : (t.insert k r).lookup k' = some r') :
    (k' = k ∧ r' = r) ∨ (k' ≠ k ∧ t.lookup k' = some r') := by
  by_cases hk : k' = k
  · subst hk
    rw [AList.lookup_insert] at h
    exact .inl ⟨rfl, (Option.some.inj h).symm⟩
  · rw [AList.lookup_insert_ne hk] at h
    exact .inr ⟨hk, h⟩

/-- No row goes when one is written. -/
theorem lookup_insert_kept {j : κ} {s : ρ} (h : t.lookup k = some r) :
    ∃ r', (t.insert j s).lookup k = some r' := by
  by_cases hk : k = j
  · exact ⟨s, hk ▸ AList.lookup_insert _⟩
  · exact ⟨r, (AList.lookup_insert_ne hk).trans h⟩

/-- A new key takes nothing away. -/
theorem lookup_insert_old {j : κ} {s : ρ} (h : t.lookup k = some r) (hnew : t.lookup j = none) :
    (t.insert j s).lookup k = some r := by
  rw [AList.lookup_insert_ne, h]
  rintro rfl
  rw [hnew] at h
  cases h

theorem lookup_deleteWhere {p : κ → ρ → Bool} :
    (t.deleteWhere p).lookup k = some r ↔ t.lookup k = some r ∧ p k r = false := by
  rw [← Option.mem_def, AList.mem_lookup_iff, ← Option.mem_def, AList.mem_lookup_iff]
  simp [deleteWhere, List.mem_filter]

theorem lookup_mapRows {f : κ → ρ → ρ} :
    (t.mapRows f).lookup k = (t.lookup k).map (f k) := by
  cases h : t.lookup k with
  | some r =>
    rw [← Option.mem_def, AList.mem_lookup_iff] at h
    rw [Option.map_some, ← Option.mem_def, AList.mem_lookup_iff]
    exact List.mem_map.mpr ⟨⟨k, r⟩, h, rfl⟩
  | none =>
    rw [Option.map_none, AList.lookup_eq_none, AList.mem_keys]
    rw [AList.lookup_eq_none, AList.mem_keys] at h
    simpa [mapRows, AList.keys, List.keys, Function.comp_def] using h

/-- The first of a sorted list comes before all others. -/
theorem head_insertionSort {α : Type} {le : α → α → Prop} [DecidableRel le] [Std.Total le]
    [IsTrans α le] {l : List α} {a : α} (h : (l.insertionSort le).head? = some a) :
    a ∈ l ∧ ∀ b ∈ l, b = a ∨ le a b := by
  have hsorted := List.pairwise_insertionSort le l
  cases hl : l.insertionSort le with
  | nil => rw [hl] at h; cases h
  | cons x rest =>
    rw [hl] at h hsorted
    cases h
    refine ⟨(List.mem_insertionSort le).mp (hl ▸ List.mem_cons_self), fun b hb => ?_⟩
    have hmem : b ∈ a :: rest := hl ▸ (List.mem_insertionSort le).mpr hb
    exact (List.mem_cons.mp hmem).imp_right fun hrest => List.rel_of_pairwise_cons hsorted hrest

/-! ### Exactly one row -/

/-- Exactly one row satisfies the condition. -/
def HasOne (p : ρ → Prop) (t : Table κ ρ) : Prop :=
  ∃ k r, t.lookup k = some r ∧ p r ∧ ∀ k' r', t.lookup k' = some r' → p r' → k' = k

theorem HasOne.insert_other {p : ρ → Prop} (h : HasOne p t) (hnew : t.lookup k = none)
    (hp : ¬ p r) : HasOne p (t.insert k r) := by
  obtain ⟨l, x, hl, hx, huniq⟩ := h
  have hne : l ≠ k := by rintro rfl; rw [hnew] at hl; cases hl
  refine ⟨l, x, by rw [AList.lookup_insert_ne hne]; exact hl, hx, fun k' r' hk' hr' => ?_⟩
  obtain ⟨-, rfl⟩ | ⟨-, hold⟩ := lookup_insert_cases hk'
  · exact absurd hr' hp
  · exact huniq k' r' hold hr'

theorem HasOne.insert_same {p : ρ → Prop} {r₀ : ρ} (h : HasOne p t) (hold : t.lookup k = some r₀)
    (hp : p r ↔ p r₀) : HasOne p (t.insert k r) := by
  obtain ⟨l, x, hl, hx, huniq⟩ := h
  have hrest : ∀ k' r', (t.insert k r).lookup k' = some r' → p r' → k' = l := by
    intro k' r' hk' hr'
    obtain ⟨rfl, rfl⟩ | ⟨-, hother⟩ := lookup_insert_cases hk'
    · exact huniq k' r₀ hold (hp.mp hr')
    · exact huniq k' r' hother hr'
  by_cases hkl : l = k
  · subst hkl
    rw [hl] at hold
    cases hold
    exact ⟨l, r, AList.lookup_insert _, hp.mpr hx, hrest⟩
  · exact ⟨l, x, by rw [AList.lookup_insert_ne hkl]; exact hl, hx, hrest⟩

theorem HasOne.insert_first {p : ρ → Prop} (hnone : ∀ k' r', t.lookup k' = some r' → ¬ p r')
    (hp : p r) : HasOne p (t.insert k r) := by
  refine ⟨k, r, AList.lookup_insert _, hp, fun k' r' hk' hr' => ?_⟩
  obtain ⟨rfl, -⟩ | ⟨-, hold⟩ := lookup_insert_cases hk'
  · rfl
  · exact absurd hr' (hnone k' r' hold)

theorem HasOne.deleteWhere {p : ρ → Prop} {q : κ → ρ → Bool} (h : HasOne p t)
    (hq : ∀ {k r}, t.lookup k = some r → p r → q k r = false) : HasOne p (t.deleteWhere q) := by
  obtain ⟨l, x, hl, hx, huniq⟩ := h
  exact ⟨l, x, lookup_deleteWhere.mpr ⟨hl, hq hl hx⟩, hx,
    fun k' r' hk' hr' => huniq k' r' (lookup_deleteWhere.mp hk').1 hr'⟩

end Lookup

/-! ## Keys drawn from a counter -/

/-- Every key was drawn before the counter reached `n`. -/
def Below (n : Nat) (t : Table Nat ρ) : Prop := ∀ k r, t.lookup k = some r → k < n

theorem not_mem_empty {κ : Type} [DecidableEq κ] {k : κ} {r : ρ}
    (h : (∅ : Table κ ρ).lookup k = some r) : False := by
  rw [AList.lookup_empty] at h
  cases h

theorem below_empty (n : Nat) : Below n (∅ : Table Nat ρ) := fun _ _ h => (not_mem_empty h).elim

theorem Below.mono {n m : Nat} {t : Table Nat ρ} (h : Below n t) (hm : n ≤ m) : Below m t :=
  fun k r hk => lt_of_lt_of_le (h k r hk) hm

theorem Below.none {n : Nat} {t : Table Nat ρ} (h : Below n t) : t.lookup n = none := by
  cases hn : t.lookup n with
  | none => rfl
  | some r => exact absurd (h n r hn) (Nat.lt_irrefl n)

theorem Below.insert {n k : Nat} {t : Table Nat ρ} (h : Below n t) (hk : k < n) (r : ρ) :
    Below n (t.insert k r) := by
  intro k' r' hk'
  obtain ⟨rfl, -⟩ | ⟨-, hold⟩ := lookup_insert_cases hk'
  · exact hk
  · exact h k' r' hold

theorem Below.draw {n : Nat} {t : Table Nat ρ} (h : Below n t) (r : ρ) :
    Below (n + 1) (t.insert n r) :=
  (h.mono (Nat.le_succ n)).insert (Nat.lt_succ_self n) r

theorem Below.deleteWhere {n : Nat} {t : Table Nat ρ} (h : Below n t) (q : Nat → ρ → Bool) :
    Below n (t.deleteWhere q) := fun k r hk => h k r (lookup_deleteWhere.mp hk).1

theorem Below.mapRows {n : Nat} {t : Table Nat ρ} (h : Below n t) (f : Nat → ρ → ρ) :
    Below n (t.mapRows f) := by
  intro k r hk
  rw [lookup_mapRows, Option.map_eq_some_iff] at hk
  obtain ⟨r₀, hr₀, -⟩ := hk
  exact h k r₀ hr₀

theorem Below.erase {n k : Nat} {t : Table Nat ρ} (h : Below n t) : Below n (t.erase k) := by
  intro k' r hk'
  by_cases hk : k' = k
  · subst hk
    rw [AList.lookup_erase] at hk'
    cases hk'
  · rw [AList.lookup_erase_ne hk] at hk'
    exact h k' r hk'

/-! ### Rows that stay

A counter hands out keys once, so a row under an old key is the old row. -/

/-- Rows under keys drawn before `n` come from rows of `t`, related by `R`. -/
def Kept (n : Nat) (R : ρ → ρ → Prop) (t t' : Table Nat ρ) : Prop :=
  ∀ k r', t'.lookup k = some r' → k < n → ∃ r, t.lookup k = some r ∧ R r r'

section Kept

variable {n k : Nat} {R : ρ → ρ → Prop} {t t' t'' : Table Nat ρ} {r r' : ρ}

theorem Kept.refl (hR : ∀ r, R r r) : Kept n R t t := fun _ r hr _ => ⟨r, hr, hR r⟩

theorem Kept.trans {m : Nat} (h : Kept n R t t') (h' : Kept m R t' t'') (hn : n ≤ m)
    (hR : ∀ {a b c}, R a b → R b c → R a c) : Kept n R t t'' := by
  intro k r'' hr'' hk
  obtain ⟨r', hr', hlast⟩ := h' k r'' hr'' (lt_of_lt_of_le hk hn)
  obtain ⟨r, hr, hfirst⟩ := h k r' hr' hk
  exact ⟨r, hr, hR hfirst hlast⟩

theorem Kept.draw (hR : ∀ r, R r r) (hk : n ≤ k) : Kept n R t (t.insert k r) := by
  intro k' r' hr' hk'
  obtain ⟨rfl, -⟩ | ⟨-, hold⟩ := lookup_insert_cases hr'
  · exact absurd hk' (Nat.not_lt.mpr hk)
  · exact ⟨r', hold, hR r'⟩

theorem Kept.write (hR : ∀ r, R r r) (hr : t.lookup k = some r) (hrr' : R r r') :
    Kept n R t (t.insert k r') := by
  intro k' s hs _
  obtain ⟨rfl, rfl⟩ | ⟨-, hold⟩ := lookup_insert_cases hs
  · exact ⟨r, hr, hrr'⟩
  · exact ⟨s, hold, hR s⟩

theorem Kept.deleteWhere (hR : ∀ r, R r r) (q : Nat → ρ → Bool) :
    Kept n R t (t.deleteWhere q) := fun _ r hr _ => ⟨r, (lookup_deleteWhere.mp hr).1, hR r⟩

theorem Kept.mapRows {f : Nat → ρ → ρ} (hf : ∀ k r, R r (f k r)) : Kept n R t (t.mapRows f) := by
  intro k r' hr' _
  rw [lookup_mapRows, Option.map_eq_some_iff] at hr'
  obtain ⟨r, hr, rfl⟩ := hr'
  exact ⟨r, hr, hf k r⟩

theorem Kept.erase (hR : ∀ r, R r r) : Kept n R t (t.erase k) := by
  intro k' r' hr' _
  by_cases hk : k' = k
  · subst hk
    rw [AList.lookup_erase] at hr'
    cases hr'
  · rw [AList.lookup_erase_ne hk] at hr'
    exact ⟨r', hr', hR r'⟩

end Kept

/-- No row goes: every key of `t` is one of `t'`. -/
def Extends [DecidableEq κ] (t t' : Table κ ρ) : Prop :=
  ∀ k r, t.lookup k = some r → ∃ r', t'.lookup k = some r'

section Extends

variable [DecidableEq κ] {t t' t'' : Table κ ρ} {k : κ} {r : ρ}

theorem Extends.refl (t : Table κ ρ) : Extends t t := fun _ r h => ⟨r, h⟩

theorem Extends.trans (h : Extends t t') (h' : Extends t' t'') : Extends t t'' := by
  intro k r hr
  obtain ⟨r', hr'⟩ := h k r hr
  exact h' k r' hr'

theorem Extends.insert : Extends t (t.insert k r) := fun _ _ h => lookup_insert_kept h

theorem Extends.mapRows {f : κ → ρ → ρ} : Extends t (t.mapRows f) := fun k r h =>
  ⟨f k r, by rw [lookup_mapRows, h, Option.map_some]⟩

end Extends

/-! ## Totals -/

section Total

variable [DecidableEq κ] {t : Table κ ρ} {k : κ} {r r₀ : ρ} {w : ρ → Nat}

theorem total_insert_new (h : t.lookup k = none) : total w (t.insert k r) = w r + total w t := by
  have hk : k ∉ t := AList.lookup_eq_none.mp h
  unfold total
  rw [AList.entries_insert_of_notMem hk, List.map_cons, List.sum_cons]

theorem entries_perm_of_lookup (h : t.lookup k = some r₀) :
    t.entries.Perm (⟨k, r₀⟩ :: t.entries.kerase k) := by
  have hmem : (⟨k, r₀⟩ : Sigma fun _ : κ => ρ) ∈ t.entries :=
    AList.mem_lookup_iff.mp (Option.mem_def.mpr h)
  have hkey : k ∈ t.entries.keys := List.mem_map_of_mem hmem
  obtain ⟨b, l₁, l₂, -, heq, hers⟩ := List.exists_of_kerase hkey
  have hb : b = r₀ := by
    have hb : (⟨k, b⟩ : Sigma fun _ : κ => ρ) ∈ t.entries := by rw [heq]; simp
    have := AList.mem_lookup_iff.mpr hb
    rw [Option.mem_def, h] at this
    exact (Option.some.inj this).symm
  subst hb
  rw [hers, heq]
  exact List.perm_middle

/-- Writing an existing row moves its weight from the old value to the new. -/
theorem total_insert_old (h : t.lookup k = some r₀) :
    total w (t.insert k r) + w r₀ = total w t + w r := by
  unfold total
  rw [AList.entries_insert, ((entries_perm_of_lookup h).map _).sum_eq]
  simp only [List.map_cons, List.sum_cons]
  omega

/-- No row weighs more than the table. -/
theorem le_total (h : t.lookup k = some r₀) : w r₀ ≤ total w t := by
  unfold total
  rw [((entries_perm_of_lookup h).map _).sum_eq, List.map_cons, List.sum_cons]
  exact Nat.le_add_right _ _

theorem total_insert_same (h : t.lookup k = some r₀) (hw : w r = w r₀) :
    total w (t.insert k r) = total w t := by
  have := total_insert_old (r := r) (w := w) h
  omega

omit [DecidableEq κ] in
theorem total_deleteWhere_add (p : κ → ρ → Bool) :
    total w (t.deleteWhere p) + ((t.select p).map fun e => w e.2).sum = total w t := by
  unfold total deleteWhere select rows
  simp only
  induction t.entries with
  | nil => rfl
  | cons e l ih =>
    by_cases hp : p e.1 e.2 = true
    · simp only [List.filter_cons, hp, Bool.not_true, Bool.false_eq_true, if_false, if_true,
        List.map_cons, List.sum_cons]
      omega
    · simp only [List.filter_cons, hp, Bool.not_false, if_true, Bool.false_eq_true, if_false,
        List.map_cons, List.sum_cons]
      omega

omit [DecidableEq κ] in
/-- Rows without weight may be deleted. -/
theorem total_deleteWhere (p : κ → ρ → Bool) (h : ∀ k r, (k, r) ∈ t.select p → w r = 0) :
    total w (t.deleteWhere p) = total w t := by
  have hsum : ((t.select p).map fun e => w e.2).sum = 0 :=
    List.sum_eq_zero (by
      intro x hx
      obtain ⟨⟨k, r⟩, he, rfl⟩ := List.mem_map.mp hx
      exact h k r he)
  have := total_deleteWhere_add (t := t) (w := w) p
  omega

omit [DecidableEq κ] in
theorem total_mapRows {f : κ → ρ → ρ} (h : ∀ k r, (k, r) ∈ t.rows → w (f k r) = w r) :
    total w (t.mapRows f) = total w t := by
  unfold total mapRows
  rw [List.map_map]
  congr 1
  apply List.map_congr_left
  intro e he
  exact h e.1 e.2 (List.mem_map.mpr ⟨e, he, rfl⟩)

end Total

end Table
