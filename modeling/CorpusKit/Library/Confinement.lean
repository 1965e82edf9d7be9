import CorpusKit.Library.Rules
import CorpusKit.Library.Table

/-! # Confinement

A part of a table is left alone if its rows are the same before and after. A
program is confined if it can never perform an operation outside a family, and
then no run performs one for it. -/

namespace Table

variable {κ ρ : Type} [DecidableEq κ] {mine : κ → ρ → Prop} {t t' t'' : Table κ ρ} {k : κ} {r : ρ}

/-- The rows outside `mine` are the same. -/
def Outside (mine : κ → ρ → Prop) (t t' : Table κ ρ) : Prop :=
  ∀ k r, ¬ mine k r → (t.lookup k = some r ↔ t'.lookup k = some r)

theorem Outside.refl (t : Table κ ρ) : Outside mine t t := fun _ _ _ => Iff.rfl

theorem Outside.trans (h : Outside mine t t') (h' : Outside mine t' t'') : Outside mine t t'' :=
  fun k r hr => (h k r hr).trans (h' k r hr)

/-- A key that only ever held rows of one's own still does. -/
theorem Outside.own (h : Outside mine t t') (hold : ∀ r, t.lookup k = some r → mine k r) :
    ∀ r, t'.lookup k = some r → mine k r := by
  intro r hr
  by_contra hother
  exact hother (hold r ((h k r hother).mpr hr))

theorem Outside.insert (hold : ∀ r', t.lookup k = some r' → mine k r') (hnew : mine k r) :
    Outside mine t (t.insert k r) := by
  intro k' r' hother
  by_cases hk : k' = k
  · subst hk
    rw [AList.lookup_insert]
    refine ⟨fun h => absurd (hold r' h) hother, fun h => ?_⟩
    obtain rfl : r = r' := Option.some.inj h
    exact absurd hnew hother
  · rw [AList.lookup_insert_ne hk]

/-- A row enters under a new identifier. -/
theorem Outside.draw {mine : Nat → ρ → Prop} {t : Table Nat ρ} {n : Nat} (hfresh : Below n t)
    (hmine : mine n r) : Outside mine t (t.insert n r) := by
  refine .insert (fun old hold => ?_) hmine
  rw [hfresh.none] at hold
  cases hold

theorem Outside.deleteWhere {p : κ → ρ → Bool} (hp : ∀ k r, p k r = true → mine k r) :
    Outside mine t (t.deleteWhere p) := by
  intro k r hother
  rw [lookup_deleteWhere]
  refine ⟨fun h => ⟨h, ?_⟩, And.left⟩
  rw [Bool.eq_false_iff]
  exact fun hgone => hother (hp k r hgone)

theorem Outside.mapRows {f : κ → ρ → ρ} (hf : ∀ k r, f k r = r ∨ (mine k r ∧ mine k (f k r))) :
    Outside mine t (t.mapRows f) := by
  intro k r hother
  rw [lookup_mapRows, Option.map_eq_some_iff]
  constructor
  · intro h
    refine ⟨r, h, ?_⟩
    rcases hf k r with hsame | hmine
    · exact hsame
    · exact absurd hmine.1 hother
  · rintro ⟨r', hr', rfl⟩
    rcases hf k r' with hsame | hmine
    · rw [hsame]
      exact hr'
    · exact absurd hmine.2 hother

theorem Outside.erase (hold : ∀ r', t.lookup k = some r' → mine k r') :
    Outside mine t (t.erase k) := by
  intro k' r' hother
  by_cases hk : k' = k
  · subst hk
    rw [AList.lookup_erase]
    exact ⟨fun h => absurd (hold r' h) hother, nofun⟩
  · rw [AList.lookup_erase_ne hk]

end Table

namespace Interleaving

open Transaction Program

variable {M : Machine} {G : Guard M}

/-- What a confined job has done and may still do. -/
def Job.Confined (P : (β : Type) → M.Op β → Prop) (j : Job M) : Prop :=
  (∀ p, j.rest = some p → p.All P) ∧ ∀ e ∈ j.history, P e.β e.op

/-- The calls of confined programs are confined in every run. -/
theorem confined_reachable {P : M.Call → (β : Type) → M.Op β → Prop}
    (hP : ∀ c, (M.prog c).All (P c)) {w₀ : M.World} {cfg : Config M} (h : Reachable G w₀ cfg) :
    ∀ j ∈ cfg.jobs, j.Confined (P j.call) := by
  unfold Reachable at h
  induction h with
  | refl => exact fun j hj => (List.not_mem_nil hj).elim
  | @tail cfg cfg' _ hstep ih =>
    cases hstep with
    | start c =>
      intro j hj
      obtain hold | hnew := List.mem_append.mp hj
      · exact ih j hold
      · obtain rfl := List.mem_singleton.mp hnew
        refine ⟨fun p hp => ?_, fun e he => (List.not_mem_nil he).elim⟩
        cases hp
        exact hP c
    | tick t => exact ih
    | crash hjob =>
      intro j hj
      obtain hold | rfl := List.mem_or_eq_of_mem_set hj
      · exact ih j hold
      · refine ⟨fun p hp => ?_, (ih _ (List.mem_of_getElem? hjob)).2⟩
        cases hp
    | act hjob hrest hG =>
      intro j hj
      obtain hold | rfl := List.mem_or_eq_of_mem_set hj
      · exact ih j hold
      · obtain ⟨hprog, hpast⟩ := ih _ (List.mem_of_getElem? hjob)
        have hnow := hprog _ hrest
        refine ⟨fun p hp => ?_, fun e he => ?_⟩
        · cases hp
          exact hnow.2 _
        · obtain rfl | hbefore := List.mem_cons.mp he
          · exact hnow.1
          · exact hpast e hbefore

/-- What holds of every operation a call performs where the run admits it holds of all it
has done. -/
theorem calls_hold {w₀ : M.World} {P : M.Call → Event M → Prop}
    (hP : ∀ {cfg : Config M} {j : Job M} {β} {o : M.Op β} {next}, Reachable G w₀ cfg →
      j ∈ cfg.jobs → j.rest = some (.op o next) → G cfg j β o →
      P j.call ⟨o, cfg.world, (commit (M.exec o) cfg.world).2⟩)
    {cfg : Config M} (h : Reachable G w₀ cfg) : ∀ j ∈ cfg.jobs, ∀ e ∈ j.history, P j.call e := by
  unfold Reachable at h
  induction h with
  | refl => exact fun j hj => (List.not_mem_nil hj).elim
  | @tail cfg cfg' hs hstep ih =>
    cases hstep with
    | start c =>
      intro j hj e he
      obtain hold | hnew := List.mem_append.mp hj
      · exact ih j hold e he
      · obtain rfl := List.mem_singleton.mp hnew
        exact (List.not_mem_nil he).elim
    | tick t => exact ih
    | crash hjob =>
      intro j hj e he
      obtain hold | rfl := List.mem_or_eq_of_mem_set hj
      · exact ih j hold e he
      · exact ih _ (List.mem_of_getElem? hjob) e he
    | act hjob hrest hG =>
      intro j hj e he
      obtain hold | rfl := List.mem_or_eq_of_mem_set hj
      · exact ih j hold e he
      · obtain rfl | hpast := List.mem_cons.mp he
        · have hnow := hP hs (List.mem_of_getElem? hjob) hrest hG
          exact hnow
        · exact ih _ (List.mem_of_getElem? hjob) e hpast

end Interleaving
