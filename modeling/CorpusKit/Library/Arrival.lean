import CorpusKit.Library.Machine

/-! # What a program has just seen

A program that checks the store and then acts on what it saw relies on nobody
undoing it in between. `Arrives A` says that the program itself reaches an
operation only where `A` holds of it, and `arrived` is the rule for a run: where
the guard of the run keeps the others from undoing it, `A` still holds when the
operation is performed. -/

namespace Interleaving

open Transaction Program

variable {M : Machine} {G : Guard M} {A : (β : Type) → M.Op β → M.World → Prop} {α β : Type}
  {Q : α → M.World → Prop} {E : M.Error → M.World → Prop}

/-- From this store, the program reaches its operations only where `A` holds of them,
and answers within `Q` and raises within `E` at once. -/
def Arrives (A : (β : Type) → M.Op β → M.World → Prop) (Q : α → M.World → Prop)
    (E : M.Error → M.World → Prop) : Prog M.Op M.Error α → M.World → Prop
  | .ret a, w => Q a w
  | .raise e, w => E e w
  | @Prog.op _ _ _ β o next, w =>
    A β o w ∧ ∀ v, Arrives A Q E (next (commit (M.exec o) v).1) (commit (M.exec o) v).2

theorem Arrives.mono {Q' : α → M.World → Prop} {E' : M.Error → M.World → Prop}
    (hQ : ∀ {a u}, Q a u → Q' a u) (hE : ∀ {e u}, E e u → E' e u) {p : Prog M.Op M.Error α}
    {w : M.World} (h : Arrives A Q E p w) : Arrives A Q' E' p w := by
  induction p generalizing w with
  | ret a => exact hQ h
  | raise e => exact hE h
  | op o next ih => exact ⟨h.1, fun v => ih _ (h.2 v)⟩

theorem Arrives.bind {P : β → M.World → Prop} {p : Prog M.Op M.Error α}
    {f : α → Prog M.Op M.Error β} {w : M.World}
    (h : Arrives A (fun a u => Arrives A P E (f a) u) E p w) : Arrives A P E (p >>= f) w := by
  induction p generalizing w with
  | ret a => exact h
  | raise e => exact h
  | op o next ih => exact ⟨h.1, fun v => ih _ (h.2 v)⟩

theorem Arrives.handle {E' : M.Error → M.World → Prop} {p : Prog M.Op M.Error α}
    {handler : M.Error → Prog M.Op M.Error α} {w : M.World}
    (h : Arrives A Q (fun e u => Arrives A Q E' (handler e) u) p w) :
    Arrives A Q E' (p.handle handler) w := by
  induction p generalizing w with
  | ret a => exact h
  | raise e => exact h
  | op o next ih => exact ⟨h.1, fun v => ih _ (h.2 v)⟩

/-- A program whose operations satisfy `A` everywhere. -/
theorem Arrives.all {p : Prog M.Op M.Error α} (h : p.All fun β o => ∀ w, A β o w)
    (hQ : ∀ a w, Q a w) (hE : ∀ e w, E e w) (w : M.World) : Arrives A Q E p w := by
  induction p generalizing w with
  | ret a => exact hQ a w
  | raise e => exact hE e w
  | op o next ih => exact ⟨h.1 w, fun v => ih _ (h.2 _) _⟩

/-- One operation and what its answer says of the store it leaves. -/
theorem Arrives.perform {o : M.Op α} {w : M.World} (ha : A α o w)
    (hQ : ∀ {v a v'}, Returns (M.exec o) v a v' → Q a v')
    (hE : ∀ {v e}, Raises (M.exec o) v e → E e v) : Arrives A Q E (Prog.perform o) w := by
  refine ⟨ha, fun v => ?_⟩
  cases hc : commit (M.exec o) v with
  | mk r v' =>
    cases r with
    | ok a => exact hQ (commit_ok hc)
    | error e =>
      obtain ⟨rfl, hraise⟩ := commit_error hc
      exact hE hraise

/-- Only what the next operation relies on has to be kept. -/
theorem Arrives.kept {p : Prog M.Op M.Error α} {w w' : M.World} (h : Arrives A Q E p w)
    (hop : ∀ {β} {o : M.Op β} {next}, p = .op o next → A β o w → A β o w')
    (hQ : ∀ a, Q a w → Q a w') (hE : ∀ e, E e w → E e w') : Arrives A Q E p w' := by
  cases p with
  | ret a => exact hQ a h
  | raise e => exact hE e h
  | op o next => exact ⟨hop rfl h.1, h.2⟩

/-- **Arrival.** If every program reaches its operations only where `A` holds of them,
and no admitted operation of anybody else makes it false while a job is about to
perform one, then `A` holds of every operation that is about to be performed. -/
theorem arrived (hprog : ∀ c w, Arrives A (fun _ _ => True) (fun _ _ => True) (M.prog c) w)
    (hkeep : ∀ {cfg : Config M} {j β} {o : M.Op β}, G cfg j β o → ∀ k ∈ cfg.jobs,
      ∀ {γ} {o' : M.Op γ} {next}, k.rest = some (.op o' next) → A γ o' cfg.world →
        A γ o' (commit (M.exec o) cfg.world).2)
    (htick : ∀ {t w γ} {o : M.Op γ}, A γ o w → A γ o (M.tick t w))
    {w₀ : M.World} {cfg : Config M} (h : Reachable G w₀ cfg) :
    ∀ j ∈ cfg.jobs, ∀ p, j.rest = some p →
      Arrives A (fun _ _ => True) (fun _ _ => True) p cfg.world := by
  unfold Reachable at h
  induction h with
  | refl => exact fun j hj => (List.not_mem_nil hj).elim
  | @tail cfg cfg' hs hstep ih =>
    cases hstep with
    | start c =>
      intro j hj p hp
      obtain hold | hnew := List.mem_append.mp hj
      · exact ih j hold p hp
      · obtain rfl := List.mem_singleton.mp hnew
        cases hp
        exact hprog c _
    | tick t =>
      intro j hj p hp
      exact (ih j hj p hp).kept (fun _ ha => htick ha) (fun _ _ => trivial) fun _ _ => trivial
    | crash hjob =>
      intro j hj p hp
      obtain hold | rfl := List.mem_or_eq_of_mem_set hj
      · exact ih j hold p hp
      · cases hp
    | act hjob hrest hG =>
      intro j hj p hp
      obtain hold | rfl := List.mem_or_eq_of_mem_set hj
      · refine (ih j hold p hp).kept (fun hnext ha => ?_) (fun _ _ => trivial) fun _ _ => trivial
        exact hkeep hG j hold (hnext ▸ hp) ha
      · cases hp
        exact (ih _ (List.mem_of_getElem? hjob) _ hrest).2 _

end Interleaving
