import CorpusKit.Library.Machine

/-! # Rules for interleaved programs

Everything a development proves about a machine goes through one of the four
rules of this file; none of them looks at more than one operation at a time. -/

namespace Interleaving

open Transaction Program

variable {M : Machine} {G : Guard M}

/-- What one step may do to the store. -/
theorem Step.world {cfg cfg' : Config M} (h : Step G cfg cfg') :
    cfg'.world = cfg.world ∨ (∃ t, cfg'.world = M.tick t cfg.world) ∨
      ∃ j β, ∃ (o : M.Op β) (b : β), j ∈ cfg.jobs ∧ G cfg j β o ∧
        Returns (M.exec o) cfg.world b cfg'.world := by
  cases h with
  | start c => exact .inl rfl
  | crash hjob => exact .inl rfl
  | tick t => exact .inr (.inl ⟨t, rfl⟩)
  | @act i j β o next hjob hrest hG =>
    have hmem : j ∈ cfg.jobs := List.mem_of_getElem? hjob
    cases hc : commit (M.exec o) cfg.world with
    | mk r w =>
      cases r with
      | error e => exact .inl (commit_error hc).1
      | ok b => exact .inr (.inr ⟨j, β, o, b, hmem, hG, commit_ok hc⟩)

/-! ## Invariants of the store -/

/-- Every admitted operation and every tick keeps `I`. -/
structure Respects (G : Guard M) (I : M.World → Prop) : Prop where
  op : ∀ {cfg : Config M} {j β} {o : M.Op β} {b w}, I cfg.world → G cfg j β o →
    Returns (M.exec o) cfg.world b w → I w
  tick : ∀ {t w}, I w → I (M.tick t w)

theorem Respects.step {I : M.World → Prop} (hI : Respects G I) {cfg cfg' : Config M}
    (h : Step G cfg cfg') (hi : I cfg.world) : I cfg'.world := by
  obtain hw | ⟨t, hw⟩ | ⟨j, β, o, b, -, hG, hret⟩ := h.world
  · rw [hw]; exact hi
  · rw [hw]; exact hI.tick hi
  · exact hI.op hi hG hret

theorem Respects.steps {I : M.World → Prop} (hI : Respects G I) {cfg cfg' : Config M}
    (h : Relation.ReflTransGen (Step G) cfg cfg') (hi : I cfg.world) : I cfg'.world := by
  induction h with
  | refl => exact hi
  | tail _ hstep ih => exact hI.step hstep ih

theorem Respects.reachable {I : M.World → Prop} (hI : Respects G I) {w₀ : M.World}
    {cfg : Config M} (h : Reachable G w₀ cfg) (hi : I w₀) : I cfg.world :=
  hI.steps h hi

theorem Respects.and {I J : M.World → Prop} (hI : Respects G I)
    (hJ : ∀ {cfg : Config M} {j β} {o : M.Op β} {b w}, I cfg.world → J cfg.world →
      G cfg j β o → Returns (M.exec o) cfg.world b w → J w)
    (hJt : ∀ {t w}, J w → J (M.tick t w)) : Respects G fun w => I w ∧ J w where
  op h hG hret := ⟨hI.op h.1 hG hret, hJ h.1 h.2 hG hret⟩
  tick h := ⟨hI.tick h.1, hJt h.2⟩

/-! ## What a run may do to the store -/

/-- `R` is a preorder that contains every admitted operation from a store
satisfying `I`, and every tick. -/
structure Evolves (G : Guard M) (I : M.World → Prop) (R : M.World → M.World → Prop) : Prop where
  refl : ∀ w, R w w
  trans : ∀ {u v w}, R u v → R v w → R u w
  op : ∀ {cfg : Config M} {j β} {o : M.Op β} {b w}, I cfg.world → G cfg j β o →
    Returns (M.exec o) cfg.world b w → R cfg.world w
  tick : ∀ {t w}, I w → R w (M.tick t w)

theorem Evolves.step {I : M.World → Prop} {R : M.World → M.World → Prop} (hR : Evolves G I R)
    {cfg cfg' : Config M} (h : Step G cfg cfg') (hi : I cfg.world) :
    R cfg.world cfg'.world := by
  obtain hw | ⟨t, hw⟩ | ⟨j, β, o, b, -, hG, hret⟩ := h.world
  · rw [hw]; exact hR.refl _
  · rw [hw]; exact hR.tick hi
  · exact hR.op hi hG hret

theorem Evolves.steps {I : M.World → Prop} {R : M.World → M.World → Prop} (hR : Evolves G I R)
    (hI : Respects G I) {cfg cfg' : Config M} (h : Relation.ReflTransGen (Step G) cfg cfg')
    (hi : I cfg.world) : R cfg.world cfg'.world := by
  induction h with
  | refl => exact hR.refl _
  | tail hs hstep ih => exact hR.trans ih (hR.step hstep (hI.steps hs hi))

/-! ## Postconditions of programs -/

/-- What a program may rely on and what it owes: the store satisfies `inv`,
everybody moves it within the preorder `evolve`, its own operations are
performed where `may` holds, and it performs them only where `must` holds of
what it has done before and the store. An operation performed under these terms
keeps them. -/
structure Contract (M : Machine) where
  inv : M.World → Prop
  evolve : M.World → M.World → Prop
  may : (β : Type) → M.Op β → M.World → Prop
  must : List (Event M) → (β : Type) → M.Op β → M.World → Prop
  refl : ∀ w, evolve w w
  trans : ∀ {u v w}, evolve u v → evolve v w → evolve u w
  op : ∀ {past β} {o : M.Op β} {w b w'}, inv w → may β o w → must past β o w →
    Returns (M.exec o) w b w' → inv w' ∧ evolve w w'
  tick : ∀ {t w}, inv w → inv (M.tick t w) ∧ evolve w (M.tick t w)

theorem Contract.commit (C : Contract M) {past : List (Event M)} {β : Type} {o : M.Op β}
    {w : M.World} (hi : C.inv w) (hmay : C.may β o w) (hmust : C.must past β o w) :
    C.inv (commit (M.exec o) w).2 ∧ C.evolve w (commit (M.exec o) w).2 := by
  cases hc : Transaction.commit (M.exec o) w with
  | mk r v =>
    cases r with
    | error e => rw [(commit_error hc).1]; exact ⟨hi, C.refl w⟩
    | ok b => exact C.op hi hmay hmust (commit_ok hc)

/-- Started now, the program keeps its contract, answers within `Q` and raises
within `E`, whatever the others do in between. Both see the program's own
history and the store. -/
def Sat (C : Contract M) {α : Type} (Q : α → List (Event M) → M.World → Prop)
    (E : M.Error → List (Event M) → M.World → Prop) :
    Prog M.Op M.Error α → List (Event M) → M.World → Prop
  | .ret a, past, w => ∀ w', C.evolve w w' → C.inv w' → Q a past w'
  | .raise e, past, w => ∀ w', C.evolve w w' → C.inv w' → E e past w'
  | @Prog.op _ _ _ β o next, past, w => ∀ w', C.evolve w w' → C.inv w' → C.may β o w' →
      C.must past β o w' ∧
      Sat C Q E (next (commit (M.exec o) w').1) (⟨o, w', (commit (M.exec o) w').2⟩ :: past)
        (commit (M.exec o) w').2

variable {C : Contract M} {α β : Type} {Q : α → List (Event M) → M.World → Prop}
  {E : M.Error → List (Event M) → M.World → Prop}

/-- Others moving first changes nothing. -/
theorem Sat.later {p : Prog M.Op M.Error α} {past : List (Event M)} {w w' : M.World}
    (h : Sat C Q E p past w) (hw : C.evolve w w') : Sat C Q E p past w' := by
  cases p with
  | ret a => intro v hv; exact h v (C.trans hw hv)
  | raise e => intro v hv; exact h v (C.trans hw hv)
  | op o next => intro v hv; exact h v (C.trans hw hv)

theorem Sat.mono {Q' : α → List (Event M) → M.World → Prop}
    {E' : M.Error → List (Event M) → M.World → Prop}
    (hQ : ∀ a past w, Q a past w → Q' a past w) (hE : ∀ e past w, E e past w → E' e past w)
    {p : Prog M.Op M.Error α} {past : List (Event M)} {w : M.World}
    (h : Sat C Q E p past w) : Sat C Q' E' p past w := by
  induction p generalizing past w with
  | ret a => intro v hv hi; exact hQ _ _ _ (h v hv hi)
  | raise e => intro v hv hi; exact hE _ _ _ (h v hv hi)
  | op o next ih => intro v hv hi hm; exact ⟨(h v hv hi hm).1, ih _ (h v hv hi hm).2⟩

/-- Sequencing: the second program starts wherever the first one answered. -/
theorem Sat.bind {P : β → List (Event M) → M.World → Prop} {f : α → Prog M.Op M.Error β}
    {p : Prog M.Op M.Error α} {past : List (Event M)} {w : M.World} (hi : C.inv w)
    (h : Sat C (fun a past w => Sat C P E (f a) past w) E p past w) :
    Sat C P E (p >>= f) past w := by
  induction p generalizing past w with
  | ret a => exact h w (C.refl w) hi
  | raise e => intro v hv hi'; exact h v hv hi'
  | op o next ih =>
    intro v hv hi' hm
    obtain ⟨hmust, hrest⟩ := h v hv hi' hm
    exact ⟨hmust, ih _ (C.commit hi' hm hmust).1 hrest⟩

/-- Catching: the handler starts wherever the program raised. -/
theorem Sat.handle {E' : M.Error → List (Event M) → M.World → Prop}
    {handler : M.Error → Prog M.Op M.Error α}
    {p : Prog M.Op M.Error α} {past : List (Event M)} {w : M.World} (hi : C.inv w)
    (h : Sat C Q (fun e past w => Sat C Q E' (handler e) past w) p past w) :
    Sat C Q E' (p.handle handler) past w := by
  induction p generalizing past w with
  | ret a => intro v hv hi'; exact h v hv hi'
  | raise e => exact h w (C.refl w) hi
  | op o next ih =>
    intro v hv hi' hm
    obtain ⟨hmust, hrest⟩ := h v hv hi' hm
    exact ⟨hmust, ih _ (C.commit hi' hm hmust).1 hrest⟩

/-- Where a program ends is later than where it started. -/
theorem Sat.tracked {p : Prog M.Op M.Error α} {past : List (Event M)} {w : M.World}
    (hi : C.inv w) (h : Sat C Q E p past w) :
    Sat C (fun a past u => Q a past u ∧ C.evolve w u ∧ C.inv u)
      (fun e past u => E e past u ∧ C.evolve w u ∧ C.inv u) p past w := by
  induction p generalizing past w with
  | ret a => exact fun v hv hiv => ⟨h v hv hiv, hv, hiv⟩
  | raise e => exact fun v hv hiv => ⟨h v hv hiv, hv, hiv⟩
  | op o next ih =>
    intro v hv hiv hm
    obtain ⟨hmust, hrest⟩ := h v hv hiv hm
    obtain ⟨hiv', hvv'⟩ := C.commit hiv hm hmust
    have hwv' := C.trans hv hvv'
    exact ⟨hmust, (ih _ hiv' hrest).mono
      (fun a past u hu => ⟨hu.1, C.trans hwv' hu.2.1, hu.2.2⟩)
      fun e past u hu => ⟨hu.1, C.trans hwv' hu.2.1, hu.2.2⟩⟩

/-- What a program has done stays done. -/
theorem Sat.grown {p : Prog M.Op M.Error α} {past : List (Event M)} {w : M.World}
    (h : Sat C Q E p past w) :
    Sat C (fun a past' u => Q a past' u ∧ past <:+ past') (fun e past' u => E e past' u ∧ past <:+ past')
      p past w := by
  induction p generalizing past w with
  | ret a => exact fun v hv hiv => ⟨h v hv hiv, List.suffix_rfl⟩
  | raise e => exact fun v hv hiv => ⟨h v hv hiv, List.suffix_rfl⟩
  | op o next ih =>
    intro v hv hiv hm
    obtain ⟨hmust, hrest⟩ := h v hv hiv hm
    refine ⟨hmust, (ih _ hrest).mono (fun a past' u hu => ⟨hu.1, ?_⟩) fun e past' u hu => ⟨hu.1, ?_⟩⟩
    · exact (List.suffix_cons _ _).trans hu.2
    · exact (List.suffix_cons _ _).trans hu.2

theorem Sat.ret {a : α} {past : List (Event M)} {w : M.World}
    (h : ∀ v, C.evolve w v → C.inv v → Q a past v) : Sat C Q E (.ret a) past w := h

theorem Sat.raise {e : M.Error} {past : List (Event M)} {w : M.World}
    (h : ∀ v, C.evolve w v → C.inv v → E e past v) : Sat C Q E (.raise e : Prog M.Op M.Error α) past w :=
  h

/-- An operation: one case for its answer, one for its exception, in which the
store is unchanged. -/
theorem Sat.op {o : M.Op β} {next : Except M.Error β → Prog M.Op M.Error α}
    {past : List (Event M)} {w : M.World}
    (hmust : ∀ v, C.evolve w v → C.inv v → C.may β o v → C.must past β o v)
    (hok : ∀ v b v', C.evolve w v → C.inv v → C.may β o v → Returns (M.exec o) v b v' →
      C.inv v' → C.evolve v v' → Sat C Q E (next (.ok b)) (⟨o, v, v'⟩ :: past) v')
    (herr : ∀ v e, C.evolve w v → C.inv v → C.may β o v → Raises (M.exec o) v e →
      Sat C Q E (next (.error e)) (⟨o, v, v⟩ :: past) v) :
    Sat C Q E (.op o next) past w := by
  intro v hv hi hm
  refine ⟨hmust v hv hi hm, ?_⟩
  cases hc : Transaction.commit (M.exec o) v with
  | mk r v' =>
    cases r with
    | ok b =>
      have hret := commit_ok hc
      obtain ⟨hi', hv'⟩ := C.op hi hm (hmust v hv hi hm) hret
      exact hok v b v' hv hi hm hret hi' hv'
    | error e =>
      obtain ⟨rfl, hraise⟩ := commit_error hc
      exact herr _ e hv hi hm hraise

/-- A check of local values. -/
theorem Sat.require {p : Prop} [Decidable p] {e : M.Error} {next : Unit → Prog M.Op M.Error α}
    {past : List (Event M)} {w : M.World} (h : p → Sat C Q E (next ()) past w)
    (herr : ∀ v, C.evolve w v → C.inv v → E e past v) :
    Sat C Q E (Prog.require p e >>= next) past w := by
  unfold Prog.require
  split
  · next hp => exact h hp
  · exact herr

theorem Sat.found {x : Option β} {e : M.Error} {next : β → Prog M.Op M.Error α}
    {past : List (Event M)} {w : M.World} (h : ∀ b, x = some b → Sat C Q E (next b) past w)
    (herr : ∀ v, C.evolve w v → C.inv v → E e past v) :
    Sat C Q E (Prog.found x e >>= next) past w := by
  cases x with
  | none => exact herr
  | some b => exact h b rfl

/-- One operation whose exception is the program's. -/
theorem Sat.perform {o : M.Op α} {past : List (Event M)} {w : M.World}
    (hmust : ∀ v, C.evolve w v → C.inv v → C.may α o v → C.must past α o v)
    (hok : ∀ v a v' u, C.evolve w v → C.inv v → C.may α o v → Returns (M.exec o) v a v' →
      C.evolve v' u → C.inv u → Q a (⟨o, v, v'⟩ :: past) u)
    (herr : ∀ v e u, C.evolve w v → C.inv v → C.may α o v → Raises (M.exec o) v e →
      C.evolve v u → C.inv u → E e (⟨o, v, v⟩ :: past) u) :
    Sat C Q E (Prog.perform o) past w :=
  Sat.op hmust
    (fun v b v' hv hi hm hret _ _ => Sat.ret fun u hu hiu => hok v b v' u hv hi hm hret hu hiu)
    fun v e hv hi hm hraise => Sat.raise fun u hu hiu => herr v e u hv hi hm hraise hu hiu

/-- **Rely-guarantee.** If every call's program is checked, then the invariant
holds in every reachable configuration, and every job's remaining program is
checked from the present store. -/
theorem Contract.sound (C : Contract M)
    (Q : (c : M.Call) → M.Value c → List (Event M) → M.World → Prop)
    (E : M.Call → M.Error → List (Event M) → M.World → Prop)
    (hmay : ∀ {cfg : Config M} {j β} {o : M.Op β}, C.inv cfg.world → G cfg j β o →
      C.may β o cfg.world)
    (hprog : ∀ c w, C.inv w → Sat C (Q c) (E c) (M.prog c) [] w)
    {w₀ : M.World} {cfg : Config M} (hreach : Reachable G w₀ cfg) (hi₀ : C.inv w₀) :
    C.inv cfg.world ∧ ∀ j ∈ cfg.jobs, ∀ p, j.rest = some p →
      Sat C (Q j.call) (E j.call) p j.history cfg.world := by
  unfold Reachable at hreach
  induction hreach with
  | refl => exact ⟨hi₀, fun j hj => (List.not_mem_nil hj).elim⟩
  | @tail cfg cfg' hs hstep ih =>
    obtain ⟨hi, hjobs⟩ := ih
    cases hstep with
    | start c =>
      refine ⟨hi, fun j hj p hp => ?_⟩
      obtain hold | hnew := List.mem_append.mp hj
      · exact hjobs j hold p hp
      · obtain rfl := List.mem_singleton.mp hnew
        cases hp
        exact hprog c _ hi
    | tick t =>
      obtain ⟨hi', hevolve⟩ := C.tick (t := t) hi
      exact ⟨hi', fun j hj p hp => (hjobs j hj p hp).later hevolve⟩
    | crash hjob =>
      refine ⟨hi, fun j hj p hp => ?_⟩
      obtain hold | rfl := List.mem_or_eq_of_mem_set hj
      · exact hjobs j hold p hp
      · cases hp
    | @act i k β o next hjob hrest hG =>
      obtain ⟨hmust, hk⟩ := hjobs k (List.mem_of_getElem? hjob) _ hrest cfg.world (C.refl _) hi
        (hmay hi hG)
      obtain ⟨hi', hevolve⟩ := C.commit hi (hmay hi hG) hmust
      refine ⟨hi', fun j hj p hp => ?_⟩
      obtain hold | rfl := List.mem_or_eq_of_mem_set hj
      · exact (hjobs j hold p hp).later hevolve
      · cases hp
        exact hk

/-- **Rely-guarantee among others.** The calls of one kind are checked against what every
admitted operation keeps, whoever performs it. -/
theorem Contract.sound_among (C : Contract M) (S : M.Call → Prop)
    (Q : (c : M.Call) → M.Value c → List (Event M) → M.World → Prop)
    (E : M.Call → M.Error → List (Event M) → M.World → Prop)
    (hI : Respects G C.inv) (hR : Evolves G C.inv C.evolve)
    (hmay : ∀ {cfg : Config M} {j β} {o : M.Op β}, C.inv cfg.world → G cfg j β o →
      C.may β o cfg.world)
    (hprog : ∀ c w, S c → C.inv w → Sat C (Q c) (E c) (M.prog c) [] w)
    {w₀ : M.World} {cfg : Config M} (hreach : Reachable G w₀ cfg) (hi₀ : C.inv w₀) :
    ∀ j ∈ cfg.jobs, S j.call → ∀ p, j.rest = some p →
      Sat C (Q j.call) (E j.call) p j.history cfg.world := by
  unfold Reachable at hreach
  induction hreach with
  | refl => exact fun j hj => (List.not_mem_nil hj).elim
  | @tail cfg cfg' hs hstep ih =>
    have hi : C.inv cfg.world := hI.reachable hs hi₀
    have hevolve := hR.step hstep hi
    cases hstep with
    | start c =>
      intro j hj hS p hp
      obtain hold | hnew := List.mem_append.mp hj
      · exact ih j hold hS p hp
      · obtain rfl := List.mem_singleton.mp hnew
        cases hp
        exact hprog c _ hS hi
    | tick t => exact fun j hj hS p hp => (ih j hj hS p hp).later hevolve
    | crash hjob =>
      intro j hj hS p hp
      obtain hold | rfl := List.mem_or_eq_of_mem_set hj
      · exact ih j hold hS p hp
      · cases hp
    | @act i k β o next hjob hrest hG =>
      intro j hj hS p hp
      obtain hold | rfl := List.mem_or_eq_of_mem_set hj
      · exact (ih j hold hS p hp).later hevolve
      · cases hp
        exact (ih k (List.mem_of_getElem? hjob) hS _ hrest cfg.world (C.refl _) hi (hmay hi hG)).2

/-- A run whose operations are also performed only where the contract obliges. -/
def Contract.lawful (C : Contract M) (G : Guard M) : Guard M := fun cfg j β o =>
  G cfg j β o ∧ C.inv cfg.world ∧ C.must j.history β o cfg.world

/-- Checked programs only perform what they must. -/
theorem Contract.strengthen (C : Contract M)
    (Q : (c : M.Call) → M.Value c → List (Event M) → M.World → Prop)
    (E : M.Call → M.Error → List (Event M) → M.World → Prop)
    (hmay : ∀ {cfg : Config M} {j β} {o : M.Op β}, C.inv cfg.world → G cfg j β o →
      C.may β o cfg.world)
    (hprog : ∀ c w, C.inv w → Sat C (Q c) (E c) (M.prog c) [] w)
    {w₀ : M.World} {cfg cfg' : Config M} (hreach : Reachable G w₀ cfg) (hi₀ : C.inv w₀)
    (hrun : Relation.ReflTransGen (Step G) cfg cfg') :
    Relation.ReflTransGen (Step (C.lawful G)) cfg cfg' := by
  induction hrun with
  | refl => exact .refl
  | @tail mid cfg' hs hstep ih =>
    obtain ⟨hi, hjobs⟩ := C.sound Q E hmay hprog (hreach.trans hs) hi₀
    refine ih.tail ?_
    cases hstep with
    | start c => exact .start mid c
    | tick t => exact .tick mid t
    | crash hjob => exact .crash hjob
    | @act i k β o next hjob hrest hG =>
      have hk := hjobs k (List.mem_of_getElem? hjob) _ hrest mid.world (C.refl _) hi (hmay hi hG)
      exact .act hjob hrest ⟨hG, hi, hk.1⟩

/-! ### The operations of a run -/

/-- What holds of every admitted operation holds of all that the jobs have done. -/
theorem events_hold {w₀ : M.World} {P : Event M → Prop}
    (hP : ∀ {cfg : Config M} {j β} {o : M.Op β} {next}, Reachable G w₀ cfg → j ∈ cfg.jobs →
      j.rest = some (.op o next) → G cfg j β o →
      P ⟨o, cfg.world, (Transaction.commit (M.exec o) cfg.world).2⟩)
    {cfg : Config M} (h : Reachable G w₀ cfg) : ∀ j ∈ cfg.jobs, ∀ e ∈ j.history, P e := by
  unfold Reachable at h
  induction h with
  | refl => exact fun j hj => (List.not_mem_nil hj).elim
  | @tail cfg cfg' hs hstep ih =>
    cases hstep with
    | start c =>
      intro j hj e he
      obtain hold | hnew := List.mem_append.mp hj
      · exact ih j hold e he
      · obtain rfl := List.mem_singleton.mp hnew
        cases he
    | tick t => exact ih
    | crash hjob =>
      intro j hj e he
      obtain hold | rfl := List.mem_or_eq_of_mem_set hj
      · exact ih j hold e he
      · exact ih _ (List.mem_of_getElem? hjob) e he
    | act hjob hrest hG =>
      intro j hj e he
      obtain hold | rfl := List.mem_or_eq_of_mem_set hj
      · exact ih j hold e he
      · obtain rfl | hpast := List.mem_cons.mp he
        · exact hP hs (List.mem_of_getElem? hjob) hrest hG
        · exact ih _ (List.mem_of_getElem? hjob) e hpast

/-- How the world moves on from what the jobs have done. -/
theorem events_later {w₀ : M.World} {R : M.World → M.World → Prop} (hrefl : ∀ w, R w w)
    (htrans : ∀ {u v w}, R u v → R v w → R u w)
    (hstep : ∀ {cfg cfg' : Config M}, Reachable G w₀ cfg → Step G cfg cfg' →
      R cfg.world cfg'.world)
    {cfg : Config M} (h : Reachable G w₀ cfg) :
    ∀ j ∈ cfg.jobs, ∀ e ∈ j.history, R e.after cfg.world := by
  unfold Reachable at h
  induction h with
  | refl => exact fun j hj => (List.not_mem_nil hj).elim
  | @tail cfg cfg' hs hmove ih =>
    have hlater := hstep hs hmove
    cases hmove with
    | start c =>
      intro j hj e he
      obtain hold | hnew := List.mem_append.mp hj
      · exact ih j hold e he
      · obtain rfl := List.mem_singleton.mp hnew
        cases he
    | tick t => exact fun j hj e he => htrans (ih j hj e he) hlater
    | crash hjob =>
      intro j hj e he
      obtain hold | rfl := List.mem_or_eq_of_mem_set hj
      · exact ih j hold e he
      · exact ih _ (List.mem_of_getElem? hjob) e he
    | act hjob hrest hG =>
      intro j hj e he
      obtain hold | rfl := List.mem_or_eq_of_mem_set hj
      · exact htrans (ih j hold e he) hlater
      · obtain rfl | hpast := List.mem_cons.mp he
        · exact hrefl _
        · exact htrans (ih _ (List.mem_of_getElem? hjob) e hpast) hlater

/-! ### Programs without obligations -/

theorem Sat.all {P : (β : Type) → M.Op β → Prop}
    (hP : ∀ past β o v, P β o → C.inv v → C.may β o v → C.must past β o v) {p : Prog M.Op M.Error α}
    (hp : p.All P) (past : List (Event M)) (w : M.World) :
    Sat C (fun _ _ _ => True) (fun _ _ _ => True) p past w := by
  induction p generalizing past w with
  | ret a => exact fun _ _ _ => trivial
  | raise e => exact fun _ _ _ => trivial
  | op o next ih => exact fun v _ hi hm => ⟨hP _ _ o v hp.1 hi hm, ih _ (hp.2 _) _ _⟩

/-- Where nothing is owed, every program is checked. -/
theorem Sat.free (h : ∀ past β o w, C.must past β o w) (p : Prog M.Op M.Error α) (past : List (Event M))
    (w : M.World) : Sat C (fun _ _ _ => True) (fun _ _ _ => True) p past w := by
  induction p generalizing past w with
  | ret a => exact fun _ _ _ => trivial
  | raise e => exact fun _ _ _ => trivial
  | op o next ih => exact fun v _ _ _ => ⟨h _ _ _ _, ih _ _ _⟩

theorem Sat.returned {p : Prog M.Op M.Error α} {past : List (Event M)} {w : M.World} {a : α}
    (h : Sat C Q E p past w) (hp : p = .ret a) (hi : C.inv w) : Q a past w := by
  subst hp
  exact h w (C.refl w) hi

theorem Sat.raised {p : Prog M.Op M.Error α} {past : List (Event M)} {w : M.World}
    {e : M.Error} (h : Sat C Q E p past w) (hp : p = .raise e) (hi : C.inv w) : E e past w := by
  subst hp
  exact h w (C.refl w) hi

/-! ## At most one job makes a stable fact true -/

def Event.Flips (P : M.World → Prop) (e : Event M) : Prop := ¬ P e.before ∧ P e.after

def Job.Made (P : M.World → Prop) (j : Job M) : Prop := ∃ e ∈ j.history, e.Flips P

/-- The makers of `P` so far: none while `P` is false, and no two different jobs. -/
structure SoleMaker (P : M.World → Prop) (cfg : Config M) : Prop where
  holds : ∀ j ∈ cfg.jobs, j.Made P → P cfg.world
  unique : ∀ (i k : Nat) (j l : Job M), cfg.jobs[i]? = some j → cfg.jobs[k]? = some l →
    j.Made P → l.Made P → i = k

theorem Job.made_advance {P : M.World → Prop} {j : Job M} {β : Type} {o : M.Op β}
    {next : Except M.Error β → Prog M.Op M.Error (M.Value j.call)} {w : M.World}
    (h : (j.advance o next w).Made P) :
    j.Made P ∨ (¬ P w ∧ P (commit (M.exec o) w).2) := by
  obtain ⟨e, he, hflip⟩ := h
  obtain rfl | hold := List.mem_cons.mp he
  · exact .inr hflip
  · exact .inl ⟨e, hold, hflip⟩

theorem getElem?_set_cases {α : Type*} {l : List α} {i k : Nat} {a b : α}
    (h : (l.set i a)[k]? = some b) : (k = i ∧ b = a) ∨ (k ≠ i ∧ l[k]? = some b) := by
  by_cases hk : i = k
  · subst hk
    rw [List.getElem?_set_self'] at h
    cases hl : l[i]? with
    | none => rw [hl] at h; cases h
    | some c => rw [hl] at h; exact .inl ⟨rfl, (Option.some.inj h).symm⟩
  · rw [List.getElem?_set_ne hk] at h
    exact .inr ⟨Ne.symm hk, h⟩

theorem SoleMaker.step {P : M.World → Prop} {cfg cfg' : Config M} (h : Step G cfg cfg')
    (hstable : P cfg.world → P cfg'.world) (hs : SoleMaker P cfg) : SoleMaker P cfg' := by
  cases h with
  | start c =>
    have hnew : ¬ (Job.start c : Job M).Made P := by rintro ⟨e, he, -⟩; cases he
    have hold : ∀ {i : Nat} {j : Job M}, (cfg.jobs ++ [Job.start c])[i]? = some j → j.Made P →
        cfg.jobs[i]? = some j := by
      intro i j hj hm
      rw [List.getElem?_append] at hj
      split at hj
      · exact hj
      · obtain rfl := List.mem_singleton.mp (List.mem_of_getElem? hj)
        exact absurd hm hnew
    refine ⟨fun j hj hm => ?_, fun i k j l hj hl hmj hml =>
      hs.unique i k j l (hold hj hmj) (hold hl hml) hmj hml⟩
    obtain ⟨i, hi⟩ := List.mem_iff_getElem?.mp hj
    exact hs.holds j (List.mem_of_getElem? (hold hi hm)) hm
  | tick t => exact ⟨fun j hj hm => hstable (hs.holds j hj hm), hs.unique⟩
  | @crash n k hjob =>
    have hold : ∀ {i : Nat} {j : Job M}, (cfg.jobs.set n k.crash)[i]? = some j → j.Made P →
        ∃ l, cfg.jobs[i]? = some l ∧ l.Made P := by
      intro i j hj hm
      obtain ⟨rfl, rfl⟩ | ⟨-, hj⟩ := getElem?_set_cases hj
      · exact ⟨k, hjob, hm⟩
      · exact ⟨j, hj, hm⟩
    refine ⟨fun j hj hm => ?_, fun i m j l hj hl hmj hml => ?_⟩
    · obtain ⟨i, hi⟩ := List.mem_iff_getElem?.mp hj
      obtain ⟨l, hl, hml⟩ := hold hi hm
      exact hs.holds l (List.mem_of_getElem? hl) hml
    · obtain ⟨j', hj', hmj'⟩ := hold hj hmj
      obtain ⟨l', hl', hml'⟩ := hold hl hml
      exact hs.unique i m j' l' hj' hl' hmj' hml'
  | @act n k β o next hjob hrest hG =>
    by_cases hp : P cfg.world
    · -- `P` already holds: this operation made nothing
      have hold : ∀ {i : Nat} {j : Job M},
          (cfg.jobs.set n (k.advance o next cfg.world))[i]? = some j → j.Made P →
          ∃ l, cfg.jobs[i]? = some l ∧ l.Made P := by
        intro i j hj hm
        obtain ⟨rfl, rfl⟩ | ⟨-, hj⟩ := getElem?_set_cases hj
        · obtain hm | ⟨hn, -⟩ := Job.made_advance hm
          · exact ⟨k, hjob, hm⟩
          · exact absurd hp hn
        · exact ⟨j, hj, hm⟩
      refine ⟨fun _ _ _ => hstable hp, fun i m j l hj hl hmj hml => ?_⟩
      obtain ⟨j', hj', hmj'⟩ := hold hj hmj
      obtain ⟨l', hl', hml'⟩ := hold hl hml
      exact hs.unique i m j' l' hj' hl' hmj' hml'
    · -- nobody made `P` before: only the acting job can have made it now
      have hnone : ∀ {i : Nat} {j : Job M}, cfg.jobs[i]? = some j → ¬ j.Made P :=
        fun hj hm => hp (hs.holds _ (List.mem_of_getElem? hj) hm)
      have hnow : ∀ {i : Nat} {j : Job M},
          (cfg.jobs.set n (k.advance o next cfg.world))[i]? = some j → j.Made P →
          i = n ∧ P (commit (M.exec o) cfg.world).2 := by
        intro i j hj hm
        obtain ⟨rfl, rfl⟩ | ⟨-, hj⟩ := getElem?_set_cases hj
        · obtain hm | ⟨-, hflip⟩ := Job.made_advance hm
          · exact absurd hm (hnone hjob)
          · exact ⟨rfl, hflip⟩
        · exact absurd hm (hnone hj)
      refine ⟨fun j hj hm => ?_, fun i m j l hj hl hmj hml =>
        (hnow hj hmj).1.trans (hnow hl hml).1.symm⟩
      obtain ⟨i, hi⟩ := List.mem_iff_getElem?.mp hj
      exact (hnow hi hm).2

/-- **Sole maker.** Along any run, at most one job makes a stable fact true. -/
theorem SoleMaker.reachable {P : M.World → Prop} {I : M.World → Prop}
    {R : M.World → M.World → Prop} (hI : Respects G I) (hR : Evolves G I R)
    (hstable : ∀ {w w'}, R w w' → P w → P w') {w₀ : M.World} {cfg : Config M}
    (h : Reachable G w₀ cfg) (hi₀ : I w₀) : SoleMaker P cfg := by
  unfold Reachable at h
  induction h with
  | refl =>
    exact ⟨fun j hj => (List.not_mem_nil hj).elim,
      fun i k j l hj => (List.not_mem_nil (List.mem_of_getElem? hj)).elim⟩
  | tail hs hstep ih =>
    exact ih.step hstep (hstable (hR.step hstep (hI.steps hs hi₀)))

/-! ## Counting jobs -/

/-- The operation returned. -/
def Event.answered (e : Event M) : Bool :=
  match (M.exec e.op).run e.before with
  | .ok _ => true
  | .error _ => false

theorem answered_returns {β : Type} {o : M.Op β} {w w' : M.World} {b : β}
    (h : Returns (M.exec o) w b w') (after : M.World) :
    (⟨o, w, after⟩ : Event M).answered = true := by
  unfold Event.answered
  unfold Returns at h
  rw [h]

theorem answered_raises {β : Type} {o : M.Op β} {w : M.World} {e : M.Error}
    (h : Raises (M.exec o) w e) (after : M.World) :
    (⟨o, w, after⟩ : Event M).answered = false := by
  unfold Event.answered
  unfold Raises at h
  rw [h]

/-- The jobs that have performed an operation of a kind. -/
def Config.tally (cfg : Config M) (p : Event M → Bool) : Nat :=
  cfg.jobs.countP fun j => j.history.any p

/-- A step either performs nothing, or one operation, which counts for a job that has
performed none of its kind before. -/
theorem Step.tally {cfg cfg' : Config M} (h : Step G cfg cfg') :
    ((∀ p, cfg'.tally p = cfg.tally p) ∧
        (cfg'.world = cfg.world ∨ ∃ t, cfg'.world = M.tick t cfg.world)) ∨
      ∃ j β, ∃ (o : M.Op β), j ∈ cfg.jobs ∧ G cfg j β o ∧
        cfg'.world = (commit (M.exec o) cfg.world).2 ∧
        ∀ p, cfg'.tally p = cfg.tally p +
          if p ⟨o, cfg.world, cfg'.world⟩ = true ∧ j.history.any p = false then 1 else 0 := by
  cases h with
  | start c =>
    refine .inl ⟨fun p => ?_, .inl rfl⟩
    simp only [Config.tally, List.countP_append]
    simp [Job.start]
  | tick t => exact .inl ⟨fun _ => rfl, .inr ⟨t, rfl⟩⟩
  | @crash i j hjob =>
    obtain ⟨hi, hj⟩ := List.getElem?_eq_some_iff.mp hjob
    have hmem : j ∈ cfg.jobs := List.mem_of_getElem? hjob
    refine .inl ⟨fun p => ?_, .inl rfl⟩
    simp only [Config.tally, List.countP_set hi, hj]
    have hpos : j.history.any p = true → 0 < cfg.jobs.countP fun j => j.history.any p :=
      fun hp => List.countP_pos_iff.mpr ⟨j, hmem, hp⟩
    simp only [Job.crash]
    by_cases hp : j.history.any p = true
    · have := hpos hp
      simp only [hp, if_true]
      omega
    · simp only [hp, Bool.false_eq_true, if_false]
      omega
  | @act i j β o next hjob hrest hG =>
    obtain ⟨hi, hj⟩ := List.getElem?_eq_some_iff.mp hjob
    have hmem : j ∈ cfg.jobs := List.mem_of_getElem? hjob
    refine .inr ⟨j, β, o, hmem, hG, rfl, fun p => ?_⟩
    simp only [Config.tally, List.countP_set hi, hj, Job.advance, List.any_cons, Bool.or_eq_true]
    have hpos : j.history.any p = true → 0 < cfg.jobs.countP fun j => j.history.any p :=
      fun hp => List.countP_pos_iff.mpr ⟨j, hmem, hp⟩
    by_cases hp : j.history.any p = true
    · have := hpos hp
      simp only [hp, or_true, if_true, Bool.true_eq_false, and_false, if_false]
      omega
    · simp only [hp, or_false, Bool.false_eq_true, if_false, and_true]
      simp

end Interleaving
