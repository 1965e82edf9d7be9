import CorpusKit.Library.Rules

/-! # A job left alone, and the maker of a fact

`call_alone` runs one call to its end from any configuration while nobody else
moves, so that what a program does alone is something a run can do.
`Made.reachable` names the job behind a fact that the environment cannot bring
about. -/

namespace Interleaving

open Transaction Program

variable {M : Machine} {G : Guard M}

/-- What a program answers, and the store it leaves, when nobody else moves. -/
def alone {α : Type} : Prog M.Op M.Error α → M.World → Except M.Error α × M.World
  | .ret a, w => (.ok a, w)
  | .raise e, w => (.error e, w)
  | .op o next, w => alone (next (commit (M.exec o) w).1) (commit (M.exec o) w).2

/-- The program that is left of a finished one. -/
def conclude {Op : Type → Type} {ε α : Type} : Except ε α → Prog Op ε α
  | .ok a => .ret a
  | .error e => .raise e

/-- What one operation alone answers. -/
theorem alone_perform {β : Type} (o : M.Op β) (w : M.World) :
    alone (M := M) (Prog.perform o) w = commit (M.exec o) w := by
  unfold Prog.perform alone
  cases hc : commit (M.exec o) w with
  | mk r v => cases r <;> rfl

theorem alone_bind_ok {α β : Type} {p : Prog M.Op M.Error α} {f : α → Prog M.Op M.Error β}
    {w v : M.World} {a : α} (h : alone p w = (.ok a, v)) : alone (p >>= f) w = alone (f a) v := by
  induction p generalizing w with
  | ret b =>
    cases h
    rfl
  | raise e => cases h
  | op o next ih => exact ih _ h

theorem alone_bind_error {α β : Type} {p : Prog M.Op M.Error α} {f : α → Prog M.Op M.Error β}
    {w v : M.World} {e : M.Error} (h : alone p w = (.error e, v)) :
    alone (p >>= f) w = (.error e, v) := by
  induction p generalizing w with
  | ret b => cases h
  | raise e =>
    cases h
    rfl
  | op o next ih => exact ih _ h

theorem alone_handle_ok {α : Type} {p : Prog M.Op M.Error α}
    {handler : M.Error → Prog M.Op M.Error α} {w v : M.World} {a : α}
    (h : alone p w = (.ok a, v)) : alone (p.handle handler) w = (.ok a, v) := by
  induction p generalizing w with
  | ret b => exact h
  | raise e => cases h
  | op o next ih => exact ih _ h

theorem alone_handle_error {α : Type} {p : Prog M.Op M.Error α}
    {handler : M.Error → Prog M.Op M.Error α} {w v : M.World} {e : M.Error}
    (h : alone p w = (.error e, v)) : alone (p.handle handler) w = alone (handler e) v := by
  induction p generalizing w with
  | ret b => cases h
  | raise e =>
    cases h
    rfl
  | op o next ih => exact ih _ h

/-- What a program leaves, from what its two parts leave. -/
theorem alone_bind_leaves {α β : Type} {I : M.World → Prop} {p : Prog M.Op M.Error α}
    {f : α → Prog M.Op M.Error β} {w : M.World} (hp : I (alone p w).2)
    (hf : ∀ a, alone p w = (.ok a, (alone p w).2) → I (alone (f a) (alone p w).2).2) :
    I (alone (p >>= f) w).2 := by
  cases h : alone p w with
  | mk r v =>
    cases r with
    | ok a =>
      rw [alone_bind_ok h]
      have hleft := hf a (by rw [h])
      rwa [h] at hleft
    | error e =>
      rw [alone_bind_error h]
      rwa [h] at hp

/-- What a program leaves that starts with an operation. -/
theorem alone_op_leaves {α β : Type} {I : M.World → Prop} {o : M.Op β}
    {f : β → Prog M.Op M.Error α} {w : M.World} (hraise : ∀ e, Raises (M.exec o) w e → I w)
    (hret : ∀ b v, Returns (M.exec o) w b v → I (alone (f b) v).2) :
    I (alone (Prog.perform o >>= f) w).2 := by
  cases h : commit (M.exec o) w with
  | mk r v =>
    have hperform : alone (M := M) (Prog.perform o) w = (r, v) := (alone_perform o w).trans h
    cases r with
    | ok b =>
      rw [alone_bind_ok hperform]
      exact hret b v (commit_ok h)
    | error e =>
      rw [alone_bind_error hperform, (commit_error h).1]
      exact hraise e (commit_error h).2

theorem alone_perform_leaves {β : Type} {I : M.World → Prop} {o : M.Op β} {w : M.World}
    (hraise : ∀ e, Raises (M.exec o) w e → I w) (hret : ∀ b v, Returns (M.exec o) w b v → I v) :
    I (alone (M := M) (Prog.perform o) w).2 := by
  rw [alone_perform]
  cases h : commit (M.exec o) w with
  | mk r v =>
    cases r with
    | ok b => exact hret b v (commit_ok h)
    | error e =>
      rw [(commit_error h).1]
      exact hraise e (commit_error h).2

theorem alone_handle_leaves {α : Type} {I : M.World → Prop} {p : Prog M.Op M.Error α}
    {handler : M.Error → Prog M.Op M.Error α} {w : M.World} (hp : I (alone p w).2)
    (hf : ∀ e v, I v → I (alone (handler e) v).2) : I (alone (p.handle handler) w).2 := by
  cases h : alone p w with
  | mk r v =>
    rw [h] at hp
    cases r with
    | ok a => rwa [alone_handle_ok h]
    | error e =>
      rw [alone_handle_error h]
      exact hf e v hp

theorem alone_steps {cfg : Config M} {i : Nat} {c : M.Call}
    {p : Prog M.Op M.Error (M.Value c)} {past : List (Event M)}
    (hjob : cfg.jobs[i]? = some ⟨c, some p, past⟩) :
    ∃ history, Relation.ReflTransGen (Step free) cfg
      ⟨(alone p cfg.world).2,
        cfg.jobs.set i ⟨c, some (conclude (alone p cfg.world).1), history⟩⟩ := by
  have hself : ∀ {cfg : Config M} {j : Job M}, cfg.jobs[i]? = some j →
      cfg.jobs.set i j = cfg.jobs := by
    intro cfg j hj
    obtain ⟨hi, rfl⟩ := List.getElem?_eq_some_iff.mp hj
    exact List.set_getElem_self hi
  induction p generalizing cfg past with
  | ret a =>
    refine ⟨past, ?_⟩
    show Relation.ReflTransGen _ cfg ⟨cfg.world, cfg.jobs.set i ⟨c, some (.ret a), past⟩⟩
    rw [hself hjob]
  | raise e =>
    refine ⟨past, ?_⟩
    show Relation.ReflTransGen _ cfg ⟨cfg.world, cfg.jobs.set i ⟨c, some (.raise e), past⟩⟩
    rw [hself hjob]
  | op o next ih =>
    have hact : Step free cfg
        ⟨(commit (M.exec o) cfg.world).2,
          cfg.jobs.set i (Job.advance ⟨c, some (.op o next), past⟩ o next cfg.world)⟩ :=
      .act hjob rfl trivial
    obtain ⟨hi, -⟩ := List.getElem?_eq_some_iff.mp hjob
    have hnext : (⟨(commit (M.exec o) cfg.world).2, cfg.jobs.set i
        (Job.advance ⟨c, some (.op o next), past⟩ o next cfg.world)⟩ : Config M).jobs[i]? = _ :=
      List.getElem?_set_self hi
    obtain ⟨history, hrun⟩ := ih _ hnext
    rw [List.set_set] at hrun
    exact ⟨history, .head hact hrun⟩

/-- Any call may run alone to its end next. -/
theorem call_alone (cfg : Config M) (c : M.Call) :
    ∃ history, Relation.ReflTransGen (Step free) cfg
      ⟨(alone (M.prog c) cfg.world).2,
        cfg.jobs ++ [⟨c, some (conclude (alone (M.prog c) cfg.world).1), history⟩]⟩ := by
  have hjob : (⟨cfg.world, cfg.jobs ++ [Job.start c]⟩ : Config M).jobs[cfg.jobs.length]? =
      some (Job.start c) := by
    simp
  obtain ⟨history, hrun⟩ := alone_steps hjob
  refine ⟨history, .head (.start cfg c) ?_⟩
  simpa using hrun

/-- A fact that was false at first and that no tick makes true was made by a job. -/
theorem Made.reachable {P : M.World → Prop} (htick : ∀ t w, P (M.tick t w) → P w) {w₀ : M.World}
    {cfg : Config M} (h : Reachable G w₀ cfg) (h₀ : ¬ P w₀) (hP : P cfg.world) :
    ∃ j ∈ cfg.jobs, j.Made P := by
  unfold Reachable at h
  induction h with
  | refl => exact absurd hP h₀
  | @tail cfg cfg' hs hstep ih =>
    cases hstep with
    | start c =>
      obtain ⟨j, hj, hmade⟩ := ih hP
      exact ⟨j, List.mem_append_left _ hj, hmade⟩
    | tick t => exact ih (htick t _ hP)
    | @crash i k hjob =>
      obtain ⟨j, hj, hmade⟩ := ih hP
      obtain ⟨n, hn⟩ := List.mem_iff_getElem?.mp hj
      by_cases hni : n = i
      · subst hni
        obtain rfl : k = j := Option.some.inj (hjob.symm.trans hn)
        exact ⟨k.crash, List.mem_set (List.getElem?_eq_some_iff.mp hjob).1 _, hmade⟩
      · refine ⟨j, List.mem_of_getElem? (i := n) ?_, hmade⟩
        rwa [List.getElem?_set_ne (Ne.symm hni)]
    | @act i k β o next hjob hrest hG =>
      have hacting : k.advance o next cfg.world ∈ cfg.jobs.set i (k.advance o next cfg.world) :=
        List.mem_set (List.getElem?_eq_some_iff.mp hjob).1 _
      by_cases hbefore : P cfg.world
      · obtain ⟨j, hj, hmade⟩ := ih hbefore
        obtain ⟨n, hn⟩ := List.mem_iff_getElem?.mp hj
        by_cases hni : n = i
        · subst hni
          obtain rfl : k = j := Option.some.inj (hjob.symm.trans hn)
          obtain ⟨e, he, hflip⟩ := hmade
          exact ⟨_, hacting, e, List.mem_cons_of_mem _ he, hflip⟩
        · refine ⟨j, List.mem_of_getElem? (i := n) ?_, hmade⟩
          rwa [List.getElem?_set_ne (Ne.symm hni)]
      · exact ⟨_, hacting, _, List.mem_cons_self, hbefore, hP⟩

end Interleaving
