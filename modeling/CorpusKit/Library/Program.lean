import CorpusKit.Library.Transaction

/-! # Programs over atomic operations

A service call is a sequence of atomic operations on a shared store with local
computation in between: a free monad over a family `Op`, where `Op β` are the
operations that answer a `β`. An operation may raise, and its continuation sees
the exception, so `tryCatch` is a program transformation and not an operation.
The store does not occur here; `Library/Machine` runs many programs against one
store and lets others move between any two operations. -/

namespace Program

/-- A program with exceptions `ε` that returns an `α`. -/
inductive Prog (Op : Type → Type) (ε α : Type) : Type 1
  | ret (a : α) : Prog Op ε α
  | raise (e : ε) : Prog Op ε α
  | op {β : Type} (o : Op β) (next : Except ε β → Prog Op ε α) : Prog Op ε α

namespace Prog

variable {Op : Type → Type} {ε α β γ : Type}

def bind : Prog Op ε α → (α → Prog Op ε β) → Prog Op ε β
  | ret a, f => f a
  | raise e, _ => raise e
  | op o next, f => op o fun r => (next r).bind f

/-- The answer a program returns without another operation. -/
def returned? : Prog Op ε α → Option α
  | ret a => some a
  | _ => none

/-- The exception a program raises without another operation. -/
def raised? : Prog Op ε α → Option ε
  | raise e => some e
  | _ => none

theorem eq_ret {p : Prog Op ε α} {a : α} (h : p.returned? = some a) : p = ret a := by
  cases p with
  | ret b =>
    cases h
    rfl
  | raise e => cases h
  | op o next => cases h

/-- Run `handler` on an exception raised by the program. -/
def handle : Prog Op ε α → (ε → Prog Op ε α) → Prog Op ε α
  | ret a, _ => ret a
  | raise e, handler => handler e
  | op o next, handler => op o fun r => (next r).handle handler

instance : Monad (Prog Op ε) where
  pure := ret
  bind := bind

instance : MonadExcept ε (Prog Op ε) where
  throw := raise
  tryCatch := handle

/-- One operation; its exception is the program's. -/
def perform (o : Op β) : Prog Op ε β :=
  op o fun
    | .ok b => ret b
    | .error e => raise e

/-- The answer of a present value, or the exception that names its absence. -/
def found (x : Option α) (e : ε) : Prog Op ε α :=
  match x with
  | some a => ret a
  | none => raise e

def require (p : Prop) [Decidable p] (e : ε) : Prog Op ε Unit :=
  if p then ret () else raise e

@[simp] theorem bind_ret (a : α) (f : α → Prog Op ε β) : (ret a >>= f) = f a := rfl

@[simp] theorem bind_pure_eq (a : α) (f : α → Prog Op ε β) :
    ((Pure.pure a : Prog Op ε α) >>= f) = f a := rfl

@[simp] theorem bind_raise (e : ε) (f : α → Prog Op ε β) :
    ((raise e : Prog Op ε α) >>= f) = raise e := rfl

/-- Every operation the program can perform satisfies `P`. -/
def All (P : (β : Type) → Op β → Prop) : Prog Op ε α → Prop
  | ret _ => True
  | raise _ => True
  | @op _ _ _ β o next => P β o ∧ ∀ r, (next r).All P

variable {P : (β : Type) → Op β → Prop}

theorem All.mono {P' : (β : Type) → Op β → Prop} (hP : ∀ {β} {o : Op β}, P β o → P' β o)
    {p : Prog Op ε α} (h : p.All P) : p.All P' := by
  induction p with
  | ret a => trivial
  | raise e => trivial
  | op o next ih => exact ⟨hP h.1, fun r => ih r (h.2 r)⟩

theorem All.bind {p : Prog Op ε α} {f : α → Prog Op ε β} (hp : p.All P) (hf : ∀ a, (f a).All P) :
    (p >>= f).All P := by
  induction p with
  | ret a => exact hf a
  | raise e => trivial
  | op o next ih => exact ⟨hp.1, fun r => ih r (hp.2 r)⟩

theorem All.handle {p : Prog Op ε α} {handler : ε → Prog Op ε α} (hp : p.All P)
    (hf : ∀ e, (handler e).All P) : (p.handle handler).All P := by
  induction p with
  | ret a => trivial
  | raise e => exact hf e
  | op o next ih => exact ⟨hp.1, fun r => ih r (hp.2 r)⟩

theorem All.perform {o : Op β} (h : P β o) : (perform o : Prog Op ε β).All P :=
  ⟨h, fun r => by cases r <;> trivial⟩

theorem All.found {x : Option α} {e : ε} : (found x e : Prog Op ε α).All P := by
  cases x <;> trivial

theorem All.require {p : Prop} [Decidable p] {e : ε} : (require p e : Prog Op ε Unit).All P := by
  unfold Prog.require
  split <;> trivial

end Prog

end Program
