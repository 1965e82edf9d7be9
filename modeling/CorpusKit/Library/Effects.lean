import Mathlib.Data.List.Basic

/-! # Calls with side effects

A call that may raise and whose effects stay when it does: a callback that has
counted or sent something before the exception is not undone. `Ends` says how a
call ends from a state; programs are executed with its composition rules, and
the state monad is never unfolded. -/

namespace Effects

/-- A call over the variables `σ` that may raise `ε`. -/
abbrev Act (σ ε : Type) := ExceptT ε (StateM σ)

variable {σ ε α β : Type}

/-- The call ends with the result and leaves the variables so. -/
def Ends (m : Act σ ε α) (s : σ) (r : Except ε α) (t : σ) : Prop := m.run.run s = (r, t)

/-- Raise when the check fails. -/
def require (p : Prop) [Decidable p] (e : ε) : Act σ ε Unit :=
  if p then pure () else throw e

/-- The value, or the exception that stands for its absence. -/
def found (x : Option α) (e : ε) : Act σ ε α :=
  match x with
  | some a => pure a
  | none => throw e

theorem Ends.unique {m : Act σ ε α} {s t t' : σ} {r r' : Except ε α} (h : Ends m s r t)
    (h' : Ends m s r' t') : r = r' ∧ t = t' := by
  have heq : (r, t) = (r', t') := h.symm.trans h'
  cases heq
  exact ⟨rfl, rfl⟩

theorem Ends.exists (m : Act σ ε α) (s : σ) : ∃ r t, Ends m s r t :=
  ⟨_, _, rfl⟩

theorem Ends.pure (a : α) (s : σ) : Ends (Pure.pure a : Act σ ε α) s (.ok a) s := rfl

theorem Ends.throw (e : ε) (s : σ) : Ends (throw e : Act σ ε α) s (.error e) s := rfl

theorem Ends.get (s : σ) : Ends (MonadState.get : Act σ ε σ) s (.ok s) s := rfl

theorem Ends.set (s t : σ) : Ends (MonadStateOf.set t : Act σ ε PUnit) s (.ok ⟨⟩) t := rfl

theorem Ends.modify (f : σ → σ) (s : σ) : Ends (modify f : Act σ ε PUnit) s (.ok ⟨⟩) (f s) := rfl

/-- The call went on. -/
theorem Ends.seq {m : Act σ ε α} {f : α → Act σ ε β} {s t u : σ} {a : α} {r : Except ε β}
    (hm : Ends m s (.ok a) t) (hf : Ends (f a) t r u) : Ends (m >>= f) s r u := by
  show (ExceptT.run (m >>= f)).run s = (r, u)
  rw [ExceptT.run_bind, StateT.run_bind]
  have h : m.run.run s = (.ok a, t) := hm
  rw [h]
  exact hf

/-- The call stopped at an exception. -/
theorem Ends.stop {m : Act σ ε α} {f : α → Act σ ε β} {s t : σ} {e : ε}
    (hm : Ends m s (.error e) t) : Ends (m >>= f) s (.error e) t := by
  show (ExceptT.run (m >>= f)).run s = (.error e, t)
  rw [ExceptT.run_bind, StateT.run_bind]
  have h : m.run.run s = (.error e, t) := hm
  rw [h]
  rfl

theorem Ends.require {p : Prop} [Decidable p] {e : ε} {s : σ} (hp : p) :
    Ends (Effects.require p e : Act σ ε Unit) s (.ok ()) s := by
  unfold Effects.require
  rw [if_pos hp]
  exact .pure () s

theorem Ends.refuse {p : Prop} [Decidable p] {e : ε} {s : σ} (hp : ¬ p) :
    Ends (Effects.require p e : Act σ ε Unit) s (.error e) s := by
  unfold Effects.require
  rw [if_neg hp]
  exact .throw e s

theorem Ends.present {x : Option α} {e : ε} {s : σ} {a : α} (hx : x = some a) :
    Ends (Effects.found x e : Act σ ε α) s (.ok a) s := by
  subst hx
  exact .pure a s

theorem Ends.absent {x : Option α} {e : ε} {s : σ} (hx : x = none) :
    Ends (Effects.found x e : Act σ ε α) s (.error e) s := by
  subst hx
  exact .throw e s

/-- `try` without an exception. -/
theorem Ends.fine {m : Act σ ε α} {h : ε → Act σ ε α} {s t : σ} {a : α}
    (hm : Ends m s (.ok a) t) : Ends (tryCatch m h) s (.ok a) t := by
  show (ExceptT.run (tryCatch m h)).run s = (.ok a, t)
  have hrun : m.run.run s = (.ok a, t) := hm
  show (do match ← m.run with
    | Except.ok a => Pure.pure (Except.ok a)
    | Except.error e => (h e).run : StateM σ (Except ε α)).run s = _
  rw [StateT.run_bind, hrun]
  rfl

/-- `except`. -/
theorem Ends.caught {m : Act σ ε α} {h : ε → Act σ ε α} {s t u : σ} {e : ε} {r : Except ε α}
    (hm : Ends m s (.error e) t) (hh : Ends (h e) t r u) : Ends (tryCatch m h) s r u := by
  have hrun : m.run.run s = (.error e, t) := hm
  show (do match ← m.run with
    | Except.ok a => Pure.pure (Except.ok a)
    | Except.error e => (h e).run : StateM σ (Except ε α)).run s = _
  rw [StateT.run_bind, hrun]
  exact hh

end Effects
