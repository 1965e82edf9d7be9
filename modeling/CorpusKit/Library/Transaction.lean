import Mathlib.Data.List.Basic

/-! # Transactions

A transaction runs from the committed state of a store. It either commits a
new state together with an answer, or raises and leaves the store as it was:
`commit` is the only place where that choice is made. Proofs take a
transaction body apart with the inversion lemmas of `Returns`; they never
unfold the state monad. -/

namespace Transaction

/-- A transaction body over a store `σ` that may raise `ε`. -/
abbrev Tx (σ ε : Type) := StateT σ (Except ε)

variable {σ ε α β : Type}

/-- The body runs to its end from `s`, answering `a` and leaving `t`. -/
def Returns (m : Tx σ ε α) (s : σ) (a : α) (t : σ) : Prop := m.run s = .ok (a, t)

/-- The body raises `e` when started from `s`. -/
def Raises (m : Tx σ ε α) (s : σ) (e : ε) : Prop := m.run s = .error e

/-- Raise when the check fails. -/
def require (p : Prop) [Decidable p] (e : ε) : Tx σ ε Unit :=
  if p then pure () else throw e

/-- The present value, or the exception that names its absence. -/
def found (x : Option α) (e : ε) : Tx σ ε α :=
  match x with
  | some a => pure a
  | none => throw e

/-- What the rest of the system sees: a raising body is rolled back. -/
def commit (m : Tx σ ε α) (s : σ) : Except ε α × σ :=
  match m.run s with
  | .ok (a, t) => (.ok a, t)
  | .error e => (.error e, s)

/-! ## Inversion

Equations put the old state on the left, so that substituting one keeps the
name of the state a body started from. -/

theorem Returns.pure {a b : α} {s t : σ} (h : Returns (Pure.pure a : Tx σ ε α) s b t) :
    a = b ∧ s = t := by
  have h' : (Except.ok (a, s) : Except ε (α × σ)) = .ok (b, t) := h
  cases h'
  exact ⟨rfl, rfl⟩

theorem Returns.bind {m : Tx σ ε α} {f : α → Tx σ ε β} {s u : σ} {b : β}
    (h : Returns (m >>= f) s b u) : ∃ a t, Returns m s a t ∧ Returns (f a) t b u := by
  unfold Returns at h ⊢
  rw [StateT.run_bind] at h
  cases hm : m.run s with
  | error e => rw [hm] at h; cases h
  | ok r =>
    rw [hm] at h
    exact ⟨r.1, r.2, rfl, h⟩

theorem Returns.seq {m : Tx σ ε α} {f : α → Tx σ ε β} {s t u : σ} {a : α} {b : β}
    (hm : Returns m s a t) (hf : Returns (f a) t b u) : Returns (m >>= f) s b u := by
  unfold Returns at hm hf ⊢
  rw [StateT.run_bind, hm]
  exact hf

theorem Returns.get {a s t : σ} (h : Returns (MonadState.get : Tx σ ε σ) s a t) :
    s = a ∧ s = t := by
  have h' : (Except.ok (s, s) : Except ε (σ × σ)) = .ok (a, t) := h
  cases h'
  exact ⟨rfl, rfl⟩

theorem Returns.set {x s t : σ} {u : PUnit}
    (h : Returns (MonadStateOf.set x : Tx σ ε PUnit) s u t) : x = t := by
  have h' : (Except.ok (PUnit.unit, x) : Except ε (PUnit × σ)) = .ok (u, t) := h
  cases h'
  rfl

theorem Returns.modify {f : σ → σ} {s t : σ} {u : PUnit}
    (h : Returns (modify f : Tx σ ε PUnit) s u t) : f s = t := by
  have h' : (Except.ok (PUnit.unit, f s) : Except ε (PUnit × σ)) = .ok (u, t) := h
  cases h'
  rfl

theorem Returns.throw {e : ε} {s t : σ} {a : α}
    (h : Returns (throw e : Tx σ ε α) s a t) : False := by
  have h' : (Except.error e : Except ε (α × σ)) = .ok (a, t) := h
  cases h'

theorem Returns.require {p : Prop} [Decidable p] {e : ε} {s t : σ} {u : Unit}
    (h : Returns (Transaction.require p e : Tx σ ε Unit) s u t) : p ∧ s = t := by
  unfold Transaction.require at h
  split at h
  · next hp => exact ⟨hp, h.pure.2⟩
  · exact h.throw.elim

theorem Returns.found {x : Option α} {e : ε} {s t : σ} {a : α}
    (h : Returns (Transaction.found x e : Tx σ ε α) s a t) : x = some a ∧ s = t := by
  unfold Transaction.found at h
  cases x with
  | none => exact h.throw.elim
  | some b =>
    obtain ⟨hb, ht⟩ := h.pure
    exact ⟨congrArg some hb, ht⟩

theorem Returns.ite {p : Prop} [Decidable p] {m n : Tx σ ε α} {s t : σ} {a : α}
    (h : Returns (if p then m else n) s a t) : (p ∧ Returns m s a t) ∨ (¬ p ∧ Returns n s a t) := by
  split at h
  · next hp => exact .inl ⟨hp, h⟩
  · next hp => exact .inr ⟨hp, h⟩

theorem Returns.not_raises {m : Tx σ ε α} {s t : σ} {a : α} (h : Returns m s a t) (e : ε) :
    ¬ Raises m s e := by
  intro hraise
  unfold Returns at h
  unfold Raises at hraise
  rw [h] at hraise
  cases hraise

theorem Raises.bind {m : Tx σ ε α} {f : α → Tx σ ε β} {s : σ} {e : ε} (h : Raises (m >>= f) s e) :
    Raises m s e ∨ ∃ a t, Returns m s a t ∧ Raises (f a) t e := by
  unfold Raises at h ⊢
  rw [StateT.run_bind] at h
  cases hm : m.run s with
  | error e' =>
    rw [hm] at h
    cases h
    exact .inl rfl
  | ok r =>
    rw [hm] at h
    exact .inr ⟨r.1, r.2, hm, h⟩

theorem Raises.found {x : Option α} {e e' : ε} {s : σ}
    (h : Raises (Transaction.found x e : Tx σ ε α) s e') : x = none ∧ e = e' := by
  unfold Transaction.found at h
  cases x with
  | none => exact ⟨rfl, Except.error.inj h⟩
  | some a => cases h

/-! ## Execution -/

theorem Returns.checked {p : Prop} [Decidable p] {e : ε} {s : σ} (hp : p) :
    Returns (Transaction.require p e : Tx σ ε Unit) s () s := by
  unfold Transaction.require
  rw [if_pos hp]
  rfl

theorem Returns.present {x : Option α} {e : ε} {s : σ} {a : α} (hx : x = some a) :
    Returns (Transaction.found x e : Tx σ ε α) s a s := by
  subst hx
  rfl

/-! ## Committing -/

theorem Returns.commit {m : Tx σ ε α} {s t : σ} {a : α} (h : Returns m s a t) :
    Transaction.commit m s = (.ok a, t) := by
  unfold Returns at h
  unfold Transaction.commit
  rw [h]

/-- A body that cannot return is rolled back. -/
theorem commit_refused {m : Tx σ ε α} {s : σ} (h : ∀ a t, ¬ Returns m s a t) :
    ∃ e, commit m s = (.error e, s) := by
  unfold commit
  cases hm : m.run s with
  | error e => exact ⟨e, rfl⟩
  | ok r => exact absurd hm (h r.1 r.2)

/-- A committed transaction is one whose body returned. -/
theorem commit_ok {m : Tx σ ε α} {s t : σ} {a : α} (h : commit m s = (.ok a, t)) :
    Returns m s a t := by
  unfold commit at h
  cases hm : m.run s with
  | error e => rw [hm] at h; cases h
  | ok r =>
    rw [hm] at h
    cases h
    exact hm

/-- A transaction that raised left the store as it was. -/
theorem commit_error {m : Tx σ ε α} {s t : σ} {e : ε} (h : commit m s = (.error e, t)) :
    t = s ∧ Raises m s e := by
  unfold commit at h
  cases hm : m.run s with
  | error e' => rw [hm] at h; cases h; exact ⟨rfl, hm⟩
  | ok r => rw [hm] at h; cases h

end Transaction
