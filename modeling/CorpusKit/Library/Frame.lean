import CorpusKit.Library.Transaction

/-! # What a transaction leaves alone

A transaction keeps a property of the state if it holds after every commit that
started with it. With the property that a part of the state has some value, these
are its frame rules: a transaction is taken apart at its statements, and only those
that write are looked at. -/

namespace Transaction

variable {σ ε α β : Type} {I : σ → Prop}

/-- Where the property holds before, it holds after. -/
def Keeps (I : σ → Prop) (m : Tx σ ε α) : Prop :=
  ∀ s a t, I s → Returns m s a t → I t

theorem Keeps.pure (a : α) : Keeps I (Pure.pure a : Tx σ ε α) := by
  intro s b t hs h
  obtain ⟨-, rfl⟩ := h.pure
  exact hs

theorem Keeps.throw (e : ε) : Keeps I (MonadExcept.throw e : Tx σ ε α) :=
  fun _ _ _ _ h => h.throw.elim

theorem Keeps.bind {m : Tx σ ε α} {f : α → Tx σ ε β} (hm : Keeps I m) (hf : ∀ a, Keeps I (f a)) :
    Keeps I (m >>= f) := by
  intro s b t hs h
  obtain ⟨a, u, hfirst, hrest⟩ := h.bind
  exact hf a u b t (hm s a u hs hfirst) hrest

/-- The state that is read has the property. -/
theorem Keeps.get {f : σ → Tx σ ε β} (hf : ∀ s, I s → Keeps I (f s)) :
    Keeps I (MonadState.get >>= f) := by
  intro s b t hs h
  obtain ⟨a, u, hget, hrest⟩ := h.bind
  obtain ⟨rfl, rfl⟩ := hget.get
  exact hf _ hs _ b t hs hrest

theorem Keeps.set {x : σ} (hx : I x) : Keeps I (MonadStateOf.set x : Tx σ ε PUnit) := by
  intro s u t _ h
  obtain rfl := h.set
  exact hx

theorem Keeps.modify {f : σ → σ} (hf : ∀ s, I s → I (f s)) :
    Keeps I (modify f : Tx σ ε PUnit) := by
  intro s u t hs h
  obtain rfl := h.modify
  exact hf s hs

theorem Keeps.require (p : Prop) [Decidable p] (e : ε) : Keeps I (require p e : Tx σ ε Unit) := by
  intro s u t hs h
  obtain ⟨-, rfl⟩ := h.require
  exact hs

theorem Keeps.found (x : Option α) (e : ε) : Keeps I (found x e : Tx σ ε α) := by
  intro s a t hs h
  obtain ⟨-, rfl⟩ := h.found
  exact hs

theorem Keeps.ite {p : Prop} [Decidable p] {m n : Tx σ ε α} (hm : Keeps I m) (hn : Keeps I n) :
    Keeps I (if p then m else n) := by
  split
  · exact hm
  · exact hn

end Transaction
