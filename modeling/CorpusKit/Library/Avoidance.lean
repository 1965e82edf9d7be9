import CorpusKit.Library.Transaction

/-! # Errors a transaction does not raise

`Avoids bad m s` says that the body `m`, started from `s`, does not raise an error
of the set `bad`; `Shuns bad m` says it for every state. Both are closed under the
control structures of a body, so that a body avoids what none of its checks
raises, and only the checks that do raise it have to be looked at. -/

namespace Transaction

variable {σ ε α β : Type} {bad : ε → Prop} {m : Tx σ ε α} {f : α → Tx σ ε β} {s t : σ} {e : ε}

def Avoids (bad : ε → Prop) (m : Tx σ ε α) (s : σ) : Prop := ∀ e, Raises m s e → ¬ bad e

def Shuns (bad : ε → Prop) (m : Tx σ ε α) : Prop := ∀ s, Avoids bad m s

theorem Shuns.avoids (h : Shuns bad m) (s : σ) : Avoids bad m s := h s

theorem Avoids.bind (hm : Avoids bad m s)
    (hf : ∀ a t, Returns m s a t → Avoids bad (f a) t) : Avoids bad (m >>= f) s := by
  intro e hraises
  rcases hraises.bind with hraises | ⟨a, t, hret, hraises⟩
  · exact hm e hraises
  · exact hf a t hret e hraises

theorem Returns.avoids {a : α} (h : Returns m s a t) : Avoids bad m s :=
  fun e hraises => absurd hraises (h.not_raises e)

@[simp] theorem shuns_pure {a : α} : Shuns bad (pure a : Tx σ ε α) :=
  fun _ => Returns.avoids rfl

@[simp] theorem shuns_get : Shuns bad (get : Tx σ ε σ) :=
  fun _ => Returns.avoids rfl

@[simp] theorem shuns_set {x : σ} : Shuns bad (set x : Tx σ ε PUnit) :=
  fun _ => Returns.avoids rfl

@[simp] theorem shuns_modify {g : σ → σ} : Shuns bad (modify g : Tx σ ε PUnit) :=
  fun _ => Returns.avoids rfl

theorem shuns_throw (h : ¬ bad e) : Shuns bad (throw e : Tx σ ε α) := by
  intro s e' hraises
  cases (Except.error.inj hraises : e = e')
  exact h

theorem shuns_require {p : Prop} [Decidable p] (h : ¬ bad e) :
    Shuns bad (require p e : Tx σ ε Unit) := by
  unfold require
  split
  · exact shuns_pure
  · exact shuns_throw h

/-- A check that holds raises nothing. -/
theorem avoids_require {p : Prop} [Decidable p] (hp : p) :
    Avoids bad (require p e : Tx σ ε Unit) s := (Returns.checked hp).avoids

theorem shuns_found {x : Option α} (h : ¬ bad e) : Shuns bad (found x e : Tx σ ε α) := by
  unfold found
  cases x with
  | none => exact shuns_throw h
  | some a => exact shuns_pure

theorem Shuns.bind (hm : Shuns bad m) (hf : ∀ a, Shuns bad (f a)) : Shuns bad (m >>= f) :=
  fun s => (hm s).bind fun a t _ => hf a t

theorem Shuns.ite {p : Prop} [Decidable p] {n : Tx σ ε α} (hm : Shuns bad m) (hn : Shuns bad n) :
    Shuns bad (if p then m else n) := by
  split
  · exact hm
  · exact hn

end Transaction
