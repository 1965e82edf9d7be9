import Mathlib.Data.List.Chain
import Mathlib.Logic.Function.Basic
import Mathlib.Logic.Relation

/-! # Numbered journals of a state machine

An entity has a current state and a journal of numbered entries; the entity
keeps the number of its latest entry. An entry either names the state the
entity entered or says nothing about it. Two steps extend a journal: a move to
a next state, recorded by an entry that names it, and a note, which leaves the
state alone. `Consistent` says that the journal alone determines the entity:
the numbers are dense, and the states named form a path of the transition
relation from the initial state to the current one. -/

namespace Journal

variable {S : Type}

/-- An entity and its journal: `entry n = some none` is an entry without a state. -/
@[ext] structure Record (S : Type) where
  state : S
  last : Nat
  entry : Nat → Option (Option S)

def Record.append (r : Record S) (s : S) (e : Option S) : Record S where
  state := s
  last := r.last + 1
  entry := Function.update r.entry (r.last + 1) (some e)

/-- A newly opened journal: its first entry stands for the initial state. -/
def Record.opened (s₀ : S) (e : Option S) : Record S where
  state := s₀
  last := 1
  entry := Function.update (fun _ => none) 1 (some e)

/-- One more entry. Notes are allowed in the states that satisfy `noting`. -/
inductive Step (moves : S → S → Prop) (noting : S → Prop) : Record S → Record S → Prop
  | move {r s} (h : moves r.state s) : Step moves noting r (r.append s (some s))
  | note {r} (h : noting r.state) : Step moves noting r (r.append r.state none)

variable {moves : S → S → Prop} {noting : S → Prop} {s₀ : S} {r r' : Record S}

/-- The state entry `n` stands for; the first one stands for the initial state. -/
def named (s₀ : S) (entry : Nat → Option (Option S)) (n : Nat) : Option S :=
  if n = 1 then some s₀ else (entry n).join

/-- The states named by the first `last` entries, in order. -/
def path (s₀ : S) (entry : Nat → Option (Option S)) (last : Nat) : List S :=
  (List.range' 1 last).filterMap (named s₀ entry)

structure Consistent (moves : S → S → Prop) (s₀ : S) (r : Record S) : Prop where
  dense : ∀ n, (r.entry n).isSome ↔ 1 ≤ n ∧ n ≤ r.last
  started : (path s₀ r.entry r.last).head? = some s₀
  legal : (path s₀ r.entry r.last).IsChain moves
  current : (path s₀ r.entry r.last).getLast? = some r.state

theorem path_succ (s₀ : S) (entry : Nat → Option (Option S)) (last : Nat) :
    path s₀ entry (last + 1) = path s₀ entry last ++ (named s₀ entry (last + 1)).toList := by
  unfold path
  rw [List.range'_1_concat, List.filterMap_append, Nat.add_comm 1 last]
  cases h : named s₀ entry (last + 1) <;> simp [h]

theorem path_congr {entry entry' : Nat → Option (Option S)} {last : Nat}
    (h : ∀ n, n ≤ last → entry' n = entry n) : path s₀ entry' last = path s₀ entry last := by
  unfold path
  apply List.filterMap_congr
  intro n hn
  have hle : n ≤ last := by
    have := List.mem_range'_1.mp hn
    omega
  simp only [named, h n hle]

theorem consistent_opened (e : Option S) : Consistent moves s₀ (Record.opened s₀ e) where
  dense n := by
    simp only [Record.opened, Function.update_apply]
    split <;> simp <;> omega
  started := by simp [Record.opened, path, named]
  legal := by simp [Record.opened, path, named]
  current := by simp [Record.opened, path, named]

theorem Consistent.last_pos (h : Consistent moves s₀ r) : 1 ≤ r.last := by
  by_contra hlt
  have hzero : r.last = 0 := by omega
  have hcur := h.current
  rw [hzero] at hcur
  cases hcur

theorem append_dense (h : Consistent moves s₀ r) (s : S) (e : Option S) (n : Nat) :
    ((r.append s e).entry n).isSome ↔ 1 ≤ n ∧ n ≤ (r.append s e).last := by
  simp only [Record.append, Function.update_apply]
  split
  · simp only [Option.isSome_some, true_iff]; omega
  · rw [h.dense]; omega

theorem path_append (h : Consistent moves s₀ r) (s : S) (e : Option S) :
    path s₀ (r.append s e).entry (r.append s e).last = path s₀ r.entry r.last ++ e.toList := by
  have hpos := h.last_pos
  have hnamed : named s₀ (r.append s e).entry (r.last + 1) = e := by
    simp only [named, Record.append, Function.update_self, Option.join_some]
    split
    · omega
    · rfl
  have hold : path s₀ (r.append s e).entry r.last = path s₀ r.entry r.last :=
    path_congr fun n hn => by
      simp only [Record.append]
      exact Function.update_of_ne (by omega) _ _
  calc path s₀ (r.append s e).entry (r.append s e).last
      = path s₀ (r.append s e).entry r.last ++
          (named s₀ (r.append s e).entry (r.last + 1)).toList := path_succ _ _ _
    _ = path s₀ r.entry r.last ++ e.toList := by rw [hnamed, hold]

theorem Consistent.step (h : Consistent moves s₀ r) (hstep : Step moves noting r r') :
    Consistent moves s₀ r' := by
  cases hstep with
  | move hm =>
    refine ⟨append_dense h _ _, ?_, ?_, ?_⟩
    · rw [path_append h, List.head?_append, h.started]; rfl
    · rw [path_append h]
      refine h.legal.append (by simp) ?_
      intro x hx y hy
      rw [h.current, Option.mem_def, Option.some.injEq] at hx
      simp only [Option.toList_some, List.head?_cons, Option.mem_def, Option.some.injEq] at hy
      exact hx ▸ hy ▸ hm
    · rw [path_append h]; simp [Record.append]
  | note =>
    refine ⟨append_dense h _ _, ?_, ?_, ?_⟩
    · rw [path_append h, Option.toList_none, List.append_nil]; exact h.started
    · rw [path_append h, Option.toList_none, List.append_nil]; exact h.legal
    · rw [path_append h, Option.toList_none, List.append_nil]; exact h.current

theorem Consistent.steps (h : Consistent moves s₀ r)
    (hs : Relation.ReflTransGen (Step moves noting) r r') : Consistent moves s₀ r' := by
  induction hs with
  | refl => exact h
  | tail _ hstep ih => exact ih.step hstep

/-! ## The state before an entry -/

/-- Entry `m` is the latest before `n` that stands for a state, and stands for `s`. -/
structure Latest (s₀ : S) (entry : Nat → Option (Option S)) (n m : Nat) (s : S) : Prop where
  pos : 1 ≤ m
  before : m < n
  state : named s₀ entry m = some s
  quiet : ∀ k, m < k → k < n → named s₀ entry k = none

variable {entry : Nat → Option (Option S)} {n m : Nat} {s t : S}

theorem Latest.getLast (h : Latest s₀ entry n m s) : (path s₀ entry (n - 1)).getLast? = some s := by
  obtain ⟨k, rfl⟩ : ∃ k, n = m + 1 + k := ⟨n - (m + 1), by have := h.before; omega⟩
  induction k with
  | zero =>
    show (path s₀ entry m).getLast? = some s
    obtain ⟨j, rfl⟩ : ∃ j, m = j + 1 := ⟨m - 1, by have := h.pos; omega⟩
    rw [path_succ, h.state]
    simp
  | succ k ih =>
    have hquiet : named s₀ entry (m + 1 + k) = none := h.quiet _ (by omega) (by omega)
    have hold := ih ⟨h.pos, by omega, h.state, fun j hmj hjn => h.quiet j hmj (by omega)⟩
    rw [show m + 1 + (k + 1) - 1 = m + k + 1 by omega, path_succ,
      show m + k + 1 = m + 1 + k by omega, hquiet]
    simpa [show m + 1 + k - 1 = m + k by omega] using hold

/-- There is a state before every entry but the first. -/
theorem exists_latest (s₀ : S) (entry : Nat → Option (Option S)) (k : Nat) :
    ∃ m s, Latest s₀ entry (k + 2) m s := by
  induction k with
  | zero => exact ⟨1, s₀, Nat.le_refl 1, by omega, if_pos rfl, fun k hk hk' => by omega⟩
  | succ k ih =>
    cases hk : named s₀ entry (k + 2) with
    | some s => exact ⟨k + 2, s, by omega, by omega, hk, fun j hj hj' => by omega⟩
    | none =>
      obtain ⟨m, s, hlatest⟩ := ih
      refine ⟨m, s, hlatest.pos, by have := hlatest.before; omega, hlatest.state, fun j hj hj' => ?_⟩
      by_cases hjk : j = k + 2
      · rw [hjk, hk]
      · exact hlatest.quiet j hj (by omega)

theorem path_mono {k : Nat} (hk : n ≤ k) : path s₀ entry n <+: path s₀ entry k := by
  induction k, hk using Nat.le_induction with
  | base => exact List.prefix_rfl
  | succ k hk ih =>
    rw [path_succ]
    exact ih.trans (List.prefix_append _ _)

/-- An entry that names a state moves from the state before it. -/
theorem Consistent.moves_from (h : Consistent moves s₀ r) (hn : n ≤ r.last)
    (hs : Latest s₀ r.entry n m s) (ht : named s₀ r.entry n = some t) : moves s t := by
  have hlast := hs.getLast
  obtain ⟨k, rfl⟩ : ∃ k, n = k + 1 := ⟨n - 1, by have := hs.before; omega⟩
  have hlegal : (path s₀ r.entry (k + 1)).IsChain moves :=
    h.legal.infix (path_mono hn).isInfix
  rw [path_succ, ht, List.isChain_append] at hlegal
  exact hlegal.2.2 s hlast t rfl

end Journal
