import Mathlib.Algebra.GroupWithZero.Nat
import Mathlib.Algebra.Order.Ring.Nat
import Mathlib.Tactic.Ring

/-! # Pacing

Things that happen at times, latest first, each a gap after any earlier one that is
not excused. In a span of time there is only room for so many. -/

namespace Pacing

variable {α : Type*} (time : α → Nat) (excused : α → Bool) (gap : Nat)

def Spaced (l : List α) : Prop :=
  l.Pairwise fun later earlier =>
    time earlier ≤ time later ∧ (excused earlier = false → time earlier + gap ≤ time later)

variable {time excused gap} {l : List α} {x : α} {a b : Nat}

theorem Spaced.span (h : Spaced time excused gap (x :: l)) (hwithin : ∀ y ∈ x :: l, a ≤ time y) :
    (x :: l).length * gap + a ≤ time x + (1 + l.countP excused) * gap := by
  induction l generalizing x with
  | nil =>
    have hx := hwithin x List.mem_cons_self
    rw [List.length_singleton, List.countP_nil]
    omega
  | cons y rest ih =>
    obtain ⟨hx, hrest⟩ := List.pairwise_cons.mp h
    have hbound := ih hrest fun z hz => hwithin z (List.mem_cons_of_mem _ hz)
    obtain ⟨hle, hgap⟩ := hx y List.mem_cons_self
    rw [List.length_cons, Nat.succ_mul, List.countP_cons]
    cases hexcused : excused y with
    | false =>
      have hstep := hgap hexcused
      rw [if_neg Bool.false_ne_true, Nat.add_zero]
      omega
    | true =>
      have hcredit : (1 + (rest.countP excused + 1)) * gap =
          (1 + rest.countP excused) * gap + gap := by ring
      rw [if_pos rfl, hcredit]
      omega

/-- **Room for only so many.** -/
theorem Spaced.length_le (h : Spaced time excused gap l)
    (hwithin : ∀ y ∈ l, a ≤ time y ∧ time y ≤ b) :
    l.length * gap ≤ (b - a) + (1 + l.countP excused) * gap := by
  cases l with
  | nil =>
    rw [List.length_nil, Nat.zero_mul]
    exact Nat.zero_le _
  | cons x rest =>
    have hspan := h.span fun y hy => (hwithin y hy).1
    have hx := hwithin x List.mem_cons_self
    have hcount : rest.countP excused ≤ (x :: rest).countP excused := List.countP_cons ▸ Nat.le_add_right _ _
    have hcredit := Nat.mul_le_mul_right gap (Nat.add_le_add_left hcount 1)
    omega

theorem Spaced.filter (h : Spaced time excused gap l) (p : α → Bool) :
    Spaced time excused gap (l.filter p) := List.Pairwise.filter p h

end Pacing
