import Mathlib.Algebra.Group.Nat.Defs
import Mathlib.Data.List.Basic

/-! # Framed records

Numbers written with a fixed number of bytes, and streams of records that tell where
they end: such a stream determines its records. -/

namespace Framing

/-- `n.to_bytes(count, "big")`, of numbers that fit. -/
def bigEndian : Nat → Nat → List UInt8
  | 0, _ => []
  | count + 1, n => bigEndian count (n / 256) ++ [UInt8.ofNat (n % 256)]

@[simp] theorem length_bigEndian (count n : Nat) : (bigEndian count n).length = count := by
  induction count generalizing n with
  | zero => rfl
  | succ count ih => rw [bigEndian, List.length_append, ih, List.length_singleton]

theorem bigEndian_injective {count m n : Nat} (hm : m < 256 ^ count) (hn : n < 256 ^ count)
    (h : bigEndian count m = bigEndian count n) : m = n := by
  induction count generalizing m n with
  | zero =>
    rw [Nat.pow_zero] at hm hn
    omega
  | succ count ih =>
    rw [bigEndian, bigEndian] at h
    obtain ⟨hfront, hlast⟩ := List.append_inj' h rfl
    have hdigit : m % 256 = n % 256 := by
      have hbyte := congrArg UInt8.toNat (List.cons.inj hlast).1
      simpa using hbyte
    have hm' : m / 256 < 256 ^ count := by
      rw [Nat.div_lt_iff_lt_mul (by decide)]
      rwa [Nat.pow_succ] at hm
    have hn' : n / 256 < 256 ^ count := by
      rw [Nat.div_lt_iff_lt_mul (by decide)]
      rwa [Nat.pow_succ] at hn
    have hrest := ih hm' hn' hfront
    have hmdiv := Nat.div_add_mod m 256
    have hndiv := Nat.div_add_mod n 256
    omega

section

variable {α β : Type} {encode : α → List β} {p : α → Prop}

/-- The encoding of a value tells where it ends. -/
def SelfDelimiting (encode : α → List β) (p : α → Prop) : Prop :=
  ∀ a b, p a → p b → ∀ s t, encode a ++ s = encode b ++ t → a = b ∧ s = t

/-- A stream of self-delimiting records determines them. -/
theorem flatMap_injective (hencode : SelfDelimiting encode p) (hne : ∀ a, encode a ≠ []) :
    ∀ {l l' : List α}, (∀ a ∈ l, p a) → (∀ a ∈ l', p a) → l.flatMap encode = l'.flatMap encode →
      l = l'
  | [], [], _, _, _ => rfl
  | [], b :: l', _, _, h => by
    rw [List.flatMap_nil, List.flatMap_cons] at h
    exact absurd (List.append_eq_nil_iff.mp h.symm).1 (hne b)
  | a :: l, [], _, _, h => by
    rw [List.flatMap_nil, List.flatMap_cons] at h
    exact absurd (List.append_eq_nil_iff.mp h).1 (hne a)
  | a :: l, b :: l', hl, hl', h => by
    rw [List.flatMap_cons, List.flatMap_cons] at h
    obtain ⟨hhead, hrest⟩ := hencode a b (hl a List.mem_cons_self) (hl' b List.mem_cons_self) _ _ h
    rw [hhead, flatMap_injective hencode hne (fun x hx => hl x (List.mem_cons_of_mem a hx))
      (fun x hx => hl' x (List.mem_cons_of_mem b hx)) hrest]

end

end Framing
