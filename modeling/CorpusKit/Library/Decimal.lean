import Mathlib.Algebra.Order.Floor.Ring
import Mathlib.Data.Int.Log
import Mathlib.Data.Rat.Floor
import Mathlib.Tactic.Linarith
import Mathlib.Tactic.NormNum

/-! # Decimal arithmetic in a context

A decimal is known by its value. A context rounds every result to its number of
significant digits, half to even, and no finer than its least exponent. Rounding
keeps the order of nonnegative numbers, and so does arithmetic made of it. -/

namespace Decimal

/-- The nearest integer, of two the even one. -/
def halfEven (x : ℚ) : ℤ :=
  let rest := x - ⌊x⌋
  if rest < 1 / 2 then ⌊x⌋
  else if 1 / 2 < rest then ⌊x⌋ + 1
  else if ⌊x⌋ % 2 = 0 then ⌊x⌋ else ⌊x⌋ + 1

structure Context where
  precision : Nat
  leastExponent : Int
  positive : 0 < precision

namespace Context

variable {c : Context} {x y : ℚ}

/-- The exponent of the last digit kept. -/
def exponent (c : Context) (x : ℚ) : ℤ := max (Int.log 10 |x| + 1 - c.precision) c.leastExponent

def roundAt (e : ℤ) (x : ℚ) : ℚ := halfEven (x / 10 ^ e) * 10 ^ e

def round (c : Context) (x : ℚ) : ℚ := roundAt (c.exponent x) x

def add (c : Context) (x y : ℚ) : ℚ := c.round (x + y)
def mul (c : Context) (x y : ℚ) : ℚ := c.round (x * y)
def div (c : Context) (x y : ℚ) : ℚ := c.round (x / y)

end Context

theorem floor_le_halfEven (x : ℚ) : ⌊x⌋ ≤ halfEven x := by
  unfold halfEven
  dsimp only
  split_ifs <;> omega

theorem halfEven_le_floor (x : ℚ) : halfEven x ≤ ⌊x⌋ + 1 := by
  unfold halfEven
  dsimp only
  split_ifs <;> omega

theorem halfEven_intCast (n : ℤ) : halfEven n = n := by
  simp [halfEven]

theorem halfEven_mono {x y : ℚ} (h : x ≤ y) : halfEven x ≤ halfEven y := by
  rcases lt_or_eq_of_le (Int.floor_mono h) with hlt | heq
  · have hx := halfEven_le_floor x
    have hy := floor_le_halfEven y
    omega
  · -- Between two integers only the rest decides.
    have hrest : x - ⌊x⌋ ≤ y - ⌊x⌋ := by linarith
    unfold halfEven
    dsimp only
    rw [← heq]
    split_ifs <;> first | omega | linarith

namespace Context

variable {c : Context} {x y : ℚ} {e : ℤ}

theorem pow_pos (e : ℤ) : (0 : ℚ) < 10 ^ e := zpow_pos (by norm_num) e

theorem roundAt_mono (h : x ≤ y) : roundAt e x ≤ roundAt e y := by
  have hdiv : x / 10 ^ e ≤ y / 10 ^ e := div_le_div_of_nonneg_right h (pow_pos e).le
  have hcast : (halfEven (x / 10 ^ e) : ℚ) ≤ halfEven (y / 10 ^ e) := by
    exact_mod_cast halfEven_mono hdiv
  exact mul_le_mul_of_nonneg_right hcast (pow_pos e).le

/-- A power of ten with a digit in the grid is on the grid. -/
theorem roundAt_pow {k : ℤ} (h : e ≤ k) : roundAt e (10 ^ k) = 10 ^ k := by
  have hsplit : (10 : ℚ) ^ k / 10 ^ e = ((10 ^ (k - e).toNat : ℤ) : ℚ) := by
    rw [← zpow_sub₀ (by norm_num), ← Int.toNat_of_nonneg (sub_nonneg.mpr h), zpow_natCast]
    push_cast
    rfl
  rw [roundAt, hsplit, halfEven_intCast, ← hsplit, div_mul_cancel₀ _ (pow_pos e).ne']

theorem round_zero (c : Context) : c.round 0 = 0 := by
  have hzero : halfEven 0 = 0 := by simpa using halfEven_intCast 0
  simp [round, roundAt, hzero]

theorem round_nonneg (h : 0 ≤ x) : 0 ≤ c.round x := by
  have hdiv : 0 ≤ x / 10 ^ c.exponent x := div_nonneg h (pow_pos _).le
  have hfloor : 0 ≤ halfEven (x / 10 ^ c.exponent x) :=
    (Int.floor_nonneg.mpr hdiv).trans (floor_le_halfEven _)
  exact mul_nonneg (by exact_mod_cast hfloor) (pow_pos _).le

/-- Rounding keeps the order: on one grid, and across a power of ten between two. -/
theorem round_mono (hx : 0 ≤ x) (h : x ≤ y) : c.round x ≤ c.round y := by
  rcases eq_or_lt_of_le hx with rfl | hpos
  · rw [round_zero]
    exact round_nonneg h
  have hlog : Int.log 10 |x| ≤ Int.log 10 |y| := by
    rw [abs_of_nonneg hx, abs_of_nonneg (hx.trans h)]
    exact Int.log_mono_right hpos h
  by_cases hsame : c.exponent x = c.exponent y
  · rw [round, round, hsame]
    exact roundAt_mono h
  · have hprecision := c.positive
    have hlt : Int.log 10 |x| < Int.log 10 |y| := by
      rcases lt_or_eq_of_le hlog with hlt | heq
      · exact hlt
      · exact absurd (by rw [exponent, exponent, heq]) hsame
    have hgrid : c.exponent y ≤ Int.log 10 |y| ∧ c.exponent x ≤ Int.log 10 |y| := by
      unfold exponent at hsame ⊢
      omega
    have hbelow : x ≤ 10 ^ Int.log 10 |y| := by
      have hbound := Int.lt_zpow_succ_log_self (R := ℚ) (b := 10) (by norm_num) |x|
      have hpow : (10 : ℚ) ^ (Int.log 10 |x| + 1) ≤ 10 ^ Int.log 10 |y| :=
        zpow_le_zpow_right₀ (by norm_num) hlt
      have habs := le_abs_self x
      push_cast at hbound
      linarith
    have habove : (10 : ℚ) ^ Int.log 10 |y| ≤ y := by
      have hypos : 0 < |y| := by rw [abs_of_nonneg (hx.trans h)]; exact hpos.trans_le h
      have hbound := Int.zpow_log_le_self (R := ℚ) (b := 10) (by norm_num) hypos
      push_cast at hbound
      rwa [abs_of_nonneg (hx.trans h)] at hbound ⊢
    calc c.round x ≤ roundAt (c.exponent x) (10 ^ Int.log 10 |y|) := roundAt_mono hbelow
      _ = 10 ^ Int.log 10 |y| := roundAt_pow hgrid.2
      _ = roundAt (c.exponent y) (10 ^ Int.log 10 |y|) := (roundAt_pow hgrid.1).symm
      _ ≤ c.round y := roundAt_mono habove

end Context

end Decimal
