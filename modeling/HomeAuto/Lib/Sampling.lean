import Mathlib.Algebra.Order.Floor.Semiring
import Mathlib.Algebra.Order.Field.Basic
import Mathlib.Tactic.Linarith
import Mathlib.Tactic.FieldSimp

/-!
# Sampling at the multiples of a period

Time is a linearly ordered field.  A sampler looks at time `0`, `period`, `2 * period` and so
on; `first period t` is the number of its looks before time `t`, which is the index of the
first one that is not.
-/

namespace Sampling

variable {K : Type*} [Field K] [LinearOrder K] [IsStrictOrderedRing K] [FloorSemiring K]

/-- The first sample at time `t` or later. -/
def first (period : Nat) (t : K) : Nat := ⌈t / period⌉₊

/-- The number of samples in a stretch of time, its end excluded. -/
def count (period : Nat) (lo hi : K) : Nat := first period hi - first period lo

variable {period : Nat} (hperiod : 0 < period)

include hperiod

theorem first_le_iff (t : K) (k : Nat) : first period t ≤ k ↔ t ≤ k * period := by
  have hpos : (0 : K) < period := by exact_mod_cast hperiod
  unfold first
  rw [Nat.ceil_le, div_le_iff₀ hpos]

theorem lt_first_iff (t : K) (k : Nat) : k < first period t ↔ (k * period : K) < t := by
  rw [← not_le, first_le_iff hperiod, not_le]

theorem first_mono {lo hi : K} (h : lo ≤ hi) : first period lo ≤ first period hi := by
  apply (first_le_iff hperiod lo _).mpr
  exact h.trans ((first_le_iff hperiod hi _).mp le_rfl)

/-- The samples of adjacent stretches. -/
theorem first_add_count {lo hi : K} (h : lo ≤ hi) :
    first period lo + count period lo hi = first period hi := by
  have hle := first_mono hperiod h
  unfold count
  omega

/-- A stretch longer than `d` and a period holds samples for more than `d`. -/
theorem lt_count_mul {lo hi : K} (hlo : 0 ≤ lo) {d : Nat} (h : (d + period : K) < hi - lo) :
    d < count period lo hi * period := by
  have hpos : (0 : K) < period := by exact_mod_cast hperiod
  have hd : (0 : K) ≤ d := Nat.cast_nonneg d
  have hle : lo ≤ hi := by linarith
  have hlast : hi ≤ first period hi * period := (first_le_iff hperiod hi _).mp le_rfl
  have hfirst : (first period lo : K) * period < lo + period := by
    have hceil := Nat.ceil_lt_add_one (div_nonneg hlo hpos.le)
    have hmul := mul_lt_mul_of_pos_right hceil hpos
    have hcancel : (lo / period + 1) * (period : K) = lo + period := by
      rw [add_mul, one_mul, div_mul_cancel₀ _ hpos.ne']
    unfold first
    linarith
  have hsum := first_add_count hperiod hle
  have hcast : (first period lo : K) + count period lo hi = first period hi := by
    exact_mod_cast hsum
  have hgoal : (d : K) < count period lo hi * period := by
    rw [← hcast, add_mul] at hlast
    linarith
  exact_mod_cast hgoal

end Sampling
