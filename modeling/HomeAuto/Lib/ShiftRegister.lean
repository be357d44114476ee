import Mathlib.Data.List.GetD

/-!
# Shift registers

A register of cells in a row: a push moves every cell one further and puts a new value
into cell 0.  What has been pushed last lies in front, and behind it what was there before.
-/

namespace ShiftRegister

variable {α : Type*}

/-- A value pushed into cell 0. -/
def push (r : Nat → α) (a : α) : Nat → α
  | 0 => a
  | p + 1 => r p

@[simp] theorem push_zero (r : Nat → α) (a : α) : push r a 0 = a := rfl

@[simp] theorem push_succ (r : Nat → α) (a : α) (p : Nat) : push r a (p + 1) = r p := rfl

/-- The values for the cells below `n`, pushed for the farthest cell first. -/
def load (f : Nat → α) : Nat → (Nat → α) → Nat → α
  | 0, r => r
  | n + 1, r => load f n (push r (f n))

/-- **A load** leaves its values in front, and moves the rest behind them. -/
theorem load_apply (f : Nat → α) (n : Nat) (r : Nat → α) (p : Nat) :
    load f n r p = if p < n then f p else r (p - n) := by
  induction n generalizing r with
  | zero => simp [load]
  | succ n ih =>
      rw [load, ih]
      by_cases hlt : p < n
      · rw [if_pos hlt, if_pos (by omega)]
      · rw [if_neg hlt]
        by_cases heq : p = n
        · rw [heq, Nat.sub_self, if_pos (Nat.lt_succ_self n), push_zero]
        · have hsub : p - n = (p - (n + 1)) + 1 := by omega
          rw [if_neg (by omega), hsub, push_succ]

/-- A load of `k` more cells, first those past `n`. -/
theorem load_add (f : Nat → α) (n k : Nat) (r : Nat → α) :
    load f (n + k) r = load f n (load (fun p => f (n + p)) k r) := by
  induction k generalizing r with
  | zero => rfl
  | succ k ih => exact ih _

/-- Only the values below `n` are loaded. -/
theorem load_congr {f g : Nat → α} {n : Nat} (h : ∀ p < n, f p = g p) (r : Nat → α) :
    load f n r = load g n r := by
  funext p
  rw [load_apply, load_apply]
  split
  · rename_i hp
    exact h p hp
  · rfl

end ShiftRegister
