import Mathlib.Data.List.GetD

/-!
# A byte-addressed store

A flat memory of bytes that can be read and overwritten in runs.
-/

namespace ByteStore

/-- The contents of the store. -/
abbrev Bytes := Nat → UInt8

/-- The `n` bytes from `addr` on. -/
def read (m : Bytes) (addr n : Nat) : List UInt8 := (List.range n).map fun i => m (addr + i)

/-- Overwrite the bytes from `addr` on. -/
def write (m : Bytes) (addr : Nat) (bs : List UInt8) : Bytes := fun a =>
  if addr ≤ a ∧ a < addr + bs.length then bs.getD (a - addr) 0 else m a

@[simp] theorem length_read (m : Bytes) (addr n : Nat) : (read m addr n).length = n := by
  simp [read]

/-- What was written is read back. -/
theorem read_write (m : Bytes) (addr : Nat) (bs : List UInt8) :
    read (write m addr bs) addr bs.length = bs := by
  apply List.ext_getElem
  · rw [length_read]
  · intro i hi hlen
    rw [length_read] at hi
    simp only [read, List.getElem_map, List.getElem_range, write]
    rw [if_pos ⟨Nat.le_add_right _ _, by omega⟩, Nat.add_sub_cancel_left, List.getD_eq_getElem]

/-- A longer read continues a shorter one. -/
theorem read_add (m : Bytes) (addr n k : Nat) :
    read m addr (n + k) = read m addr n ++ read m (addr + n) k := by
  simp [read, List.range_add, Nat.add_assoc, Function.comp_def]

end ByteStore
