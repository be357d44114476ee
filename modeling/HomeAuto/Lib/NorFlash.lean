import Mathlib.Data.List.GetD

/-!
# NOR flash

A byte-addressed flash memory.  Erasing sets a range to `0xFF`; programming can only
clear bits, so it stores the given bytes exactly where the memory can take them, as it can
where it was erased before.
-/

namespace NorFlash

/-- The contents of a flash memory. -/
abbrev Memory := Nat → UInt8

/-- Erase `len` bytes from `base` on. -/
def erase (m : Memory) (base len : Nat) : Memory := fun a =>
  if base ≤ a ∧ a < base + len then 0xFF else m a

/-- Program bytes from `addr` on: every bit that is 0 in the data is cleared. -/
def program (m : Memory) (addr : Nat) (bs : List UInt8) : Memory := fun a =>
  if addr ≤ a ∧ a < addr + bs.length then m a &&& bs.getD (a - addr) 0xFF else m a

/-- An erase or a programming that is broken off: anything may be in the range. -/
def scramble (m junk : Memory) (addr n : Nat) : Memory := fun a =>
  if addr ≤ a ∧ a < addr + n then junk a else m a

/-- The `n` bytes from `addr` on. -/
def read (m : Memory) (addr n : Nat) : List UInt8 := (List.range n).map fun i => m (addr + i)

/-- The `n` bytes from `addr` on are erased. -/
def Erased (m : Memory) (addr n : Nat) : Prop := ∀ a, addr ≤ a → a < addr + n → m a = 0xFF

/-- Two memories agree on the `n` bytes from `addr` on. -/
def Same (m m' : Memory) (addr n : Nat) : Prop := ∀ a, addr ≤ a → a < addr + n → m' a = m a

theorem Same.refl (m : Memory) (addr n : Nat) : Same m m addr n := fun _ _ _ => rfl

theorem Same.trans {m m' m'' : Memory} {addr n : Nat} (h : Same m m' addr n)
    (h' : Same m' m'' addr n) : Same m m'' addr n :=
  fun a hle hlt => (h' a hle hlt).trans (h a hle hlt)

theorem Same.mono {m m' : Memory} {addr n addr' n' : Nat} (h : Same m m' addr n)
    (hlo : addr ≤ addr') (hhi : addr' + n' ≤ addr + n) : Same m m' addr' n' :=
  fun a hle hlt => h a (by omega) (by omega)

@[simp] theorem length_read (m : Memory) (addr n : Nat) : (read m addr n).length = n := by
  simp [read]

theorem getElem_read (m : Memory) (addr n i : Nat) (h : i < (read m addr n).length) :
    (read m addr n)[i] = m (addr + i) := by
  simp [read]

/-- Reading depends on the bytes read only. -/
theorem Same.read_eq {m m' : Memory} {addr n : Nat} (h : Same m m' addr n) :
    read m' addr n = read m addr n := by
  refine List.map_congr_left fun i hi => h (addr + i) (Nat.le_add_right _ _) ?_
  have := List.mem_range.mp hi
  omega

theorem read_add (m : Memory) (addr n k : Nat) :
    read m addr (n + k) = read m addr n ++ read m (addr + n) k := by
  simp [read, List.range_add, Nat.add_assoc, Function.comp_def]

/-- A shorter read is the front of a longer one. -/
theorem take_read (m : Memory) (addr : Nat) {n k : Nat} (h : n ≤ k) :
    (read m addr k).take n = read m addr n := by
  obtain ⟨j, rfl⟩ := Nat.exists_eq_add_of_le h
  rw [read_add, List.take_left' (length_read m addr n)]

/-! ## Erasing -/

theorem erase_of_outside {m : Memory} {base len a : Nat} (h : a < base ∨ base + len ≤ a) :
    erase m base len a = m a := by
  refine if_neg ?_
  rintro ⟨hle, hlt⟩
  omega

theorem erased_erase (m : Memory) (base len : Nat) : Erased (erase m base len) base len :=
  fun _ hle hlt => if_pos ⟨hle, hlt⟩

theorem Erased.mono {m : Memory} {addr n addr' n' : Nat} (h : Erased m addr n)
    (hlo : addr ≤ addr') (hhi : addr' + n' ≤ addr + n) : Erased m addr' n' :=
  fun a hle hlt => h a (by omega) (by omega)

theorem same_erase_of_disjoint (m : Memory) {base len addr n : Nat}
    (h : addr + n ≤ base ∨ base + len ≤ addr) : Same m (erase m base len) addr n :=
  fun _ hle hlt => erase_of_outside (by omega)

theorem same_scramble_of_disjoint (m junk : Memory) {base len addr n : Nat}
    (h : addr + n ≤ base ∨ base + len ≤ addr) : Same m (scramble m junk base len) addr n := by
  intro a hle hlt
  refine if_neg ?_
  intro hin
  omega

/-- What a broken-off act leaves in its range. -/
theorem same_junk_scramble (m junk : Memory) {base len addr n : Nat} (hlo : base ≤ addr)
    (hhi : addr + n ≤ base + len) : Same junk (scramble m junk base len) addr n :=
  fun _ hle hlt => if_pos ⟨Nat.le_trans hlo hle, by omega⟩

/-! ## Programming -/

theorem program_of_outside {m : Memory} {addr : Nat} {bs : List UInt8} {a : Nat}
    (h : a < addr ∨ addr + bs.length ≤ a) : program m addr bs a = m a := by
  refine if_neg ?_
  rintro ⟨hle, hlt⟩
  omega

theorem same_program_of_disjoint (m : Memory) {base : Nat} {bs : List UInt8} {addr n : Nat}
    (h : addr + n ≤ base ∨ base + bs.length ≤ addr) : Same m (program m base bs) addr n :=
  fun _ hle hlt => program_of_outside (by omega)

theorem Erased.program_of_disjoint {m : Memory} {base : Nat} {bs : List UInt8} {addr n : Nat}
    (h : Erased m addr n) (hdis : addr + n ≤ base ∨ base + bs.length ≤ addr) :
    Erased (program m base bs) addr n :=
  fun a hle hlt => (same_program_of_disjoint m hdis a hle hlt).trans (h a hle hlt)

theorem allOnes_and (b : UInt8) : 0xFF &&& b = b := by
  have h : (0xFF : UInt8) = -1 := rfl
  rw [h, UInt8.neg_one_and]

/-- The bytes can be stored: no bit of them that is 1 has been cleared. -/
def Takes (m : Memory) (addr : Nat) (bs : List UInt8) : Prop :=
  ∀ i < bs.length, m (addr + i) &&& bs.getD i 0xFF = bs.getD i 0xFF

instance (m : Memory) (addr : Nat) (bs : List UInt8) : Decidable (Takes m addr bs) :=
  inferInstanceAs (Decidable (∀ i < bs.length, _ = _))

theorem Erased.takes {m : Memory} {addr : Nat} {bs : List UInt8}
    (h : Erased m addr bs.length) : Takes m addr bs := by
  intro i hi
  rw [h (addr + i) (Nat.le_add_right _ _) (by omega), allOnes_and]

/-- **Programming stores what the range can take.** -/
theorem Takes.read_program {m : Memory} {addr : Nat} {bs : List UInt8}
    (h : Takes m addr bs) : read (program m addr bs) addr bs.length = bs := by
  refine List.ext_getElem (length_read _ _ _) fun i hi hi' => ?_
  rw [getElem_read, program, if_pos ⟨Nat.le_add_right _ _, by omega⟩, Nat.add_sub_cancel_left,
    h i hi', List.getD_eq_getElem _ _ hi']

/-- **Programming an erased range stores the data.** -/
theorem read_program {m : Memory} {addr : Nat} {bs : List UInt8}
    (h : Erased m addr bs.length) : read (program m addr bs) addr bs.length = bs :=
  h.takes.read_program

/-- Programming on behind a range appends to what is read. -/
theorem read_program_append {m : Memory} {addr n : Nat} {bs : List UInt8}
    (h : Erased m (addr + n) bs.length) :
    read (program m (addr + n) bs) addr (n + bs.length) = read m addr n ++ bs := by
  rw [read_add, read_program h, (same_program_of_disjoint m (.inl (Nat.le_refl _))).read_eq]

end NorFlash
