import Mathlib.Data.List.FinRange

/-!
# Fixed layouts in memory

A record of fixed size lies in memory as a row of bytes.  A `Layout` says how many bytes
a type takes, which bytes a value is written as, and how a value is read back from bytes
that start with it.  Layouts compose: fields that follow each other (`pair`), an array of
equal elements (`array`), and a record seen as the nest of its fields (`via`).
-/

/-- How the values of a type lie in memory. -/
structure Layout (α : Type*) where
  size : Nat
  put : α → List UInt8
  get : List UInt8 → α
  length_put : ∀ a, (put a).length = size
  get_put : ∀ a rest, get (put a ++ rest) = a

namespace Layout

variable {α β : Type*}

/-- Reading back what was written. -/
theorem get_put_self (L : Layout α) (a : α) : L.get (L.put a) = a := by
  simpa using L.get_put a []

/-- One byte. -/
def byte : Layout UInt8 where
  size := 1
  put b := [b]
  get bs := bs.headD 0
  length_put _ := rfl
  get_put _ _ := rfl

/-- A field and the field behind it. -/
def pair (L : Layout α) (M : Layout β) : Layout (α × β) where
  size := L.size + M.size
  put p := L.put p.1 ++ M.put p.2
  get bs := (L.get bs, M.get (bs.drop L.size))
  length_put p := by rw [List.length_append, L.length_put, M.length_put]
  get_put := by
    rintro ⟨a, b⟩ rest
    rw [List.append_assoc, List.drop_left' (L.length_put a), L.get_put, M.get_put]

/-- A record, laid out as the nest of its fields. -/
def via (L : Layout α) (fields : β → α) (record : α → β)
    (h : ∀ b, record (fields b) = b) : Layout β where
  size := L.size
  put b := L.put (fields b)
  get bs := record (L.get bs)
  length_put b := L.length_put (fields b)
  get_put b rest := by rw [L.get_put, h]

/-! ## Arrays -/

/-- The bytes of the elements of an array, one after the other. -/
def putAll (L : Layout α) : (n : Nat) → (Fin n → α) → List UInt8
  | 0, _ => []
  | n + 1, f => L.put (f 0) ++ putAll L n fun i => f i.succ

theorem length_putAll (L : Layout α) (n : Nat) (f : Fin n → α) :
    (L.putAll n f).length = n * L.size := by
  induction n with
  | zero => simp [putAll]
  | succ n ih =>
      rw [putAll, List.length_append, L.length_put, ih, Nat.succ_mul, Nat.add_comm]

/-- Element `i` starts behind the `i` elements before it. -/
theorem get_drop_putAll (L : Layout α) (n : Nat) (f : Fin n → α) (i : Fin n)
    (rest : List UInt8) :
    L.get ((L.putAll n f ++ rest).drop (i * L.size)) = f i := by
  induction n with
  | zero => exact i.elim0
  | succ n ih =>
      rw [putAll, List.append_assoc]
      cases i using Fin.cases with
      | zero =>
          rw [Fin.val_zero, Nat.zero_mul, List.drop_zero, L.get_put]
      | succ i =>
          rw [Fin.val_succ, Nat.succ_mul, Nat.add_comm, ← List.drop_drop,
            List.drop_left' (L.length_put (f 0))]
          exact ih (fun i => f i.succ) i

/-- An array of `n` elements. -/
def array (n : Nat) (L : Layout α) : Layout (Fin n → α) where
  size := n * L.size
  put f := L.putAll n f
  get bs := fun i => L.get (bs.drop (i * L.size))
  length_put f := L.length_putAll n f
  get_put f rest := funext fun i => L.get_drop_putAll n f i rest

@[simp] theorem size_byte : byte.size = 1 := rfl

@[simp] theorem size_pair (L : Layout α) (M : Layout β) :
    (L.pair M).size = L.size + M.size := rfl

@[simp] theorem size_via (L : Layout α) (fields : β → α) (record : α → β)
    (h : ∀ b, record (fields b) = b) : (L.via fields record h).size = L.size := rfl

@[simp] theorem size_array (n : Nat) (L : Layout α) : (array n L).size = n * L.size := rfl

/-! ## Layouts without gaps -/

/-- Any bytes are a value, and are written back as they were. -/
def Exact (L : Layout α) : Prop := ∀ bs, L.size ≤ bs.length → L.put (L.get bs) = bs.take L.size

theorem exact_byte : byte.Exact := by
  intro bs h
  cases bs with
  | nil => exact absurd h (by decide)
  | cons b bs => rfl

theorem Exact.pair {L : Layout α} {M : Layout β} (hL : L.Exact) (hM : M.Exact) :
    (L.pair M).Exact := by
  intro bs h
  rw [size_pair] at h
  have hrest : M.size ≤ (bs.drop L.size).length := by
    rw [List.length_drop]
    omega
  change L.put (L.get bs) ++ M.put (M.get (bs.drop L.size)) = _
  rw [hL bs (by omega), hM _ hrest, size_pair, List.take_add]

theorem Exact.via {L : Layout α} (hL : L.Exact) {fields : β → α} {record : α → β}
    {h : ∀ b, record (fields b) = b} (hfields : ∀ a, fields (record a) = a) :
    (L.via fields record h).Exact := by
  intro bs hlen
  change L.put (fields (record (L.get bs))) = _
  rw [hfields]
  exact hL bs hlen

theorem Exact.array {L : Layout α} (hL : L.Exact) (n : Nat) : (array n L).Exact := by
  intro bs h
  rw [size_array] at h ⊢
  change L.putAll n (fun i => L.get (bs.drop (i * L.size))) = _
  induction n generalizing bs with
  | zero =>
      rw [Nat.zero_mul, List.take_zero]
      rfl
  | succ n ih =>
      rw [Nat.succ_mul] at h
      have hrest : n * L.size ≤ (bs.drop L.size).length := by
        rw [List.length_drop]
        omega
      have htail : (fun i : Fin n => L.get (bs.drop (i.succ * L.size))) =
          fun i : Fin n => L.get ((bs.drop L.size).drop (i * L.size)) := by
        funext i
        rw [List.drop_drop, Fin.val_succ, Nat.succ_mul, Nat.add_comm]
      rw [putAll, htail, ih _ hrest, Fin.val_zero, Nat.zero_mul, List.drop_zero,
        hL bs (by omega), Nat.succ_mul, Nat.add_comm, List.take_add]

end Layout
