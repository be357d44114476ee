import Mathlib.Data.List.GetD

/-!
# Options as type, length and value

A message carries options as a row of entries: a byte for the type, a byte for the length, and
the value.  A reader walks over memory from the first entry, shows each entry to its handler, and
stops at an end marker or when it has gone `left` bytes.  It does not check that a value lies
inside the memory it may read.

What a reader makes of a well-formed row is the fold of its handler over the row (`walk_encode`),
whatever follows the row in memory.
-/

namespace Tlv

/-- A row of options. -/
abbrev Row := List (UInt8 × List UInt8)

/-- An option as it stands in a message. -/
def entry (o : UInt8 × List UInt8) : List UInt8 := o.1 :: UInt8.ofNat o.2.length :: o.2

/-- A row of options as it stands in a message. -/
def encode (os : Row) : List UInt8 := os.flatMap entry

variable {β : Type*}

/-- The reader; the handler is given the type and the memory from the value on.  `fuel` exceeds
the number of entries. -/
def walk (stop : UInt8) (f : β → UInt8 → List UInt8 → β) :
    Nat → Nat → List UInt8 → β → β
  | 0, _, _, s => s
  | fuel + 1, left, memory, s =>
      if left = 0 ∨ memory.getD 0 0 = stop then s
      else
        walk stop f fuel (left - ((memory.getD 1 0).toNat + 2))
          (memory.drop ((memory.getD 1 0).toNat + 2)) (f s (memory.getD 0 0) (memory.drop 2))

/-- A row that the reader can take apart. -/
def Proper (stop : UInt8) (os : Row) : Prop := ∀ o ∈ os, o.1 ≠ stop ∧ o.2.length < 256

theorem length_entry (o : UInt8 × List UInt8) : (entry o).length = o.2.length + 2 := rfl

theorem length_encode_cons (o : UInt8 × List UInt8) (os : Row) :
    (encode (o :: os)).length = o.2.length + 2 + (encode os).length := by
  rw [encode, List.flatMap_cons, List.length_append, length_entry]
  rfl

theorem length_le_encode (os : Row) : os.length ≤ (encode os).length := by
  induction os with
  | nil => exact Nat.le_refl 0
  | cons o os ih =>
      rw [length_encode_cons, List.length_cons]
      omega

/-- What only options of one type set, and all of them to the same, is so if there is one. -/
theorem foldl_set {γ : Type*} {f : β → UInt8 × List UInt8 → β} {g : β → γ} {code : UInt8} {c : γ}
    {os : Row} (hset : ∀ o ∈ os, o.1 = code → ∀ s, g (f s o) = c)
    (hkeep : ∀ o ∈ os, o.1 ≠ code → ∀ s, g (f s o) = g s) (s : β) :
    g (os.foldl f s) = if ∃ o ∈ os, o.1 = code then c else g s := by
  induction os generalizing s with
  | nil => simp
  | cons o os ih =>
      obtain ⟨hset, hsetRest⟩ := List.forall_mem_cons.mp hset
      obtain ⟨hkeep, hkeepRest⟩ := List.forall_mem_cons.mp hkeep
      rw [List.foldl_cons, ih hsetRest hkeepRest]
      simp only [List.mem_cons, exists_eq_or_imp]
      by_cases hrest : ∃ x ∈ os, x.1 = code
      · rw [if_pos hrest, if_pos (.inr hrest)]
      · rw [if_neg hrest]
        by_cases hcode : o.1 = code
        · rw [if_pos (.inl hcode), hset hcode]
        · rw [if_neg (not_or.mpr ⟨hcode, hrest⟩), hkeep hcode]

/-- **The reader folds its handler over a row**, if the handler looks at no more than the value.
`g` is the handler on the value alone. -/
theorem walk_encode {stop : UInt8} {f g : β → UInt8 → List UInt8 → β} {os : Row}
    (hproper : Proper stop os)
    (hf : ∀ o ∈ os, ∀ s more, f s o.1 (o.2 ++ more) = g s o.1 o.2)
    {fuel left : Nat} (hfuel : os.length < fuel) (hleft : (encode os).length < left)
    (tail : List UInt8) (s : β) :
    walk stop f fuel left (encode os ++ stop :: tail) s =
      os.foldl (fun s o => g s o.1 o.2) s := by
  induction os generalizing fuel left s with
  | nil =>
      obtain ⟨fuel, rfl⟩ := Nat.exists_eq_succ_of_ne_zero (Nat.ne_zero_of_lt hfuel)
      exact if_pos (.inr rfl)
  | cons o os ih =>
      obtain ⟨fuel, rfl⟩ := Nat.exists_eq_succ_of_ne_zero (Nat.ne_zero_of_lt hfuel)
      obtain ⟨⟨hne, hlen⟩, hrest⟩ := List.forall_mem_cons.mp hproper
      obtain ⟨hhead, htail⟩ := List.forall_mem_cons.mp hf
      have hmemory : encode (o :: os) ++ stop :: tail =
          o.1 :: UInt8.ofNat o.2.length :: (o.2 ++ (encode os ++ stop :: tail)) := by
        rw [encode, List.flatMap_cons, List.append_assoc]
        rfl
      have hlength := length_encode_cons o os
      have hsize : (UInt8.ofNat o.2.length).toNat = o.2.length := UInt8.toNat_ofNat_of_lt' hlen
      have hgo : ¬(left = 0 ∨ o.1 = stop) := not_or.mpr ⟨by omega, hne⟩
      rw [hmemory, walk]
      simp only [List.getD_cons_zero, List.getD_cons_succ, List.drop_succ_cons, List.drop_zero,
        hsize, if_neg hgo]
      rw [List.drop_left' rfl, hhead, ih hrest htail (by rw [List.length_cons] at hfuel; omega)
        (by omega), List.foldl_cons]

end Tlv
