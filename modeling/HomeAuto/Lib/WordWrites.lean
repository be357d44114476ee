import HomeAuto.Lib.ByteStore

/-!
# Writing a byte store word by word

A store that is programmed a word at a time: a write of many bytes is a list of words, each
of which is written as a whole.  When the power is lost in between, the words up to there
have been written and no other byte has changed.
-/

namespace ByteStore

/-- A word, and the address it goes to. -/
abbrev WordWrite := Nat × List UInt8

/-- Words written one after the other. -/
def program (m : Bytes) (ws : List WordWrite) : Bytes :=
  ws.foldl (fun m w => write m w.1 w.2) m

/-- A run of bytes as words of `w` bytes. -/
def words (w addr : Nat) (bs : List UInt8) : List WordWrite :=
  (List.range (bs.length / w)).map fun i => (addr + w * i, (bs.drop (w * i)).take w)

/-- None of the words touches the `n` bytes from `addr` on. -/
def Outside (ws : List WordWrite) (addr n : Nat) : Prop :=
  ∀ w ∈ ws, w.1 + w.2.length ≤ addr ∨ addr + n ≤ w.1

instance (ws : List WordWrite) (addr n : Nat) : Decidable (Outside ws addr n) :=
  inferInstanceAs (Decidable (∀ w ∈ ws, _))

variable (m : Bytes) (w addr : Nat) (bs : List UInt8)

theorem program_append (ws ws' : List WordWrite) :
    program m (ws ++ ws') = program (program m ws) ws' := List.foldl_append

@[simp] theorem length_words : (words w addr bs).length = bs.length / w := by
  simp [words]

/-! ## What a write leaves alone -/

theorem read_congr {m m' : Bytes} {addr n : Nat}
    (h : ∀ a, addr ≤ a → a < addr + n → m a = m' a) : read m addr n = read m' addr n := by
  apply List.map_congr_left
  intro i hi
  rw [List.mem_range] at hi
  exact h _ (Nat.le_add_right _ _) (by omega)

theorem write_outside {m : Bytes} {addr a : Nat} {bs : List UInt8}
    (h : a < addr ∨ addr + bs.length ≤ a) : write m addr bs a = m a := by
  apply if_neg
  omega

theorem write_inside {m : Bytes} {addr i : Nat} {bs : List UInt8} (h : i < bs.length) :
    write m addr bs (addr + i) = bs[i] := by
  rw [write, if_pos ⟨Nat.le_add_right _ _, Nat.add_lt_add_left h _⟩, Nat.add_sub_cancel_left,
    List.getD_eq_getElem]

theorem read_write_of_disjoint {m : Bytes} {addr a n : Nat} {bs : List UInt8}
    (h : addr + bs.length ≤ a ∨ a + n ≤ addr) : read (write m addr bs) a n = read m a n := by
  apply read_congr
  intro x hlo hhi
  apply write_outside
  omega

theorem getD_read {i n : Nat} (h : i < n) (d : UInt8) :
    (read m addr n).getD i d = m (addr + i) := by
  have hlen : i < (read m addr n).length := by rwa [length_read]
  rw [List.getD_eq_getElem _ _ hlen]
  simp [read]

/-- Equal runs have equal bytes. -/
theorem eq_of_read_eq {m m' : Bytes} {addr n a : Nat} (h : read m addr n = read m' addr n)
    (hlo : addr ≤ a) (hhi : a < addr + n) : m a = m' a := by
  have hi : a - addr < n := by omega
  have hget := congrArg (fun bs => bs.getD (a - addr) 0) h
  simp only [getD_read m addr hi, getD_read m' addr hi] at hget
  rwa [Nat.add_sub_cancel' hlo] at hget

/-- Equal runs start alike. -/
theorem read_prefix {m m' : Bytes} {addr n k : Nat} (h : read m addr n = read m' addr n)
    (hk : k ≤ n) : read m addr k = read m' addr k := by
  apply read_congr
  intro a hlo hhi
  exact eq_of_read_eq h hlo (by omega)

/-- The same words written over equal runs. -/
theorem read_write_congr {m m' : Bytes} {addr n : Nat} (h : read m addr n = read m' addr n)
    (a : Nat) (bs : List UInt8) : read (write m a bs) addr n = read (write m' a bs) addr n := by
  apply read_congr
  intro x hlo hhi
  unfold write
  rw [eq_of_read_eq h hlo hhi]

/-- The end of a run. -/
theorem drop_read (n k : Nat) : (read m addr n).drop k = read m (addr + k) (n - k) := by
  apply List.ext_getElem
  · simp
  · intro i _ _
    simp [read, Nat.add_assoc]

/-- Words next to a run of bytes leave it. -/
theorem read_program_of_outside {ws : List WordWrite} {addr n : Nat} (m : Bytes)
    (h : Outside ws addr n) : read (program m ws) addr n = read m addr n := by
  induction ws generalizing m with
  | nil => rfl
  | cons x ws ih =>
      have hx := h x List.mem_cons_self
      have hws : Outside ws addr n := fun y hy => h y (List.mem_cons_of_mem _ hy)
      rw [program, List.foldl_cons]
      exact (ih _ hws).trans (read_write_of_disjoint hx)

theorem Outside.take {ws : List WordWrite} {addr n : Nat} (h : Outside ws addr n) (k : Nat) :
    Outside (ws.take k) addr n := fun x hx => h x (List.mem_of_mem_take hx)

/-- A word of a run ends within it. -/
theorem words_fit {w k : Nat} {bs : List UInt8} (h : k < bs.length / w) :
    w * k + w ≤ bs.length := by
  rw [← Nat.mul_succ]
  exact Nat.le_trans (Nat.mul_le_mul_left w h) (Nat.mul_div_le bs.length w)

theorem Outside.mono {ws : List WordWrite} {addr n addr' n' : Nat} (h : Outside ws addr n)
    (hlo : addr ≤ addr') (hhi : addr' + n' ≤ addr + n) : Outside ws addr' n' := by
  intro x hx
  have hx' := h x hx
  omega

/-- The words of a run stay within it. -/
theorem outside_words {w addr a n : Nat} {bs : List UInt8}
    (h : addr + bs.length ≤ a ∨ a + n ≤ addr) : Outside (words w addr bs) a n := by
  intro x hx
  obtain ⟨i, hi, rfl⟩ := List.mem_map.mp hx
  rw [List.mem_range] at hi
  have hend := words_fit hi
  simp only [List.length_take, List.length_drop]
  omega

/-- Bytes overwritten with themselves. -/
theorem write_read_self (n : Nat) : write m addr (read m addr n) = m := by
  funext a
  unfold write
  split
  · rename_i h
    rw [length_read] at h
    have hlt : a - addr < (read m addr n).length := by
      rw [length_read]
      omega
    rw [List.getD_eq_getElem _ _ hlt]
    simp only [read, List.getElem_map, List.getElem_range]
    congr 1
    omega
  · rfl

/-! ## What some of the words leave -/

/-- A write that continues another one. -/
theorem write_append (cs : List UInt8) :
    write (write m addr bs) (addr + bs.length) cs = write m addr (bs ++ cs) := by
  funext a
  unfold write
  rw [List.length_append]
  by_cases hlo : addr ≤ a ∧ a < addr + bs.length
  · rw [if_neg (by omega), if_pos hlo, if_pos (by omega), List.getD_append _ _ _ _ (by omega)]
  · rw [if_neg hlo]
    by_cases hhi : addr + bs.length ≤ a ∧ a < addr + bs.length + cs.length
    · rw [if_pos hhi, if_pos (by omega), List.getD_append_right _ _ _ _ (by omega), Nat.sub_sub]
    · rw [if_neg hhi, if_neg (by omega)]

/-- **The first words of a run** are the first bytes of it. -/
theorem program_take_words (k : Nat) (hk : k ≤ bs.length / w) :
    program m ((words w addr bs).take k) = write m addr (bs.take (w * k)) := by
  induction k with
  | zero =>
      funext a
      rw [Nat.mul_zero, List.take_zero, List.take_zero, write_outside (Nat.lt_or_ge a addr)]
      rfl
  | succ k ih =>
      have hlen : k < (words w addr bs).length := by
        rw [length_words]
        exact hk
      have hfit := words_fit hk
      have hword : (words w addr bs)[k] = (addr + w * k, (bs.drop (w * k)).take w) := by
        simp [words]
      have htake : (bs.take (w * k)).length = w * k := by
        rw [List.length_take]
        omega
      have hnext := write_append m addr (bs.take (w * k)) ((bs.drop (w * k)).take w)
      rw [htake, ← List.take_add] at hnext
      rw [List.take_succ_eq_append_getElem hlen, program_append, ih (Nat.le_of_succ_le hk), hword,
        Nat.mul_succ, ← hnext]
      rfl

/-- All the words of a run. -/
theorem program_words (h : w ∣ bs.length) : program m (words w addr bs) = write m addr bs := by
  have hall := program_take_words m w addr bs (bs.length / w) (Nat.le_refl _)
  have hwords : (words w addr bs).take (bs.length / w) = words w addr bs := by
    exact List.take_of_length_le (Nat.le_of_eq (length_words w addr bs))
  rwa [Nat.mul_div_cancel' h, List.take_length, hwords] at hall

end ByteStore
