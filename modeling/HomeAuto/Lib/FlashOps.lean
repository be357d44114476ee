import HomeAuto.Lib.NorFlash
import HomeAuto.Lib.WordWrites

/-!
# Flash operations one after the other

A copy into a NOR flash is a list of operations: erases, and words that are programmed.
`Cut` says where the power is lost: after a number of operations, or during the next one,
which then leaves anything in its range.
-/

namespace NorFlash

/-- One operation of the flash controller. -/
inductive FlashOp
  | erase (base len : Nat)
  | program (addr : Nat) (bs : List UInt8)

namespace FlashOp

/-- Where an operation begins, and how far it goes. -/
def base : FlashOp → Nat
  | erase base _ => base
  | program addr _ => addr

def size : FlashOp → Nat
  | erase _ len => len
  | program _ bs => bs.length

/-- The operation, whole. -/
def run (m : Memory) : FlashOp → Memory
  | erase base len => NorFlash.erase m base len
  | program addr bs => NorFlash.program m addr bs

/-- What is there when the operation is broken off. -/
def torn (m junk : Memory) (o : FlashOp) : Memory := scramble m junk o.base o.size

/-- An operation outside a range. -/
def Outside (o : FlashOp) (addr n : Nat) : Prop := addr + n ≤ o.base ∨ o.base + o.size ≤ addr

theorem Outside.same_run {o : FlashOp} {addr n : Nat} (h : o.Outside addr n) (m : Memory) :
    Same m (o.run m) addr n := by
  cases o with
  | erase base len => exact same_erase_of_disjoint m h
  | program base bs => exact same_program_of_disjoint m h

theorem Outside.same_torn {o : FlashOp} {addr n : Nat} (h : o.Outside addr n) (m junk : Memory) :
    Same m (o.torn m junk) addr n :=
  same_scramble_of_disjoint m junk h

end FlashOp

/-- Operations one after the other. -/
def runOps (m : Memory) (ops : List FlashOp) : Memory := ops.foldl FlashOp.run m

theorem runOps_append (m : Memory) (ops ops' : List FlashOp) :
    runOps m (ops ++ ops') = runOps (runOps m ops) ops' := List.foldl_append

/-- Operations outside a range leave it alone. -/
theorem same_runOps {ops : List FlashOp} {addr n : Nat} (h : ∀ o ∈ ops, o.Outside addr n)
    (m : Memory) : Same m (runOps m ops) addr n := by
  induction ops generalizing m with
  | nil => exact Same.refl m addr n
  | cons o ops ih =>
      have ho := (h o (by simp)).same_run m
      exact ho.trans (ih (fun o' ho' => h o' (by simp [ho'])) (o.run m))

/-! ## Bytes programmed word by word -/

/-- The operations that program bytes in words of `w`. -/
def programOps (w addr : Nat) (bs : List UInt8) : List FlashOp :=
  (ByteStore.words w addr bs).map fun word => .program word.1 word.2

@[simp] theorem length_programOps (w addr : Nat) (bs : List UInt8) :
    (programOps w addr bs).length = bs.length / w := by
  simp [programOps]

theorem getElem?_programOps {w addr i : Nat} {bs : List UInt8} {o : FlashOp}
    (h : (programOps w addr bs)[i]? = some o) :
    i < bs.length / w ∧ o = .program (addr + w * i) ((bs.drop (w * i)).take w) := by
  obtain ⟨hi, ho⟩ := List.getElem?_eq_some_iff.mp h
  rw [length_programOps] at hi
  refine ⟨hi, ?_⟩
  rw [← ho]
  simp [programOps, ByteStore.words]

theorem program_append (m : Memory) (addr : Nat) (bs bs' : List UInt8) :
    program (program m addr bs) (addr + bs.length) bs' = program m addr (bs ++ bs') := by
  funext a
  unfold program
  rw [List.length_append]
  by_cases hlow : a < addr
  · rw [if_neg (by omega), if_neg (by omega), if_neg (by omega)]
  · by_cases hmid : a < addr + bs.length
    · rw [if_neg (by omega), if_pos (by omega), if_pos (by omega),
        List.getD_append _ _ _ _ (by omega)]
    · by_cases hhigh : a < addr + (bs.length + bs'.length)
      · rw [if_pos (by omega), if_neg (by omega), if_pos (by omega),
          List.getD_append_right _ _ _ _ (by omega), Nat.sub_sub]
      · rw [if_neg (by omega), if_neg (by omega), if_neg (by omega)]

/-- **The first words of a programming** are the programming of the first bytes. -/
theorem runOps_take_programOps (m : Memory) (w addr : Nat) (bs : List UInt8) {i : Nat}
    (hi : i ≤ bs.length / w) :
    runOps m ((programOps w addr bs).take i) = program m addr (bs.take (w * i)) := by
  induction i with
  | zero =>
      funext a
      have hnone : ¬(addr ≤ a ∧ a < addr + (bs.take (w * 0)).length) := by
        rw [Nat.mul_zero, List.take_zero, List.length_nil]
        omega
      exact (if_neg hnone).symm
  | succ i ih =>
      have hbytes : w * (i + 1) ≤ bs.length := by
        have hle := Nat.mul_le_mul_left w hi
        exact Nat.le_trans hle (Nat.mul_div_le bs.length w)
      have hlt : i < (programOps w addr bs).length := by
        rw [length_programOps]
        omega
      have hword := List.getElem?_eq_getElem hlt
      rw [(getElem?_programOps hword).2] at hword
      have hlen : (bs.take (w * i)).length = w * i := by
        rw [List.length_take]
        rw [Nat.mul_succ] at hbytes
        omega
      rw [List.take_add_one, runOps_append, ih (by omega), hword, Nat.mul_succ,
        List.take_add, ← program_append, hlen]
      rfl

theorem runOps_programOps (m : Memory) {w : Nat} (addr : Nat) {bs : List UInt8}
    (hdvd : w ∣ bs.length) : runOps m (programOps w addr bs) = program m addr bs := by
  have hall := runOps_take_programOps m w addr bs (Nat.le_refl _)
  rwa [Nat.mul_div_cancel' hdvd, List.take_length, ← length_programOps w addr bs,
    List.take_length] at hall

/-- So for any number of words, when the bytes are whole words. -/
theorem runOps_take_programOps_of_dvd (m : Memory) {w : Nat} (addr : Nat) {bs : List UInt8}
    (hdvd : w ∣ bs.length) (i : Nat) :
    runOps m ((programOps w addr bs).take i) = program m addr (bs.take (w * i)) := by
  by_cases hi : i ≤ bs.length / w
  · exact runOps_take_programOps m w addr bs hi
  · have hle : bs.length / w ≤ i := Nat.le_of_not_le hi
    have hbytes : bs.length ≤ w * i := by
      rw [← Nat.mul_div_cancel' hdvd]
      exact Nat.mul_le_mul_left w hle
    rw [List.take_of_length_le hbytes, List.take_of_length_le (by rwa [length_programOps])]
    exact runOps_programOps m addr hdvd

/-- What is programmed over an erased range. -/
theorem program_of_erased {m : Memory} {addr n : Nat} (h : Erased m addr n) {a : Nat}
    (hlo : addr ≤ a) (hhi : a < addr + n) (bs : List UInt8) :
    program m addr bs a = bs.getD (a - addr) 0xFF := by
  unfold program
  split
  · rw [h a hlo hhi, allOnes_and]
  · rw [h a hlo hhi, List.getD_eq_default]
    omega

/-! ## Losing power -/

/-- The power is lost after `done` operations, or during the next one. -/
structure Cut where
  done : Nat
  torn : Option Memory

/-- What the operations leave behind. -/
def Cut.memory (c : Cut) (m : Memory) (ops : List FlashOp) : Memory :=
  match c.torn, ops[c.done]? with
  | some junk, some o => o.torn (runOps m (ops.take c.done)) junk
  | _, _ => runOps m (ops.take c.done)

/-- An operation that is broken off outside a range leaves it alone. -/
theorem Cut.same_memory {c : Cut} {ops : List FlashOp} {addr n : Nat} (m : Memory)
    (h : ∀ junk o, c.torn = some junk → ops[c.done]? = some o → o.Outside addr n) :
    Same (runOps m (ops.take c.done)) (c.memory m ops) addr n := by
  unfold Cut.memory
  cases htorn : c.torn with
  | none => exact Same.refl _ _ _
  | some junk =>
      cases hop : ops[c.done]? with
      | none => exact Same.refl _ _ _
      | some o => exact (h junk o htorn hop).same_torn _ junk

end NorFlash
