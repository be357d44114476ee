import HomeAuto.Lib.FlashOps
import HomeAuto.OtaBoot

/-!
# The first page during the copy (`OtaApply`)

The first page of the application slot holds the vectors and the boot check.  `OtaApply`
erases it first of all, then the other pages, and only then begins to program.  From its
erase on until its last word is there, the first page holds neither the old program nor the
new one, wherever the power is lost: not only within its own erase and programming.

`pageZeroWhole_iff` is exact, for every image and every place where the power is lost.
-/

namespace HomeAuto

open NorFlash

namespace OtaDev

/-- The bytes that `OtaApply` copies. -/
def copied (m : Memory) (size : BitVec 32) : List UInt8 := read m otaImageAddr (sizeAligned size)

/-- The erases of `OtaApply`. -/
def eraseOps : List FlashOp :=
  (List.range (otaAppSize / flashPageSize)).map fun i =>
    .erase (otaAppAddr + i * flashPageSize) flashPageSize

/-- The flash operations of `OtaApply`, word by word. -/
def otaApplyOps (m : Memory) (size : BitVec 32) : List FlashOp :=
  eraseOps ++ programOps 4 otaAppAddr (copied m size)

end OtaDev

open OtaDev

/-- An operation on the first page of the slot. -/
def OnPageZero (o : FlashOp) : Prop := o.base < otaAppAddr + flashPageSize

/-- The power is lost inside the erase or the programming of the first page: an operation on
it is broken off, or it has been programmed in part. -/
def InsidePageZero (c : Cut) (ops : List FlashOp) : Prop :=
  (c.torn.isSome = true ∧ ∃ o, ops[c.done]? = some o ∧ OnPageZero o) ∨
    ∃ i addr bs j addr' bs', i < c.done ∧ ops[i]? = some (.program addr bs) ∧
      OnPageZero (.program addr bs) ∧ c.done ≤ j ∧ ops[j]? = some (.program addr' bs') ∧
      OnPageZero (.program addr' bs')

/-- The first page holds what it held before, or the first page of the image; behind a
shorter image it is erased. -/
def PageZeroWhole (m : Memory) (size : BitVec 32) (m' : Memory) : Prop :=
  Same m m' otaAppAddr flashPageSize ∨
    ∀ a < flashPageSize, m' (otaAppAddr + a) = (copied m size).getD a 0xFF

/-- The first page is not touched yet, or it is done. -/
def PageZeroUntouched (c : Cut) (ops : List FlashOp) : Prop :=
  c.done = 0 ∨ ∀ j o, c.done ≤ j → ops[j]? = some o → ¬OnPageZero o

/-- The first page was blank, or will be. -/
def PageZeroBlank (m : Memory) (size : BitVec 32) : Prop :=
  Erased m otaAppAddr flashPageSize ∨ ∀ a < flashPageSize, (copied m size).getD a 0xFF = 0xFF

namespace OtaDev

/-! ## The operations of the copy -/

theorem length_eraseOps : eraseOps.length = 32 := by
  simp [eraseOps, otaAppSize, flashPageSize]

theorem getElem?_eraseOps {i : Nat} (hi : i < 32) :
    eraseOps[i]? = some (.erase (otaAppAddr + i * flashPageSize) flashPageSize) := by
  have hlt : i < otaAppSize / flashPageSize := hi
  simp [eraseOps, hlt]

theorem sizeAligned_dvd (size : BitVec 32) : 4 ∣ sizeAligned size :=
  Nat.dvd_mul_left 4 _

@[simp] theorem length_copied (m : Memory) (size : BitVec 32) :
    (copied m size).length = sizeAligned size := length_read _ _ _

theorem getElem?_otaApplyOps_word {m : Memory} {size : BitVec 32} {i : Nat}
    (hi : i < sizeAligned size / 4) :
    ∃ bs, (otaApplyOps m size)[32 + i]? = some (.program (otaAppAddr + 4 * i) bs) := by
  have hlt : i < (programOps 4 otaAppAddr (copied m size)).length := by
    rw [length_programOps, length_copied]
    exact hi
  have hsome := List.getElem?_eq_getElem hlt
  rw [(getElem?_programOps hsome).2] at hsome
  have hright : eraseOps.length ≤ 32 + i := by
    rw [length_eraseOps]
    exact Nat.le_add_right 32 i
  refine ⟨((copied m size).drop (4 * i)).take 4, ?_⟩
  rw [otaApplyOps, List.getElem?_append_right hright, length_eraseOps, Nat.add_sub_cancel_left]
  exact hsome

/-- **The operations make up the copy.** -/
theorem runOps_otaApplyOps (d : Nor) {size : BitVec 32} :
    runOps d.flash (otaApplyOps d.flash size) = (norDev.otaApply d size).flash := by
  have herase (n : Nat) : ((List.range n).foldl
      (fun t i => norDev.flashErase t (otaAppAddr + i * flashPageSize)) d).flash =
      runOps d.flash ((List.range n).map fun i =>
        .erase (otaAppAddr + i * flashPageSize) flashPageSize) := by
    induction n with
    | zero => rfl
    | succ n ih =>
        rw [List.range_succ, List.foldl_append, List.map_append, runOps_append, ← ih]
        rfl
  have hslot : (norDev.eraseApp d).flash = runOps d.flash eraseOps := herase _
  have hcopied : norDev.bytes (norDev.eraseApp d) otaImageAddr (sizeAligned size) =
      copied d.flash size := by
    have hsame : Same d.flash (norDev.eraseApp d).flash otaImageAddr (sizeAligned size) := by
      rw [hslot]
      refine same_runOps (fun o ho => ?_) d.flash
      obtain ⟨i, hi, rfl⟩ := List.mem_map.mp ho
      have hlt : i < 32 := List.mem_range.mp hi
      right
      change otaAppAddr + i * flashPageSize + flashPageSize ≤ otaImageAddr
      unfold otaAppAddr flashPageSize otaImageAddr
      omega
    exact hsame.read_eq
  have hdvd : 4 ∣ (copied d.flash size).length := by
    rw [length_copied]
    exact sizeAligned_dvd size
  rw [otaApplyOps, runOps_append, runOps_programOps _ _ hdvd, ← hslot, otaApply, hcopied]
  rfl

theorem getElem?_otaApplyOps_erase (m : Memory) (size : BitVec 32) {i : Nat} (hi : i < 32) :
    (otaApplyOps m size)[i]? = some (.erase (otaAppAddr + i * flashPageSize) flashPageSize) := by
  rw [otaApplyOps, List.getElem?_append_left (by rwa [length_eraseOps])]
  exact getElem?_eraseOps hi

theorem length_otaApplyOps (m : Memory) (size : BitVec 32) :
    (otaApplyOps m size).length = 32 + sizeAligned size / 4 := by
  rw [otaApplyOps, List.length_append, length_eraseOps, length_programOps, length_copied]

/-- The words begin behind the erases. -/
theorem le_of_program {m : Memory} {size : BitVec 32} {i addr : Nat} {bs : List UInt8}
    (h : (otaApplyOps m size)[i]? = some (.program addr bs)) : 32 ≤ i := by
  by_contra hi
  rw [getElem?_otaApplyOps_erase m size (by omega)] at h
  cases h

end OtaDev

/-! ## The first page after a cut -/

variable {m : Memory} {size : BitVec 32} {c : Cut}

/-- What is broken off, is so outside the first page. -/
theorem same_pageZero_memory (hoff : ¬InsidePageZero c (otaApplyOps m size)) :
    Same (runOps m ((otaApplyOps m size).take c.done)) (c.memory m (otaApplyOps m size))
      otaAppAddr flashPageSize := by
  refine Cut.same_memory m fun junk o htorn ho => .inl (Nat.le_of_not_lt fun hzero => ?_)
  exact hoff (.inl ⟨by rw [htorn]; rfl, o, ho, hzero⟩)

/-- Once begun, the erases leave the first page erased. -/
theorem erased_pageZero {k : Nat} (hk : 0 < k) (hle : k ≤ 32) :
    Erased (runOps m ((otaApplyOps m size).take k)) otaAppAddr flashPageSize := by
  obtain ⟨k, rfl⟩ : ∃ k', k = k' + 1 := ⟨k - 1, by omega⟩
  have hfront : (otaApplyOps m size).take (k + 1) = eraseOps.take (k + 1) := by
    rw [otaApplyOps, List.take_append_of_le_length]
    rwa [length_eraseOps]
  have hfirst : eraseOps = .erase otaAppAddr flashPageSize :: (List.range 31).map fun i =>
      .erase (otaAppAddr + (i + 1) * flashPageSize) flashPageSize := by
    have hpages : otaAppSize / flashPageSize = 31 + 1 := rfl
    rw [eraseOps, hpages, List.range_succ_eq_map, List.map_cons, List.map_map, Nat.zero_mul,
      Nat.add_zero]
    rfl
  rw [hfront, hfirst, List.take_succ_cons]
  have hrest : ∀ o ∈ ((List.range 31).map fun i => FlashOp.erase
      (otaAppAddr + (i + 1) * flashPageSize) flashPageSize).take k,
      o.Outside otaAppAddr flashPageSize := by
    intro o ho
    obtain ⟨i, -, rfl⟩ := List.mem_map.mp (List.mem_of_mem_take ho)
    left
    change otaAppAddr + flashPageSize ≤ otaAppAddr + (i + 1) * flashPageSize
    unfold flashPageSize
    omega
  intro a hlo hhi
  exact (same_runOps hrest _ a hlo hhi).trans (erased_erase m otaAppAddr flashPageSize a hlo hhi)

/-- Behind the erases, what has been programmed so far is in the first page. -/
theorem pageZero_programmed {k : Nat} (hk : 32 ≤ k) {a : Nat} (ha : a < flashPageSize) :
    runOps m ((otaApplyOps m size).take k) (otaAppAddr + a) =
      ((copied m size).take (4 * (k - 32))).getD a 0xFF := by
  have hsplit : (otaApplyOps m size).take k =
      (otaApplyOps m size).take 32 ++ (programOps 4 otaAppAddr (copied m size)).take (k - 32) := by
    obtain ⟨j, rfl⟩ := Nat.exists_eq_add_of_le hk
    rw [List.take_add, Nat.add_sub_cancel_left, otaApplyOps, List.drop_left' length_eraseOps]
  have hdvd : 4 ∣ (copied m size).length := by
    rw [length_copied]
    exact sizeAligned_dvd size
  rw [hsplit, runOps_append, runOps_take_programOps_of_dvd _ _ hdvd,
    program_of_erased (erased_pageZero (by decide) (Nat.le_refl 32)) (Nat.le_add_right _ _)
      (by omega), Nat.add_sub_cancel_left]

/-- Before the first word, the first page is whole when it was blank or will be. -/
theorem pageZeroWhole_of_erased {m' : Memory} (h : Erased m' otaAppAddr flashPageSize) :
    PageZeroWhole m size m' ↔ PageZeroBlank m size := by
  unfold PageZeroWhole PageZeroBlank
  apply or_congr
  · constructor
    · intro hsame a hlo hhi
      rw [← hsame a hlo hhi]
      exact h a hlo hhi
    · intro hblank a hlo hhi
      rw [h a hlo hhi, hblank a hlo hhi]
  · constructor
    · intro hnew a ha
      rw [← hnew a ha]
      exact h _ (Nat.le_add_right _ _) (by omega)
    · intro hblank a ha
      rw [hblank a ha]
      exact h _ (Nat.le_add_right _ _) (by omega)

/-- An image that puts no word into the first page leaves it blank. -/
theorem pageZeroBlank_of_untouched {k : Nat} (hk : k ≤ 32)
    (h : ∀ j o, k ≤ j → (otaApplyOps m size)[j]? = some o → ¬OnPageZero o) :
    PageZeroBlank m size := by
  right
  intro a _
  have hempty : ¬0 < sizeAligned size / 4 := by
    intro hpos
    obtain ⟨bs, hfirst⟩ := getElem?_otaApplyOps_word (m := m) hpos
    refine h (32 + 0) _ hk hfirst ?_
    change otaAppAddr + 4 * 0 < otaAppAddr + flashPageSize
    decide
  have hdvd := sizeAligned_dvd size
  rw [List.getD_eq_default]
  rw [length_copied]
  omega

/-- Behind the first word, a cut that is not inside the programming of the first page comes
after it. -/
theorem untouched_of_programming (hoff : ¬InsidePageZero c (otaApplyOps m size))
    (hk : 32 < c.done) :
    ∀ j o, c.done ≤ j → (otaApplyOps m size)[j]? = some o → ¬OnPageZero o := by
  intro j o hj ho hzero
  have hlen : j < (otaApplyOps m size).length := (List.getElem?_eq_some_iff.mp ho).1
  have hcount := length_otaApplyOps m size
  obtain ⟨bs, hfirst⟩ := @getElem?_otaApplyOps_word m size 0 (by omega)
  obtain ⟨bs', hword⟩ := @getElem?_otaApplyOps_word m size (j - 32) (by omega)
  rw [Nat.add_sub_cancel' (by omega), ho, Option.some.injEq] at hword
  subst hword
  refine hoff (.inr ⟨32 + 0, _, _, j, _, _, by omega, hfirst, ?_, hj, ho, hzero⟩)
  change otaAppAddr + 4 * 0 < otaAppAddr + flashPageSize
  decide

/-- When no word of the first page is left, it is done. -/
theorem pageZero_done {k : Nat} (hk : 32 ≤ k)
    (h : ∀ j o, k ≤ j → (otaApplyOps m size)[j]? = some o → ¬OnPageZero o) {a : Nat}
    (ha : a < flashPageSize) :
    runOps m ((otaApplyOps m size).take k) (otaAppAddr + a) = (copied m size).getD a 0xFF := by
  rw [pageZero_programmed hk ha]
  by_cases hlow : a < 4 * (k - 32)
  · simp only [List.getD_eq_getElem?_getD, List.getElem?_take_of_lt hlow]
  · -- the word of this byte would be left
    have hshort : sizeAligned size ≤ a := by
      by_contra hlt
      have hdvd := sizeAligned_dvd size
      obtain ⟨bs, hword⟩ := @getElem?_otaApplyOps_word m size (a / 4) (by omega)
      refine h (32 + a / 4) _ (by omega) hword ?_
      change otaAppAddr + 4 * (a / 4) < otaAppAddr + flashPageSize
      omega
    rw [List.getD_eq_default, List.getD_eq_default]
    · rwa [length_copied]
    · rw [List.length_take, length_copied]
      omega

/-- **The first page, exactly.**  For an image of any size and any place where the power is
lost, not inside the erase or the programming of the first page: the first page holds the old
program or the new one precisely when the copy has not begun, or the first page is done, or
one of the two is blank there. -/
theorem pageZeroWhole_iff (m : Memory) (size : BitVec 32) (c : Cut)
    (hoff : ¬InsidePageZero c (otaApplyOps m size)) :
    PageZeroWhole m size (c.memory m (otaApplyOps m size)) ↔
      PageZeroUntouched c (otaApplyOps m size) ∨ PageZeroBlank m size := by
  have hsame := same_pageZero_memory hoff
  rcases Nat.eq_zero_or_pos c.done with hzero | hpos
  · -- nothing is done yet
    refine iff_of_true (.inl ?_) (.inl (.inl hzero))
    rw [hzero] at hsame
    exact hsame
  · rcases Nat.lt_or_ge 32 c.done with hlate | hearly
    · have hrest := untouched_of_programming hoff hlate
      refine iff_of_true (.inr fun a ha => ?_) (.inl (.inr hrest))
      rw [hsame _ (Nat.le_add_right _ _) (by omega)]
      exact pageZero_done (by omega) hrest ha
    · -- the first page is erased, and no word is there yet
      have herased : Erased (c.memory m (otaApplyOps m size)) otaAppAddr flashPageSize :=
        fun a hlo hhi => (hsame a hlo hhi).trans (erased_pageZero hpos hearly a hlo hhi)
      rw [pageZeroWhole_of_erased herased]
      constructor
      · exact .inr
      · rintro ((hzero | hrest) | hblank)
        · omega
        · exact pageZeroBlank_of_untouched hearly hrest
        · exact hblank

/-- The copy of an image of three pages, when the power is lost inside a word of its second
page. -/
theorem cut_in_second_page_whole :
    PageZeroWhole (fun a => UInt8.ofNat a) 49152 (Cut.memory ⟨5032, some fun _ => 0x5A⟩
      (fun a => UInt8.ofNat a) (otaApplyOps (fun a => UInt8.ofNat a) 49152)) := by
  have hpast {j : Nat} {o : FlashOp} (hj : 5032 ≤ j)
      (ho : (otaApplyOps (fun a => UInt8.ofNat a) 49152)[j]? = some o) : ¬OnPageZero o := by
    have hlen := (List.getElem?_eq_some_iff.mp ho).1
    rw [length_otaApplyOps] at hlen
    obtain ⟨bs, hword⟩ := @getElem?_otaApplyOps_word (fun a => UInt8.ofNat a)
      49152 (j - 32) (by omega)
    rw [Nat.add_sub_cancel' (by omega), ho, Option.some.injEq] at hword
    subst hword
    change ¬otaAppAddr + 4 * (j - 32) < otaAppAddr + 16384
    omega
  refine (pageZeroWhole_iff (fun a => UInt8.ofNat a) 49152 ⟨5032, some fun _ => 0x5A⟩ ?_).mpr
    (.inl (.inr fun j o hj ho => hpast hj ho))
  rintro (⟨_, o, ho, hzero⟩ | ⟨i, addr, bs, j, addr', bs', _, _, _, hj, ho, hzero⟩)
  · exact hpast (Nat.le_refl _) ho hzero
  · exact hpast hj ho hzero

/-- The power is lost while page 1 is erased: the first page holds neither program. -/
theorem erase_of_page_one_not_whole :
    ¬InsidePageZero ⟨1, some fun _ => 0⟩ (otaApplyOps (fun _ => 0) 4) ∧
      ¬PageZeroWhole (fun _ => 0) 4
        (Cut.memory ⟨1, some fun _ => 0⟩ (fun _ => 0) (otaApplyOps (fun _ => 0) 4)) := by
  constructor
  · rintro (⟨_, o, ho, hzero⟩ | ⟨i, addr, bs, j, addr', bs', hi, ho, _⟩)
    · rw [getElem?_otaApplyOps_erase _ _ (by decide), Option.some.injEq] at ho
      subst ho
      revert hzero
      unfold OnPageZero FlashOp.base
      decide
    · have hle := le_of_program ho
      dsimp only at hi
      omega
  · have hbyte : Cut.memory ⟨1, some fun _ => 0⟩ (fun _ => 0) (otaApplyOps (fun _ => 0) 4)
        (otaAppAddr + 0) = 0xFF := by decide +kernel
    rintro (hold | hnew)
    · have hzero := hold (otaAppAddr + 0) (Nat.le_refl _) (by decide)
      rw [hbyte] at hzero
      revert hzero
      decide
    · have hzero := hnew 0 (by decide)
      rw [hbyte] at hzero
      revert hzero
      decide +kernel

end HomeAuto
