import HomeAuto.Lib.Runs
import HomeAuto.PalStorageCrash

/-!
# The chunked storage as one flat array

Above its chunks, its RAM copy and its items, the configuration storage is an array of 6144
bytes: a read returns what was written last, and a request past the end is refused.
`FlatArray` is that array.

The firmware's storage follows it through every run of calls and power cycles, except for
the requests whose end is so far out that the 32-bit sum of the range check comes back into
the array (`flat_iff_endsInBounds`).
-/

namespace HomeAuto

namespace PalStorage

/-- The bytes of a write; their number is a 32-bit length. -/
abbrev Buffer := { bs : List UInt8 // bs.length < 2 ^ 32 }

/-- A call on the storage, or a power cycle. -/
inductive StorageCall
  | init
  | read (addr len : UInt32)
  | write (addr : UInt32) (buf : Buffer)
  | reset

/-! ## The abstract array -/

/-- A flat array of `palStorageSize` bytes, which answers once it is up. -/
structure FlatArray where
  up : Bool
  bytes : ByteStore.Bytes

namespace FlatArray

/-- The bytes of a range inside the array. -/
def read (f : FlatArray) (addr len : Nat) : Option (List UInt8) :=
  if f.up = true ∧ addr + len ≤ palStorageSize then some (ByteStore.read f.bytes addr len)
  else none

/-- The requests that change the array. -/
def Takes (f : FlatArray) (addr : Nat) (bs : List UInt8) : Prop :=
  f.up = true ∧ 0 < bs.length ∧ addr + bs.length ≤ palStorageSize

instance (f : FlatArray) (addr : Nat) (bs : List UInt8) : Decidable (f.Takes addr bs) :=
  inferInstanceAs (Decidable (_ ∧ _ ∧ _))

def step (f : FlatArray) : StorageCall → FlatArray
  | .init => { f with up := true }
  | .read _ _ => f
  | .write addr buf =>
      if f.Takes addr.toNat buf.1 then
        { f with bytes := ByteStore.write f.bytes addr.toNat buf.1 }
      else f
  | .reset => { f with up := false }

end FlatArray

/-! ## The storage beside the array -/

variable {σ : Type*} (nv : NvFuncts σ)

/-- The storage after a call.  A power cycle leaves the items and nothing else. -/
def call (st : PalStorage σ) : StorageCall → PalStorage σ
  | .init => (palStorageInit nv st).1
  | .read _ _ => st
  | .write addr buf => (palStorageWrite nv st addr.toNat buf.1).1
  | .reset => atReset st.nv

/-- The storage and the array it stands for, a call at a time. -/
def pairStep (p : PalStorage σ × FlatArray) (c : StorageCall) : PalStorage σ × FlatArray :=
  (call nv p.1 c, p.2.step c)

/-- Power-up over a store: the array holds the stored chunks, and zero where there is none. -/
def pairAtReset (s : σ) : PalStorage σ × FlatArray := (atReset s, ⟨false, loaded nv s⟩)

/-- A call is answered as the array answers it, and what the array refuses changes neither
the RAM copy nor an item. -/
def Conforms (p : PalStorage σ × FlatArray) : StorageCall → Prop
  | .init => (palStorageInit nv p.1).2 = true
  | .read addr len => palStorageRead p.1 addr.toNat len.toNat = p.2.read addr.toNat len.toNat
  | .write addr buf =>
      if p.2.Takes addr.toNat buf.1 then (palStorageWrite nv p.1 addr.toNat buf.1).2 = 0
      else palStorageWrite nv p.1 addr.toNat buf.1 = (p.1, 1)
  | .reset => True

/-- The end of a range is past the array, and its low 32 bits are not. -/
def Wraps (addr len : UInt32) : Prop :=
  2 ^ 32 ≤ addr.toNat + len.toNat ∧ addr.toNat + len.toNat ≤ 2 ^ 32 + palStorageSize

/-- The length of a buffer, as it is passed. -/
def Buffer.len (buf : Buffer) : UInt32 := UInt32.ofNat buf.1.length

instance (addr len : UInt32) : Decidable (Wraps addr len) := inferInstanceAs (Decidable (_ ∧ _))

/-- A storage that is up is not asked for a range that wraps. -/
def EndsInBounds (p : PalStorage σ × FlatArray) : StorageCall → Prop
  | .read addr len => p.1.ready = true → ¬Wraps addr len
  | .write addr buf => p.1.ready = true → ¬Wraps addr (Buffer.len buf)
  | _ => True

instance (p : PalStorage σ × FlatArray) : ∀ c, Decidable (EndsInBounds p c)
  | .read _ _ => inferInstanceAs (Decidable (_ → _))
  | .write _ _ => inferInstanceAs (Decidable (_ → _))
  | .init => .isTrue trivial
  | .reset => .isTrue trivial

/-! ## The range check -/

theorem toNat_len (buf : Buffer) : (Buffer.len buf).toNat = buf.1.length := by
  unfold Buffer.len
  rw [UInt32.toNat_ofNat']
  exact Nat.mod_eq_of_lt buf.2

/-- The 32-bit sum lets through the ranges inside the array, and those that wrap. -/
theorem inRange_iff (addr len : UInt32) :
    InRange addr.toNat len.toNat ↔
      addr.toNat + len.toNat ≤ palStorageSize ∨ Wraps addr len := by
  have haddr := addr.toNat_lt
  have hlen := len.toNat_lt
  unfold InRange Wraps palStorageSize
  omega

variable {nv}

/-- With every write of an item succeeding, so does the write loop. -/
theorem status_writeLoop (hw : nv.Works) (st : PalStorage σ) (chunks : List Nat) :
    (chunks.foldl (palStorageWriteStep nv) (st, 0)).2 = 0 := by
  induction chunks generalizing st with
  | nil => rfl
  | cons chunk chunks ih =>
      have hok : (palStorageWriteChunk nv st chunk).2 = 0 := hw.write_ok _ _ _ (by
        rw [ByteStore.length_read]
        exact palStorageChunkLen_le chunk)
      have hstep : palStorageWriteStep nv (st, 0) chunk =
          ((palStorageWriteChunk nv st chunk).1, 0) := by
        unfold palStorageWriteStep
        rw [if_neg (by simp [hok])]
      rw [List.foldl_cons, hstep]
      exact ih _

/-- A write either is refused, or reports success. -/
theorem palStorageWrite_status (hw : nv.Works) (st : PalStorage σ) (addr : Nat)
    (bs : List UInt8) :
    (palStorageWrite nv st addr bs).2 = 0 ↔
      st.ready = true ∧ 0 < bs.length ∧ InRange addr bs.length := by
  unfold palStorageWrite
  split
  · rename_i hrefused
    constructor
    · intro h
      cases h
    · intro hgood
      obtain ⟨hready, hpos, hrange⟩ := hgood
      rcases hrefused with hdown | hempty | hout
      · rw [hready] at hdown
        cases hdown
      · omega
      · exact absurd hrange hout
  · rename_i hpass
    apply iff_of_true (status_writeLoop hw _ _)
    have hready : st.ready = true := by
      cases hr : st.ready with
      | true => rfl
      | false => exact absurd (.inl hr) hpass
    have hrange : InRange addr bs.length := by
      by_contra hout
      exact hpass (.inr (.inr hout))
    have hpos : 0 < bs.length := by
      by_contra hempty
      exact hpass (.inr (.inl (by omega)))
    exact ⟨hready, hpos, hrange⟩

/-- A write that is refused changes nothing. -/
theorem palStorageWrite_refused {st : PalStorage σ} {addr : Nat} {bs : List UInt8}
    (h : ¬(st.ready = true ∧ 0 < bs.length ∧ InRange addr bs.length)) :
    palStorageWrite nv st addr bs = (st, 1) := by
  unfold palStorageWrite
  rw [if_pos]
  by_contra hpass
  apply h
  simp only [not_or, Bool.not_eq_false, not_not] at hpass
  exact ⟨hpass.1, Nat.pos_of_ne_zero hpass.2.1, hpass.2.2⟩

/-! ## The relation -/

/-- The array holds what the next boot presents, and what the RAM copy holds while the
storage is up. -/
structure Mirrors (nv : NvFuncts σ) (p : PalStorage σ × FlatArray) : Prop where
  up : p.1.ready = p.2.up
  stored : ∀ a, a < palStorageSize → loaded nv p.1.nv a = p.2.bytes a
  shadow : p.1.ready = true → ∀ a, a < palStorageSize → p.1.shadow a = p.2.bytes a

theorem mirrors_pairAtReset (s : σ) : Mirrors nv (pairAtReset nv s) where
  up := rfl
  stored _ _ := rfl
  shadow h := by cases h

theorem Mirrors.synced {p : PalStorage σ × FlatArray} (hm : Mirrors nv p)
    (hready : p.1.ready = true) : Synced nv p.1 where
  ready := hready
  shadow a ha := (hm.stored a ha).trans (hm.shadow hready a ha).symm

/-- Reads of equal bytes are equal. -/
theorem read_congr {m m' : ByteStore.Bytes} {addr len : Nat}
    (h : ∀ a, addr ≤ a → a < addr + len → m a = m' a) :
    ByteStore.read m addr len = ByteStore.read m' addr len := by
  unfold ByteStore.read
  apply List.map_congr_left
  intro i hi
  rw [List.mem_range] at hi
  exact h _ (by omega) (by omega)

theorem Mirrors.init (hw : nv.Works) {p : PalStorage σ × FlatArray} (hm : Mirrors nv p) :
    Mirrors nv (pairStep nv p .init) := by
  obtain ⟨_, hready, hnv, hshadow⟩ := palStorageInit_effect hw p.1
  refine ⟨hready, fun a ha => ?_, fun _ a ha => (hshadow a ha).trans (hm.stored a ha)⟩
  have hsame : loaded nv (palStorageInit nv p.1).1.nv a = loaded nv p.1.nv a := by
    rw [hnv]
    unfold loaded readChunk
    rw [hw.read_init]
  exact hsame.trans (hm.stored a ha)

/-- A write that does not wrap changes the storage as it changes the array. -/
theorem Mirrors.write (hw : nv.Works) {p : PalStorage σ × FlatArray} (hm : Mirrors nv p)
    {addr : UInt32} {buf : Buffer} (hok : EndsInBounds p (.write addr buf)) :
    Mirrors nv (pairStep nv p (.write addr buf)) := by
  by_cases htakes : p.2.Takes addr.toNat buf.1
  · have hready : p.1.ready = true := hm.up.trans htakes.1
    have haccepted : Accepted addr.toNat buf.1 := htakes.2
    have hsmall : addr.toNat + buf.1.length < 2 ^ 32 := by
      have hfit := haccepted.2
      unfold palStorageSize at hfit
      omega
    have hbytes : (pairStep nv p (.write addr buf)).2 =
        { p.2 with bytes := ByteStore.write p.2.bytes addr.toNat buf.1 } := if_pos htakes
    have hshadow : (call nv p.1 (.write addr buf)).shadow =
        ByteStore.write p.1.shadow addr.toNat buf.1 := by
      unfold call
      dsimp only
      rw [palStorageWrite_accepted nv hready haccepted]
    have hsynced := (hm.synced hready).write hw hsmall
    have hsame (a : Nat) (ha : a < palStorageSize) :
        ByteStore.write p.1.shadow addr.toNat buf.1 a =
          ByteStore.write p.2.bytes addr.toNat buf.1 a := by
      unfold ByteStore.write
      rw [hm.shadow hready a ha]
    refine ⟨?_, fun a ha => ?_, fun _ a ha => ?_⟩
    · rw [hbytes]
      exact hsynced.ready.trans htakes.1.symm
    · rw [hbytes]
      have hstored := hsynced.shadow a ha
      rw [show (palStorageWrite nv p.1 addr.toNat buf.1).1.shadow = _ from hshadow] at hstored
      exact hstored.trans (hsame a ha)
    · rw [hbytes]
      exact (congrFun hshadow a).trans (hsame a ha)
  · have hcall : call nv p.1 (.write addr buf) = p.1 := by
      unfold call
      dsimp only
      rw [palStorageWrite_refused]
      intro hgood
      obtain ⟨hready, hpos, hrange⟩ := hgood
      rw [← toNat_len, inRange_iff, toNat_len] at hrange
      rcases hrange with hfit | hwraps
      · exact htakes ⟨hm.up.symm.trans hready, hpos, hfit⟩
      · exact hok hready hwraps
    have hsame : pairStep nv p (.write addr buf) = p := by
      unfold pairStep
      rw [hcall]
      exact Prod.ext rfl (if_neg htakes)
    rw [hsame]
    exact hm

/-- **One call** that does not wrap keeps the relation. -/
theorem Mirrors.step (hw : nv.Works) {p : PalStorage σ × FlatArray} (hm : Mirrors nv p)
    {c : StorageCall} (hok : EndsInBounds p c) : Mirrors nv (pairStep nv p c) := by
  cases c with
  | init => exact hm.init hw
  | read addr len => exact hm
  | write addr buf => exact hm.write hw hok
  | reset => exact ⟨rfl, hm.stored, fun h => by cases h⟩

/-! ## Answers -/

theorem conforms_read_iff {p : PalStorage σ × FlatArray} (hm : Mirrors nv p)
    (addr len : UInt32) :
    Conforms nv p (.read addr len) ↔ EndsInBounds p (.read addr len) := by
  unfold Conforms EndsInBounds palStorageRead FlatArray.read
  dsimp only
  rw [← hm.up]
  cases hready : p.1.ready with
  | false => simp
  | true =>
      simp only [Bool.true_eq_false, false_or, true_and, inRange_iff, forall_const]
      by_cases hfit : addr.toNat + len.toNat ≤ palStorageSize
      · have hshort : ¬Wraps addr len := by
          unfold Wraps palStorageSize at *
          omega
        rw [if_neg (not_not.mpr (.inl hfit)), if_pos hfit]
        apply iff_of_true _ hshort
        congr 1
        apply read_congr
        intro a _ ha
        exact hm.shadow hready a (by omega)
      · rw [if_neg hfit]
        by_cases hwraps : Wraps addr len
        · rw [if_neg (not_not.mpr (.inr hwraps))]
          exact iff_of_false (by simp) (not_not.mpr hwraps)
        · rw [if_pos (by rw [not_or]; exact ⟨hfit, hwraps⟩)]
          exact iff_of_true rfl hwraps

theorem conforms_write_iff (hw : nv.Works) {p : PalStorage σ × FlatArray} (hm : Mirrors nv p)
    (addr : UInt32) (buf : Buffer) :
    Conforms nv p (.write addr buf) ↔ EndsInBounds p (.write addr buf) := by
  have hstatus := palStorageWrite_status hw p.1 addr.toNat buf.1
  rw [← toNat_len, inRange_iff, toNat_len] at hstatus
  unfold Conforms EndsInBounds
  dsimp only
  split
  · rename_i htakes
    obtain ⟨hup, hpos, hfit⟩ := htakes
    apply iff_of_true
    · exact hstatus.mpr ⟨hm.up.trans hup, hpos, .inl hfit⟩
    · intro _ hwraps
      unfold Wraps at hwraps
      rw [toNat_len] at hwraps
      unfold palStorageSize at hfit
      omega
  · rename_i hleft
    constructor
    · intro hrefused hready hwraps
      have hpos : 0 < buf.1.length := by
        have haddr := addr.toNat_lt
        unfold Wraps at hwraps
        rw [toNat_len] at hwraps
        omega
      have haccepted := hstatus.mpr ⟨hready, hpos, .inr hwraps⟩
      rw [hrefused] at haccepted
      cases haccepted
    · intro hok
      apply palStorageWrite_refused
      intro hgood
      obtain ⟨hready, hpos, hrange⟩ := hgood
      rw [← toNat_len, inRange_iff, toNat_len] at hrange
      rcases hrange with hfit | hwraps
      · exact hleft ⟨hm.up.symm.trans hready, hpos, hfit⟩
      · exact hok hready hwraps

/-- A call is answered as the array answers it exactly when its range does not wrap. -/
theorem conforms_iff (hw : nv.Works) {p : PalStorage σ × FlatArray} (hm : Mirrors nv p)
    (c : StorageCall) : Conforms nv p c ↔ EndsInBounds p c := by
  cases c with
  | init => exact iff_of_true (palStorageInit_effect hw p.1).1 trivial
  | read addr len => exact conforms_read_iff hm addr len
  | write addr buf => exact conforms_write_iff hw hm addr buf
  | reset => exact Iff.rfl

/-- **The flat array, exactly.**  From power-up over any store, in every sequence of calls and
power cycles, every call is answered as the array answers it precisely when no call to the
storage that is up has a range that wraps. -/
theorem flat_iff_endsInBounds (hw : nv.Works) (s : σ) (cs : List StorageCall) :
    Runs.EveryStep (pairStep nv) (Conforms nv) (pairAtReset nv s) cs ↔
      Runs.EveryStep (pairStep nv) EndsInBounds (pairAtReset nv s) cs := by
  apply Runs.everyStep_congr (I := Mirrors nv)
  · intro p c hm hconforms
    exact hm.step hw ((conforms_iff hw hm c).mp hconforms)
  · intro p c hm
    exact conforms_iff hw hm c
  · exact mirrors_pairAtReset s

/-- Sixteen bytes across the border of two chunks are read back after a power cycle. -/
theorem written_across_chunks_conforms :
    Runs.EveryStep (pairStep ramNv) (Conforms ramNv) (pairAtReset ramNv fun _ => none)
      [.init, .write 2040 ⟨List.replicate 16 7, by decide⟩, .reset, .init, .read 2044 8] :=
  (flat_iff_endsInBounds ramNv_works _ _).mpr
    ⟨trivial, fun _ => by decide, trivial, trivial, fun _ => by decide, trivial⟩

/-- The last word of the 32-bit address range is handed out. -/
theorem read_past_end_answered :
    ¬Runs.EveryStep (pairStep ramNv) (Conforms ramNv) (pairAtReset ramNv fun _ => none)
      [.init, .read 0xFFFFFFFC 4] := by
  intro h
  have hup := (mirrors_pairAtReset fun _ => none).init ramNv_works
  have hready := (palStorageInit_effect ramNv_works (pairAtReset ramNv fun _ => none).1).2.1
  exact (conforms_iff ramNv_works hup (.read 0xFFFFFFFC 4)).mp h.2.1 hready (by decide)

end PalStorage

end HomeAuto
