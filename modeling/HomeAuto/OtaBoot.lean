import HomeAuto.Lib.Loops
import HomeAuto.Lib.PowerCut
import HomeAuto.OtaChunk

/-!
# The boot check and the copy (`ota.c`)

`OtaCheckAndApply` runs on every boot.  While an update is pending it checks the staged
image, and either clears the flag and returns, or hands over to `OtaApply`, which copies
the image into the application slot and resets.  The flag is cleared by a later boot, which
finds the image in the slot.

`cutDev` is the device of which the power may be lost during any erase, programming or
EEPROM write; what the lost act leaves behind is arbitrary.
-/

namespace HomeAuto

open PowerCut

/-! ## `ota.c` -/

namespace OtaDev

variable {φ : Type} (dev : OtaDev φ)

/-- The page loop of `OtaApply`. -/
def eraseApp (d : φ) : φ :=
  (List.range (otaAppSize / flashPageSize)).foldl
    (fun t i => dev.flashErase t (otaAppAddr + i * flashPageSize)) d

/-- `(ui32Size + 3u) & ~3u`. -/
def sizeAligned (size : BitVec 32) : Nat := (size + 3#32).toNat / 4 * 4

/-- `OtaApply`, which ends in a reset. -/
def otaApply (d : φ) (size : BitVec 32) : φ :=
  dev.flashProgram (dev.eraseApp d) otaAppAddr
    (dev.bytes (dev.eraseApp d) otaImageAddr (sizeAligned size))

/-- The first `ui32Size` bytes of the staging region, and of the application slot. -/
def stagedImage (d : φ) : List UInt8 := dev.bytes d otaImageAddr (dev.header d).size.toNat
def appImage (d : φ) : List UInt8 := dev.bytes d otaAppAddr (dev.header d).size.toNat

/-- `OtaCheckAndApply`, and whether it returns. -/
def otaCheckAndApply (d : φ) : φ × Bool :=
  if dev.isPending d = false then (d, true)
  else if (dev.header d).magic ≠ otaHdrMagic then (dev.clearPending d, true)
  else if (dev.header d).size = 0#32 ∨ otaImageMaxSize < (dev.header d).size.toNat then
    (dev.clearPending d, true)
  else if configCRC32 (dev.stagedImage d) ≠ (dev.header d).crc32 then (dev.clearPending d, true)
  else if configCRC32 (dev.appImage d) = (dev.header d).crc32 then (dev.clearPending d, true)
  else (dev.otaApply d (dev.header d).size, false)

/-- The staged image passes the checks. -/
structure StagedValid (d : φ) : Prop where
  magic : (dev.header d).magic = otaHdrMagic
  nonempty : (dev.header d).size ≠ 0#32
  fits : (dev.header d).size.toNat ≤ otaImageMaxSize
  crc : configCRC32 (dev.stagedImage d) = (dev.header d).crc32

/-- **The boot check**, said once: nothing is pending; or the flag is cleared, over an
invalid staged image or one that is in the slot already; or the image is copied. -/
theorem otaCheckAndApply_cases (d : φ) :
    (dev.isPending d = false ∧ dev.otaCheckAndApply d = (d, true)) ∨
      (dev.isPending d = true ∧ ¬dev.StagedValid d ∧
        dev.otaCheckAndApply d = (dev.clearPending d, true)) ∨
      (dev.isPending d = true ∧ dev.StagedValid d ∧
        configCRC32 (dev.appImage d) = (dev.header d).crc32 ∧
        dev.otaCheckAndApply d = (dev.clearPending d, true)) ∨
      (dev.isPending d = true ∧ dev.StagedValid d ∧
        dev.otaCheckAndApply d = (dev.otaApply d (dev.header d).size, false)) := by
  unfold otaCheckAndApply
  cases dev.isPending d with
  | false => exact .inl ⟨rfl, if_pos rfl⟩
  | true =>
      rw [if_neg (by decide)]
      by_cases hmagic : (dev.header d).magic = otaHdrMagic
      · rw [if_neg (not_not.mpr hmagic)]
        by_cases hsize : (dev.header d).size = 0#32 ∨
            otaImageMaxSize < (dev.header d).size.toNat
        · rw [if_pos hsize]
          refine .inr (.inl ⟨rfl, fun h => ?_, rfl⟩)
          exact hsize.elim h.nonempty (Nat.not_lt.mpr h.fits)
        · rw [if_neg hsize]
          obtain ⟨hnonempty, hfits⟩ := not_or.mp hsize
          by_cases hcrc : configCRC32 (dev.stagedImage d) = (dev.header d).crc32
          · rw [if_neg (not_not.mpr hcrc)]
            have hvalid : dev.StagedValid d := ⟨hmagic, hnonempty, Nat.not_lt.mp hfits, hcrc⟩
            by_cases happ : configCRC32 (dev.appImage d) = (dev.header d).crc32
            · exact .inr (.inr (.inl ⟨rfl, hvalid, happ, if_pos happ⟩))
            · exact .inr (.inr (.inr ⟨rfl, hvalid, if_neg happ⟩))
          · rw [if_pos hcrc]
            exact .inr (.inl ⟨rfl, fun h => hcrc h.crc, rfl⟩)
      · rw [if_pos hmagic]
        exact .inr (.inl ⟨rfl, fun h => hmagic h.magic, rfl⟩)

end OtaDev

/-! ## The header record, read back -/

/-- The record in 16 bytes. -/
def OtaHeader.ofBytes (bs : List UInt8) : OtaHeader where
  magic := bytesWord (bs.getD 0 0) (bs.getD 1 0) (bs.getD 2 0) (bs.getD 3 0)
  size := bytesWord (bs.getD 4 0) (bs.getD 5 0) (bs.getD 6 0) (bs.getD 7 0)
  crc32 := bytesWord (bs.getD 8 0) (bs.getD 9 0) (bs.getD 10 0) (bs.getD 11 0)
  rsvd := bytesWord (bs.getD 12 0) (bs.getD 13 0) (bs.getD 14 0) (bs.getD 15 0)

theorem ofBytes_toBytes (h : OtaHeader) : OtaHeader.ofBytes h.toBytes = h := by
  obtain ⟨magic, size, crc, rsvd⟩ := h
  unfold OtaHeader.ofBytes OtaHeader.toBytes wordBytes
  simp only [List.cons_append, List.nil_append, List.getD_cons_zero, List.getD_cons_succ,
    bytesWord_wordBytes]

theorem header_eq_read (d : Nor) :
    norDev.header d = .ofBytes (NorFlash.read d.flash otaHeaderAddr 16) := rfl

/-- The header depends on its 16 bytes only. -/
theorem header_congr {d d' : Nor} (h : NorFlash.Same d.flash d'.flash otaHeaderAddr 16) :
    norDev.header d' = norDev.header d := by
  rw [header_eq_read, header_eq_read, h.read_eq]

/-- A header that the page can take reads back as programmed. -/
theorem header_program {m : NorFlash.Memory} {h : OtaHeader} (eeprom : Nat → BitVec 32)
    (htake : NorFlash.Takes m otaHeaderAddr h.toBytes) :
    norDev.header ⟨NorFlash.program m otaHeaderAddr h.toBytes, eeprom⟩ = h := by
  have hread : NorFlash.read (NorFlash.program m otaHeaderAddr h.toBytes) otaHeaderAddr 16 =
      h.toBytes := htake.read_program
  rw [header_eq_read, hread, ofBytes_toBytes]

/-- An erased header has no magic. -/
theorem magic_of_erased {d : Nor} (h : NorFlash.Erased d.flash otaHeaderAddr 16) :
    (norDev.header d).magic ≠ otaHdrMagic := by
  have hread : NorFlash.read d.flash otaHeaderAddr 16 = List.replicate 16 0xFF := by
    refine List.eq_replicate_iff.mpr ⟨NorFlash.length_read _ _ _, fun b hb => ?_⟩
    obtain ⟨i, hi, hbyte⟩ := List.mem_map.mp hb
    have hlt := List.mem_range.mp hi
    rw [← hbyte]
    exact h _ (Nat.le_add_right _ _) (by omega)
  rw [header_eq_read, hread]
  decide

/-! ## Losing power during a call -/

/-- The device of which the power lasts for a number of calls; the call during which it is
lost leaves `junk` where it was to erase or write. -/
def cutDev (junk : Nor) : OtaDev (Supply Nor) where
  flashErase p addr := p.act (fun d => norDev.flashErase d addr)
    fun d => { d with flash := NorFlash.scramble d.flash junk.flash addr flashPageSize }
  flashProgram p addr bytes := p.act (fun d => norDev.flashProgram d addr bytes)
    fun d => { d with flash := NorFlash.scramble d.flash junk.flash addr bytes.length }
  flashRead p := p.state.flash
  storageWrite p addr words := p.act (fun d => norDev.storageWrite d addr words) fun d =>
    { d with
      eeprom := fun a =>
        if addr ≤ a ∧ a < addr + 4 * words.length then junk.eeprom a else d.eeprom a }
  storageRead p := p.state.eeprom

section cutDev

variable (junk : Nor)

/-- The checks read the flash as it is. -/
@[simp] theorem header_cutDev (p : Supply Nor) :
    (cutDev junk).header p = norDev.header p.state := rfl

@[simp] theorem bytes_cutDev (p : Supply Nor) (addr n : Nat) :
    (cutDev junk).bytes p addr n = norDev.bytes p.state addr n := rfl

@[simp] theorem isPending_cutDev (p : Supply Nor) :
    (cutDev junk).isPending p = norDev.isPending p.state := rfl

theorem stagedValid_cutDev {p : Supply Nor} :
    (cutDev junk).StagedValid p ↔ norDev.StagedValid p.state :=
  ⟨fun h => ⟨h.magic, h.nonempty, h.fits, h.crc⟩, fun h => ⟨h.magic, h.nonempty, h.fits, h.crc⟩⟩

/-- A write to the EEPROM leaves the flash alone. -/
theorem flash_storageWrite (p : Supply Nor) (addr : Nat) (words : List (BitVec 32)) :
    ((cutDev junk).storageWrite p addr words).state.flash = p.state.flash :=
  Supply.state_act (K := fun (d : Nor) => d.flash = p.state.flash) id id rfl

/-- An erase, whole or broken off, stays in its page. -/
theorem flashErase_keeps (p : Supply Nor) {base addr n : Nat}
    (h : addr + n ≤ base ∨ base + flashPageSize ≤ addr) :
    ((cutDev junk).flashErase p base).state.eeprom = p.state.eeprom ∧
      NorFlash.Same p.state.flash ((cutDev junk).flashErase p base).state.flash addr n :=
  Supply.state_act
    (K := fun (d : Nor) => d.eeprom = p.state.eeprom ∧ NorFlash.Same p.state.flash d.flash addr n)
    (fun hk => ⟨hk.1, hk.2.trans (NorFlash.same_erase_of_disjoint _ h)⟩)
    (fun hk => ⟨hk.1, hk.2.trans (NorFlash.same_scramble_of_disjoint _ _ h)⟩)
    ⟨rfl, NorFlash.Same.refl _ _ _⟩

/-- So does a programming. -/
theorem flashProgram_keeps (p : Supply Nor) {base addr n : Nat} {bytes : List UInt8}
    (h : addr + n ≤ base ∨ base + bytes.length ≤ addr) :
    ((cutDev junk).flashProgram p base bytes).state.eeprom = p.state.eeprom ∧
      NorFlash.Same p.state.flash ((cutDev junk).flashProgram p base bytes).state.flash addr n :=
  Supply.state_act
    (K := fun (d : Nor) => d.eeprom = p.state.eeprom ∧ NorFlash.Same p.state.flash d.flash addr n)
    (fun hk => ⟨hk.1, hk.2.trans (NorFlash.same_program_of_disjoint _ h)⟩)
    (fun hk => ⟨hk.1, hk.2.trans (NorFlash.same_scramble_of_disjoint _ _ h)⟩)
    ⟨rfl, NorFlash.Same.refl _ _ _⟩

/-- The copy stays in the application slot, wherever the power is lost. -/
theorem otaApply_keeps (p : Supply Nor) {size : BitVec 32} (hsize : size.toNat ≤ otaImageMaxSize)
    {addr : Nat} (h : otaAppSize ≤ addr) (n : Nat) :
    ((cutDev junk).otaApply p size).state.eeprom = p.state.eeprom ∧
      NorFlash.Same p.state.flash ((cutDev junk).otaApply p size).state.flash addr n := by
  have herase : ((cutDev junk).eraseApp p).state.eeprom = p.state.eeprom ∧
      NorFlash.Same p.state.flash ((cutDev junk).eraseApp p).state.flash addr n := by
    refine Loops.foldl_range (P := fun _ (q : Supply Nor) => q.state.eeprom = p.state.eeprom ∧
      NorFlash.Same p.state.flash q.state.flash addr n) ?_ ⟨rfl, NorFlash.Same.refl _ _ _⟩
    intro i q hi hq
    have hpast : otaAppAddr + i * flashPageSize + flashPageSize ≤ addr := by
      unfold otaAppSize otaAppAddr flashPageSize at *
      omega
    obtain ⟨heeprom, hsame⟩ := flashErase_keeps junk q (n := n) (.inr hpast)
    exact ⟨heeprom.trans hq.1, hq.2.trans hsame⟩
  have haligned : OtaDev.sizeAligned size ≤ otaAppSize := by
    unfold OtaDev.sizeAligned otaAppSize
    unfold otaImageMaxSize otaImageAddr at hsize
    rw [BitVec.toNat_add, BitVec.toNat_ofNat]
    omega
  have hlen : ((cutDev junk).bytes ((cutDev junk).eraseApp p) otaImageAddr
      (OtaDev.sizeAligned size)).length = OtaDev.sizeAligned size := by
    rw [OtaDev.bytes, List.length_map, List.length_range]
  have hpast : otaAppAddr + ((cutDev junk).bytes ((cutDev junk).eraseApp p) otaImageAddr
      (OtaDev.sizeAligned size)).length ≤ addr := by
    rw [hlen]
    unfold otaAppAddr
    omega
  obtain ⟨heeprom, hsame⟩ :=
    flashProgram_keeps junk ((cutDev junk).eraseApp p) (n := n) (.inr hpast)
  exact ⟨heeprom.trans herase.1, herase.2.trans hsame⟩

end cutDev

end HomeAuto
