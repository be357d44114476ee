import HomeAuto.ConfigCrc
import HomeAuto.Lib.NorFlash

/-!
# What the firmware update works on (`ota.h`, `config.c`)

The flash layout, the header record, the CRC, and `OtaDev`, the calls into the flash
driver and the EEPROM store that the update makes.  The upload handler and the boot check
are written once over any such device; results about where they write, what they store
and what survives a power loss each choose the device they need.
-/

namespace HomeAuto

/-- `OTA_HEADER_ADDR`, `OTA_IMAGE_ADDR`, `OTA_APP_ADDR`, `OTA_APP_SIZE`,
`OTA_IMAGE_MAX_SIZE` and the erase unit of the flash. -/
def otaHeaderAddr : Nat := 0x80000
def otaImageAddr : Nat := 0x84000
def otaAppAddr : Nat := 0x0
def otaAppSize : Nat := 0x80000
def otaImageMaxSize : Nat := 0x100000 - otaImageAddr
def flashPageSize : Nat := 0x4000

/-- `OTA_HDR_MAGIC`, `OTA_EEPROM_MAGIC`, `CFG_OTA_EEPROM_ADDR`. -/
def otaHdrMagic : BitVec 32 := 0x4F544148#32
def otaEepromMagic : BitVec 32 := 0x4F544150#32
def cfgOtaEepromAddr : Nat := 1252

/-- The driver calls of the update: `FlashErase`, `FlashProgram`, reads of the flash, and
`PalStorageWrite`, `PalStorageRead` on words. -/
structure OtaDev (φ : Type) where
  flashErase : φ → Nat → φ
  flashProgram : φ → Nat → List UInt8 → φ
  flashRead : φ → Nat → UInt8
  storageWrite : φ → Nat → List (BitVec 32) → φ
  storageRead : φ → Nat → BitVec 32

/-! ## The header record -/

/-- A word of the header record, `psHdr->...`. -/
def OtaDev.word {φ : Type} (dev : OtaDev φ) (d : φ) (addr : Nat) : BitVec 32 :=
  bytesWord (dev.flashRead d addr) (dev.flashRead d (addr + 1)) (dev.flashRead d (addr + 2))
    (dev.flashRead d (addr + 3))

/-- `n` bytes of flash. -/
def OtaDev.bytes {φ : Type} (dev : OtaDev φ) (d : φ) (addr n : Nat) : List UInt8 :=
  (List.range n).map fun i => dev.flashRead d (addr + i)

/-- `tOTAHeader`. -/
structure OtaHeader where
  magic : BitVec 32
  size : BitVec 32
  crc32 : BitVec 32
  rsvd : BitVec 32
  deriving DecidableEq

/-- The record as it is programmed. -/
def OtaHeader.toBytes (h : OtaHeader) : List UInt8 :=
  wordBytes h.magic ++ wordBytes h.size ++ wordBytes h.crc32 ++ wordBytes h.rsvd

/-- The header that is in flash. -/
def OtaDev.header {φ : Type} (dev : OtaDev φ) (d : φ) : OtaHeader where
  magic := dev.word d otaHeaderAddr
  size := dev.word d (otaHeaderAddr + 4)
  crc32 := dev.word d (otaHeaderAddr + 8)
  rsvd := dev.word d (otaHeaderAddr + 12)

/-! ## The pending flag -/

/-- `OtaIsPending`. -/
def OtaDev.isPending {φ : Type} (dev : OtaDev φ) (d : φ) : Bool :=
  dev.storageRead d cfgOtaEepromAddr = otaEepromMagic

/-- `OtaSetPending`. -/
def OtaDev.setPending {φ : Type} (dev : OtaDev φ) (d : φ) (size : BitVec 32) : φ :=
  dev.storageWrite d cfgOtaEepromAddr [otaEepromMagic, size]

/-- `OtaClearPending`. -/
def OtaDev.clearPending {φ : Type} (dev : OtaDev φ) (d : φ) : φ :=
  dev.storageWrite d cfgOtaEepromAddr [0#32, 0#32]

/-! ## A NOR flash and an EEPROM -/

/-- Flash and EEPROM of the TM4C1294. -/
structure Nor where
  flash : NorFlash.Memory
  eeprom : Nat → BitVec 32

/-- Words written one after the other. -/
def writeWords (eeprom : Nat → BitVec 32) (addr : Nat) : List (BitVec 32) → Nat → BitVec 32
  | [] => eeprom
  | w :: ws => writeWords (Function.update eeprom addr w) (addr + 4) ws

/-- The driver calls when erasing, programming and writing do what they say. -/
def norDev : OtaDev Nor where
  flashErase d addr := { d with flash := NorFlash.erase d.flash addr flashPageSize }
  flashProgram d addr bytes := { d with flash := NorFlash.program d.flash addr bytes }
  flashRead d := d.flash
  storageWrite d addr words := { d with eeprom := writeWords d.eeprom addr words }
  storageRead d := d.eeprom

end HomeAuto
