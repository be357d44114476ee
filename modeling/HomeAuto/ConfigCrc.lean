import HomeAuto.CStrings
import HomeAuto.Lib.Layout

/-!
# Words and their CRC (`config.c`)

A word in memory is four bytes, the least significant first.  `ConfigCRC32` closes every
record that is kept, and every image that is staged.
-/

namespace HomeAuto

/-! ## Words -/

/-- The bytes of a word, least significant first. -/
def wordBytes (w : BitVec 32) : List UInt8 :=
  [UInt8.ofBitVec (w.extractLsb' 0 8), UInt8.ofBitVec (w.extractLsb' 8 8),
    UInt8.ofBitVec (w.extractLsb' 16 8), UInt8.ofBitVec (w.extractLsb' 24 8)]

/-- The word whose bytes these are. -/
def bytesWord (b0 b1 b2 b3 : UInt8) : BitVec 32 :=
  b3.toBitVec ++ (b2.toBitVec ++ (b1.toBitVec ++ b0.toBitVec))

theorem bytesWord_wordBytes (w : BitVec 32) :
    bytesWord (UInt8.ofBitVec (w.extractLsb' 0 8)) (UInt8.ofBitVec (w.extractLsb' 8 8))
      (UInt8.ofBitVec (w.extractLsb' 16 8)) (UInt8.ofBitVec (w.extractLsb' 24 8)) = w := by
  unfold bytesWord
  dsimp only
  rw [BitVec.extractLsb'_append_extractLsb'_eq_extractLsb' (by rfl),
    BitVec.extractLsb'_append_extractLsb'_eq_extractLsb' (by rfl),
    BitVec.extractLsb'_append_extractLsb'_eq_extractLsb' (by rfl)]
  exact BitVec.extractLsb'_eq_self

/-- A word in memory. -/
def wordLayout : Layout (BitVec 32) where
  size := 4
  put := wordBytes
  get bs := bytesWord (bs.getD 0 0) (bs.getD 1 0) (bs.getD 2 0) (bs.getD 3 0)
  length_put _ := rfl
  get_put w _ := bytesWord_wordBytes w

/-! ## The CRC -/

/-- One bit of `ConfigCRC32`. -/
def crcBit (crc : BitVec 32) : BitVec 32 :=
  if crc &&& 1#32 ≠ 0#32 then (crc >>> 1) ^^^ 0xEDB88320#32 else crc >>> 1

/-- One byte of `ConfigCRC32`. -/
def crcByte (crc : BitVec 32) (b : UInt8) : BitVec 32 :=
  (List.range 8).foldl (fun c _ => crcBit c) (crc ^^^ b.toBitVec.setWidth 32)

/-- `ConfigCRC32`. -/
def configCRC32 (data : List UInt8) : BitVec 32 :=
  data.foldl crcByte 0xFFFFFFFF#32 ^^^ 0xFFFFFFFF#32

example : configCRC32 (ascii "123456789") = 0xCBF43926#32 := by decide +kernel

end HomeAuto
