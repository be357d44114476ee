import HomeAuto.Lib.ByteStore
import HomeAuto.Lib.PowerCut
import Mathlib.Algebra.Ring.Nat

/-!
# Configuration storage on the CC35x1 (`pal_storage.c`)

The configuration is one flat blob of 6144 bytes, kept in RAM and, cut into chunks, in the
items of a key/value store in serial flash.  Reads are served from RAM.  A write changes
the RAM copy and then replaces every chunk it touches, deleting the old item first.

The key/value store is not part of the firmware's sources: `NvFuncts` is its function
table, and `NvFuncts.Works` what its functions do.
-/

namespace HomeAuto

/-- `PAL_STORAGE_SIZE`. -/
def palStorageSize : Nat := 6144

/-- `PAL_STORAGE_CHUNK`. -/
def palStorageChunk : Nat := 2048

/-- `PAL_STORAGE_NCHUNKS`. -/
def palStorageNChunks : Nat := (palStorageSize + palStorageChunk - 1) / palStorageChunk

/-- The clients of the key/value store; the firmware's own is `NVINTF_SYSID_APP`. -/
inductive NvSystemId
  | app
  deriving DecidableEq

/-- `NVINTF_itemID_t`. -/
structure NvItemId where
  systemID : NvSystemId
  itemID : Nat
  subID : Nat
  deriving DecidableEq

/-- `PalStorageChunkId`. -/
def palStorageChunkId (chunk : Nat) : NvItemId where
  systemID := .app
  itemID := 1
  subID := chunk % 65536

/-- `NVINTF_nvFuncts_t`, over the contents `σ` of the store; a `NULL` pointer is `none`.
A read that returns a nonzero status is `none`, and the status of a deletion is dropped as
the caller does. -/
structure NvFuncts (σ : Type*) where
  initNV : Option (σ → σ × UInt8)
  readItem : Option (σ → NvItemId → Nat → Nat → Option (List UInt8))
  writeItem : Option (σ → NvItemId → List UInt8 → σ × UInt8)
  deleteItem : Option (σ → NvItemId → σ)

namespace NvFuncts

variable {σ : Type*} (nv : NvFuncts σ)

/-- The check of `PalStorageInit` on the loaded pointers. -/
def Loaded : Prop :=
  nv.initNV.isSome = true ∧ nv.readItem.isSome = true ∧ nv.writeItem.isSome = true

instance : Decidable nv.Loaded := inferInstanceAs (Decidable (_ ∧ _ ∧ _))

/-- The calls; those without a check of their own are made on loaded pointers only. -/
def callInit (s : σ) : σ × UInt8 := (nv.initNV.getD fun s => (s, 1)) s

def callRead (s : σ) (id : NvItemId) (off len : Nat) : Option (List UInt8) :=
  (nv.readItem.getD fun _ _ _ _ => none) s id off len

def callWrite (s : σ) (id : NvItemId) (bs : List UInt8) : σ × UInt8 :=
  (nv.writeItem.getD fun s _ _ => (s, 1)) s id bs

/-- `if(g_sNv.deleteItem != NULL)` and the deletion. -/
def callDelete (s : σ) (id : NvItemId) : σ := (nv.deleteItem.getD fun s _ => s) s id

/-- What the store does with the items of the chunks, of at most the bytes of a chunk: an item
that was written is read back and one that was deleted is not, either leaves the other items
alone, and the items survive a restart. -/
structure Works : Prop where
  loaded : nv.Loaded
  init_ok : ∀ s, (nv.callInit s).2 = 0
  read_init : ∀ s chunk off len,
    nv.callRead (nv.callInit s).1 (palStorageChunkId chunk) off len =
      nv.callRead s (palStorageChunkId chunk) off len
  write_ok : ∀ s chunk bs, bs.length ≤ palStorageChunk →
    (nv.callWrite s (palStorageChunkId chunk) bs).2 = 0
  read_write : ∀ s chunk bs, bs.length ≤ palStorageChunk →
    nv.callRead (nv.callWrite s (palStorageChunkId chunk) bs).1 (palStorageChunkId chunk) 0
      bs.length = some bs
  read_write_of_ne : ∀ s chunk chunk' bs off len, palStorageChunkId chunk' ≠
      palStorageChunkId chunk → bs.length ≤ palStorageChunk →
    nv.callRead (nv.callWrite s (palStorageChunkId chunk) bs).1 (palStorageChunkId chunk') off len =
      nv.callRead s (palStorageChunkId chunk') off len
  read_delete : nv.deleteItem.isSome = true → ∀ s chunk off len,
    nv.callRead (nv.callDelete s (palStorageChunkId chunk)) (palStorageChunkId chunk) off len =
      none
  read_delete_of_ne : ∀ s chunk chunk' off len, palStorageChunkId chunk' ≠
      palStorageChunkId chunk →
    nv.callRead (nv.callDelete s (palStorageChunkId chunk)) (palStorageChunkId chunk') off len =
      nv.callRead s (palStorageChunkId chunk') off len
  length_read : ∀ s chunk off len bs,
    nv.callRead s (palStorageChunkId chunk) off len = some bs → bs.length = len

/-- The store on a supply that can fail: a deletion and a write are atomic. -/
def powered : NvFuncts (PowerCut.Supply σ) where
  initNV := nv.initNV.map fun f p => (p.act (fun s => (f s).1) id, (f p.state).2)
  readItem := nv.readItem.map fun f p => f p.state
  writeItem := nv.writeItem.map fun f p item bs =>
    (p.act (fun s => (f s item bs).1) id, (f p.state item bs).2)
  deleteItem := nv.deleteItem.map fun f p item => p.act (fun s => f s item) id

end NvFuncts

/-- The bytes of the blob from a chunk on, in 32-bit arithmetic. -/
def palStorageRem (chunk : Nat) : Nat :=
  (palStorageSize + 2 ^ 32 - chunk * palStorageChunk % 2 ^ 32) % 2 ^ 32

/-- `PalStorageChunkLen`. -/
def palStorageChunkLen (chunk : Nat) : Nat :=
  if palStorageRem chunk < palStorageChunk then palStorageRem chunk else palStorageChunk

theorem palStorageChunkLen_le (chunk : Nat) : palStorageChunkLen chunk ≤ palStorageChunk := by
  unfold palStorageChunkLen
  split
  · rename_i h
    exact Nat.le_of_lt h
  · exact Nat.le_refl _

/-- The static state of `pal_storage.c`, with the contents of the key/value store. -/
structure PalStorage (σ : Type*) where
  shadow : ByteStore.Bytes
  ready : Bool
  nv : σ

namespace PalStorage

variable {σ : Type*}

/-- The storage as the C startup code leaves it. -/
def atReset (s : σ) : PalStorage σ := ⟨fun _ => 0, false, s⟩

section Calls

variable (nv : NvFuncts σ)

/-- `PalStorageWriteChunk`: the storage after it, and the status of the write. -/
def palStorageWriteChunk (st : PalStorage σ) (chunk : Nat) : PalStorage σ × UInt8 :=
  ({ st with
      nv := (nv.callWrite (nv.callDelete st.nv (palStorageChunkId chunk))
        (palStorageChunkId chunk)
        (ByteStore.read st.shadow (chunk * palStorageChunk) (palStorageChunkLen chunk))).1 },
    (nv.callWrite (nv.callDelete st.nv (palStorageChunkId chunk)) (palStorageChunkId chunk)
      (ByteStore.read st.shadow (chunk * palStorageChunk) (palStorageChunkLen chunk))).2)

/-- The loop body of `PalStorageInit`: a chunk that cannot be read is presented as zero. -/
def palStorageLoadChunk (st : PalStorage σ) (chunk : Nat) : PalStorage σ :=
  { st with
    shadow := ByteStore.write st.shadow (chunk * palStorageChunk)
      ((nv.callRead st.nv (palStorageChunkId chunk) 0 (palStorageChunkLen chunk)).getD
        (List.replicate (palStorageChunkLen chunk) 0)) }

/-- `PalStorageInit`. -/
def palStorageInit (st : PalStorage σ) : PalStorage σ × Bool :=
  if ¬nv.Loaded then (st, false)
  else if (nv.callInit st.nv).2 ≠ 0 then ({ st with nv := (nv.callInit st.nv).1 }, false)
  else
    ({ (List.range palStorageNChunks).foldl (palStorageLoadChunk nv)
        { st with nv := (nv.callInit st.nv).1 } with ready := true }, true)

/-- The range check of `PalStorageRead` and `PalStorageWrite`, in 32-bit arithmetic. -/
def InRange (addr len : Nat) : Prop := (addr + len) % 2 ^ 32 ≤ palStorageSize

instance (addr len : Nat) : Decidable (InRange addr len) := inferInstanceAs (Decidable (_ ≤ _))

/-- `PalStorageRead`; `none` is a nonzero result. -/
def palStorageRead (st : PalStorage σ) (addr len : Nat) : Option (List UInt8) :=
  if st.ready = false ∨ ¬InRange addr len then none
  else some (ByteStore.read st.shadow addr len)

/-- The first and the last chunk of a written range. -/
def firstChunk (addr : Nat) : Nat := addr / palStorageChunk
def lastChunk (addr len : Nat) : Nat := (addr + len - 1) % 2 ^ 32 / palStorageChunk

/-- The loop body of `PalStorageWrite`: the first failure is kept. -/
def palStorageWriteStep (p : PalStorage σ × UInt8) (chunk : Nat) : PalStorage σ × UInt8 :=
  ((palStorageWriteChunk nv p.1 chunk).1,
    if (palStorageWriteChunk nv p.1 chunk).2 ≠ 0 ∧ p.2 = 0 then
      (palStorageWriteChunk nv p.1 chunk).2
    else p.2)

/-- `PalStorageWrite`. -/
def palStorageWrite (st : PalStorage σ) (addr : Nat) (bs : List UInt8) : PalStorage σ × UInt8 :=
  if st.ready = false ∨ bs.length = 0 ∨ ¬InRange addr bs.length then (st, 1)
  else
    (List.range' (firstChunk addr) (lastChunk addr bs.length + 1 - firstChunk addr)).foldl
      (palStorageWriteStep nv) ({ st with shadow := ByteStore.write st.shadow addr bs }, 0)

end Calls

end PalStorage

end HomeAuto
