import HomeAuto.Lib.Loops
import HomeAuto.PalStorage

/-!
# Power loss during a configuration write

A chunk is replaced by deleting its item and writing a new one.  Each of the two is atomic,
and the pair is not: a power loss between them leaves the chunk without an item, and the
next boot presents all its bytes as zero, those of other records included.

`keepsOutside_iff` says that this is the only way in which a byte outside the written range
can change, whatever the range and the moment of the power loss.
-/

namespace HomeAuto

namespace PalStorage

variable {σ : Type*} {nv : NvFuncts σ}

/-! ## What a boot presents -/

/-- A chunk as a boot reads it. -/
def readChunk (nv : NvFuncts σ) (s : σ) (chunk : Nat) : Option (List UInt8) :=
  nv.callRead s (palStorageChunkId chunk) 0 (palStorageChunkLen chunk)

/-- The blob which a boot presents: no chunk, no bytes but zeros. -/
def loaded (nv : NvFuncts σ) (s : σ) : ByteStore.Bytes := fun a =>
  ((readChunk nv s (a / palStorageChunk)).getD []).getD (a % palStorageChunk) 0

/-- The storage after a boot. -/
def boot (nv : NvFuncts σ) (s : σ) : PalStorage σ := (palStorageInit nv (atReset s)).1

theorem palStorageChunkLen_of_lt {chunk : Nat} (h : chunk < palStorageNChunks) :
    palStorageChunkLen chunk = palStorageChunk := by
  have hfull : ¬palStorageRem chunk < palStorageChunk := by
    unfold palStorageRem palStorageNChunks palStorageSize palStorageChunk at *
    omega
  exact if_neg hfull

theorem palStorageChunkId_ne {a b : Nat} (ha : a < palStorageNChunks)
    (hb : b < palStorageNChunks) (hne : a ≠ b) : palStorageChunkId a ≠ palStorageChunkId b := by
  intro h
  have hsub : a % 65536 = b % 65536 := congrArg NvItemId.subID h
  unfold palStorageNChunks palStorageSize palStorageChunk at *
  omega

/-- The chunks loaded so far are what the store holds of them. -/
theorem load_prefix (hw : nv.Works) (st : PalStorage σ) :
    ((List.range palStorageNChunks).foldl (palStorageLoadChunk nv) st).nv = st.nv ∧
      ∀ a, a < palStorageNChunks * palStorageChunk →
        ((List.range palStorageNChunks).foldl (palStorageLoadChunk nv) st).shadow a =
          loaded nv st.nv a := by
  apply Loops.foldl_range (P := fun n (t : PalStorage σ) =>
    t.nv = st.nv ∧ ∀ a, a < n * palStorageChunk → t.shadow a = loaded nv st.nv a)
  · intro i t hi ht
    obtain ⟨hnv, hload⟩ := ht
    refine ⟨hnv, fun a ha => ?_⟩
    have hlen := palStorageChunkLen_of_lt hi
    have hbytes : ((nv.callRead st.nv (palStorageChunkId i) 0 palStorageChunk).getD
        (List.replicate palStorageChunk 0)).length = palStorageChunk := by
      cases hread : nv.callRead st.nv (palStorageChunkId i) 0 palStorageChunk with
      | none => exact List.length_replicate
      | some bs => exact hw.length_read _ _ _ _ _ hread
    unfold palStorageLoadChunk ByteStore.write
    dsimp only
    rw [hnv, hlen, hbytes]
    by_cases hold : a < i * palStorageChunk
    · rw [if_neg (by omega)]
      exact hload a hold
    · rw [if_pos (by unfold palStorageChunk at *; omega)]
      have hdiv : a / palStorageChunk = i := by
        unfold palStorageChunk at *
        omega
      have hmod : a % palStorageChunk = a - i * palStorageChunk := by
        unfold palStorageChunk at *
        omega
      unfold loaded readChunk
      rw [hdiv, hmod, hlen]
      cases nv.callRead st.nv (palStorageChunkId i) 0 palStorageChunk with
      | some bs => rfl
      | none =>
          dsimp only [Option.getD_none]
          rw [List.getD_replicate, List.getD_nil]
          unfold palStorageChunk at *
          omega
  · exact ⟨rfl, fun a ha => absurd ha (by omega)⟩

/-- `PalStorageInit` comes up, whatever was in RAM, and presents what the store holds. -/
theorem palStorageInit_effect (hw : nv.Works) (st : PalStorage σ) :
    (palStorageInit nv st).2 = true ∧ (palStorageInit nv st).1.ready = true ∧
      (palStorageInit nv st).1.nv = (nv.callInit st.nv).1 ∧
        ∀ a, a < palStorageSize → (palStorageInit nv st).1.shadow a = loaded nv st.nv a := by
  have hinit : palStorageInit nv st =
      ({ (List.range palStorageNChunks).foldl (palStorageLoadChunk nv)
          { st with nv := (nv.callInit st.nv).1 } with ready := true }, true) := by
    have hok : ¬(nv.callInit st.nv).2 ≠ 0 := not_not.mpr (hw.init_ok st.nv)
    unfold palStorageInit
    rw [if_neg (not_not.mpr hw.loaded), if_neg hok]
  obtain ⟨hnv, hload⟩ := load_prefix hw { st with nv := (nv.callInit st.nv).1 }
  rw [hinit]
  refine ⟨rfl, rfl, hnv, fun a ha => (hload a ha).trans ?_⟩
  unfold loaded readChunk
  rw [hw.read_init]

/-- **A boot** comes up, and presents what the store holds. -/
theorem boot_effect (hw : nv.Works) (s : σ) :
    (boot nv s).ready = true ∧ (boot nv s).nv = (nv.callInit s).1 ∧
      ∀ a, a < palStorageSize → (boot nv s).shadow a = loaded nv s a :=
  (palStorageInit_effect hw (atReset s)).2

/-! ## Replacing chunks -/

/-- The store after one pass of the write loop. -/
def replaceChunk (nv : NvFuncts σ) (shadow : ByteStore.Bytes) (s : σ) (chunk : Nat) : σ :=
  (nv.callWrite (nv.callDelete s (palStorageChunkId chunk)) (palStorageChunkId chunk)
    (ByteStore.read shadow (chunk * palStorageChunk) (palStorageChunkLen chunk))).1

/-- The write loop changes the store only. -/
theorem foldl_writeStep (nv : NvFuncts σ) (st : PalStorage σ) (r : UInt8) (chunks : List Nat) :
    (chunks.foldl (palStorageWriteStep nv) (st, r)).1 =
      { st with nv := chunks.foldl (replaceChunk nv st.shadow) st.nv } := by
  induction chunks generalizing st r with
  | nil => rfl
  | cons chunk chunks ih =>
      rw [List.foldl_cons, List.foldl_cons]
      exact ih _ _

theorem readChunk_write (hw : nv.Works) (shadow : ByteStore.Bytes) (s : σ) {chunk c : Nat}
    (hchunk : chunk < palStorageNChunks) (hc : c < palStorageNChunks) :
    readChunk nv (replaceChunk nv shadow s chunk) c =
      if c = chunk then
        some (ByteStore.read shadow (chunk * palStorageChunk) (palStorageChunkLen chunk))
      else readChunk nv s c := by
  unfold readChunk replaceChunk
  split
  · rename_i heq
    subst heq
    have hread := hw.read_write (nv.callDelete s (palStorageChunkId c)) c
      (ByteStore.read shadow (c * palStorageChunk) (palStorageChunkLen c))
      (by rw [ByteStore.length_read]; exact palStorageChunkLen_le c)
    rwa [ByteStore.length_read] at hread
  · rename_i hne
    have hid := palStorageChunkId_ne hc hchunk hne
    rw [hw.read_write_of_ne _ _ _ _ _ _ hid (by
      rw [ByteStore.length_read]; exact palStorageChunkLen_le chunk),
      hw.read_delete_of_ne _ _ _ _ _ hid]

/-- A write loop that completes replaces its chunks and no other. -/
theorem readChunk_writeLoop (hw : nv.Works) (shadow : ByteStore.Bytes) (s : σ) {first n c : Nat}
    (hn : first + n ≤ palStorageNChunks) (hc : c < palStorageNChunks) :
    readChunk nv ((List.range' first n).foldl (replaceChunk nv shadow) s) c =
      if first ≤ c ∧ c < first + n then
        some (ByteStore.read shadow (c * palStorageChunk) (palStorageChunkLen c))
      else readChunk nv s c := by
  induction n generalizing first s with
  | zero =>
      rw [if_neg (by omega)]
      rfl
  | succ n ih =>
      rw [List.range'_succ, List.foldl_cons, ih (replaceChunk nv shadow s first) (by omega),
        readChunk_write hw shadow s (by omega) hc]
      by_cases heq : c = first
      · subst heq
        rw [if_neg (by omega), if_pos rfl, if_pos (by omega)]
      · rw [if_neg heq]
        congr 1
        simp only [eq_iff_iff]
        omega

/-! ## Replacing chunks on a failing supply -/

open PowerCut

/-- Without power nothing changes. -/
theorem foldl_replaceChunk_lost (nv : NvFuncts σ) (shadow : ByteStore.Bytes) (s : σ)
    (chunks : List Nat) :
    chunks.foldl (replaceChunk nv.powered shadow) ⟨s, 0, true⟩ = ⟨s, 0, true⟩ := by
  induction chunks with
  | nil => rfl
  | cons chunk chunks ih =>
      have hchunk : replaceChunk nv.powered shadow ⟨s, 0, true⟩ chunk = ⟨s, 0, true⟩ := by
        unfold replaceChunk NvFuncts.callWrite NvFuncts.callDelete NvFuncts.powered
        cases nv.deleteItem <;> cases nv.writeItem <;> rfl
      rw [List.foldl_cons, hchunk]
      exact ih

/-- One pass, where the store has a deletion: the power lasts for neither of its two acts,
for the deletion, or for both. -/
theorem replaceChunk_powered (hw : nv.Works) (hdelete : nv.deleteItem.isSome = true)
    (shadow : ByteStore.Bytes) (s : σ) (chunk : Nat) :
    replaceChunk nv.powered shadow (.lasting 0 s) chunk = ⟨s, 0, true⟩ ∧
      replaceChunk nv.powered shadow (.lasting 1 s) chunk =
        ⟨nv.callDelete s (palStorageChunkId chunk), 0, true⟩ ∧
      ∀ k, replaceChunk nv.powered shadow (.lasting (k + 2) s) chunk =
        .lasting k (replaceChunk nv shadow s chunk) := by
  obtain ⟨delete, hd⟩ := Option.isSome_iff_exists.mp hdelete
  obtain ⟨write, hwr⟩ := Option.isSome_iff_exists.mp hw.loaded.2.2
  unfold replaceChunk NvFuncts.callWrite NvFuncts.callDelete NvFuncts.powered
  rw [hd, hwr]
  exact ⟨rfl, rfl, fun _ => rfl⟩

theorem replaceChunk_powered_write (hw : nv.Works) (hdelete : nv.deleteItem = none)
    (shadow : ByteStore.Bytes) (s : σ) (chunk : Nat) :
    replaceChunk nv.powered shadow (.lasting 0 s) chunk = ⟨s, 0, true⟩ ∧
      ∀ k, replaceChunk nv.powered shadow (.lasting (k + 1) s) chunk =
        .lasting k (replaceChunk nv shadow s chunk) := by
  obtain ⟨write, hwr⟩ := Option.isSome_iff_exists.mp hw.loaded.2.2
  unfold replaceChunk NvFuncts.callWrite NvFuncts.callDelete NvFuncts.powered
  rw [hdelete, hwr]
  exact ⟨rfl, fun _ => rfl⟩

/-- **A write loop cut short.**  The chunks whose two acts are done are as they were to be
written, the one whose deletion was the last act cannot be read, and the others are as they
were. -/
theorem readChunk_cutLoop (hw : nv.Works) (hdelete : nv.deleteItem.isSome = true)
    (shadow : ByteStore.Bytes) (s : σ) (k : Nat) {first n c : Nat}
    (hn : first + n ≤ palStorageNChunks) (hc : c < palStorageNChunks) :
    readChunk nv ((List.range' first n).foldl (replaceChunk nv.powered shadow)
        (.lasting k s)).state c =
      if first ≤ c ∧ c < first + n ∧ 2 * (c - first) + 2 ≤ k then
        some (ByteStore.read shadow (c * palStorageChunk) (palStorageChunkLen c))
      else if first ≤ c ∧ c < first + n ∧ 2 * (c - first) + 1 = k then none
      else readChunk nv s c := by
  induction n generalizing first s k with
  | zero =>
      rw [if_neg (by omega), if_neg (by omega)]
      rfl
  | succ n ih =>
      obtain ⟨hdead, hcut, hpass⟩ := replaceChunk_powered hw hdelete shadow s first
      rw [List.range'_succ, List.foldl_cons]
      match k with
      | 0 =>
          rw [hdead, foldl_replaceChunk_lost, if_neg (by omega), if_neg (by omega)]
      | 1 =>
          rw [hcut, foldl_replaceChunk_lost, if_neg (by omega)]
          dsimp only
          unfold readChunk
          by_cases heq : c = first
          · subst heq
            rw [if_pos (by omega), hw.read_delete hdelete]
          · rw [if_neg (by omega)]
            apply hw.read_delete_of_ne
            exact palStorageChunkId_ne hc (by omega) heq
      | k + 2 =>
          rw [hpass, ih (replaceChunk nv shadow s first) k (by omega),
            readChunk_write hw shadow s (by omega) hc]
          by_cases heq : c = first
          · subst heq
            rw [if_neg (by omega), if_neg (by omega), if_pos rfl, if_pos (by omega)]
          · by_cases hdone : first + 1 ≤ c ∧ c < first + 1 + n ∧ 2 * (c - (first + 1)) + 2 ≤ k
            · rw [if_pos hdone, if_pos (by omega)]
            · by_cases hhalf : first + 1 ≤ c ∧ c < first + 1 + n ∧ 2 * (c - (first + 1)) + 1 = k
              · rw [if_neg hdone, if_pos hhalf, if_neg (by omega), if_pos (by omega)]
              · rw [if_neg hdone, if_neg hhalf, if_neg heq, if_neg (by omega), if_neg (by omega)]

/-- Where the store has no deletion, every act is a whole chunk. -/
theorem readChunk_cutLoop_write (hw : nv.Works) (hdelete : nv.deleteItem = none)
    (shadow : ByteStore.Bytes) (s : σ) (k : Nat) {first n c : Nat}
    (hn : first + n ≤ palStorageNChunks) (hc : c < palStorageNChunks) :
    readChunk nv ((List.range' first n).foldl (replaceChunk nv.powered shadow)
        (.lasting k s)).state c =
      if first ≤ c ∧ c < first + n ∧ c - first < k then
        some (ByteStore.read shadow (c * palStorageChunk) (palStorageChunkLen c))
      else readChunk nv s c := by
  induction n generalizing first s k with
  | zero =>
      rw [if_neg (by omega)]
      rfl
  | succ n ih =>
      obtain ⟨hdead, hpass⟩ := replaceChunk_powered_write hw hdelete shadow s first
      rw [List.range'_succ, List.foldl_cons]
      cases k with
      | zero => rw [hdead, foldl_replaceChunk_lost, if_neg (by omega)]
      | succ k =>
          rw [hpass, ih (replaceChunk nv shadow s first) k (by omega),
            readChunk_write hw shadow s (by omega) hc]
          by_cases heq : c = first
          · subst heq
            rw [if_neg (by omega), if_pos rfl, if_pos (by omega)]
          · by_cases hdone : first + 1 ≤ c ∧ c < first + 1 + n ∧ c - (first + 1) < k
            · rw [if_pos hdone, if_pos (by omega)]
            · rw [if_neg hdone, if_neg heq, if_neg (by omega)]

/-! ## Whole writes -/

/-- A storage that is up, with its RAM copy the blob that a boot would present. -/
structure Synced (nv : NvFuncts σ) (st : PalStorage σ) : Prop where
  ready : st.ready = true
  shadow : ∀ a, a < palStorageSize → loaded nv st.nv a = st.shadow a

/-- A write that the range check lets through, and that does not wrap. -/
def Accepted (addr : Nat) (bs : List UInt8) : Prop :=
  0 < bs.length ∧ addr + bs.length ≤ palStorageSize

instance (addr : Nat) (bs : List UInt8) : Decidable (Accepted addr bs) :=
  inferInstanceAs (Decidable (_ ∧ _))

theorem synced_boot (hw : nv.Works) (s : σ) : Synced nv (boot nv s) := by
  obtain ⟨hready, hnv, hshadow⟩ := boot_effect hw s
  refine ⟨hready, fun a ha => ?_⟩
  rw [hshadow a ha, hnv]
  unfold loaded readChunk
  rw [hw.read_init]

/-- The number of chunks that an accepted write touches. -/
def chunkCount (addr : Nat) (bs : List UInt8) : Nat :=
  (addr + bs.length - 1) / palStorageChunk + 1 - firstChunk addr

/-- An accepted write changes the blob, and replaces the chunks of its range. -/
theorem palStorageWrite_accepted (nv : NvFuncts σ) {st : PalStorage σ} (hready : st.ready = true)
    {addr : Nat} {bs : List UInt8} (hok : Accepted addr bs) :
    (palStorageWrite nv st addr bs).1 =
      { st with
        shadow := ByteStore.write st.shadow addr bs
        nv := (List.range' (firstChunk addr) (chunkCount addr bs)).foldl
          (replaceChunk nv (ByteStore.write st.shadow addr bs)) st.nv } := by
  obtain ⟨hpos, hfit⟩ := hok
  have hsmall : addr + bs.length < 2 ^ 32 := by
    unfold palStorageSize at hfit
    omega
  have hrange : InRange addr bs.length := by
    unfold InRange
    rw [Nat.mod_eq_of_lt hsmall]
    exact hfit
  have hlast : lastChunk addr bs.length = (addr + bs.length - 1) / palStorageChunk := by
    unfold lastChunk
    rw [Nat.mod_eq_of_lt (by omega)]
  have hpass : ¬(st.ready = false ∨ bs.length = 0 ∨ ¬InRange addr bs.length) := by
    rw [hready]
    simp only [Bool.true_eq_false, hrange, not_true, or_false, false_or]
    omega
  unfold palStorageWrite
  rw [if_neg hpass, foldl_writeStep, hlast]
  rfl

theorem palStorageWrite_rejected (nv : NvFuncts σ) (st : PalStorage σ) {addr : Nat}
    {bs : List UInt8} (hsmall : addr + bs.length < 2 ^ 32) (hok : ¬Accepted addr bs) :
    palStorageWrite nv st addr bs = (st, 1) := by
  unfold palStorageWrite
  rw [if_pos]
  apply Or.inr
  unfold Accepted at hok
  unfold InRange
  rw [Nat.mod_eq_of_lt hsmall]
  omega

/-- The chunks of an accepted range are chunks of the blob. -/
theorem Accepted.chunks {addr : Nat} {bs : List UInt8} (hok : Accepted addr bs) :
    firstChunk addr + chunkCount addr bs ≤ palStorageNChunks ∧
      ∀ a, addr ≤ a → a < addr + bs.length →
        firstChunk addr ≤ a / palStorageChunk ∧
          a / palStorageChunk < firstChunk addr + chunkCount addr bs := by
  obtain ⟨hpos, hfit⟩ := hok
  unfold chunkCount firstChunk palStorageNChunks palStorageChunk palStorageSize at *
  constructor
  · omega
  · intro a hlo hhi
    omega

/-- A byte of a chunk that was written from a blob. -/
theorem getD_read (m : ByteStore.Bytes) (a : Nat) :
    (ByteStore.read m (a / palStorageChunk * palStorageChunk) palStorageChunk).getD
      (a % palStorageChunk) 0 = m a := by
  have hmod : a % palStorageChunk < palStorageChunk := Nat.mod_lt _ (by decide)
  rw [List.getD_eq_getElem _ _ (by rw [ByteStore.length_read]; exact hmod)]
  simp only [ByteStore.read, List.getElem_map, List.getElem_range]
  rw [Nat.div_add_mod']

/-- A completed write leaves the storage synced. -/
theorem Synced.write (hw : nv.Works) {st : PalStorage σ} (hs : Synced nv st) {addr : Nat}
    {bs : List UInt8} (hsmall : addr + bs.length < 2 ^ 32) :
    Synced nv (palStorageWrite nv st addr bs).1 := by
  by_cases hok : Accepted addr bs
  · obtain ⟨hchunks, hcover⟩ := hok.chunks
    rw [palStorageWrite_accepted nv hs.ready hok]
    refine ⟨hs.ready, fun a ha => ?_⟩
    have hc : a / palStorageChunk < palStorageNChunks := by
      unfold palStorageNChunks palStorageChunk palStorageSize at *
      omega
    unfold loaded
    dsimp only
    rw [readChunk_writeLoop hw _ _ hchunks hc]
    split
    · rw [Option.getD_some, palStorageChunkLen_of_lt hc]
      exact getD_read _ a
    · rename_i hout
      have hold := hs.shadow a ha
      unfold loaded at hold
      rw [hold, ByteStore.write, if_neg]
      intro hin
      exact hout (hcover a hin.1 hin.2)
  · rw [palStorageWrite_rejected nv st hsmall hok]
    exact hs

/-! ## A write cut short -/

/-- The store after a write during which the power is lost, `k` acts in. -/
def cutWrite (nv : NvFuncts σ) (st : PalStorage σ) (addr : Nat) (bs : List UInt8) (k : Nat) : σ :=
  (palStorageWrite nv.powered ⟨st.shadow, st.ready, .lasting k st.nv⟩ addr bs).1.nv.state

/-- Every byte of the blob outside the range reads the same. -/
def KeepsOutside (addr : Nat) (bs : List UInt8) (st st' : PalStorage σ) : Prop :=
  ∀ a, a < palStorageSize → a < addr ∨ addr + bs.length ≤ a →
    palStorageRead st' a 1 = palStorageRead st a 1

/-- The power is lost between the deletion and the write of a chunk which holds, outside
the range, a byte other than zero. -/
def CutsRecord (nv : NvFuncts σ) (st : PalStorage σ) (addr : Nat) (bs : List UInt8) (k : Nat) :
    Prop :=
  nv.deleteItem.isSome = true ∧ Accepted addr bs ∧
    ∃ a, (a < addr ∨ addr + bs.length ≤ a) ∧ st.shadow a ≠ 0 ∧
      a / palStorageChunk < firstChunk addr + chunkCount addr bs ∧
        firstChunk addr ≤ a / palStorageChunk ∧
          k = 2 * (a / palStorageChunk - firstChunk addr) + 1

/-- What a boot presents of a byte outside the range of a write that was cut. -/
theorem loaded_cutWrite (hw : nv.Works) {st : PalStorage σ} (hs : Synced nv st) {addr : Nat}
    {bs : List UInt8} (hok : Accepted addr bs) (k : Nat) {a : Nat} (ha : a < palStorageSize)
    (hout : a < addr ∨ addr + bs.length ≤ a) :
    loaded nv (cutWrite nv st addr bs k) a =
      if nv.deleteItem.isSome = true ∧ firstChunk addr ≤ a / palStorageChunk ∧
          a / palStorageChunk < firstChunk addr + chunkCount addr bs ∧
            2 * (a / palStorageChunk - firstChunk addr) + 1 = k then 0
      else st.shadow a := by
  have hc : a / palStorageChunk < palStorageNChunks := by
    unfold palStorageNChunks palStorageChunk palStorageSize at *
    omega
  have hkept : ByteStore.write st.shadow addr bs a = st.shadow a := by
    rw [ByteStore.write, if_neg (by omega)]
  have hold := hs.shadow a ha
  unfold loaded at hold
  unfold loaded cutWrite
  rw [palStorageWrite_accepted nv.powered hs.ready hok]
  dsimp only
  cases hdelete : nv.deleteItem with
  | none =>
      rw [readChunk_cutLoop_write hw hdelete _ _ k hok.chunks.1 hc]
      simp only [Option.isSome_none, Bool.false_eq_true, false_and, if_false]
      split
      · rw [Option.getD_some, palStorageChunkLen_of_lt hc, getD_read, hkept]
      · exact hold
  | some delete =>
      have hsome : nv.deleteItem.isSome = true := by rw [hdelete]; rfl
      rw [readChunk_cutLoop hw hsome _ _ k hok.chunks.1 hc]
      simp only [Option.isSome_some, true_and]
      split
      · rename_i hdone
        rw [Option.getD_some, if_neg (by omega), palStorageChunkLen_of_lt hc, getD_read, hkept]
      · split
        · rfl
        · exact hold

/-- The writes that were completed since the last boot. -/
def runWrites (nv : NvFuncts σ) (st : PalStorage σ) (ws : List (Nat × List UInt8)) :
    PalStorage σ :=
  ws.foldl (fun st w => (palStorageWrite nv st w.1 w.2).1) st

theorem Synced.runWrites (hw : nv.Works) {st : PalStorage σ} (hs : Synced nv st)
    {ws : List (Nat × List UInt8)} (hws : ∀ w ∈ ws, w.1 + w.2.length < 2 ^ 32) :
    Synced nv (runWrites nv st ws) := by
  induction ws generalizing st with
  | nil => exact hs
  | cons w ws ih =>
      apply ih (hs.write hw (hws w List.mem_cons_self))
      intro v hv
      exact hws v (List.mem_cons_of_mem _ hv)

theorem palStorageRead_byte {st : PalStorage σ} (hready : st.ready = true) {a : Nat}
    (ha : a < palStorageSize) : palStorageRead st a 1 = some [st.shadow a] := by
  have hrange : InRange a 1 := by
    unfold InRange palStorageSize at *
    omega
  unfold palStorageRead
  rw [hready, if_neg (by simp [hrange])]
  rfl

/-- **Crash atomicity, exactly.**  After any boot and any completed writes, a write that is
cut short by a power loss leaves every byte outside its range as it was, precisely when the
power is not lost between the deletion and the write of a chunk with such a byte in it that
is not zero. -/
theorem keepsOutside_iff (hw : nv.Works) (s : σ) {ws : List (Nat × List UInt8)}
    (hws : ∀ w ∈ ws, w.1 + w.2.length < 2 ^ 32) {addr : Nat} {bs : List UInt8}
    (hsmall : addr + bs.length < 2 ^ 32) (k : Nat) :
    KeepsOutside addr bs (runWrites nv (boot nv s) ws)
        (boot nv (cutWrite nv (runWrites nv (boot nv s) ws) addr bs k)) ↔
      ¬CutsRecord nv (runWrites nv (boot nv s) ws) addr bs k := by
  have hs := (synced_boot hw s).runWrites hw hws
  generalize runWrites nv (boot nv s) ws = st at hs ⊢
  obtain ⟨hready, _, hshadow⟩ := boot_effect hw (cutWrite nv st addr bs k)
  have hreads (a : Nat) (ha : a < palStorageSize) :
      palStorageRead (boot nv (cutWrite nv st addr bs k)) a 1 = palStorageRead st a 1 ↔
        loaded nv (cutWrite nv st addr bs k) a = st.shadow a := by
    rw [palStorageRead_byte hready ha, palStorageRead_byte hs.ready ha, hshadow a ha]
    simp
  by_cases hok : Accepted addr bs
  · constructor
    · intro hkeeps hcut
      obtain ⟨hdelete, _, a, hout, hne, hlt, hle, hk⟩ := hcut
      have ha : a < palStorageSize := by
        have hchunks := hok.chunks.1
        unfold palStorageNChunks palStorageChunk palStorageSize at *
        omega
      have hsame := (hreads a ha).mp (hkeeps a ha hout)
      rw [loaded_cutWrite hw hs hok k ha hout, if_pos ⟨hdelete, hle, hlt, hk.symm⟩] at hsame
      exact hne hsame.symm
    · intro hcut a ha hout
      apply (hreads a ha).mpr
      rw [loaded_cutWrite hw hs hok k ha hout]
      split
      · rename_i hlost
        obtain ⟨hdelete, hle, hlt, hk⟩ := hlost
        by_contra hne
        exact hcut ⟨hdelete, hok, a, hout, Ne.symm hne, hlt, hle, hk.symm⟩
      · rfl
  · apply iff_of_true
    · intro a ha _
      apply (hreads a ha).mpr
      unfold cutWrite
      rw [palStorageWrite_rejected _ _ hsmall hok]
      exact hs.shadow a ha
    · intro hcut
      exact hok hcut.2.1

/-! ## A store in memory -/

/-- A store that keeps its items in a table, and reads no further than an item goes. -/
def ramNv : NvFuncts (NvItemId → Option (List UInt8)) where
  initNV := some fun s => (s, 0)
  readItem := some fun s item off len =>
    (s item).bind fun bs => if off + len ≤ bs.length then some ((bs.drop off).take len) else none
  writeItem := some fun s item bs => (Function.update s item (some bs), 0)
  deleteItem := some fun s item => Function.update s item none

theorem ramNv_works : ramNv.Works where
  loaded := by decide
  init_ok _ := rfl
  read_init _ _ _ _ := rfl
  write_ok _ _ _ _ := rfl
  read_write s chunk bs _ := by
    simp [NvFuncts.callRead, NvFuncts.callWrite, ramNv]
  read_write_of_ne s chunk chunk' bs off len hne _ := by
    simp [NvFuncts.callRead, NvFuncts.callWrite, ramNv, Function.update_of_ne hne]
  read_delete _ s chunk off len := by
    simp [NvFuncts.callRead, NvFuncts.callDelete, ramNv]
  read_delete_of_ne s chunk chunk' off len hne := by
    simp [NvFuncts.callRead, NvFuncts.callDelete, ramNv, Function.update_of_ne hne]
  length_read s chunk off len bs h := by
    simp only [NvFuncts.callRead, ramNv, Option.getD_some, Option.bind_eq_some_iff] at h
    obtain ⟨data, _, hdata⟩ := h
    split at hdata
    · cases hdata
      rw [List.length_take, List.length_drop]
      omega
    · cases hdata

/-- Bytes 0 and 4000 are set; a write of byte 4001 touches the second chunk only, and may
be cut anywhere but in its middle. -/
theorem write_before_deletion_keeps :
    KeepsOutside 4001 [1] (runWrites ramNv (boot ramNv fun _ => none) [(0, [7]), (4000, [9])])
      (boot ramNv (cutWrite ramNv
        (runWrites ramNv (boot ramNv fun _ => none) [(0, [7]), (4000, [9])]) 4001 [1] 2)) := by
  apply (keepsOutside_iff ramNv_works _ (by decide) (by decide) 2).mpr
  intro hcut
  obtain ⟨_, _, a, _, _, _, _, hk⟩ := hcut
  omega

/-- The power is lost after the deletion: byte 0, of another record, reads as zero. -/
theorem write_after_deletion_loses :
    ¬KeepsOutside 100 [1] (runWrites ramNv (boot ramNv fun _ => none) [(0, [7])])
      (boot ramNv (cutWrite ramNv (runWrites ramNv (boot ramNv fun _ => none) [(0, [7])])
        100 [1] 1)) := by
  intro hkeeps
  have hbyte := hkeeps 0 (by decide) (.inl (by decide))
  revert hbyte
  decide +kernel

end PalStorage

end HomeAuto
