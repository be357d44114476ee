import HomeAuto.Lib.Runs
import HomeAuto.OtaBoot

/-!
# Brick safety of the self-update (`ota.c`, `WebPlatformOtaChunkCGI`)

A board receives uploads, loses power and boots, in any order.  Whenever the boot check
has returned, the application slot is to hold what it held before the latest commit, or the
image uploaded last: the payloads of the chunks that the upload has taken, one after the other.

The copy is restartable because the flag stays set and the staged image is not touched
until a boot has found that image in the slot.  The invariant, `Sound`, says that a pending
update either has a header the boot check turns down or the header of the image uploaded
last, and that a slot which is not whole is being copied to.  The header page is erased by
sequence number 0 only, so a second commit within one upload may leave the header of
neither image; the flag of an earlier commit stays set while a new header is written; and an
upload that goes on after a rejected last chunk has padding staged inside it, which a commit
whose totals are not those of the payloads lets pass.  `brickSafe_of_headerSafe` excludes just
that.
-/

namespace HomeAuto

open NorFlash PowerCut

/-! ## What staging leaves alone -/

/-- What erasing and programming from the staging region on keep. -/
structure OtaDev.StagingKeeps {φ : Type} (dev : OtaDev φ) (K : φ → Prop) : Prop where
  erase : ∀ d addr, otaImageAddr ≤ addr → K d → K (dev.flashErase d addr)
  program : ∀ d addr bytes, otaImageAddr ≤ addr → K d → K (dev.flashProgram d addr bytes)

/-- The counters of an upload while a chunk is staged. -/
structure OtaStatics.Behind (st : OtaStatics) : Prop where
  pointer : otaImageAddr ≤ st.writeAddr
  page : otaImageAddr ≤ st.lastErasedPage
  size : st.size < 2 ^ 32

/-- The counters of an upload between two requests. -/
structure OtaStatics.Ranged (st : OtaStatics) : Prop where
  page : st.nextSeq ≠ 0 → otaImageAddr ≤ st.lastErasedPage
  size : st.size < 2 ^ 32

namespace Ota

section StagingKeeps

variable {φ : Type} {dev : OtaDev φ} {K : φ → Prop} (hdev : dev.StagingKeeps K)
include hdev

theorem kept_programWord {s : Ota φ} (h : s.st.Behind) (hk : K s.dev)
    (hend : s.st.writeAddr < otaStagingEnd) (word : List UInt8) :
    (s.programWord dev word).st.Behind ∧ K (s.programWord dev word).dev := by
  have hleast := h.pointer
  have hfour : (s.st.writeAddr + 4) % 2 ^ 32 = s.st.writeAddr + 4 := by
    rw [otaStagingEnd_eq] at hend
    omega
  refine ⟨⟨?_, h.page, h.size⟩, hdev.program _ _ _ hleast hk⟩
  simp only [programWord, hfour]
  omega

theorem kept_erasePage {s : Ota φ} (h : s.st.Behind) (hk : K s.dev) :
    (s.erasePage dev).st.Behind ∧ K (s.erasePage dev).dev ∧
      (s.erasePage dev).st.writeAddr = s.st.writeAddr := by
  unfold erasePage
  have hpage := h.page
  split
  · have hlater : otaImageAddr ≤ pageOf s.st.writeAddr := by omega
    exact ⟨⟨h.pointer, hlater, h.size⟩, hdev.erase _ _ hlater hk, rfl⟩
  · exact ⟨h, hk, rfl⟩

theorem kept_decodeByte {s : Ota φ} (h : s.st.Behind) (hk : K s.dev) (b : UInt8) :
    (s.decodeByte dev b).st.Behind ∧ K (s.decodeByte dev b).dev := by
  unfold decodeByte
  split
  · exact ⟨h, hk⟩
  · have hpush : (s.pushByte b).st.Behind :=
      ⟨h.pointer, h.page, Nat.mod_lt _ (Nat.two_pow_pos 32)⟩
    unfold storeWord
    split
    · split
      · exact ⟨⟨hpush.pointer, hpush.page, hpush.size⟩, hk⟩
      · rename_i hend
        obtain ⟨herase, hkerase, hsame⟩ := kept_erasePage hdev hpush hk
        refine kept_programWord hdev herase hkerase ?_ _
        rw [hsame]
        exact Nat.not_le.mp hend
    · exact ⟨hpush, hk⟩

theorem kept_decode {s : Ota φ} (h : s.st.Behind) (hk : K s.dev) (payload : List UInt8) :
    (s.decode dev payload).st.Behind ∧ K (s.decode dev payload).dev :=
  decode_induction dev (I := fun t => t.st.Behind ∧ K t.dev)
    (fun _ b ht => kept_decodeByte hdev ht.1 ht.2 b) payload ⟨h, hk⟩

/-- The flush goes where the pointer stands. -/
theorem kept_flushTail {s : Ota φ} (h : s.st.Behind) (hk : K s.dev) :
    (s.flushTail dev).st.Ranged ∧ K (s.flushTail dev).dev := by
  unfold flushTail
  split
  · exact ⟨⟨fun _ => h.page, h.size⟩, hdev.program _ _ _ h.pointer hk⟩
  · exact ⟨⟨fun _ => h.page, h.size⟩, hk⟩

theorem kept_apply {s : Ota φ} (h : s.st.Behind) (hk : K s.dev) (c : OtaChunk) :
    (s.apply dev c).1.st.Ranged ∧ K (s.apply dev c).1.dev := by
  obtain ⟨hbehind, hkept⟩ := kept_decode hdev h hk c.payload
  have hadv : (s.decode dev c.payload).advance.st.Behind :=
    ⟨by simpa using hbehind.pointer, by simpa using hbehind.page, by simpa using hbehind.size⟩
  have hkadv : K (s.decode dev c.payload).advance.dev := by simpa using hkept
  rcases apply_cases dev s c with ⟨_, heq⟩ | ⟨_, _, heq⟩ | ⟨_, _, heq⟩
  · rw [heq]
    exact ⟨⟨fun _ => hadv.page, hadv.size⟩, hkadv⟩
  · rw [heq]
    exact ⟨⟨fun _ => hadv.page, hadv.size⟩, hkadv⟩
  · rw [heq]
    exact kept_flushTail hdev hadv hkadv

/-- **Staging a chunk** touches nothing before the staging region, unless the write pointer
has run over the end of the address space. -/
theorem kept_guard {s : Ota φ} (h : s.st.Ranged) (hk : K s.dev) {c : OtaChunk}
    (happ : s.Applies c → s.st.Behind) :
    (s.guard dev c).1.st.Ranged ∧ K (s.guard dev c).1.dev := by
  by_cases hturn : s.Applies c
  · rw [guard_of_applies dev hturn]
    exact kept_apply hdev (happ hturn) hk c
  · rcases guard_of_not_applies dev hturn with ⟨heq, _⟩ | ⟨heq, _⟩ | ⟨heq, _⟩
    · rw [heq]
      exact ⟨h, hk⟩
    · rw [heq]
      exact ⟨h, hk⟩
    · rw [heq]
      exact ⟨⟨h.page, h.size⟩, hk⟩

end StagingKeeps

/-! ## A chunk while the power lasts -/

/-- The handler with the power for `k` more calls. -/
def powered (s : Ota Nor) (k : Nat) : Ota (Supply Nor) := ⟨s.st, .lasting k s.dev, s.resetRequested⟩

/-- What is there of it afterwards. -/
def settled (s : Ota (Supply Nor)) : Ota Nor := ⟨s.st, s.dev.state, s.resetRequested⟩

/-- The power lasts for the header of a verified image as well: the upload is committed. -/
def Commits (r : Ota (Supply Nor) × OtaOutcome) : Bool :=
  match r.2 with
  | .verified _ => !r.1.dev.lost && 0 < r.1.dev.fuse
  | _ => false

/-- The header page can take the header of a verified image. -/
def HeaderTakes (r : Ota (Supply Nor) × OtaOutcome) : Prop :=
  match r.2 with
  | .verified crc => Takes r.1.dev.state.flash otaHeaderAddr (r.1.newHeader crc).toBytes
  | _ => True

instance (r : Ota (Supply Nor) × OtaOutcome) : Decidable (HeaderTakes r) := by
  unfold HeaderTakes
  split <;> infer_instance

/-- The power is lost while the header page is erased or programmed. -/
def CutsHeader (s : Ota (Supply Nor)) (c : OtaChunk) (r : Ota (Supply Nor) × OtaOutcome) : Bool :=
  c.seq = 0 && s.dev.fuse = 0 ||
    match r.2 with
    | .verified _ => !r.1.dev.lost && r.1.dev.fuse = 0
    | _ => false

end Ota

/-! ## A board -/

/-- A board: whether it is up, the update, the payloads that the upload in progress has taken,
what the flash held before the latest commit, and the image whose upload was committed last. -/
structure Board where
  up : Bool
  ota : Ota Nor
  uploaded : List UInt8
  base : Memory
  latest : Option (List UInt8)

/-- A request with the power for `k` calls, or a reset with the power for `k` calls of the
boot. -/
inductive BoardEvent
  | request (params : CgiParams) (k : Nat) (junk : Nor)
  | reset (k : Nat) (junk : Nor)

namespace Board

/-- A chunk up to its verification. -/
def staging (b : Board) (k : Nat) (junk : Nor) (c : OtaChunk) : Ota (Supply Nor) × OtaOutcome :=
  (b.ota.powered k).stage (cutDev junk) c

/-- The payloads that the upload has taken with a chunk: sequence number 0 begins anew, and a
chunk counts when it passes the guards. -/
def taken (b : Board) (k : Nat) (junk : Nor) (c : OtaChunk) : List UInt8 :=
  (if c.seq = 0 then [] else b.uploaded) ++
    (if ((b.ota.powered k).started (cutDev junk) c).Applies c then c.payload else [])

/-- A chunk; a board that has lost its power is down. -/
def receive (b : Board) (k : Nat) (junk : Nor) (c : OtaChunk) : Board where
  up := !((b.ota.powered k).receive (cutDev junk) c).dev.lost
  ota := ((b.ota.powered k).receive (cutDev junk) c).settled
  uploaded := b.taken k junk c
  base := if Ota.Commits (b.staging k junk c) then b.ota.dev.flash else b.base
  latest := if Ota.Commits (b.staging k junk c) then some (b.taken k junk c) else b.latest

/-- `OtaCheckAndApply` after a reset.  The copy ends in a reset itself. -/
def boot (b : Board) (k : Nat) (junk : Nor) : Board where
  up := ((cutDev junk).otaCheckAndApply (.lasting k b.ota.dev)).2 &&
    !((cutDev junk).otaCheckAndApply (.lasting k b.ota.dev)).1.lost
  ota := ⟨.boot, ((cutDev junk).otaCheckAndApply (.lasting k b.ota.dev)).1.state, false⟩
  uploaded := []
  base := b.base
  latest := b.latest

/-- One event; a board that is down receives nothing. -/
def step (b : Board) : BoardEvent → Board
  | .request params k junk =>
      if b.up then
        match OtaChunk.ofParams params with
        | none => b
        | some c => b.receive k junk c
      else b
  | .reset k junk => b.boot k junk

/-- A board that has been powered on, before its first boot. -/
def off (d : Nor) : Board := ⟨false, ⟨.boot, d, false⟩, [], d.flash, none⟩

/-- The slot holds, in full, what it held before the latest commit or the image whose upload was
committed last. -/
def AppWhole (b : Board) : Prop :=
  Same b.base b.ota.dev.flash otaAppAddr otaAppSize ∨
    ∃ img ∈ b.latest, 0 < img.length ∧ img.length ≤ otaAppSize ∧
      read b.ota.dev.flash otaAppAddr img.length = img

/-- **Brick safety**: so it is whenever the boot check has returned. -/
def BrickSafe (b : Board) : Prop := b.up = true → b.AppWhole

/-- The images which a boot compares, and the one uploaded last. -/
def images (b : Board) : List (List UInt8) :=
  [norDev.stagedImage b.ota.dev, norDev.appImage b.ota.dev] ++ b.latest.toList

/-- No two of them collide under the CRC. -/
def NoCollision (b : Board) : BoardEvent → Prop
  | .request _ _ _ => True
  | .reset _ _ => norDev.isPending b.ota.dev = true →
      (norDev.header b.ota.dev).size.toNat ≤ otaImageMaxSize →
      ∀ x ∈ b.images, ∀ y ∈ b.images, configCRC32 x = configCRC32 y → x = y

instance (b : Board) : (ev : BoardEvent) → Decidable (b.NoCollision ev)
  | .request _ _ _ => .isTrue trivial
  | .reset _ _ => inferInstanceAs (Decidable (_ → _ → _))

/-- A chunk finds the write pointer in or behind the staging region; a commit is of totals that
are those of the payloads taken, and finds a header page that takes the header; and if the power
is lost at the header page while an update is pending, what is left there has no magic, or is the
header that was there. -/
structure HeaderSafeChunk (b : Board) (k : Nat) (junk : Nor) (c : OtaChunk) : Prop where
  pointer : ((b.ota.powered k).started (cutDev junk) c).Applies c →
    otaImageAddr ≤ ((b.ota.powered k).started (cutDev junk) c).st.writeAddr
  totals : Ota.Commits (b.staging k junk c) = true →
    c.totals = some ((b.taken k junk c).length, configCRC32 (b.taken k junk c))
  takes : Ota.Commits (b.staging k junk c) = true → Ota.HeaderTakes (b.staging k junk c)
  torn : Ota.CutsHeader (b.ota.powered k) c (b.staging k junk c) = true →
    norDev.isPending b.ota.dev = true →
    (norDev.header junk).magic ≠ otaHdrMagic ∨ norDev.header junk = norDev.header b.ota.dev

/-- An event that keeps the header page what the boot check takes it for. -/
def HeaderSafe (b : Board) : BoardEvent → Prop
  | .request params k junk => b.up = true →
      ∀ c, OtaChunk.ofParams params = some c → b.HeaderSafeChunk k junk c
  | .reset _ _ => True

instance (b : Board) (k : Nat) (junk : Nor) (c : OtaChunk) :
    Decidable (b.HeaderSafeChunk k junk c) :=
  decidable_of_iff
    ((((b.ota.powered k).started (cutDev junk) c).Applies c →
        otaImageAddr ≤ ((b.ota.powered k).started (cutDev junk) c).st.writeAddr) ∧
      (Ota.Commits (b.staging k junk c) = true →
        c.totals = some ((b.taken k junk c).length, configCRC32 (b.taken k junk c))) ∧
      (Ota.Commits (b.staging k junk c) = true → Ota.HeaderTakes (b.staging k junk c)) ∧
      (Ota.CutsHeader (b.ota.powered k) c (b.staging k junk c) = true →
        norDev.isPending b.ota.dev = true → (norDev.header junk).magic ≠ otaHdrMagic ∨
          norDev.header junk = norDev.header b.ota.dev))
    ⟨fun h => ⟨h.1, h.2.1, h.2.2.1, h.2.2.2⟩, fun h => ⟨h.pointer, h.totals, h.takes, h.torn⟩⟩

instance (b : Board) : (ev : BoardEvent) → Decidable (b.HeaderSafe ev)
  | .request params k junk => inferInstanceAs (Decidable
      (b.up = true → ∀ c ∈ OtaChunk.ofParams params, b.HeaderSafeChunk k junk c))
  | .reset _ _ => .isTrue trivial

/-! ## The invariant -/

/-- The header is that of the image uploaded last. -/
def Describes (b : Board) : Prop :=
  ∃ img ∈ b.latest, (norDev.header b.ota.dev).size.toNat = img.length ∧
    (norDev.header b.ota.dev).crc32 = configCRC32 img

/-- The next boot copies the image uploaded last. -/
def Restarts (b : Board) : Prop :=
  norDev.isPending b.ota.dev = true ∧ norDev.StagedValid b.ota.dev ∧
    norDev.stagedImage b.ota.dev ∈ b.latest

/-- **The invariant**: the slot is whole or about to be copied to again, and a pending update
has a header without magic or that of the image uploaded last. -/
structure Sound (b : Board) : Prop where
  whole : b.AppWhole ∨ b.up = false ∧ b.Restarts
  armed : norDev.isPending b.ota.dev = true →
    (norDev.header b.ota.dev).magic ≠ otaHdrMagic ∨ b.Describes
  ranged : b.ota.st.Ranged

theorem sound_off {d : Nor} (h : norDev.isPending d = false) : (off d).Sound where
  whole := .inl (.inl (Same.refl _ _ _))
  armed := by
    intro hpending
    have hp : norDev.isPending d = true := hpending
    rw [h] at hp
    cases hp
  ranged := ⟨fun hne => absurd rfl hne, Nat.two_pow_pos 32⟩

theorem Sound.safe {b : Board} (h : b.Sound) : b.BrickSafe := by
  intro hup
  rcases h.whole with hwhole | ⟨hdown, _⟩
  · exact hwhole
  · rw [hup] at hdown
    cases hdown

/-- The slot is whole as long as neither it nor the record of the commits changes. -/
theorem AppWhole.congr {b b' : Board} (h : b.AppWhole) (hbase : b'.base = b.base)
    (hlatest : b'.latest = b.latest)
    (hsame : Same b.ota.dev.flash b'.ota.dev.flash otaAppAddr otaAppSize) : b'.AppWhole := by
  unfold AppWhole at *
  rw [hbase, hlatest]
  rcases h with hold | ⟨img, hmem, hpos, hlen, hread⟩
  · exact .inl (hold.trans hsame)
  · refine .inr ⟨img, hmem, hpos, hlen, ?_⟩
    rw [(hsame.mono (Nat.le_refl _) (Nat.add_le_add_left hlen _)).read_eq]
    exact hread

/-! ## The boot -/

/-- The staged image that passes the checks is the one uploaded last. -/
theorem Sound.staged_mem {b : Board} (h : b.Sound) (hcol : ∀ k junk, b.NoCollision (.reset k junk))
    (hpending : norDev.isPending b.ota.dev = true) (hvalid : norDev.StagedValid b.ota.dev) :
    norDev.stagedImage b.ota.dev ∈ b.latest := by
  rcases h.armed hpending with hmagic | ⟨img, hmem, _, hcrc⟩
  · exact absurd hvalid.magic hmagic
  · have heq : norDev.stagedImage b.ota.dev = img := by
      refine hcol 0 b.ota.dev hpending hvalid.fits _ (by simp [images]) _ ?_
        (hvalid.crc.trans hcrc)
      simp only [images, List.mem_append, Option.mem_toList]
      exact .inr hmem
    rw [heq]
    exact hmem

/-- The slot holds the image uploaded last when their CRCs agree. -/
theorem whole_of_match {b : Board} (hcol : ∀ k junk, b.NoCollision (.reset k junk))
    (hpending : norDev.isPending b.ota.dev = true) (hvalid : norDev.StagedValid b.ota.dev)
    (hmem : norDev.stagedImage b.ota.dev ∈ b.latest)
    (hmatch : configCRC32 (norDev.appImage b.ota.dev) = (norDev.header b.ota.dev).crc32) :
    b.AppWhole := by
  have heq : norDev.appImage b.ota.dev = norDev.stagedImage b.ota.dev :=
    hcol 0 b.ota.dev hpending hvalid.fits _ (by simp [images]) _ (by simp [images])
      (hmatch.trans hvalid.crc.symm)
  have hlen : (norDev.stagedImage b.ota.dev).length = (norDev.header b.ota.dev).size.toNat := by
    simp [OtaDev.stagedImage, OtaDev.bytes]
  refine .inr ⟨_, hmem, ?_, ?_, ?_⟩
  · rw [hlen]
    refine Nat.pos_of_ne_zero fun hzero => hvalid.nonempty ?_
    exact BitVec.eq_of_toNat_eq hzero
  · have hfits := hvalid.fits
    rw [hlen]
    unfold otaImageMaxSize otaImageAddr at hfits
    unfold otaAppSize
    omega
  · rw [hlen]
    exact heq

/-- A boot that only clears the flag leaves the flash as it was. -/
theorem sound_boot_of_flash {b : Board} (h : b.Sound) {k : Nat} {junk : Nor}
    (hflash : (b.boot k junk).ota.dev.flash = b.ota.dev.flash)
    (hpending : norDev.isPending b.ota.dev = true) (hwhole : b.AppWhole) :
    (b.boot k junk).Sound where
  whole := by
    refine .inl (hwhole.congr rfl rfl ?_)
    rw [hflash]
    exact Same.refl _ _ _
  armed := by
    intro _
    have hheader : norDev.header (b.boot k junk).ota.dev = norDev.header b.ota.dev :=
      header_congr (by rw [hflash]; exact Same.refl _ _ _)
    unfold Describes
    rw [hheader]
    exact h.armed hpending
  ranged := ⟨fun hne => absurd rfl hne, Nat.two_pow_pos 32⟩

/-- **A boot keeps the invariant**, wherever the power is lost. -/
theorem Sound.boot {b : Board} (h : b.Sound) (hcol : ∀ k junk, b.NoCollision (.reset k junk))
    (k : Nat) (junk : Nor) : (b.boot k junk).Sound := by
  have hclear (hr : (cutDev junk).otaCheckAndApply (.lasting k b.ota.dev) =
      ((cutDev junk).clearPending (.lasting k b.ota.dev), true)) :
      (b.boot k junk).ota.dev.flash = b.ota.dev.flash := by
    simp only [Board.boot, hr]
    exact flash_storageWrite junk _ _ _
  rcases (cutDev junk).otaCheckAndApply_cases (.lasting k b.ota.dev) with
    ⟨hpending, hr⟩ | ⟨hpending, hvalid, hr⟩ | ⟨hpending, hvalid, hmatch, hr⟩ |
      ⟨hpending, hvalid, hr⟩
  · -- nothing is pending
    have hnot : norDev.isPending b.ota.dev = false := hpending
    have hwhole : b.AppWhole := by
      rcases h.whole with hwhole | ⟨_, hrestart, _⟩
      · exact hwhole
      · rw [hnot] at hrestart
        cases hrestart
    have hdev : (b.boot k junk).ota.dev = b.ota.dev := by
      simp only [Board.boot, hr]
      rfl
    refine ⟨.inl (hwhole.congr rfl rfl ?_), ?_, ⟨fun hne => absurd rfl hne, Nat.two_pow_pos 32⟩⟩
    · rw [hdev]
      exact Same.refl _ _ _
    · intro hp
      rw [hdev, hnot] at hp
      cases hp
  · -- the staged image is turned down
    refine sound_boot_of_flash h (hclear hr) hpending ?_
    rcases h.whole with hwhole | ⟨_, _, hrestart, _⟩
    · exact hwhole
    · exact absurd ((stagedValid_cutDev junk).mpr hrestart) hvalid
  · -- the image is in the slot
    have hstaged := (stagedValid_cutDev junk).mp hvalid
    exact sound_boot_of_flash h (hclear hr) hpending
      (whole_of_match hcol hpending hstaged (h.staged_mem hcol hpending hstaged) hmatch)
  · -- the copy
    have hstaged := (stagedValid_cutDev junk).mp hvalid
    have hmem := h.staged_mem hcol hpending hstaged
    have hdev : (b.boot k junk).ota.dev = ((cutDev junk).otaApply (.lasting k b.ota.dev)
        (norDev.header b.ota.dev).size).state := by
      simp only [Board.boot, hr]
      rfl
    have hkeep (addr : Nat) (haddr : otaAppSize ≤ addr) (n : Nat) :
        (b.boot k junk).ota.dev.eeprom = b.ota.dev.eeprom ∧
          Same b.ota.dev.flash (b.boot k junk).ota.dev.flash addr n := by
      rw [hdev]
      exact otaApply_keeps junk (.lasting k b.ota.dev) hstaged.fits haddr n
    have hheader : norDev.header (b.boot k junk).ota.dev = norDev.header b.ota.dev :=
      header_congr (hkeep _ (Nat.le_refl _) _).2
    have hstage : norDev.stagedImage (b.boot k junk).ota.dev = norDev.stagedImage b.ota.dev := by
      unfold OtaDev.stagedImage
      rw [hheader]
      exact (hkeep otaImageAddr (by decide) _).2.read_eq
    have hstill : norDev.isPending (b.boot k junk).ota.dev = true := by
      rw [← hpending]
      exact congrArg (fun e : Nat → BitVec 32 => decide (e cfgOtaEepromAddr = otaEepromMagic))
        (hkeep _ (Nat.le_refl _) 0).1
    refine ⟨.inr ⟨?_, hstill, ?_, ?_⟩, ?_, ⟨fun hne => absurd rfl hne, Nat.two_pow_pos 32⟩⟩
    · simp only [Board.boot, hr, Bool.false_and]
    · exact ⟨by rw [hheader]; exact hstaged.magic, by rw [hheader]; exact hstaged.nonempty,
        by rw [hheader]; exact hstaged.fits, by rw [hstage, hheader]; exact hstaged.crc⟩
    · rw [hstage]
      exact hmem
    · intro _
      unfold Describes
      rw [hheader]
      exact h.armed hpending

/-! ## A request -/

/-- What staging leaves as it was: the EEPROM, the slot and the header page, and a power
that was lost. -/
structure Framed (d : Nor) (lost : Bool) (p : Supply Nor) : Prop where
  eeprom : p.state.eeprom = d.eeprom
  flash : Same d.flash p.state.flash 0 otaImageAddr
  power : lost = true → p.lost = true

theorem stagingKeeps_cutDev (junk d : Nor) (lost : Bool) :
    (cutDev junk).StagingKeeps (Framed d lost) where
  erase p addr haddr h := by
    have hbelow : 0 + otaImageAddr ≤ addr := by omega
    obtain ⟨heeprom, hsame⟩ := flashErase_keeps junk p (.inl hbelow)
    refine ⟨heeprom.trans h.eeprom, h.flash.trans hsame, fun hlost => ?_⟩
    have hp := h.power hlost
    exact (congrArg Supply.lost (Supply.lost_act hp)).trans hp
  program p addr bytes haddr h := by
    have hbelow : 0 + otaImageAddr ≤ addr := by omega
    obtain ⟨heeprom, hsame⟩ := flashProgram_keeps junk p (n := otaImageAddr) (.inl hbelow)
    refine ⟨heeprom.trans h.eeprom, h.flash.trans hsame, fun hlost => ?_⟩
    have hp := h.power hlost
    exact (congrArg Supply.lost (Supply.lost_act hp)).trans hp

variable {b : Board} {k : Nat} {junk : Nor} {c : OtaChunk}

/-- Sequence number 0 erases the header page, or leaves junk in it with the power lost. -/
theorem framed_started (s : Ota Nor) (k : Nat) (junk : Nor) (c : OtaChunk) :
    let p := ((s.powered k).started (cutDev junk) c).dev
    p.state.eeprom = s.dev.eeprom ∧ Same s.dev.flash p.state.flash 0 otaHeaderAddr ∧
      (norDev.header p.state = norDev.header s.dev ∨
        (norDev.header p.state).magic ≠ otaHdrMagic ∨
        (c.seq = 0 ∧ k = 0 ∧ p.lost = true ∧ norDev.header p.state = norDev.header junk)) := by
  intro p
  by_cases hz : c.seq = 0
  · have hp : p = (cutDev junk).flashErase ((cutDev junk).flashErase (.lasting k s.dev)
        otaHeaderAddr) otaImageAddr := by
      simp only [p, Ota.started_of_zero _ hz]
      rfl
    have hheaderPage : 0 + otaHeaderAddr ≤ otaHeaderAddr := by decide
    have himagePage : 0 + otaImageAddr ≤ otaImageAddr := by decide
    obtain ⟨heeprom₁, hsame₁⟩ :=
      flashErase_keeps junk (.lasting k s.dev) (.inl hheaderPage)
    obtain ⟨heeprom₂, hsame₂⟩ := flashErase_keeps junk
      ((cutDev junk).flashErase (.lasting k s.dev) otaHeaderAddr) (.inl himagePage)
    rw [← hp] at heeprom₂ hsame₂
    refine ⟨heeprom₂.trans heeprom₁,
      hsame₁.trans (hsame₂.mono (Nat.le_refl _) (by decide)), .inr ?_⟩
    have hheader : norDev.header p.state =
        norDev.header ((cutDev junk).flashErase (.lasting k s.dev) otaHeaderAddr).state :=
      header_congr (hsame₂.mono (by decide) (by decide))
    rw [hheader]
    cases k with
    | zero =>
        refine .inr ⟨hz, rfl, ?_, ?_⟩
        · rw [hp]
          rfl
        · exact header_congr (same_junk_scramble _ _ (Nat.le_refl _) (by decide))
    | succ k =>
        exact .inl (magic_of_erased ((erased_erase _ _ _).mono (Nat.le_refl _) (by decide)))
  · have hp : p = .lasting k s.dev := by
      simp only [p, Ota.started_of_ne _ hz]
      rfl
    rw [hp]
    exact ⟨rfl, Same.refl _ _ _, .inl rfl⟩

/-- The chunk up to its verification: the counters, the EEPROM and the slot. -/
theorem Sound.staged (h : b.Sound) (hsafe : b.HeaderSafeChunk k junk c) :
    (b.staging k junk c).1.st.Ranged ∧
      Framed ((b.ota.powered k).started (cutDev junk) c).dev.state
        ((b.ota.powered k).started (cutDev junk) c).dev.lost (b.staging k junk c).1.dev := by
  have hranged : ((b.ota.powered k).started (cutDev junk) c).st.Ranged ∧
      (((b.ota.powered k).started (cutDev junk) c).Applies c →
        otaImageAddr ≤ ((b.ota.powered k).started (cutDev junk) c).st.lastErasedPage) := by
    by_cases hz : c.seq = 0
    · rw [Ota.started_of_zero _ hz]
      exact ⟨⟨fun _ => Nat.le_refl _, Nat.two_pow_pos 32⟩, fun _ => Nat.le_refl _⟩
    · rw [Ota.started_of_ne _ hz]
      refine ⟨h.ranged, fun happ => h.ranged.page ?_⟩
      intro hnext
      exact hz (happ.2.trans hnext)
  exact Ota.kept_guard (stagingKeeps_cutDev junk _ _) hranged.1 ⟨rfl, Same.refl _ _ _, id⟩
    fun happ => ⟨hsafe.pointer happ, hranged.2 happ, hranged.1.size⟩

theorem totals_of_verify {φ : Type} {dev : OtaDev φ} {s : Ota φ}
    {totals : Option (Nat × BitVec 32)} {crc : BitVec 32}
    (h : s.verify dev totals = .verified crc) : totals = some (s.st.size, crc) := by
  cases totals with
  | none => cases h
  | some t =>
      obtain ⟨totLen, totCrc⟩ := t
      unfold Ota.verify at h
      by_cases hmatch : s.st.size = totLen ∧ configCRC32 (s.staged dev) = totCrc
      · simp only [if_pos hmatch, OtaOutcome.verified.injEq] at h
        rw [hmatch.1, ← h, hmatch.2]
      · simp only [if_neg hmatch] at h
        cases h

/-- A verified image has the totals of the request. -/
theorem totals_of_verified {φ : Type} {dev : OtaDev φ} {s : Ota φ} {c : OtaChunk}
    {crc : BitVec 32} (h : (s.guard dev c).2 = .verified crc) :
    c.totals = some ((s.guard dev c).1.st.size, crc) := by
  by_cases happ : s.Applies c
  · rw [Ota.guard_of_applies dev happ] at h ⊢
    rcases Ota.apply_cases dev s c with ⟨_, heq⟩ | ⟨_, _, heq⟩ | ⟨_, _, heq⟩
    · rw [heq] at h
      cases h
    · rw [heq] at h
      cases h
    · rw [heq] at h ⊢
      exact totals_of_verify h
  · rcases Ota.guard_of_not_applies dev happ with ⟨heq, _⟩ | ⟨heq, _⟩ | ⟨heq, _⟩ <;>
    · rw [heq] at h
      cases h

/-- The header page before the commit: as it was, or without magic, or torn. -/
theorem Sound.staged_header (h : b.Sound) (hsafe : b.HeaderSafeChunk k junk c)
    (hpending : norDev.isPending b.ota.dev = true) :
    (norDev.header (b.staging k junk c).1.dev.state).magic ≠ otaHdrMagic ∨
      norDev.header (b.staging k junk c).1.dev.state = norDev.header b.ota.dev := by
  obtain ⟨_, hframe⟩ := h.staged hsafe
  have hheader : norDev.header (b.staging k junk c).1.dev.state =
      norDev.header ((b.ota.powered k).started (cutDev junk) c).dev.state :=
    header_congr (hframe.flash.mono (by decide) (by decide))
  rw [hheader]
  obtain ⟨_, _, hsame | hmagic | ⟨hz, hk, _, hjunk⟩⟩ := framed_started b.ota k junk c
  · exact .inr hsame
  · exact .inl hmagic
  · rw [hjunk]
    refine hsafe.torn ?_ hpending
    simp [Ota.CutsHeader, Ota.powered, Supply.lasting, hz, hk]

/-- An upload that is not committed keeps the invariant when it leaves the EEPROM and the slot
as they were, and the header page with the old header or without magic. -/
theorem Sound.uncommitted {b b' : Board} (h : b.Sound) (hup : b.up = true)
    (hbase : b'.base = b.base) (hlatest : b'.latest = b.latest)
    (heeprom : b'.ota.dev.eeprom = b.ota.dev.eeprom)
    (hslot : Same b.ota.dev.flash b'.ota.dev.flash 0 otaHeaderAddr)
    (hheader : norDev.isPending b.ota.dev = true →
      (norDev.header b'.ota.dev).magic ≠ otaHdrMagic ∨
        norDev.header b'.ota.dev = norDev.header b.ota.dev)
    (hranged : b'.ota.st.Ranged) : b'.Sound where
  whole := .inl ((h.safe hup).congr hbase hlatest (hslot.mono (Nat.le_refl _) (Nat.le_refl _)))
  armed := by
    intro hp
    have hpending : norDev.isPending b.ota.dev = true := by
      rw [← hp]
      exact congrArg (fun e : Nat → BitVec 32 => decide (e cfgOtaEepromAddr = otaEepromMagic))
        heeprom.symm
    rcases hheader hpending with hmagic | hsame
    · exact .inl hmagic
    · unfold Describes
      rw [hlatest, hsame]
      exact h.armed hpending
  ranged := hranged

/-- A commit cut short at the header: the slot is as it was, and the page as it was or torn. -/
theorem commit_cut (s : Ota (Supply Nor)) (crc : BitVec 32) (junk : Nor)
    (hcut : s.dev.lost = true ∨ s.dev.fuse = 0) :
    (s.commit (cutDev junk) crc).dev.state.eeprom = s.dev.state.eeprom ∧
      Same s.dev.state.flash (s.commit (cutDev junk) crc).dev.state.flash 0 otaHeaderAddr ∧
      (norDev.header (s.commit (cutDev junk) crc).dev.state = norDev.header s.dev.state ∨
        s.dev.lost = false ∧ norDev.header (s.commit (cutDev junk) crc).dev.state =
          norDev.header junk) := by
  obtain ⟨st, ⟨d, fuse, lost⟩, reset⟩ := s
  cases lost with
  | true => exact ⟨rfl, Same.refl _ _ _, .inl rfl⟩
  | false =>
      have hfuse : fuse = 0 := hcut.resolve_left Bool.false_ne_true
      subst hfuse
      exact ⟨rfl, same_scramble_of_disjoint _ _ (.inl (by decide)),
        .inr ⟨rfl, header_congr (same_junk_scramble _ _ (Nat.le_refl _) (Nat.le_refl _))⟩⟩

/-- A commit for whose header the power lasts. -/
theorem commit_taken (s : Ota (Supply Nor)) (crc : BitVec 32) (junk : Nor)
    (hlost : s.dev.lost = false) (hfuse : 0 < s.dev.fuse)
    (htake : Takes s.dev.state.flash otaHeaderAddr (s.newHeader crc).toBytes) :
    Same s.dev.state.flash (s.commit (cutDev junk) crc).dev.state.flash 0 otaHeaderAddr ∧
      norDev.header (s.commit (cutDev junk) crc).dev.state = s.newHeader crc := by
  have hflash : (s.commit (cutDev junk) crc).dev.state.flash =
      program s.dev.state.flash otaHeaderAddr (s.newHeader crc).toBytes := by
    refine (flash_storageWrite junk _ _ _).trans ?_
    obtain ⟨n, hn⟩ := Nat.exists_eq_succ_of_ne_zero (Nat.ne_of_gt hfuse)
    simp only [cutDev, Supply.act, hlost, hn, Bool.false_eq_true, if_false]
    rfl
  rw [hflash]
  refine ⟨same_program_of_disjoint _ (.inl (by decide)), ?_⟩
  rw [← header_program (fun _ => 0) htake]
  refine header_congr ?_
  rw [hflash]
  exact Same.refl _ _ _

/-- Before the commit, the chunk has left the EEPROM and the slot as they were. -/
theorem Sound.staged_keeps (h : b.Sound) (hsafe : b.HeaderSafeChunk k junk c) :
    (b.staging k junk c).1.dev.state.eeprom = b.ota.dev.eeprom ∧
      Same b.ota.dev.flash (b.staging k junk c).1.dev.state.flash 0 otaHeaderAddr := by
  obtain ⟨_, hframe⟩ := h.staged hsafe
  obtain ⟨heeprom, hslot, _⟩ := framed_started b.ota k junk c
  exact ⟨hframe.eeprom.trans heeprom,
    hslot.trans (hframe.flash.mono (Nat.le_refl _) (by decide))⟩

theorem receive_of_verified {crc : BitVec 32} (hout : (b.staging k junk c).2 = .verified crc) :
    (b.ota.powered k).receive (cutDev junk) c =
      (b.staging k junk c).1.commit (cutDev junk) crc := by
  have hreceive : (b.ota.powered k).receive (cutDev junk) c =
      Ota.conclude (cutDev junk) (b.staging k junk c) := rfl
  rw [hreceive]
  simp only [Ota.conclude, hout]

/-- A verified chunk for whose header the power does not last. -/
theorem Sound.receive_cut (h : b.Sound) (hup : b.up = true) (hsafe : b.HeaderSafeChunk k junk c)
    {crc : BitVec 32} (hout : (b.staging k junk c).2 = .verified crc)
    (hcut : (b.staging k junk c).1.dev.lost = true ∨ (b.staging k junk c).1.dev.fuse = 0) :
    (b.receive k junk c).Sound := by
  obtain ⟨hranged, _⟩ := h.staged hsafe
  obtain ⟨heeprom, hslot⟩ := h.staged_keeps hsafe
  obtain ⟨heeprom', hslot', hheader'⟩ := commit_cut (b.staging k junk c).1 crc junk hcut
  have hnot : Ota.Commits (b.staging k junk c) = false := by
    simp only [Ota.Commits, hout]
    grind
  refine h.uncommitted hup ?_ ?_ ?_ ?_ ?_ ?_ <;>
    simp only [Board.receive, receive_of_verified hout, hnot, Ota.settled, Bool.false_eq_true,
      if_false]
  · exact heeprom'.trans heeprom
  · exact hslot.trans hslot'
  · intro hpending
    rcases hheader' with hsame | ⟨hpower, hjunk⟩
    · rw [hsame]
      exact h.staged_header hsafe hpending
    · rw [hjunk]
      refine hsafe.torn ?_ hpending
      simp only [Ota.CutsHeader, hout]
      grind
  · exact ⟨hranged.page, hranged.size⟩

/-- A verified chunk whose header is programmed. -/
theorem Sound.receive_committed (h : b.Sound) (hsafe : b.HeaderSafeChunk k junk c)
    {crc : BitVec 32} (hout : (b.staging k junk c).2 = .verified crc)
    (hpower : (b.staging k junk c).1.dev.lost = false)
    (hfuse : 0 < (b.staging k junk c).1.dev.fuse) :
    (b.receive k junk c).Sound := by
  obtain ⟨hranged, _⟩ := h.staged hsafe
  obtain ⟨_, hslot⟩ := h.staged_keeps hsafe
  have hyes : Ota.Commits (b.staging k junk c) = true := by
    simp only [Ota.Commits, hout]
    grind
  have htakes := hsafe.takes hyes
  simp only [Ota.HeaderTakes, hout] at htakes
  obtain ⟨hslot', hheader'⟩ := commit_taken (b.staging k junk c).1 crc junk hpower hfuse htakes
  have htotals := (totals_of_verified hout).symm.trans (hsafe.totals hyes)
  rw [Option.some.injEq, Prod.mk.injEq] at htotals
  obtain ⟨hsize, hcrc⟩ := htotals
  have hcommit := receive_of_verified hout
  refine ⟨.inl (.inl ?_), fun _ => .inr ⟨b.taken k junk c, ?_⟩, ?_⟩
  · simp only [Board.receive, hcommit, hyes, Ota.settled, if_true]
    exact (hslot.trans hslot').mono (Nat.le_refl _) (Nat.le_refl _)
  · simp only [Board.receive, hcommit, hyes, Ota.settled, if_true, hheader', Ota.newHeader,
      Option.mem_some_iff, true_and]
    refine ⟨?_, hcrc⟩
    rw [BitVec.toNat_ofNat, Nat.mod_eq_of_lt hranged.size]
    exact hsize
  · simp only [Board.receive, hcommit, Ota.settled]
    exact ⟨hranged.page, hranged.size⟩

/-- **A chunk keeps the invariant**, wherever the power is lost. -/
theorem Sound.receive (h : b.Sound) (hup : b.up = true) (hsafe : b.HeaderSafeChunk k junk c) :
    (b.receive k junk c).Sound := by
  cases hout : (b.staging k junk c).2 with
  | verified crc =>
      by_cases hcut : (b.staging k junk c).1.dev.lost = true ∨ (b.staging k junk c).1.dev.fuse = 0
      · exact h.receive_cut hup hsafe hout hcut
      · obtain ⟨hpower, hfuse⟩ := not_or.mp hcut
        rw [Bool.not_eq_true] at hpower
        exact h.receive_committed hsafe hout hpower (Nat.pos_of_ne_zero hfuse)
  | _ =>
      obtain ⟨hranged, _⟩ := h.staged hsafe
      obtain ⟨heeprom, hslot⟩ := h.staged_keeps hsafe
      have hsame : (b.ota.powered k).receive (cutDev junk) c = (b.staging k junk c).1 := by
        have hreceive : (b.ota.powered k).receive (cutDev junk) c =
            Ota.conclude (cutDev junk) (b.staging k junk c) := rfl
        rw [hreceive]
        simp only [Ota.conclude, hout]
      have hnot : Ota.Commits (b.staging k junk c) = false := by
        simp only [Ota.Commits, hout]
      refine h.uncommitted hup ?_ ?_ ?_ ?_ ?_ ?_ <;>
        simp only [Board.receive, hsame, hnot, Ota.settled, Bool.false_eq_true, if_false]
      · exact heeprom
      · exact hslot
      · exact h.staged_header hsafe
      · exact hranged

/-! ## Runs -/

theorem Sound.step (h : b.Sound) {ev : BoardEvent} (hcol : b.NoCollision ev)
    (hsafe : b.HeaderSafe ev) : (b.step ev).Sound := by
  cases ev with
  | request params k junk =>
      cases hup : b.up with
      | false =>
          simp only [Board.step, hup, Bool.false_eq_true, if_false]
          exact h
      | true =>
          simp only [Board.step, hup, if_true]
          cases hc : OtaChunk.ofParams params with
          | none => exact h
          | some c => exact h.receive hup (hsafe hup c hc)
  | reset k junk => exact h.boot (fun _ _ => hcol) k junk

/-- **Brick safety.**  Over any run of requests, resets and power losses in which no images
collide and every request keeps the header page what the boot check takes it for, the slot
is whole whenever the boot check has returned. -/
theorem brickSafe_of_headerSafe (d : Nor) (h : norDev.isPending d = false)
    (evs : List BoardEvent) (hcol : Runs.EveryStep Board.step NoCollision (off d) evs)
    (hsafe : Runs.EveryStep Board.step HeaderSafe (off d) evs) :
    Runs.EveryState Board.step BrickSafe (off d) evs :=
  ((Runs.everyStep_and.mpr ⟨hcol, hsafe⟩).invariant
    (I := Sound) (fun _ _ hs hok => Sound.step hs hok.1 hok.2) (sound_off h)).mono
    fun _ hs => Sound.safe hs

/-! ## A copy cut short, and a second commit in one upload -/

/-- A first chunk of four bytes whose CRC is 0, sent as the last one. -/
def fourBytes : CgiParams :=
  [(ascii "seq", ascii "0"), (ascii "last", ascii "1"), (ascii "data", ascii "9d0ad96d"),
    (ascii "totlen", ascii "4"), (ascii "totcrc", ascii "0")]

/-- Eight bytes more, sent as the last chunk again, before the board has been reset. -/
def twelveBytes : CgiParams :=
  [(ascii "seq", ascii "1"), (ascii "last", ascii "1"), (ascii "data", ascii "0102030405060708"),
    (ascii "totlen", ascii "12"), (ascii "totcrc", ascii "3fca88c5")]

/-- A board with an empty flash. -/
def blank : Nor := ⟨fun _ => 0xFF, fun _ => 0⟩

/-- An upload, and a power loss in the course of the copy. -/
def cutCopy : List BoardEvent :=
  [.reset 99 blank, .request fourBytes 99 blank, .reset 7 blank, .reset 99 blank, .reset 99 blank]

theorem cut_copy_is_repeated :
    Runs.EveryState Board.step BrickSafe (off blank) cutCopy ∧
      (Runs.final Board.step (off blank) cutCopy).up = true ∧
      read (Runs.final Board.step (off blank) cutCopy).ota.dev.flash otaAppAddr 4 =
        [0x9D, 0x0A, 0xD9, 0x6D] :=
  ⟨brickSafe_of_headerSafe blank (by decide +kernel) cutCopy (by decide +kernel)
    (by decide +kernel), by decide +kernel, by decide +kernel⟩

/-- Two commits in one upload; the power is never lost. -/
def twoCommits : List BoardEvent :=
  [.reset 99 blank, .request fourBytes 99 blank, .request twelveBytes 99 blank,
    .reset 99 blank, .reset 99 blank]

/-- **The slot holds neither image**: the header of the second commit is programmed over that
of the first, which leaves the size and the CRC of the first, and the boot copies four bytes. -/
theorem second_commit_bricks :
    norDev.isPending blank = false ∧ Runs.EveryStep Board.step NoCollision (off blank) twoCommits ∧
      ¬Runs.EveryState Board.step BrickSafe (off blank) twoCommits := by
  refine ⟨by decide +kernel, by decide +kernel, fun hrun => ?_⟩
  rcases hrun.last (by decide +kernel) with hold | ⟨img, hmem, _, _, hread⟩
  · have hfirst := hold otaAppAddr (Nat.le_refl _) (by decide)
    revert hfirst
    decide +kernel
  · have himg : (Runs.final Board.step (off blank) twoCommits).latest =
        some [0x9D, 0x0A, 0xD9, 0x6D, 1, 2, 3, 4, 5, 6, 7, 8] := by decide +kernel
    rw [himg, Option.mem_some_iff] at hmem
    subst hmem
    revert hread
    decide +kernel

end Board

end HomeAuto
