import HomeAuto.OtaChunk

/-!
# Receiving an image on the CC35x1 (`webui_platform.c`)

The upload handlers of the CC35x1 hand the image to the PSA firmware update service.  Two
transports share one staging state: hex-encoded GET chunks, and binary POST bodies that
the HTTP server delivers in three callbacks.

The service is a parameter.  Its calls may answer anything at any time, so the results
about the handlers hold for every service.
-/

namespace HomeAuto

/-! ## The PSA firmware update service -/

/-- `PSA_FWU_READY`, … -/
inductive PsaFwuState
  | ready
  | writing
  | candidate
  | staged
  | failed
  | trial
  | rejected
  | updated
  | other
  deriving DecidableEq

/-- What `psa_fwu_query` reports of a component. -/
structure PsaFwuInfo where
  state : PsaFwuState
  primary : Bool

/-- `psa_status_t`: `PSA_SUCCESS`, `PSA_SUCCESS_REBOOT`, or an error. -/
inductive PsaStatus
  | success
  | successReboot
  | error (code : Int)
  deriving DecidableEq

/-- The service, on a state `ψ` of its own.  `manifestSize` is `TI_FWU_MANIFEST_SIZE`, the
size of an array.  A query that does not succeed reports nothing; the results of `cancel`,
`clean` and `reject` are not looked at. -/
structure PsaFwu (ψ : Type) where
  manifestSize : Nat
  manifestSize_pos : 0 < manifestSize
  maxComponentId : Nat
  query : Nat → StateM ψ (Option PsaFwuInfo)
  cancel : Nat → StateM ψ PUnit
  clean : Nat → StateM ψ PUnit
  reject : StateM ψ PUnit
  start : Nat → List UInt8 → StateM ψ PsaStatus
  write : Nat → Nat → List UInt8 → StateM ψ PsaStatus
  finish : Nat → StateM ψ PsaStatus
  install : StateM ψ PsaStatus

/-- `OTA_VENDOR_SLOT_1`, `OTA_VENDOR_SLOT_2`, `OTA_CHUNK_MAX`, `OTA_WRITE_BLOCK`,
`OTA_POST_CHUNK_MAX`. -/
def otaVendorSlot1 : Nat := 4
def otaVendorSlot2 : Nat := 5
def otaChunkMax : Nat := 512
def otaWriteBlock : Nat := 4096
def otaPostChunkMax : Nat := 8192

namespace PsaFwu

variable {ψ : Type} (psa : PsaFwu ψ)

/-- `OtaLogComponentStates`: query every component. -/
def otaLogComponentStates : StateM ψ PUnit := do
  for c in List.range psa.maxComponentId do
    let _ ← psa.query c

/-- The vendor slot that is not running, when exactly one of them is. -/
def inactiveSlot (sInfo1 sInfo2 : PsaFwuInfo) : Option Nat :=
  if !sInfo1.primary && sInfo2.primary then some otaVendorSlot1
  else if !sInfo2.primary && sInfo1.primary then some otaVendorSlot2
  else none

/-- Bring the target back to `READY` from the state it is in. -/
def makeReady (target : Nat) : PsaFwuState → StateM ψ Bool
  | .ready => return true
  | .writing | .candidate => do
      psa.cancel target
      psa.clean target
      return true
  | .staged | .trial => do
      psa.reject
      psa.clean target
      return true
  | .failed | .rejected | .updated => do
      psa.clean target
      return true
  | .other => return false

/-- Clear a stale component that would block the installation; `true` when it is the
running one, which cannot be cleared. -/
def clearStale (target c : Nat) : StateM ψ Bool := do
  if c = target then return false
  let some s ← psa.query c | return false
  if s.state ≠ .staged ∧ s.state ≠ .trial ∧ s.state ≠ .rejected ∧ s.state ≠ .failed then
    return false
  if s.primary then return true
  if s.state = .staged ∨ s.state = .trial then psa.reject
  psa.clean c
  return false

/-- `OtaPrepareTarget`. -/
def otaPrepareTarget : StateM ψ (Option Nat) := do
  psa.otaLogComponentStates
  let some sInfo1 ← psa.query otaVendorSlot1 | return none
  let some sInfo2 ← psa.query otaVendorSlot2 | return none
  let some target := inactiveSlot sInfo1 sInfo2 | return none
  let some sTgt ← psa.query target | return none
  let known ← psa.makeReady target sTgt.state
  if !known then return none
  let some sTgt ← psa.query target | return none
  if sTgt.state ≠ .ready then return none
  let blocked ← (List.range psa.maxComponentId).mapM (psa.clearStale target)
  if blocked.any id then return none
  return some target

end PsaFwu

/-! ## The staging state -/

/-- The file-global state of the upload; `wrBuf` is the filled part of `g_pui8WrBuf`, and
`postConn` is 0 for a null pointer.  `overrun` records that a copy has gone past the end of
its buffer. -/
structure VendorOta (ψ : Type) where
  target : Nat
  manifest : List UInt8
  fileOffset : Nat
  started : Bool
  abort : Bool
  nextSeq : Int
  rebootPending : Bool
  wrBuf : List UInt8
  wrBase : Nat
  maxBytes : Nat
  postConn : Nat
  chunkDup : Bool
  chunkLast : Bool
  resetRequested : Bool
  overrun : Bool
  psa : ψ

/-- What a request does to the upload. -/
inductive VendorOutcome
  | elsewhere
  | refused
  | ignored
  | duplicate
  | failed
  | accepted
  | stored
  | installed
  deriving DecidableEq

namespace VendorOta

variable {ψ : Type} (psa : PsaFwu ψ)

/-- The state after a reset, with the slot size found by `WebPlatformOtaInit`. -/
def boot (maxBytes : Nat) (p : ψ) : VendorOta ψ where
  target := 0
  manifest := List.replicate psa.manifestSize 0
  fileOffset := 0
  started := false
  abort := false
  nextSeq := 0
  rebootPending := false
  wrBuf := []
  wrBase := 0
  maxBytes := maxBytes
  postConn := 0
  chunkDup := false
  chunkLast := false
  resetRequested := false
  overrun := false
  psa := p

/-- Latch the error. -/
def aborted (s : VendorOta ψ) : VendorOta ψ := { s with abort := true }

/-- Latch the error and cancel the update, after a step of the service failed. -/
def cancelled (s : VendorOta ψ) : VendorOta ψ :=
  { s with abort := true, psa := ((psa.cancel s.target).run s.psa).2 }

/-- Hand the buffered block to `psa_fwu_write`; it is dropped when it has been taken. -/
def writeBlock (s : VendorOta ψ) : VendorOta ψ × PsaStatus :=
  match (psa.write s.target s.wrBase s.wrBuf).run s.psa with
  | (.success, p) =>
      ({ s with psa := p, wrBase := (s.wrBase + s.wrBuf.length) % 2 ^ 32, wrBuf := [] }, .success)
  | (st, p) => ({ s with psa := p }, st)

/-- `ui32Here`: the image offset behind the buffer. -/
def here (s : VendorOta ψ) : Nat := (s.wrBase + s.wrBuf.length) % 2 ^ 32

/-- `ui32Next`: the next block boundary. -/
def nextBlock (s : VendorOta ψ) : Nat := (s.here / otaWriteBlock + 1) * otaWriteBlock % 2 ^ 32

/-- `ui32Room`: the bytes up to the boundary. -/
def room (s : VendorOta ψ) : Nat := (s.nextBlock + 2 ^ 32 - s.here) % 2 ^ 32

/-- There is always room, so the loop of `OtaStageImage` ends. -/
theorem room_pos (s : VendorOta ψ) : 0 < s.room := by
  have hlt : s.here < 2 ^ 32 := Nat.mod_lt _ (by decide)
  simp only [room, nextBlock, otaWriteBlock]
  omega

/-- Buffer the bytes up to the boundary. -/
def buffer (s : VendorOta ψ) (data : List UInt8) : VendorOta ψ :=
  { s with
    wrBuf := s.wrBuf ++ data.take s.room
    overrun := s.overrun || decide (otaWriteBlock < s.wrBuf.length + (data.take s.room).length) }

/-- `OtaStageImage`. -/
def otaStageImage (s : VendorOta ψ) (data : List UInt8) : VendorOta ψ × PsaStatus :=
  if _h : data = [] then (s, .success)
  else if (s.buffer data).here = s.nextBlock then
    match (s.buffer data).writeBlock psa with
    | (s', .success) => s'.otaStageImage (data.drop s.room)
    | failure => failure
  else (s.buffer data).otaStageImage (data.drop s.room)
termination_by data.length
decreasing_by
  all_goals
    have hroom := s.room_pos
    have hlen := List.length_pos_iff.mpr _h
    rw [List.length_drop]
    omega

/-- `OtaFlushImage`. -/
def otaFlushImage (s : VendorOta ψ) : VendorOta ψ × PsaStatus :=
  if s.wrBuf = [] then (s, .success) else s.writeBlock psa

/-- Overwrite bytes from an offset on, as `memcpy` does. -/
def overwrite (buf : List UInt8) (off : Nat) (bytes : List UInt8) : List UInt8 :=
  buf.take off ++ bytes ++ buf.drop (off + bytes.length)

/-- The manifest part of `OtaFeed`: the bytes the manifest still needs. -/
def takeManifest (s : VendorOta ψ) (data : List UInt8) : VendorOta ψ :=
  { s with
    manifest := overwrite s.manifest s.fileOffset (data.take (psa.manifestSize - s.fileOffset))
    fileOffset := s.fileOffset + (data.take (psa.manifestSize - s.fileOffset)).length
    overrun := s.overrun || decide (psa.manifestSize <
      s.fileOffset + (data.take (psa.manifestSize - s.fileOffset)).length) }

/-- A complete manifest starts the update. -/
def startUpdate (s : VendorOta ψ) : VendorOta ψ × PsaStatus :=
  if s.fileOffset = psa.manifestSize ∧ s.started = false then
    match (psa.start s.target s.manifest).run s.psa with
    | (.success, p) =>
        ({ s with psa := p, started := true, wrBase := psa.manifestSize, wrBuf := [] }, .success)
    | (st, p) => ({ s with psa := p }, st)
  else (s, .success)

/-- The image part of `OtaFeed`. -/
def feedImage (s : VendorOta ψ) (data : List UInt8) : VendorOta ψ × PsaStatus :=
  if data = [] then (s, .success)
  else if s.started = false then (s, .error (-137))
  else
    match s.otaStageImage psa data with
    | (s', .success) =>
        ({ s' with fileOffset := (s'.fileOffset + data.length) % 2 ^ 32 }, .success)
    | failure => failure

/-- `OtaFeed`. -/
def otaFeed (s : VendorOta ψ) (data : List UInt8) : VendorOta ψ × PsaStatus :=
  if s.fileOffset < psa.manifestSize then
    match (s.takeManifest psa data).startUpdate psa with
    | (s', .success) => s'.feedImage psa (data.drop (psa.manifestSize - s.fileOffset))
    | failure => failure
  else s.feedImage psa data

/-- `OtaFinalize`. -/
def otaFinalize (s : VendorOta ψ) : VendorOta ψ × Bool :=
  match s.otaFlushImage psa with
  | (s, .success) =>
      match (psa.finish s.target).run s.psa with
      | (.success, p) =>
          match psa.install.run p with
          | (.successReboot, p) =>
              ({ s with psa := p, rebootPending := true, resetRequested := true }, true)
          | (_, p) => ({ s with psa := p }, false)
      | (_, p) => ({ s with psa := p }, false)
  | (s, _) => (s, false)

/-- Sequence number 0: reset the staging state. -/
def restarted (s : VendorOta ψ) : VendorOta ψ :=
  { s with
    fileOffset := 0
    started := false
    abort := false
    nextSeq := 0
    rebootPending := false
    wrBuf := []
    manifest := List.replicate psa.manifestSize 0 }

/-- Sequence number 0: reset the staging state and prepare the target slot. -/
def begin (s : VendorOta ψ) : VendorOta ψ × Bool :=
  match psa.otaPrepareTarget.run s.psa with
  | (some target, p) => ({ s.restarted psa with target := target, psa := p }, true)
  | (none, p) => ({ s.restarted psa with psa := p, abort := true }, false)

/-- The turn passes to the next sequence number. -/
def advance (s : VendorOta ψ) : VendorOta ψ := { s with nextSeq := (s.nextSeq + 1).bmod (2 ^ 32) }

/-- The end of the image: install it, or cancel the update. -/
def complete (s : VendorOta ψ) : VendorOta ψ × VendorOutcome :=
  match s.otaFinalize psa with
  | (s, true) => (s, .installed)
  | (s, false) => (s.cancelled psa, .failed)

/-- The guards before a chunk is applied. -/
def guard (s : VendorOta ψ) (seq : Int) : Option VendorOutcome :=
  if s.abort then some .ignored
  else if seq < s.nextSeq then some .duplicate
  else if s.nextSeq < seq then some .failed
  else none

/-! ## The hex-encoded GET chunks -/

/-- `OtaFindParam`. -/
def otaFindParam (pcName : CStr) (params : CgiParams) : Option CStr :=
  findCGIParameter pcName params

/-- `OtaHexNibble`. -/
def otaHexNibble (c : UInt8) : Option UInt8 :=
  if 48 ≤ c ∧ c ≤ 57 then some (c - 48)
  else if 97 ≤ c ∧ c ≤ 102 then some (c - 97 + 10)
  else if 65 ≤ c ∧ c ≤ 70 then some (c - 65 + 10)
  else none

/-- The payload of a chunk, unless a character is not a hexadecimal digit. -/
def otaHexBytes : CStr → Option (List UInt8)
  | c :: d :: rest => do
      let hi ← otaHexNibble c
      let lo ← otaHexNibble d
      let bytes ← otaHexBytes rest
      return (hi <<< 4 ||| lo) :: bytes
  | _ => some []

/-- `OtaStrToUl`: decimal digits only. -/
def otaStrToUl (p : CStr) : BitVec 32 :=
  (p.takeWhile isDecDigit).foldl (fun v c => v * 10#32 + BitVec.ofNat 32 (decDigit c)) 0#32

/-- A GET chunk as the handler reads it. -/
structure Chunk where
  seq : Int
  last : Bool
  data : CStr

/-- The parameters of a GET chunk, or `none` when `seq` or `data` is missing. -/
def Chunk.ofParams (params : CgiParams) : Option Chunk :=
  match otaFindParam (ascii "seq") params, otaFindParam (ascii "data") params with
  | some seq, some data => some {
      seq := (otaStrToUl seq).toInt
      last := (otaFindParam (ascii "last") params).any fun v => charAt v 0 = 49
      data := data }
  | _, _ => none

/-- Stage the payload of a chunk. -/
def feedChunk (s : VendorOta ψ) (bytes : List UInt8) (last : Bool) :
    VendorOta ψ × VendorOutcome :=
  match s.otaFeed psa bytes with
  | (s, .success) => if last then s.advance.complete psa else (s.advance, .stored)
  | (s, _) => (s.cancelled psa, .failed)

/-- A GET chunk in its turn. -/
def applyChunk (s : VendorOta ψ) (c : Chunk) : VendorOta ψ × VendorOutcome :=
  if otaChunkMax < c.data.length / 2 then (s.aborted, .failed)
  else
    match otaHexBytes c.data with
    | none => (s.aborted, .failed)
    | some bytes => s.feedChunk psa bytes c.last

/-- A GET chunk of a running upload. -/
def receiveChunk (s : VendorOta ψ) (c : Chunk) : VendorOta ψ × VendorOutcome :=
  match s.guard c.seq with
  | some .failed => (s.aborted, .failed)
  | some outcome => (s, outcome)
  | none => s.applyChunk psa c

/-- `WebPlatformOtaChunkCGI` on a chunk. -/
def chunk (s : VendorOta ψ) (c : Chunk) : VendorOta ψ × VendorOutcome :=
  if c.seq = 0 then
    match s.begin psa with
    | (s, true) => s.receiveChunk psa c
    | (s, false) => (s, .failed)
  else s.receiveChunk psa c

/-- The page that answers a GET chunk. -/
def chunkPage (last : Bool) : VendorOutcome → OtaPage
  | .duplicate => if last then .fwupdateOk else .otaack
  | .installed => .fwupdateOk
  | .stored => .tools
  | _ => .otaack

/-- `WebPlatformOtaChunkCGI`. -/
def webPlatformOtaChunkCGI (s : VendorOta ψ) (params : CgiParams) : VendorOta ψ × OtaPage :=
  match Chunk.ofParams params with
  | none => (s, .otaack)
  | some c => ((s.chunk psa c).1, chunkPage c.last (s.chunk psa c).2)

/-! ## The binary POST bodies -/

/-- `OtaUriQueryU32`: the number behind a key that follows `?` or `&`.  Occurrences of a
key do not overlap, so going on behind the next byte is going on behind the key. -/
def otaUriQueryU32 (key : CStr) : Option UInt8 → CStr → Option (BitVec 32)
  | _, [] => none
  | prev, c :: rest =>
      if key.isPrefixOf (c :: rest) ∧ (prev = some 63 ∨ prev = some 38) then
        some (otaStrToUl ((c :: rest).drop key.length))
      else otaUriQueryU32 key (some c) rest

/-- Does the URI name the upload endpoint? -/
def isUploadUri (uri : CStr) : Bool :=
  (ascii "/fwupload").isPrefixOf uri && (charAt uri 9 = 0 || charAt uri 9 = 63)

/-- A body that may be received: its sequence number and whether it is the last one. -/
structure Body where
  seq : Int
  last : Bool
  length : Nat
  deriving DecidableEq

/-- The body that a POST request announces. -/
def Body.ofUri (uri : CStr) (contentLen : Int) : Option Body :=
  if contentLen ≤ 0 ∨ otaPostChunkMax < contentLen then none
  else
    (otaUriQueryU32 (ascii "seq=") none uri).map fun seq => {
      seq := seq.toInt
      last := (otaUriQueryU32 (ascii "last=") none uri).getD 0#32 ≠ 0#32
      length := contentLen.toNat }

/-- A body that has passed the guards: a resent one, or a new one that fits the slot. -/
def admitBody (s : VendorOta ψ) (connection : Nat) (b : Body) (dup : Bool) :
    VendorOta ψ × VendorOutcome :=
  if dup = false ∧ s.maxBytes < s.fileOffset + b.length then
    ({ s with chunkDup := dup, abort := true }, .failed)
  else
    ({ s with chunkDup := dup, chunkLast := b.last, postConn := connection }, .accepted)

/-- A body of a running upload is announced. -/
def announceBody (s : VendorOta ψ) (connection : Nat) (b : Body) : VendorOta ψ × VendorOutcome :=
  match s.guard b.seq with
  | some .failed => (s.aborted, .failed)
  | some .duplicate => s.admitBody connection b true
  | some outcome => (s, outcome)
  | none => s.admitBody connection b false

/-- `httpd_post_begin` on a body. -/
def body (s : VendorOta ψ) (connection : Nat) (b : Body) : VendorOta ψ × VendorOutcome :=
  if b.seq = 0 then
    match s.begin psa with
    | (s, true) => s.announceBody connection b
    | (s, false) => (s, .failed)
  else s.announceBody connection b

/-- `httpd_post_begin`: it returns `ERR_OK` when the outcome is `accepted`. -/
def httpdPostBegin (s : VendorOta ψ) (connection : Nat) (uri : CStr) (contentLen : Int) :
    VendorOta ψ × VendorOutcome :=
  if isUploadUri uri = false then (s, .elsewhere)
  else
    match Body.ofUri uri contentLen with
    | none => (s, .refused)
    | some b => s.body psa connection b

/-- The page `httpd_post_begin` names. -/
def beginPage : VendorOutcome → Option OtaPage
  | .elsewhere | .accepted => none
  | _ => some .otaack

/-- The buffers of a `pbuf` chain, fed one by one until the service fails. -/
def feedPbufs (s : VendorOta ψ) : List (List UInt8) → VendorOta ψ × VendorOutcome
  | [] => (s, .accepted)
  | buf :: bufs =>
      if buf = [] then s.feedPbufs bufs
      else
        match s.otaFeed psa buf with
        | (s, .success) => s.feedPbufs bufs
        | (s, _) => (s.cancelled psa, .failed)

/-- `httpd_post_receive_data`. -/
def httpdPostReceiveData (s : VendorOta ψ) (connection : Nat) (bufs : List (List UInt8)) :
    VendorOta ψ × VendorOutcome :=
  if connection ≠ s.postConn then (s, .refused)
  else if s.abort then (s, .ignored)
  else if s.chunkDup then (s, .duplicate)
  else s.feedPbufs psa bufs

/-- `httpd_post_finished`. -/
def httpdPostFinished (s : VendorOta ψ) (connection : Nat) : VendorOta ψ × VendorOutcome :=
  if connection ≠ s.postConn then (s, .refused)
  else if s.abort then (s, .ignored)
  else if s.chunkDup then (s, .duplicate)
  else if s.chunkLast then s.advance.complete psa
  else (s.advance, .stored)

/-- The page that answers a POST body. -/
def finishedPage (last : Bool) : VendorOutcome → Option OtaPage
  | .refused => none
  | .duplicate => some (if last then .fwupdateOk else .otaack)
  | .installed => some .fwupdateOk
  | _ => some .otaack

/-! ## The guards -/

/-- The guards, said once: an aborted upload, a resent chunk, a gap, or a chunk in its
turn. -/
theorem guard_cases (s : VendorOta ψ) (seq : Int) :
    (s.abort = true ∧ s.guard seq = some .ignored) ∨
    (s.abort = false ∧ seq < s.nextSeq ∧ s.guard seq = some .duplicate) ∨
    (s.abort = false ∧ s.nextSeq < seq ∧ s.guard seq = some .failed) ∨
    (s.abort = false ∧ seq = s.nextSeq ∧ s.guard seq = none) := by
  unfold guard
  cases habort : s.abort with
  | true => exact .inl ⟨rfl, rfl⟩
  | false =>
      rcases Int.lt_trichotomy seq s.nextSeq with hlt | heq | hgt
      · exact .inr (.inl ⟨rfl, hlt, by simp [hlt]⟩)
      · exact .inr (.inr (.inr ⟨rfl, heq, by simp [heq]⟩))
      · exact .inr (.inr (.inl ⟨rfl, hgt, by simp [hgt, not_lt_of_gt hgt]⟩))

theorem begin_nextSeq (s : VendorOta ψ) : (s.begin psa).1.nextSeq = 0 := by
  unfold begin
  split <;> rfl

/-- A target that cannot be prepared aborts the upload. -/
theorem begin_failed {s : VendorOta ψ} (h : (s.begin psa).2 = false) :
    (s.begin psa).1.abort = true := by
  unfold begin at h ⊢
  split
  · rename_i heq
    rw [heq] at h
    cases h
  · rfl

theorem chunk_of_zero {s : VendorOta ψ} {c : Chunk} (h : c.seq = 0) :
    s.chunk psa c = if (s.begin psa).2 then (s.begin psa).1.receiveChunk psa c
      else ((s.begin psa).1, .failed) := by
  unfold chunk
  rw [if_pos h]
  split <;> (rename_i heq; rw [heq]; rfl)

theorem body_of_zero {s : VendorOta ψ} {connection : Nat} {b : Body} (h : b.seq = 0) :
    s.body psa connection b = if (s.begin psa).2 then (s.begin psa).1.announceBody connection b
      else ((s.begin psa).1, .failed) := by
  unfold body
  rw [if_pos h]
  split <;> (rename_i heq; rw [heq]; rfl)

/-! ## What staging leaves alone -/

/-- The upload and the request are where they were: staging moves the cursors only. -/
structure SameRequest (s t : VendorOta ψ) : Prop where
  abort : t.abort = s.abort
  nextSeq : t.nextSeq = s.nextSeq
  maxBytes : t.maxBytes = s.maxBytes
  postConn : t.postConn = s.postConn
  chunkDup : t.chunkDup = s.chunkDup
  chunkLast : t.chunkLast = s.chunkLast

theorem SameRequest.refl (s : VendorOta ψ) : SameRequest s s := ⟨rfl, rfl, rfl, rfl, rfl, rfl⟩

theorem SameRequest.trans {s t u : VendorOta ψ} (h : SameRequest s t) (h' : SameRequest t u) :
    SameRequest s u where
  abort := h'.abort.trans h.abort
  nextSeq := h'.nextSeq.trans h.nextSeq
  maxBytes := h'.maxBytes.trans h.maxBytes
  postConn := h'.postConn.trans h.postConn
  chunkDup := h'.chunkDup.trans h.chunkDup
  chunkLast := h'.chunkLast.trans h.chunkLast

theorem writeBlock_keeps (s : VendorOta ψ) :
    SameRequest s (s.writeBlock psa).1 ∧ (s.writeBlock psa).1.fileOffset = s.fileOffset := by
  unfold writeBlock
  split <;> exact ⟨⟨rfl, rfl, rfl, rfl, rfl, rfl⟩, rfl⟩

theorem otaStageImage_keeps (s : VendorOta ψ) (data : List UInt8) :
    SameRequest s (s.otaStageImage psa data).1 ∧
      (s.otaStageImage psa data).1.fileOffset = s.fileOffset := by
  have hbuffer : SameRequest s (s.buffer data) := ⟨rfl, rfl, rfl, rfl, rfl, rfl⟩
  rw [otaStageImage]
  by_cases hne : data = []
  · rw [dif_pos hne]
    exact ⟨.refl s, rfl⟩
  · rw [dif_neg hne]
    split
    · obtain ⟨hwrite, hoff⟩ := (s.buffer data).writeBlock_keeps psa
      split
      · rename_i s' heq
        rw [heq] at hwrite hoff
        obtain ⟨hrest, hrestoff⟩ := otaStageImage_keeps s' (data.drop s.room)
        exact ⟨(hbuffer.trans hwrite).trans hrest, hrestoff.trans hoff⟩
      · exact ⟨hbuffer.trans hwrite, hoff⟩
    · obtain ⟨hrest, hrestoff⟩ := otaStageImage_keeps (s.buffer data) (data.drop s.room)
      exact ⟨hbuffer.trans hrest, hrestoff⟩
termination_by data.length
decreasing_by
  all_goals
    have hroom := s.room_pos
    have hlen := List.length_pos_iff.mpr hne
    rw [List.length_drop]
    omega

theorem feedImage_keeps (s : VendorOta ψ) (data : List UInt8) :
    SameRequest s (s.feedImage psa data).1 ∧ ((s.feedImage psa data).2 = .success →
      s.fileOffset + data.length < 2 ^ 32 →
      (s.feedImage psa data).1.fileOffset = s.fileOffset + data.length) := by
  unfold feedImage
  split
  · rename_i hnil
    subst hnil
    exact ⟨.refl s, fun _ _ => rfl⟩
  · split
    · exact ⟨.refl s, fun hok => nomatch hok⟩
    · obtain ⟨hkeep, hoff⟩ := s.otaStageImage_keeps psa data
      split
      · rename_i s' heq
        rw [heq] at hkeep hoff
        refine ⟨hkeep.trans ⟨rfl, rfl, rfl, rfl, rfl, rfl⟩, fun _ hlt => ?_⟩
        dsimp only at hoff ⊢
        rw [hoff, Nat.mod_eq_of_lt hlt]
      · rename_i hfail
        refine ⟨hkeep, fun hok => absurd ?_ (hfail (s.otaStageImage psa data).1)⟩
        exact Prod.ext rfl hok

theorem startUpdate_keeps (s : VendorOta ψ) :
    SameRequest s (s.startUpdate psa).1 ∧ (s.startUpdate psa).1.fileOffset = s.fileOffset := by
  unfold startUpdate
  split
  · split <;> exact ⟨⟨rfl, rfl, rfl, rfl, rfl, rfl⟩, rfl⟩
  · exact ⟨.refl s, rfl⟩

/-- **`OtaFeed` keeps the request**, and counts the bytes it takes. -/
theorem otaFeed_keeps (s : VendorOta ψ) (data : List UInt8) :
    SameRequest s (s.otaFeed psa data).1 ∧ ((s.otaFeed psa data).2 = .success →
      s.fileOffset + data.length < 2 ^ 32 →
      (s.otaFeed psa data).1.fileOffset = s.fileOffset + data.length) := by
  unfold otaFeed
  split
  · obtain ⟨hstart, hoff⟩ := (s.takeManifest psa data).startUpdate_keeps psa
    have htake : SameRequest s (s.takeManifest psa data) := ⟨rfl, rfl, rfl, rfl, rfl, rfl⟩
    split
    · rename_i s' heq
      rw [heq] at hstart hoff
      obtain ⟨hfeed, hcount⟩ := s'.feedImage_keeps psa (data.drop (psa.manifestSize - s.fileOffset))
      have hoff' : s'.fileOffset =
          s.fileOffset + (data.take (psa.manifestSize - s.fileOffset)).length := hoff
      refine ⟨(htake.trans hstart).trans hfeed, fun hok hlt => ?_⟩
      have hsum : (data.take (psa.manifestSize - s.fileOffset)).length +
          (data.drop (psa.manifestSize - s.fileOffset)).length = data.length := by
        rw [← List.length_append, List.take_append_drop]
      rw [hcount hok (by omega)]
      omega
    · rename_i hfail
      refine ⟨htake.trans hstart, fun hok => absurd ?_
        (hfail ((s.takeManifest psa data).startUpdate psa).1)⟩
      exact Prod.ext rfl hok
  · exact s.feedImage_keeps psa data

theorem otaFlushImage_keeps (s : VendorOta ψ) :
    SameRequest s (s.otaFlushImage psa).1 ∧ (s.otaFlushImage psa).1.fileOffset = s.fileOffset := by
  unfold otaFlushImage
  split
  · exact ⟨.refl s, rfl⟩
  · exact s.writeBlock_keeps psa

theorem otaFinalize_keeps (s : VendorOta ψ) :
    SameRequest s (s.otaFinalize psa).1 ∧ (s.otaFinalize psa).1.fileOffset = s.fileOffset := by
  obtain ⟨hflush, hoff⟩ := s.otaFlushImage_keeps psa
  unfold otaFinalize
  split
  · rename_i s' heq
    rw [heq] at hflush hoff
    split
    · split <;> exact ⟨hflush.trans ⟨rfl, rfl, rfl, rfl, rfl, rfl⟩, hoff⟩
    · exact ⟨hflush.trans ⟨rfl, rfl, rfl, rfl, rfl, rfl⟩, hoff⟩
  · rename_i s' _ _ heq
    rw [heq] at hflush hoff
    exact ⟨hflush, hoff⟩

/-- The end of the image: installed with the request as it was, or aborted. -/
theorem complete_cases (s : VendorOta ψ) :
    ((s.complete psa).2 = .installed ∧ SameRequest s (s.complete psa).1 ∧
      (s.complete psa).1.fileOffset = s.fileOffset) ∨
    ((s.complete psa).2 = .failed ∧ (s.complete psa).1.abort = true ∧
      (s.complete psa).1.maxBytes = s.maxBytes) := by
  obtain ⟨hkeep, hoff⟩ := s.otaFinalize_keeps psa
  unfold complete
  cases hfin : s.otaFinalize psa with
  | mk s' ok =>
      rw [hfin] at hkeep hoff
      cases ok with
      | true => exact .inl ⟨rfl, hkeep, hoff⟩
      | false => exact .inr ⟨rfl, rfl, hkeep.maxBytes⟩

end VendorOta

/-- A service that takes everything, running from the second vendor slot. -/
def acceptingPsa : PsaFwu Unit where
  manifestSize := 16
  manifestSize_pos := by decide
  maxComponentId := 6
  query := fun c => return some ⟨.ready, c = otaVendorSlot2⟩
  cancel := fun _ => return
  clean := fun _ => return
  reject := return
  start := fun _ _ => return .success
  write := fun _ _ _ => return .success
  finish := fun _ => return .success
  install := return .successReboot

end HomeAuto
