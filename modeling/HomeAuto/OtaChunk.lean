import HomeAuto.OtaDevice

/-!
# Receiving an image (`WebPlatformOtaChunkCGI` of `enet_io.c`)

The TM4C1294 upload handler.  A request carries one chunk, hex-encoded, with its sequence
number; the handler stages the bytes word by word, erases pages as it reaches them, and
on the last chunk verifies the staged image and commits it.  `Ota.stage` is the handler
up to the verification and `Ota.commit` what follows it.
-/

namespace HomeAuto

/-- `HexNibble`: anything but a hexadecimal digit counts as 0. -/
def hexNibble (c : UInt8) : UInt8 :=
  if 48 ≤ c ∧ c ≤ 57 then c - 48
  else if 97 ≤ c ∧ c ≤ 102 then c - 97 + 10
  else if 65 ≤ c ∧ c ≤ 70 then c - 65 + 10
  else 0

/-- The bytes of a hexadecimal string; an odd digit at the end is dropped. -/
def hexBytes : CStr → List UInt8
  | hi :: lo :: rest => (hexNibble hi <<< 4 ||| hexNibble lo) :: hexBytes rest
  | _ => []

/-- A chunk as the handler reads it; `totals` are `totlen` and `totcrc`, when both are
there. -/
structure OtaChunk where
  seq : Int
  last : Bool
  payload : List UInt8
  totals : Option (Nat × BitVec 32)
  deriving DecidableEq

/-- The parameters of a request, or `none` when `seq` or `data` is missing. -/
def OtaChunk.ofParams (params : CgiParams) : Option OtaChunk :=
  match findCGIParameter (ascii "seq") params, findCGIParameter (ascii "data") params with
  | some seq, some data => some {
      seq := (ustrtoul seq 10).toInt
      last := (findCGIParameter (ascii "last") params).any fun v => charAt v 0 = 49
      payload := hexBytes data
      totals :=
        match findCGIParameter (ascii "totlen") params,
          findCGIParameter (ascii "totcrc") params with
        | some len, some crc => some ((ustrtoul len 10).toNat, ustrtoul crc 16)
        | _, _ => none }
  | _, _ => none

/-- The upload state; `alignBuf` is the filled part of `g_ui8OTAAlignBuf`. -/
structure OtaStatics where
  writeAddr : Nat
  size : Nat
  alignBuf : List UInt8
  lastErasedPage : Nat
  abort : Bool
  nextSeq : Int

/-- The upload state after a reset. -/
def OtaStatics.boot : OtaStatics := ⟨0, 0, [], 0, false, 0⟩

/-- The upload state that sequence number 0 begins with. -/
def OtaStatics.start : OtaStatics := ⟨otaImageAddr, 0, [], otaImageAddr, false, 0⟩

/-- The upload state, the device, and whether a reset has been requested. -/
structure Ota (φ : Type) where
  st : OtaStatics
  dev : φ
  resetRequested : Bool

/-- What becomes of a chunk. -/
inductive OtaOutcome
  | ignored
  | duplicate
  | gap
  | overflow
  | stored
  | rejected
  | verified (crc : BitVec 32)
  deriving DecidableEq

/-- The pages the handlers answer with. -/
inductive OtaPage
  | fwupdateOk
  | tools
  | otaack
  | defaultResponse
  deriving DecidableEq

/-- The page for an outcome. -/
def OtaOutcome.page (last : Bool) : OtaOutcome → OtaPage
  | .duplicate => if last then .fwupdateOk else .tools
  | .verified _ => .fwupdateOk
  | _ => .tools

/-- `ui32Addr & ~(0x4000 - 1)`. -/
def pageOf (addr : Nat) : Nat := addr / flashPageSize * flashPageSize

/-- The end of the staging region. -/
def otaStagingEnd : Nat := otaImageAddr + otaImageMaxSize

theorem otaStagingEnd_eq : otaStagingEnd = 0x100000 := rfl

theorem otaImageAddr_eq : otaImageAddr = 0x84000 := rfl

theorem otaHeaderAddr_eq : otaHeaderAddr = 0x80000 := rfl

theorem pageOf_eq (a : Nat) : pageOf a = a / 0x4000 * 0x4000 := rfl

/-- Where the write pointer of an upload stands: at a word, on the page erased last or at
its end. -/
structure OtaStatics.Placed (st : OtaStatics) : Prop where
  aligned : st.writeAddr % 4 = 0
  page : st.lastErasedPage % 0x4000 = 0
  first : otaImageAddr ≤ st.lastErasedPage
  last : st.lastErasedPage < otaStagingEnd
  ahead : st.writeAddr = otaImageAddr ∧ st.lastErasedPage = otaImageAddr ∨
    st.lastErasedPage < st.writeAddr
  near : st.writeAddr ≤ st.lastErasedPage + 0x4000

namespace OtaStatics.Placed

theorem start : OtaStatics.start.Placed where
  aligned := rfl
  page := rfl
  first := Nat.le_refl _
  last := by decide
  ahead := .inl ⟨rfl, rfl⟩
  near := Nat.le_add_right _ _

variable {st : OtaStatics}

/-- Only the pointer and the page erased last matter. -/
theorem congr {st' : OtaStatics} (h : st.Placed) (hw : st'.writeAddr = st.writeAddr)
    (hl : st'.lastErasedPage = st.lastErasedPage) : st'.Placed := by
  obtain ⟨h1, h2, h3, h4, h5, h6⟩ := h
  rw [← hw] at h1 h5 h6
  rw [← hl] at h2 h3 h4 h5 h6
  exact ⟨h1, h2, h3, h4, h5, h6⟩

theorem le_end (h : st.Placed) : st.writeAddr ≤ otaStagingEnd := by
  obtain ⟨_, hpage, _, hlast, _, hnear⟩ := h
  rw [otaStagingEnd_eq] at *
  omega

theorem least (h : st.Placed) : otaImageAddr ≤ st.writeAddr := by
  obtain ⟨_, _, hfirst, _, hahead, _⟩ := h
  omega

/-- The pointer stands on the page erased last unless it stands at the start of a later
page. -/
theorem on_page_iff (h : st.Placed) : pageOf st.writeAddr = st.lastErasedPage ↔
    ¬(st.writeAddr % 0x4000 = 0 ∧ st.writeAddr ≠ otaImageAddr) := by
  obtain ⟨_, hpage, hfirst, _, hahead, hnear⟩ := h
  rw [pageOf_eq]
  rw [otaImageAddr_eq] at *
  omega

/-- Then it stands at the end of the page erased last. -/
theorem off_page (h : st.Placed) (hoff : pageOf st.writeAddr ≠ st.lastErasedPage) :
    pageOf st.writeAddr = st.writeAddr ∧ st.writeAddr = st.lastErasedPage + 0x4000 := by
  obtain ⟨_, hpage, hfirst, _, hahead, hnear⟩ := h
  rw [pageOf_eq] at *
  rw [otaImageAddr_eq] at *
  omega

/-- The pointer stays far below `2 ^ 32`. -/
theorem add_four (h : st.Placed) : (st.writeAddr + 4) % 2 ^ 32 = st.writeAddr + 4 := by
  have hend := h.le_end
  rw [otaStagingEnd_eq] at hend
  omega

/-- A word inside the region, with its page erased: where the pointer goes. -/
theorem next (h : st.Placed) (hend : st.writeAddr < otaStagingEnd) (buf : List UInt8) :
    ({ st with
      writeAddr := st.writeAddr + 4
      lastErasedPage := pageOf st.writeAddr
      alignBuf := buf } : OtaStatics).Placed := by
  have hleast := h.least
  obtain ⟨halign, hpage, hfirst, hlast, hahead, hnear⟩ := h
  have hend' := otaStagingEnd_eq
  have himg := otaImageAddr_eq
  constructor <;> dsimp only
  · omega
  · rw [pageOf_eq]
    omega
  · rw [pageOf_eq]
    omega
  · rw [pageOf_eq]
    omega
  · rw [pageOf_eq]
    omega
  · rw [pageOf_eq]
    omega

end OtaStatics.Placed

namespace Ota

variable {φ : Type} (dev : OtaDev φ)

/-- Sequence number 0: reset the state, erase the header and the first image page. -/
def begin (s : Ota φ) : Ota φ where
  st := .start
  dev := dev.flashErase (dev.flashErase s.dev otaHeaderAddr) otaImageAddr
  resetRequested := s.resetRequested

/-- Take a decoded byte into the alignment buffer. -/
def pushByte (s : Ota φ) (b : UInt8) : Ota φ :=
  { s with st := { s.st with alignBuf := s.st.alignBuf ++ [b], size := (s.st.size + 1) % 2 ^ 32 } }

/-- Erase the page of the write pointer when it is first entered. -/
def erasePage (s : Ota φ) : Ota φ :=
  if s.st.lastErasedPage < pageOf s.st.writeAddr then
    { s with
      st := { s.st with lastErasedPage := pageOf s.st.writeAddr }
      dev := dev.flashErase s.dev (pageOf s.st.writeAddr) }
  else s

/-- Program a word from the alignment buffer and move the write pointer. -/
def programWord (s : Ota φ) (word : List UInt8) : Ota φ :=
  { s with
    st := { s.st with writeAddr := (s.st.writeAddr + 4) % 2 ^ 32, alignBuf := [] }
    dev := dev.flashProgram s.dev s.st.writeAddr word }

/-- A full alignment buffer: abort past the end of the staging region, else store it. -/
def storeWord (s : Ota φ) : Ota φ :=
  if s.st.alignBuf.length = 4 then
    if otaStagingEnd ≤ s.st.writeAddr then
      { s with st := { s.st with abort := true, alignBuf := [] } }
    else (s.erasePage dev).programWord dev s.st.alignBuf
  else s

/-- One pass of the decode loop; after an abort the loop has been left. -/
def decodeByte (s : Ota φ) (b : UInt8) : Ota φ :=
  if s.st.abort then s else (s.pushByte b).storeWord dev

/-- The decode loop. -/
def decode (s : Ota φ) (payload : List UInt8) : Ota φ := payload.foldl (decodeByte dev) s

/-- `g_i32OTANextSeq++` for a chunk that has been applied; 32 bits wide. -/
def advance (s : Ota φ) : Ota φ :=
  if s.st.abort then s
  else { s with st := { s.st with nextSeq := (s.st.nextSeq + 1).bmod (2 ^ 32) } }

/-- A partial word, filled up with `0xFF`. -/
def padWord (buf : List UInt8) : List UInt8 := buf ++ List.replicate (4 - buf.length) 0xFF

/-- Flush the partial word at the end of the image. -/
def flushTail (s : Ota φ) : Ota φ :=
  if 0 < s.st.alignBuf.length then s.programWord dev (padWord s.st.alignBuf) else s

/-- The staged image. -/
def staged (s : Ota φ) : List UInt8 := dev.bytes s.dev otaImageAddr s.st.size

/-- Check the staged image against the totals of the request. -/
def verify (s : Ota φ) (totals : Option (Nat × BitVec 32)) : OtaOutcome :=
  match totals with
  | none => .rejected
  | some (totLen, totCrc) =>
      if s.st.size = totLen ∧ configCRC32 (s.staged dev) = totCrc then
        .verified (configCRC32 (s.staged dev))
      else .rejected

/-- The last chunk: flush and verify. -/
def finish (s : Ota φ) (c : OtaChunk) : Ota φ × OtaOutcome :=
  (s.flushTail dev, (s.flushTail dev).verify dev c.totals)

/-- A chunk in its turn: decode it, advance, and finish the last one. -/
def apply (s : Ota φ) (c : OtaChunk) : Ota φ × OtaOutcome :=
  if (s.decode dev c.payload).st.abort then ((s.decode dev c.payload).advance, .overflow)
  else if c.last then (s.decode dev c.payload).advance.finish dev c
  else ((s.decode dev c.payload).advance, .stored)

/-- The guards before a chunk is applied. -/
def guard (s : Ota φ) (c : OtaChunk) : Ota φ × OtaOutcome :=
  if s.st.abort then (s, .ignored)
  else if c.seq < s.st.nextSeq then (s, .duplicate)
  else if s.st.nextSeq < c.seq then ({ s with st := { s.st with abort := true } }, .gap)
  else s.apply dev c

/-- Begin an upload on sequence number 0. -/
def started (s : Ota φ) (c : OtaChunk) : Ota φ := if c.seq = 0 then s.begin dev else s

/-- The handler up to the verification. -/
def stage (s : Ota φ) (c : OtaChunk) : Ota φ × OtaOutcome := (s.started dev c).guard dev c

/-- The header of a verified image. -/
def newHeader (s : Ota φ) (crc : BitVec 32) : OtaHeader :=
  ⟨otaHdrMagic, BitVec.ofNat 32 s.st.size, crc, 0#32⟩

/-- Write the header, arm the pending flag and request the reset. -/
def commit (s : Ota φ) (crc : BitVec 32) : Ota φ :=
  { s with
    dev := dev.setPending (dev.flashProgram s.dev otaHeaderAddr (s.newHeader crc).toBytes)
      (BitVec.ofNat 32 s.st.size)
    resetRequested := true }

/-- What follows the verification. -/
def conclude (r : Ota φ × OtaOutcome) : Ota φ :=
  match r.2 with
  | .verified crc => r.1.commit dev crc
  | _ => r.1

/-- `WebPlatformOtaChunkCGI` on a chunk. -/
def receive (s : Ota φ) (c : OtaChunk) : Ota φ := conclude dev (s.stage dev c)

/-- `WebPlatformOtaChunkCGI`. -/
def webPlatformOtaChunkCGI (s : Ota φ) (params : CgiParams) : Ota φ × OtaPage :=
  match OtaChunk.ofParams params with
  | none => (s, .defaultResponse)
  | some c => (s.receive dev c, (s.stage dev c).2.page c.last)

/-! ## What a request can do -/

/-- A chunk that passes the guards. -/
def Applies (s : Ota φ) (c : OtaChunk) : Prop := s.st.abort = false ∧ c.seq = s.st.nextSeq

instance (s : Ota φ) (c : OtaChunk) : Decidable (s.Applies c) :=
  inferInstanceAs (Decidable (_ ∧ _))

theorem guard_of_applies {s : Ota φ} {c : OtaChunk} (h : s.Applies c) :
    s.guard dev c = s.apply dev c := by
  obtain ⟨habort, hseq⟩ := h
  simp [guard, habort, hseq]

/-- A chunk that the guards stop touches the abort flag at most. -/
theorem guard_of_not_applies {s : Ota φ} {c : OtaChunk} (h : ¬s.Applies c) :
    (s.guard dev c = (s, .ignored) ∧ s.st.abort = true) ∨
      (s.guard dev c = (s, .duplicate) ∧ s.st.abort = false ∧ c.seq < s.st.nextSeq) ∨
      (s.guard dev c = ({ s with st := { s.st with abort := true } }, .gap) ∧
        s.st.nextSeq < c.seq) := by
  unfold guard
  by_cases habort : s.st.abort = true
  · exact .inl ⟨if_pos habort, habort⟩
  · rw [if_neg habort]
    by_cases hlt : c.seq < s.st.nextSeq
    · exact .inr (.inl ⟨if_pos hlt, by simpa using habort, hlt⟩)
    · rw [if_neg hlt]
      have hgt : s.st.nextSeq < c.seq := by
        have hne : c.seq ≠ s.st.nextSeq := fun heq => h ⟨by simpa using habort, heq⟩
        omega
      exact .inr (.inr ⟨if_pos hgt, hgt⟩)

theorem started_of_zero {s : Ota φ} {c : OtaChunk} (h : c.seq = 0) :
    s.started dev c = s.begin dev := if_pos h

theorem started_of_ne {s : Ota φ} {c : OtaChunk} (h : c.seq ≠ 0) : s.started dev c = s := if_neg h

/-- Sequence number 0 always passes the guards. -/
theorem applies_begin {s : Ota φ} {c : OtaChunk} (h : c.seq = 0) : (s.begin dev).Applies c :=
  ⟨rfl, h⟩

/-- The decode loop keeps what each of its passes keeps. -/
theorem decode_induction {I : Ota φ → Prop} (hbyte : ∀ s b, I s → I (decodeByte dev s b))
    (payload : List UInt8) {s : Ota φ} (h : I s) : I (s.decode dev payload) := by
  unfold decode
  induction payload generalizing s with
  | nil => exact h
  | cons b payload ih => exact ih (hbyte s b h)

/-- A word stored inside the region. -/
theorem store_st {s : Ota φ} (h : s.st.Placed) (word : List UInt8) :
    ((s.erasePage dev).programWord dev word).st = { s.st with
      writeAddr := s.st.writeAddr + 4
      lastErasedPage := pageOf s.st.writeAddr
      alignBuf := [] } := by
  unfold erasePage
  split
  · simp only [programWord, h.add_four]
  · have hon : pageOf s.st.writeAddr = s.st.lastErasedPage := by
      by_contra hoff
      have := h.off_page hoff
      omega
    simp only [programWord, h.add_four, hon]

/-! ## The decode loop -/

theorem decodeByte_of_abort {s : Ota φ} (h : s.st.abort = true) (b : UInt8) :
    s.decodeByte dev b = s := if_pos h

theorem decode_of_abort {s : Ota φ} (h : s.st.abort = true) (payload : List UInt8) :
    s.decode dev payload = s :=
  decode_induction dev (I := fun t => t = s)
    (fun t b ht => by rw [ht]; exact decodeByte_of_abort dev h b) payload rfl

theorem decodeByte_of_room {s : Ota φ} (habort : s.st.abort = false)
    (hlen : s.st.alignBuf.length < 3) (b : UInt8) : s.decodeByte dev b = s.pushByte b := by
  have hne : ¬(s.pushByte b).st.alignBuf.length = 4 := by
    simp only [pushByte, List.length_append, List.length_cons, List.length_nil]
    omega
  rw [decodeByte, if_neg (by simp [habort]), storeWord, if_neg hne]

theorem decodeByte_of_full {s : Ota φ} (habort : s.st.abort = false)
    (hlen : s.st.alignBuf.length = 3) (hend : s.st.writeAddr < otaStagingEnd) (b : UInt8) :
    s.decodeByte dev b =
      ((s.pushByte b).erasePage dev).programWord dev (s.st.alignBuf ++ [b]) := by
  have hfull : (s.pushByte b).st.alignBuf.length = 4 := by simp [pushByte, hlen]
  have hin : ¬otaStagingEnd ≤ (s.pushByte b).st.writeAddr := Nat.not_le_of_lt hend
  rw [decodeByte, if_neg (by simp [habort]), storeWord, if_pos hfull, if_neg hin]
  rfl

theorem decodeByte_of_end {s : Ota φ} (habort : s.st.abort = false)
    (hlen : s.st.alignBuf.length = 3) (hend : otaStagingEnd ≤ s.st.writeAddr) (b : UInt8) :
    s.decodeByte dev b =
      { s.pushByte b with st := { (s.pushByte b).st with abort := true, alignBuf := [] } } := by
  have hfull : (s.pushByte b).st.alignBuf.length = 4 := by simp [pushByte, hlen]
  have hout : otaStagingEnd ≤ (s.pushByte b).st.writeAddr := hend
  rw [decodeByte, if_neg (by simp [habort]), storeWord, if_pos hfull, if_pos hout]

theorem decodeByte_nextSeq (s : Ota φ) (b : UInt8) :
    (s.decodeByte dev b).st.nextSeq = s.st.nextSeq := by
  unfold decodeByte storeWord erasePage
  split_ifs <;> rfl

/-- Only the end of a chunk advances the turn. -/
theorem decode_nextSeq (s : Ota φ) (payload : List UInt8) :
    (s.decode dev payload).st.nextSeq = s.st.nextSeq :=
  decode_induction dev (I := fun t => t.st.nextSeq = s.st.nextSeq)
    (fun t b ht => (decodeByte_nextSeq dev t b).trans ht) payload rfl

/-- The state of an upload between two bytes. -/
structure InUpload (s : Ota φ) : Prop where
  placed : s.st.Placed
  buffered : s.st.alignBuf.length < 4

theorem InUpload.begin (s : Ota φ) : (s.begin dev).InUpload := ⟨.start, Nat.zero_lt_succ _⟩

/-- **One byte**, said once: after an abort nothing, else it is buffered, or completes a
word, or finds the region full. -/
theorem InUpload.decodeByte_cases {s : Ota φ} (h : s.InUpload) (b : UInt8) :
    (s.st.abort = true ∧ s.decodeByte dev b = s) ∨
      (s.st.abort = false ∧ s.st.alignBuf.length < 3 ∧ s.decodeByte dev b = s.pushByte b) ∨
      (s.st.abort = false ∧ s.st.alignBuf.length = 3 ∧ s.st.writeAddr < otaStagingEnd ∧
        s.decodeByte dev b =
          ((s.pushByte b).erasePage dev).programWord dev (s.st.alignBuf ++ [b])) ∨
      (s.st.abort = false ∧ s.st.alignBuf.length = 3 ∧ otaStagingEnd ≤ s.st.writeAddr ∧
        s.decodeByte dev b =
          { s.pushByte b with st := { (s.pushByte b).st with abort := true, alignBuf := [] } }) := by
  by_cases habort : s.st.abort = true
  · exact .inl ⟨habort, decodeByte_of_abort dev habort b⟩
  · rw [Bool.not_eq_true] at habort
    by_cases hlen : s.st.alignBuf.length < 3
    · exact .inr (.inl ⟨habort, hlen, decodeByte_of_room dev habort hlen b⟩)
    · have hthree : s.st.alignBuf.length = 3 := by
        have := h.buffered
        omega
      by_cases hend : s.st.writeAddr < otaStagingEnd
      · exact .inr (.inr (.inl
          ⟨habort, hthree, hend, decodeByte_of_full dev habort hthree hend b⟩))
      · exact .inr (.inr (.inr
          ⟨habort, hthree, by omega, decodeByte_of_end dev habort hthree (by omega) b⟩))

theorem InUpload.decodeByte {s : Ota φ} (h : s.InUpload) (b : UInt8) :
    (s.decodeByte dev b).InUpload := by
  rcases h.decodeByte_cases dev b with
    ⟨_, heq⟩ | ⟨_, hlen, heq⟩ | ⟨_, _, hend, heq⟩ | ⟨_, _, _, heq⟩
  · rw [heq]
    exact h
  · rw [heq]
    refine ⟨h.placed.congr rfl rfl, ?_⟩
    simp only [pushByte, List.length_append, List.length_cons, List.length_nil]
    omega
  · have hpush : (s.pushByte b).st.Placed := h.placed.congr rfl rfl
    have hst := store_st dev hpush (s.st.alignBuf ++ [b])
    rw [heq]
    refine ⟨?_, ?_⟩
    · rw [hst]
      exact hpush.next hend []
    · rw [hst]
      exact Nat.zero_lt_succ _
  · rw [heq]
    exact ⟨h.placed.congr rfl rfl, Nat.zero_lt_succ _⟩

/-- Where the write pointer is after the whole words of a payload, and what stays in the
alignment buffer. -/
def wordsEnd (s : Ota φ) (payload : List UInt8) : Nat :=
  s.st.writeAddr + 4 * ((s.st.alignBuf.length + payload.length) / 4)

/-- **The decode loop, counted**: it aborts when its whole words end behind the region,
and otherwise moves the pointer to their end. -/
theorem decode_counters {s : Ota φ} (h : s.InUpload) (habort : s.st.abort = false)
    (payload : List UInt8) :
    if s.wordsEnd payload ≤ otaStagingEnd then
      (s.decode dev payload).st.abort = false ∧
        (s.decode dev payload).st.writeAddr = s.wordsEnd payload ∧
        (s.decode dev payload).st.alignBuf.length =
          (s.st.alignBuf.length + payload.length) % 4
    else (s.decode dev payload).st.abort = true := by
  induction payload generalizing s with
  | nil =>
      have hle := h.placed.le_end
      have hbuf := h.buffered
      have hzero : s.wordsEnd [] = s.st.writeAddr := by
        rw [wordsEnd, List.length_nil]
        omega
      rw [if_pos (by omega), hzero]
      refine ⟨habort, rfl, ?_⟩
      rw [List.length_nil, Nat.add_zero, Nat.mod_eq_of_lt hbuf]
      rfl
  | cons b payload ih =>
      have hnext := h.decodeByte dev b
      have hcons : s.decode dev (b :: payload) = (s.decodeByte dev b).decode dev payload := rfl
      rw [hcons]
      rcases h.decodeByte_cases dev b with
        ⟨htrue, _⟩ | ⟨_, hlen, heq⟩ | ⟨_, hlen, hend, heq⟩ | ⟨_, hlen, hend, heq⟩
      · rw [habort] at htrue
        cases htrue
      · have hih := ih hnext (by rw [heq]; exact habort)
        have hwords : (s.decodeByte dev b).wordsEnd payload = s.wordsEnd (b :: payload) := by
          rw [heq]
          simp only [wordsEnd, pushByte, List.length_append, List.length_cons, List.length_nil]
          omega
        have hbuf : (s.decodeByte dev b).st.alignBuf.length = s.st.alignBuf.length + 1 := by
          rw [heq]
          simp [pushByte]
        rw [hwords, hbuf] at hih
        rw [List.length_cons, show s.st.alignBuf.length + (payload.length + 1) =
          s.st.alignBuf.length + 1 + payload.length by omega]
        exact hih
      · have hpush : (s.pushByte b).st.Placed := h.placed.congr rfl rfl
        have hst := store_st dev hpush (s.st.alignBuf ++ [b])
        rw [← heq] at hst
        have hih := ih hnext (by rw [hst]; exact habort)
        have hwords : (s.decodeByte dev b).wordsEnd payload = s.wordsEnd (b :: payload) := by
          rw [wordsEnd, hst]
          simp only [wordsEnd, pushByte, List.length_cons, List.length_nil, hlen]
          omega
        have hbuf : (s.decodeByte dev b).st.alignBuf.length = 0 := by
          rw [hst]
          rfl
        rw [hwords, hbuf] at hih
        rw [List.length_cons, hlen, show (3 + (payload.length + 1)) % 4 =
          (0 + payload.length) % 4 by omega]
        exact hih
      · rw [if_neg, heq]
        · rw [decode_of_abort dev rfl]
        · rw [wordsEnd, hlen, List.length_cons]
          omega

/-! ## A chunk in its turn -/

@[simp] theorem advance_dev (s : Ota φ) : s.advance.dev = s.dev := by
  unfold advance
  split <;> rfl

@[simp] theorem advance_writeAddr (s : Ota φ) : s.advance.st.writeAddr = s.st.writeAddr := by
  unfold advance
  split <;> rfl

@[simp] theorem advance_lastErasedPage (s : Ota φ) :
    s.advance.st.lastErasedPage = s.st.lastErasedPage := by
  unfold advance
  split <;> rfl

@[simp] theorem advance_alignBuf (s : Ota φ) : s.advance.st.alignBuf = s.st.alignBuf := by
  unfold advance
  split <;> rfl

@[simp] theorem advance_size (s : Ota φ) : s.advance.st.size = s.st.size := by
  unfold advance
  split <;> rfl

@[simp] theorem advance_abort (s : Ota φ) : s.advance.st.abort = s.st.abort := by
  unfold advance
  split <;> rfl

/-- The last chunk is verified or rejected. -/
theorem verify_cases (s : Ota φ) (totals : Option (Nat × BitVec 32)) :
    s.verify dev totals = .rejected ∨ ∃ crc, s.verify dev totals = .verified crc := by
  unfold verify
  cases totals with
  | none => exact .inl rfl
  | some t =>
      obtain ⟨totLen, totCrc⟩ := t
      dsimp only
      split
      · exact .inr ⟨_, rfl⟩
      · exact .inl rfl

/-- The turn passes to the next sequence number. -/
theorem advance_nextSeq {s : Ota φ} (h : s.st.abort = false) :
    s.advance.st.nextSeq = (s.st.nextSeq + 1).bmod (2 ^ 32) := by
  rw [advance, if_neg (by simp [h])]

/-- A chunk in its turn: it overflows, or it is stored, or it is the last one and the
tail is flushed. -/
theorem apply_cases (s : Ota φ) (c : OtaChunk) :
    ((s.decode dev c.payload).st.abort = true ∧
      s.apply dev c = ((s.decode dev c.payload).advance, .overflow)) ∨
    ((s.decode dev c.payload).st.abort = false ∧ c.last = false ∧
      s.apply dev c = ((s.decode dev c.payload).advance, .stored)) ∨
    ((s.decode dev c.payload).st.abort = false ∧ c.last = true ∧
      s.apply dev c = ((s.decode dev c.payload).advance.flushTail dev,
        ((s.decode dev c.payload).advance.flushTail dev).verify dev c.totals)) := by
  unfold apply
  cases (s.decode dev c.payload).st.abort with
  | true => exact .inl ⟨rfl, rfl⟩
  | false =>
      cases hlast : c.last with
      | false => exact .inr (.inl ⟨rfl, rfl, rfl⟩)
      | true => exact .inr (.inr ⟨rfl, rfl, rfl⟩)

end Ota

end HomeAuto
