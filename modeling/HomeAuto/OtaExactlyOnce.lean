import HomeAuto.OtaStaging

/-!
# What an upload stages

On a NOR flash: while an upload is not interrupted by a flush, the staged words and the
alignment buffer are the payloads of the chunks accepted so far, each once and in order.
The flush of the last chunk pads a partial word, which is right for the last chunk of an
image.  A last chunk that is rejected has been flushed as well, though, and its successor
is staged behind the padding.

`commits_exactly` is the guarantee for runs in which no data follows a padded flush and
no flush meets an unerased page; `padding_committed_inside_image` is a run without it.
-/

namespace HomeAuto

namespace Ota

open NorFlash

/-! ## Staged bytes -/

/-- The words staged and the partial word make up `bytes`, and the rest of the page is
still erased. -/
structure Exact (s : Ota Nor) (bytes : List UInt8) : Prop extends s.InUpload where
  content : read s.dev.flash otaImageAddr (s.st.writeAddr - otaImageAddr) ++ s.st.alignBuf = bytes
  size : s.st.size = bytes.length
  blank : Erased s.dev.flash s.st.writeAddr
    (s.st.lastErasedPage + 0x4000 - s.st.writeAddr)

/-- The image in flash is `bytes`. -/
structure Whole (s : Ota Nor) (bytes : List UInt8) : Prop where
  stored : read s.dev.flash otaImageAddr bytes.length = bytes
  size : s.st.size = bytes.length

theorem exact_begin (s : Ota Nor) : (s.begin norDev).Exact [] where
  toInUpload := .begin norDev s
  content := by simp [begin, OtaStatics.start, NorFlash.read]
  size := rfl
  blank := by
    have hfirst := erased_erase (erase s.dev.flash otaHeaderAddr flashPageSize) otaImageAddr
      flashPageSize
    simpa [begin, OtaStatics.start, norDev] using hfirst.mono (Nat.le_refl _) (by
      simp [flashPageSize])

/-- The number of bytes staged and buffered. -/
theorem Exact.length {s : Ota Nor} {bytes : List UInt8} (h : s.Exact bytes) :
    bytes.length = s.st.writeAddr - otaImageAddr + s.st.alignBuf.length := by
  rw [← h.content, List.length_append, length_read]

/-- A word stored at the pointer, with the page erased before it when it is a new one. -/
theorem store_flash {s : Ota Nor} (h : s.st.Placed)
    (hblank : Erased s.dev.flash s.st.writeAddr (s.st.lastErasedPage + 0x4000 - s.st.writeAddr))
    {word : List UInt8} (hword : word.length = 4) :
    read ((s.erasePage norDev).programWord norDev word).dev.flash otaImageAddr
        (s.st.writeAddr + 4 - otaImageAddr) =
        read s.dev.flash otaImageAddr (s.st.writeAddr - otaImageAddr) ++ word ∧
      Erased ((s.erasePage norDev).programWord norDev word).dev.flash (s.st.writeAddr + 4)
        (pageOf s.st.writeAddr + 0x4000 - (s.st.writeAddr + 4)) := by
  have hleast := h.least
  have hpage := h.page
  have hfirst := h.first
  have hnear := h.near
  have halign := h.aligned
  have hpageof := pageOf_eq s.st.writeAddr
  -- the flash before the word: the staged bytes, and an erased rest of the page
  obtain ⟨m, hm, hsame, herased⟩ : ∃ m, (s.erasePage norDev).dev.flash = m ∧
      Same s.dev.flash m otaImageAddr (s.st.writeAddr - otaImageAddr) ∧
      Erased m s.st.writeAddr (pageOf s.st.writeAddr + 0x4000 - s.st.writeAddr) := by
    refine ⟨_, rfl, ?_⟩
    by_cases hon : pageOf s.st.writeAddr = s.st.lastErasedPage
    · rw [erasePage, if_neg (by omega), hon]
      exact ⟨Same.refl _ _ _, hblank⟩
    · obtain ⟨hself, _⟩ := h.off_page hon
      rw [erasePage, if_pos (by omega), hself]
      refine ⟨same_erase_of_disjoint _ (.inl (by omega)), ?_⟩
      exact (erased_erase s.dev.flash s.st.writeAddr flashPageSize).mono (Nat.le_refl _) (by
        simp only [flashPageSize]
        omega)
  have hflash : ((s.erasePage norDev).programWord norDev word).dev.flash =
      program m s.st.writeAddr word := by
    have hw : (s.erasePage norDev).st.writeAddr = s.st.writeAddr := by
      unfold erasePage
      split <;> rfl
    rw [← hm, ← hw]
    rfl
  rw [hflash]
  constructor
  · have hlen : s.st.writeAddr + 4 - otaImageAddr =
        s.st.writeAddr - otaImageAddr + word.length := by omega
    have hat : s.st.writeAddr = otaImageAddr + (s.st.writeAddr - otaImageAddr) := by omega
    have hfour : Erased m (otaImageAddr + (s.st.writeAddr - otaImageAddr)) word.length := by
      rw [← hat]
      exact herased.mono (Nat.le_refl _) (by omega)
    have happ := read_program_append hfour
    rw [← hat, hsame.read_eq] at happ
    rw [hlen]
    exact happ
  · exact (herased.mono (Nat.le_add_right _ _) (by omega)).program_of_disjoint (.inr (by omega))

theorem Exact.pushByte {s : Ota Nor} {bytes : List UInt8} (h : s.Exact bytes)
    (hlen : s.st.alignBuf.length < 3) (b : UInt8) : (s.pushByte b).Exact (bytes ++ [b]) where
  placed := h.placed.congr rfl rfl
  buffered := by
    simp only [Ota.pushByte, List.length_append, List.length_cons, List.length_nil]
    omega
  content := by
    rw [← h.content, List.append_assoc]
    rfl
  size := by
    have hend := h.placed.le_end
    have hcount := h.length
    rw [otaStagingEnd_eq] at hend
    simp only [Ota.pushByte, h.size, List.length_append, List.length_cons, List.length_nil]
    omega
  blank := h.blank

/-- **One byte** is added to what is staged, or the upload aborts. -/
theorem Exact.decodeByte {s : Ota Nor} {bytes : List UInt8} (h : s.Exact bytes)
    (habort : s.st.abort = false) (b : UInt8) :
    (s.decodeByte norDev b).st.abort = true ∨
      (s.decodeByte norDev b).st.abort = false ∧ (s.decodeByte norDev b).Exact (bytes ++ [b]) := by
  have hin := h.toInUpload.decodeByte norDev b
  rcases h.toInUpload.decodeByte_cases norDev b with
    ⟨htrue, _⟩ | ⟨_, hlen, heq⟩ | ⟨_, hlen, hend, heq⟩ | ⟨_, _, _, heq⟩
  · rw [habort] at htrue
    cases htrue
  · rw [heq]
    exact .inr ⟨habort, h.pushByte hlen b⟩
  · have hpush : (s.pushByte b).st.Placed := h.placed.congr rfl rfl
    have hst := store_st norDev hpush (s.st.alignBuf ++ [b])
    have hfour : (s.st.alignBuf ++ [b]).length = 4 := by simp [hlen]
    have hflash := store_flash (s := s.pushByte b) hpush h.blank hfour
    have hle := h.placed.le_end
    have hcount := h.length
    rw [← heq] at hst hflash
    refine .inr ⟨by rw [hst]; exact habort, hin, ?_, ?_, ?_⟩
    · rw [hst, ← h.content, List.append_assoc, List.append_nil]
      exact hflash.1
    · rw [otaStagingEnd_eq] at hle
      rw [hst]
      simp only [Ota.pushByte, h.size, List.length_append, List.length_cons, List.length_nil]
      omega
    · rw [hst]
      exact hflash.2
  · rw [heq]
    exact .inl rfl

/-- The decode loop adds the payload. -/
theorem Exact.decode {s : Ota Nor} {bytes : List UInt8} (h : s.Exact bytes)
    (habort : s.st.abort = false) (payload : List UInt8) :
    (s.decode norDev payload).st.abort = true ∨
      (s.decode norDev payload).st.abort = false ∧
        (s.decode norDev payload).Exact (bytes ++ payload) := by
  induction payload generalizing s bytes with
  | nil =>
      rw [List.append_nil]
      exact .inr ⟨habort, h⟩
  | cons b payload ih =>
      have hcons : s.decode norDev (b :: payload) =
        (s.decodeByte norDev b).decode norDev payload := rfl
      rw [hcons]
      rcases h.decodeByte habort b with htrue | ⟨hfalse, hnext⟩
      · rw [decode_of_abort norDev htrue]
        exact .inl htrue
      · have := ih hnext hfalse
        rwa [List.append_assoc] at this

theorem Exact.advance {s : Ota Nor} {bytes : List UInt8} (h : s.Exact bytes) :
    s.advance.Exact bytes where
  placed := h.placed.congr (by simp) (by simp)
  buffered := by simpa using h.buffered
  content := by simpa using h.content
  size := by simpa using h.size
  blank := by simpa using h.blank

/-- **The flush completes the image**, on a page that has been erased. -/
theorem Exact.flushTail {s : Ota Nor} {bytes : List UInt8} (h : s.Exact bytes)
    (hon : s.st.alignBuf.length ≠ 0 → pageOf s.st.writeAddr = s.st.lastErasedPage) :
    (s.flushTail norDev).Whole bytes := by
  have hcount := h.length
  unfold Ota.flushTail
  by_cases hlen : 0 < s.st.alignBuf.length
  · rw [if_pos hlen]
    have hpage := hon (Nat.ne_of_gt hlen)
    have hbuf := h.buffered
    have hend : s.st.writeAddr < otaStagingEnd := by
      have := h.placed.page
      have := h.placed.last
      rw [pageOf_eq] at hpage
      rw [otaStagingEnd_eq] at *
      omega
    have hpad : (padWord s.st.alignBuf).length = 4 := by
      simp only [padWord, List.length_append, List.length_replicate]
      omega
    have hsame : s.erasePage norDev = s := by
      rw [erasePage, if_neg (by omega)]
    have hflash := (store_flash h.placed h.blank hpad).1
    rw [hsame] at hflash
    refine ⟨?_, h.size⟩
    have hleast := h.placed.least
    have hfront := take_read (s.programWord norDev (padWord s.st.alignBuf)).dev.flash otaImageAddr
      (n := bytes.length) (k := s.st.writeAddr + 4 - otaImageAddr) (by omega)
    rw [← hfront, hflash, padWord, ← List.append_assoc, h.content]
    exact List.take_left' rfl
  · rw [if_neg hlen]
    have hnil : s.st.alignBuf = [] := List.length_eq_zero_iff.mp (by omega)
    refine ⟨?_, h.size⟩
    have hcontent := h.content
    rw [hnil, List.append_nil] at hcontent
    rw [hcount, hnil, List.length_nil, Nat.add_zero]
    exact hcontent

/-! ## The commit leaves the image alone -/

theorem length_header_toBytes (h : OtaHeader) : h.toBytes.length = 16 := rfl

theorem same_commit (s : Ota Nor) (crc : BitVec 32) {addr n : Nat} (h : otaImageAddr ≤ addr) :
    Same s.dev.flash (s.commit norDev crc).dev.flash addr n :=
  same_program_of_disjoint _ (.inr (by
    rw [length_header_toBytes]
    rw [otaImageAddr_eq] at h
    rw [otaHeaderAddr_eq]
    omega))

theorem Exact.commit {s : Ota Nor} {bytes : List UInt8} (h : s.Exact bytes) (crc : BitVec 32) :
    (s.commit norDev crc).Exact bytes where
  placed := h.placed
  buffered := h.buffered
  content := by
    have hsame := same_commit s crc (n := s.st.writeAddr - otaImageAddr) (Nat.le_refl _)
    exact (congrArg (· ++ s.st.alignBuf) hsame.read_eq).trans h.content
  size := h.size
  blank := fun a hle hlt =>
    (same_commit s crc h.placed.least a hle hlt).trans (h.blank a hle hlt)

theorem Whole.commit {s : Ota Nor} {bytes : List UInt8} (h : s.Whole bytes) (crc : BitVec 32) :
    (s.commit norDev crc).Whole bytes where
  stored := by
    have hsame := same_commit s crc (n := bytes.length) (Nat.le_refl _)
    rw [hsame.read_eq]
    exact h.stored
  size := h.size

/-! ## The chunks delivered -/

/-- The handler with the chunks accepted in the current upload, in the order of their
acceptance, and whether a partial word has been padded since the upload began. -/
structure Delivered where
  ota : Ota Nor
  chunks : List (Int × List UInt8)
  padded : Bool

namespace Delivered

/-- The bytes of the accepted chunks. -/
def payloads (d : Delivered) : List UInt8 := (d.chunks.map Prod.snd).flatten

/-- Sequence number 0 begins a new upload. -/
def started (d : Delivered) (c : OtaChunk) : Delivered :=
  if c.seq = 0 then ⟨d.ota.begin norDev, [], false⟩ else d

/-- A chunk is accepted, and flushed if it is the last one. -/
def accept (d : Delivered) (c : OtaChunk) : Delivered where
  ota := d.ota
  chunks := d.chunks ++ [(c.seq, c.payload)]
  padded := d.padded || c.last && (d.ota.st.alignBuf.length + c.payload.length) % 4 != 0

/-- Record a chunk with this outcome. -/
def record (d : Delivered) (c : OtaChunk) : OtaOutcome → Delivered
  | .stored | .rejected | .verified _ => d.accept c
  | _ => d

/-- The next state of the handler in place of the old. -/
def withOta (d : Delivered) (s : Ota Nor) : Delivered := { d with ota := s }

/-- One request. -/
def deliver (d : Delivered) (params : CgiParams) : Delivered :=
  match OtaChunk.ofParams params with
  | none => d
  | some c => ((d.started c).record c (d.ota.stage norDev c).2).withOta
      (d.ota.webPlatformOtaChunkCGI norDev params).1

/-- After a reset, with anything in flash and EEPROM. -/
def boot (nor : Nor) : Delivered := ⟨⟨.boot, nor, false⟩, [], false⟩

/-- The accepted chunks are numbered from 0 on, each number once.  The handler counts in a
signed 32-bit variable. -/
def Numbered (d : Delivered) : Prop :=
  d.chunks.map Prod.fst = (List.range d.chunks.length).map fun k : Nat => (k : Int).bmod (2 ^ 32)

/-- **Exactly once, in order.**  If the request commits an image, its chunk is the last of
chunks 0, 1, …, and the staged image is their payloads one after the other, each once. -/
def CommitsExactly (d : Delivered) (params : CgiParams) : Prop :=
  ∀ c crc, OtaChunk.ofParams params = some c → (d.ota.stage norDev c).2 = .verified crc →
    (d.deliver params).Numbered ∧
      (d.deliver params).chunks.getLast? = some (c.seq, c.payload) ∧
      (d.deliver params).ota.Whole (d.deliver params).payloads

/-- The request appends nothing behind a padded flush and flushes onto an erased page. -/
def AppendsCleanly (d : Delivered) (params : CgiParams) : Prop :=
  ∀ c, OtaChunk.ofParams params = some c →
    ¬FlushesUnerased (d.started c).ota c ∧
      ((d.started c).ota.Applies c → (d.started c).padded = true → c.payload = [])

instance (d : Delivered) (params : CgiParams) : Decidable (d.AppendsCleanly params) :=
  inferInstanceAs (Decidable (∀ c ∈ OtaChunk.ofParams params,
    ¬FlushesUnerased (d.started c).ota c ∧
      ((d.started c).ota.Applies c → (d.started c).padded = true → c.payload = [])))

/-- The chunks accepted so far are what is staged. -/
structure Consistent (d : Delivered) : Prop where
  numbered : d.Numbered
  turn : d.ota.st.nextSeq = (d.chunks.length : Int).bmod (2 ^ 32)
  clean : d.padded = false → d.ota.Exact d.payloads
  whole : d.padded = true → d.ota.Whole d.payloads ∧ d.ota.st.alignBuf = []

/-- An upload that is under way and has not been aborted is consistent. -/
def Tracked (d : Delivered) : Prop :=
  d.ota.st.nextSeq ≠ 0 → d.ota.st.abort = false → d.Consistent

theorem ota_started (d : Delivered) (c : OtaChunk) :
    (d.started c).ota = d.ota.started norDev c := by
  by_cases hz : c.seq = 0
  · rw [started, if_pos hz, started_of_zero norDev hz]
  · rw [started, if_neg hz, started_of_ne norDev hz]

theorem Tracked.started {d : Delivered} (h : d.Tracked) {c : OtaChunk}
    (happ : (d.started c).ota.Applies c) : (d.started c).Consistent := by
  by_cases hz : c.seq = 0
  · rw [Delivered.started, if_pos hz]
    exact ⟨rfl, Int.zero_bmod.symm, fun _ => exact_begin d.ota, nofun⟩
  · rw [Delivered.started, if_neg hz] at happ ⊢
    exact h (happ.2 ▸ hz) happ.1

theorem payloads_accept (d : Delivered) (c : OtaChunk) :
    (d.accept c).payloads = d.payloads ++ c.payload := by
  simp [payloads, accept]

/-- A chunk in its turn takes the next number. -/
theorem Numbered.accept {d : Delivered} (h : d.Numbered) {c : OtaChunk}
    (hseq : c.seq = (d.chunks.length : Int).bmod (2 ^ 32)) : (d.accept c).Numbered := by
  have hlen : (d.chunks ++ [(c.seq, c.payload)]).length = d.chunks.length + 1 := by simp
  unfold Numbered Delivered.accept
  rw [hlen, List.range_succ, List.map_append, List.map_append, h]
  simp only [List.map_cons, List.map_nil, hseq]

/-- The turn after the next one. -/
theorem turn_accept {d : Delivered} {c : OtaChunk}
    (h : d.ota.st.nextSeq = (d.chunks.length : Int).bmod (2 ^ 32)) :
    (d.ota.st.nextSeq + 1).bmod (2 ^ 32) = ((d.accept c).chunks.length : Int).bmod (2 ^ 32) := by
  have hlen : (d.accept c).chunks.length = d.chunks.length + 1 := by simp [accept]
  rw [h, hlen, Int.bmod_add_bmod, Int.natCast_add, Int.natCast_one]

/-- The chunk decoded, before a flush: either the payloads are staged exactly, or a padded
image has been extended by nothing. -/
theorem Consistent.decoded {d : Delivered} (h : d.Consistent) {c : OtaChunk}
    (happ : d.ota.Applies c) (hclean : d.padded = true → c.payload = [])
    (hroom : (d.ota.decode norDev c.payload).st.abort = false) :
    (d.padded = false ∧
        (d.ota.decode norDev c.payload).advance.Exact (d.accept c).payloads) ∨
      (d.padded = true ∧
        (d.ota.decode norDev c.payload).advance.Whole (d.accept c).payloads ∧
        (d.ota.decode norDev c.payload).advance.st.alignBuf = []) := by
  cases hpad : d.padded with
  | false =>
      rcases (h.clean hpad).decode happ.1 c.payload with habort | ⟨_, hexact⟩
      · rw [hroom] at habort
        cases habort
      · rw [payloads_accept]
        exact .inl ⟨rfl, hexact.advance⟩
  | true =>
      obtain ⟨hwhole, hbuf⟩ := h.whole hpad
      have hnil : d.ota.decode norDev [] = d.ota := rfl
      rw [payloads_accept, hclean hpad, List.append_nil, hnil]
      exact .inr ⟨rfl, ⟨by simpa using hwhole.stored, by simpa using hwhole.size⟩,
        by simpa using hbuf⟩

/-- **A chunk that is stored.** -/
theorem Consistent.stored {d : Delivered} (h : d.Consistent) {c : OtaChunk}
    (happ : d.ota.Applies c) (hclean : d.padded = true → c.payload = [])
    (hroom : (d.ota.decode norDev c.payload).st.abort = false) (hlast : c.last = false) :
    ((d.accept c).withOta (d.ota.decode norDev c.payload).advance).Consistent where
  numbered := h.numbered.accept (happ.2.trans h.turn)
  turn := by
    have hturn := turn_accept (c := c) h.turn
    rw [← decode_nextSeq norDev d.ota c.payload] at hturn
    exact (advance_nextSeq hroom).trans hturn
  clean := by
    intro hpad
    rcases h.decoded happ hclean hroom with ⟨_, hexact⟩ | ⟨htrue, _, _⟩
    · exact hexact
    · simp [withOta, accept, htrue] at hpad
  whole := by
    intro hpad
    rcases h.decoded happ hclean hroom with ⟨hfalse, _⟩ | ⟨_, hwhole⟩
    · simp [withOta, accept, hfalse, hlast] at hpad
    · exact hwhole

/-- The flush of a chunk that meets no unerased page stays on the page erased last. -/
theorem on_page_of_not_flushesUnerased {s : Ota Nor} {c : OtaChunk} {bytes : List UInt8}
    (h : s.InUpload) (happ : s.Applies c) (hlast : c.last = true) (hno : ¬FlushesUnerased s c)
    (hroom : (s.decode norDev c.payload).st.abort = false)
    (hexact : (s.decode norDev c.payload).advance.Exact bytes) :
    (s.decode norDev c.payload).advance.st.alignBuf.length =
        (s.st.alignBuf.length + c.payload.length) % 4 ∧
      ((s.decode norDev c.payload).advance.st.alignBuf.length ≠ 0 →
        pageOf (s.decode norDev c.payload).advance.st.writeAddr =
          (s.decode norDev c.payload).advance.st.lastErasedPage) := by
  have hnum := decode_counters norDev h happ.1 c.payload
  have hin : s.wordsEnd c.payload ≤ otaStagingEnd := by
    by_contra hout
    rw [if_neg hout, hroom] at hnum
    cases hnum
  rw [if_pos hin] at hnum
  rw [hexact.placed.on_page_iff, advance_alignBuf, advance_writeAddr, hnum.2.1, hnum.2.2]
  refine ⟨rfl, ?_⟩
  rintro htail ⟨hstart, hne⟩
  exact hno ⟨happ, hlast, htail, hin, hstart, hne⟩

theorem flushTail_of_nil {s : Ota Nor} (h : s.st.alignBuf.length = 0) :
    s.flushTail norDev = s := by
  rw [Ota.flushTail, if_neg (by omega)]

theorem flushTail_nextSeq (s : Ota Nor) : (s.flushTail norDev).st.nextSeq = s.st.nextSeq := by
  unfold Ota.flushTail
  split <;> rfl

theorem flushTail_alignBuf (s : Ota Nor) : (s.flushTail norDev).st.alignBuf = [] := by
  unfold Ota.flushTail
  split
  · rfl
  · rename_i hlen
    exact List.length_eq_zero_iff.mp (by omega)

/-- **The last chunk**: what has been flushed is the image. -/
theorem Consistent.flushed {d : Delivered} (h : d.Consistent) {c : OtaChunk}
    (happ : d.ota.Applies c) (hclean : d.padded = true → c.payload = [])
    (hno : ¬FlushesUnerased d.ota c)
    (hroom : (d.ota.decode norDev c.payload).st.abort = false) (hlast : c.last = true) :
    ((d.accept c).withOta
        ((d.ota.decode norDev c.payload).advance.flushTail norDev)).Consistent ∧
      ((d.ota.decode norDev c.payload).advance.flushTail norDev).Whole (d.accept c).payloads := by
  have hturn : ((d.ota.decode norDev c.payload).advance.flushTail norDev).st.nextSeq =
      ((d.accept c).chunks.length : Int).bmod (2 ^ 32) := by
    have hnext := turn_accept (c := c) h.turn
    rw [← decode_nextSeq norDev d.ota c.payload] at hnext
    exact (flushTail_nextSeq _).trans ((advance_nextSeq hroom).trans hnext)
  have hnumbered := h.numbered.accept (happ.2.trans h.turn)
  rcases h.decoded happ hclean hroom with ⟨hfalse, hexact⟩ | ⟨htrue, hwhole, hbuf⟩
  · obtain ⟨hlen, hon⟩ := on_page_of_not_flushesUnerased (h.clean hfalse).toInUpload happ hlast
      hno hroom hexact
    have hwhole := hexact.flushTail hon
    refine ⟨⟨hnumbered, hturn, fun hpad => ?_, fun _ => ⟨hwhole, flushTail_alignBuf _⟩⟩, hwhole⟩
    have hzero : (d.ota.decode norDev c.payload).advance.st.alignBuf.length = 0 := by
      simpa [withOta, accept, hfalse, hlast, ← hlen] using hpad
    simp only [withOta, flushTail_of_nil hzero]
    exact hexact
  · rw [flushTail_of_nil (by rw [hbuf, List.length_nil])] at hturn ⊢
    exact ⟨⟨hnumbered, hturn, fun hpad => by simp [withOta, accept, htrue] at hpad,
      fun _ => ⟨hwhole, hbuf⟩⟩, hwhole⟩

/-- The commit keeps what has been accepted. -/
theorem Consistent.commit {d : Delivered} (h : d.Consistent) (crc : BitVec 32) :
    (d.withOta (d.ota.commit norDev crc)).Consistent where
  numbered := h.numbered
  turn := h.turn
  clean hpad := (h.clean hpad).commit crc
  whole hpad := ⟨(h.whole hpad).1.commit crc, (h.whole hpad).2⟩

theorem stage_eq (d : Delivered) (c : OtaChunk) :
    d.ota.stage norDev c = (d.started c).ota.guard norDev c := by
  rw [ota_started]
  rfl

theorem deliver_of_chunk {d : Delivered} {params : CgiParams} {c : OtaChunk}
    (hc : OtaChunk.ofParams params = some c) :
    d.deliver params = ((d.started c).record c ((d.started c).ota.guard norDev c).2).withOta
      (conclude norDev ((d.started c).ota.guard norDev c)) := by
  have hreceive : (d.ota.webPlatformOtaChunkCGI norDev params).1 =
      conclude norDev ((d.started c).ota.guard norDev c) := by
    rw [webPlatformOtaChunkCGI, hc, ← stage_eq]
    rfl
  rw [deliver, hc]
  dsimp only
  rw [hreceive, stage_eq]

theorem Consistent.tracked {d : Delivered} (h : d.Consistent) : d.Tracked := fun _ _ => h

/-- A chunk that is applied, in a state of a new or running upload. -/
theorem Consistent.applied {d : Delivered} (h : d.Consistent) {c : OtaChunk}
    (happ : d.ota.Applies c) (hclean : d.padded = true → c.payload = [])
    (hno : ¬FlushesUnerased d.ota c) :
    ((d.record c (d.ota.apply norDev c).2).withOta
        (conclude norDev (d.ota.apply norDev c))).Tracked ∧
      ∀ crc, (d.ota.apply norDev c).2 = .verified crc →
        (d.record c (d.ota.apply norDev c).2) = d.accept c ∧
          ((d.accept c).withOta (conclude norDev (d.ota.apply norDev c))).Numbered ∧
          (conclude norDev (d.ota.apply norDev c)).Whole (d.accept c).payloads := by
  rcases apply_cases norDev d.ota c with ⟨habort, heq⟩ | ⟨hroom, hlast, heq⟩ |
    ⟨hroom, hlast, heq⟩
  · rw [heq]
    refine ⟨fun _ hgo => ?_, fun _ hver => by cases hver⟩
    have : (d.ota.decode norDev c.payload).advance.st.abort = false := hgo
    rw [advance_abort, habort] at this
    cases this
  · rw [heq]
    exact ⟨(h.stored happ hclean hroom hlast).tracked, fun _ hver => by cases hver⟩
  · obtain ⟨hnext, hwhole⟩ := h.flushed happ hclean hno hroom hlast
    rw [heq]
    rcases verify_cases norDev ((d.ota.decode norDev c.payload).advance.flushTail norDev)
      c.totals with hver | ⟨crc, hver⟩
    · rw [hver]
      exact ⟨hnext.tracked, fun _ hcrc => by cases hcrc⟩
    · rw [hver]
      exact ⟨(hnext.commit crc).tracked, fun _ _ => ⟨rfl, hnext.numbered, hwhole.commit crc⟩⟩

/-- **One request** of a run that appends cleanly. -/
theorem tracked_deliver {d : Delivered} (h : d.Tracked) {params : CgiParams}
    (hclean : d.AppendsCleanly params) :
    (d.deliver params).Tracked ∧ d.CommitsExactly params := by
  cases hc : OtaChunk.ofParams params with
  | none =>
      refine ⟨?_, fun c crc hsome => by rw [hc] at hsome; cases hsome⟩
      rw [deliver, hc]
      exact h
  | some c =>
      obtain ⟨hno, happend⟩ := hclean c hc
      rw [CommitsExactly, deliver_of_chunk hc]
      by_cases happ : (d.started c).ota.Applies c
      · obtain ⟨htracked, hcommit⟩ := (h.started happ).applied happ (happend happ) hno
        rw [guard_of_applies norDev happ]
        refine ⟨htracked, fun c' crc hsome hver => ?_⟩
        rw [hc, Option.some.injEq] at hsome
        subst hsome
        rw [stage_eq, guard_of_applies norDev happ] at hver
        obtain ⟨hrec, hnum, hwhole⟩ := hcommit crc hver
        rw [hrec]
        exact ⟨hnum, List.getLast?_concat, hwhole⟩
      · have hne : c.seq ≠ 0 := by
          intro hz
          rw [Delivered.started, if_pos hz] at happ
          exact happ (applies_begin norDev hz)
        have hsame : d.started c = d := if_neg hne
        rw [hsame] at happ ⊢
        constructor
        · rcases guard_of_not_applies norDev happ with ⟨hg, _⟩ | ⟨hg, _, _⟩ | ⟨hg, _⟩
          · rw [hg]
            exact h
          · rw [hg]
            exact h
          · rw [hg]
            exact fun _ hgo => by cases hgo
        · intro c' crc hsome hver
          rw [hc, Option.some.injEq] at hsome
          subst hsome
          rw [stage_eq, hsame] at hver
          rcases guard_of_not_applies norDev happ with ⟨hg, _⟩ | ⟨hg, _, _⟩ | ⟨hg, _⟩ <;>
          · rw [hg] at hver
            cases hver

/-- A device that has never been written. -/
def blankNor : Nor := ⟨fun _ => 0xFF, fun _ => 0⟩

/-- A chunk as the web page sends it. -/
def chunkParams (seq last data totlen totcrc : String) : CgiParams :=
  [(ascii "seq", ascii seq), (ascii "last", ascii last), (ascii "data", ascii data),
    (ascii "totlen", ascii totlen), (ascii "totcrc", ascii totcrc)]

/-- An upload in two chunks, the first of them sent twice. -/
def retriedUpload : List CgiParams :=
  [chunkParams "0" "0" "0a0b0c" "" "", chunkParams "0" "0" "0a0b0c" "" "",
    chunkParams "1" "1" "0d0e" "5" "009fc293"]

/-- A last chunk without totals, which is rejected after its flush, and a second one. -/
def paddedUpload : List CgiParams :=
  [chunkParams "0" "1" "aa" "0" "0", chunkParams "1" "1" "bb" "2" "3833a911"]

end Delivered

end Ota

end HomeAuto
