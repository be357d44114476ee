import HomeAuto.Lib.Runs
import HomeAuto.OtaChunk

/-!
# Where the upload writes

A watched device passes every call on to any flash driver and keeps, for the current
upload, the pages erased and the words programmed.  An upload begins where the handler
erases the header page.

The word loop of the handler checks the bound of the staging region and erases the page
it enters.  The flush of the last partial word does neither, so it is safe unless the
write pointer stands at the start of a page: `stagingSafe_iff_keepsStaging`.
-/

namespace HomeAuto

/-- A device with the pages erased and the words staged since the upload began, and
whether every word so far was staged in its place. -/
structure Watched (φ : Type) where
  dev : φ
  erased : List Nat
  programmed : List Nat
  safe : Bool

/-- A word in its place: inside the staging region, on a page erased in this upload, and
not programmed before in it. -/
def Watched.wordSafe {φ : Type} (w : Watched φ) (addr : Nat) : Bool :=
  otaImageAddr ≤ addr && addr + 4 ≤ otaImageAddr + otaImageMaxSize &&
    w.erased.contains (pageOf addr) && !w.programmed.contains addr

/-- Watch a device. -/
def OtaDev.watched {φ : Type} (dev : OtaDev φ) : OtaDev (Watched φ) where
  flashErase w addr :=
    if addr = otaHeaderAddr then ⟨dev.flashErase w.dev addr, [addr], [], w.safe⟩
    else { w with dev := dev.flashErase w.dev addr, erased := addr :: w.erased }
  flashProgram w addr bytes :=
    if addr = otaHeaderAddr then { w with dev := dev.flashProgram w.dev addr bytes }
    else { w with
      dev := dev.flashProgram w.dev addr bytes
      programmed := addr :: w.programmed
      safe := w.safe && w.wordSafe addr }
  flashRead w := dev.flashRead w.dev
  storageWrite w addr words := { w with dev := dev.storageWrite w.dev addr words }
  storageRead w := dev.storageRead w.dev

namespace Ota

variable {φ : Type} (dev : OtaDev φ)

/-- An upload in progress, with the pages erased and words programmed in it. -/
structure Tallied (s : Ota (Watched φ)) : Prop extends s.st.Placed where
  mem : s.st.lastErasedPage ∈ s.dev.erased
  pages : ∀ p ∈ s.dev.erased, p ≤ s.st.lastErasedPage
  behind : ∀ a ∈ s.dev.programmed, a < s.st.writeAddr

/-- Every word of every upload so far was staged in its place. -/
def StagingSafe (s : Ota (Watched φ)) : Prop := s.dev.safe = true

theorem tallied_begin (s : Ota (Watched φ)) : (s.begin dev.watched).Tallied := by
  have hdev : (s.begin dev.watched).dev = ⟨dev.flashErase (dev.flashErase s.dev.dev otaHeaderAddr)
      otaImageAddr, [otaImageAddr, otaHeaderAddr], [], s.dev.safe⟩ := by
    simp [begin, OtaDev.watched, otaImageAddr, otaHeaderAddr]
  refine ⟨.start, ?_, ?_, ?_⟩
  · rw [hdev]
    exact List.mem_cons_self
  · rw [hdev]
    intro p hp
    rcases List.mem_cons.mp hp with rfl | hp
    · exact Nat.le_refl _
    · rw [List.mem_singleton.mp hp]
      exact (by decide : otaHeaderAddr ≤ otaImageAddr)
  · rw [hdev]
    exact fun a ha => nomatch ha

theorem safe_begin (s : Ota (Watched φ)) :
    (s.begin dev.watched).StagingSafe ↔ s.StagingSafe := by
  simp [StagingSafe, begin, OtaDev.watched, otaImageAddr, otaHeaderAddr]

/-- A word behind all others, inside the region and on an erased page. -/
theorem wordSafe_of {w : Watched φ} {a : Nat} (hlo : otaImageAddr ≤ a)
    (hhi : a + 4 ≤ otaStagingEnd) (hpage : pageOf a ∈ w.erased)
    (hnew : ∀ b ∈ w.programmed, b < a) : w.wordSafe a = true := by
  have hfresh : a ∉ w.programmed := fun hmem => Nat.lt_irrefl _ (hnew a hmem)
  simp only [Watched.wordSafe, Bool.and_eq_true, decide_eq_true_eq, List.contains_eq_mem,
    Bool.not_eq_true', decide_eq_false_iff_not]
  exact ⟨⟨⟨hlo, hhi⟩, hpage⟩, hfresh⟩

theorem add_four_le_end {st : OtaStatics} (h : st.Placed) (hend : st.writeAddr < otaStagingEnd) :
    st.writeAddr + 4 ≤ otaStagingEnd := by
  have := h.aligned
  rw [otaStagingEnd_eq] at *
  omega

/-- A word at the pointer is in its place when its page has been erased. -/
theorem Tallied.wordSafe_iff {s : Ota (Watched φ)} (h : s.Tallied) :
    s.dev.wordSafe s.st.writeAddr = true ↔ pageOf s.st.writeAddr = s.st.lastErasedPage := by
  constructor
  · intro hsafe
    simp only [Watched.wordSafe, Bool.and_eq_true, decide_eq_true_eq, List.contains_eq_mem] at hsafe
    obtain ⟨⟨_, hmem⟩, _⟩ := hsafe
    by_contra hoff
    have := h.off_page hoff
    have := h.pages _ hmem
    omega
  · intro hon
    have hlt : s.st.writeAddr < otaStagingEnd := by
      have := h.last
      have := h.page
      rw [pageOf_eq] at hon
      rw [otaStagingEnd_eq] at *
      omega
    exact wordSafe_of h.least (add_four_le_end h.toPlaced hlt) (by rw [hon]; exact h.mem) h.behind

theorem Tallied.writeAddr_ne_header {s : Ota (Watched φ)} (h : s.Tallied) :
    s.st.writeAddr ≠ otaHeaderAddr := by
  have hleast := h.least
  rw [otaImageAddr_eq] at hleast
  rw [otaHeaderAddr_eq]
  omega

/-- The device after a word at the pointer. -/
theorem watched_programWord {s : Ota (Watched φ)} (h : s.st.writeAddr ≠ otaHeaderAddr)
    (word : List UInt8) : (s.programWord dev.watched word).dev = { s.dev with
      dev := dev.flashProgram s.dev.dev s.st.writeAddr word
      programmed := s.st.writeAddr :: s.dev.programmed
      safe := s.dev.safe && s.dev.wordSafe s.st.writeAddr } := if_neg h

/-- A word that has been programmed is behind the pointer. -/
theorem lt_add_four {l : List Nat} {w : Nat} (h : ∀ a ∈ l, a < w) : ∀ a ∈ w :: l, a < w + 4 := by
  intro a ha
  rcases List.mem_cons.mp ha with rfl | ha
  · omega
  · have := h a ha
    omega

/-- **The word loop is safe**: it erases the page it enters. -/
theorem Tallied.store {s : Ota (Watched φ)} (h : s.Tallied)
    (hend : s.st.writeAddr < otaStagingEnd) (word : List UInt8) :
    ((s.erasePage dev.watched).programWord dev.watched word).Tallied ∧
      (((s.erasePage dev.watched).programWord dev.watched word).StagingSafe ↔
        s.StagingSafe) := by
  have hst := store_st dev.watched h.toPlaced word
  have hplaced := h.next hend []
  rw [← hst] at hplaced
  have hfour := add_four_le_end h.toPlaced hend
  by_cases hon : pageOf s.st.writeAddr = s.st.lastErasedPage
  · have hsame : s.erasePage dev.watched = s := by
      rw [Ota.erasePage, if_neg (by omega)]
    rw [hsame] at hst hplaced ⊢
    have hdev := watched_programWord dev h.writeAddr_ne_header word
    have hsafe := h.wordSafe_iff.mpr hon
    refine ⟨⟨hplaced, ?_, ?_, ?_⟩, ?_⟩
    · rw [hst, hdev, hon]
      exact h.mem
    · rw [hst, hdev, hon]
      exact h.pages
    · rw [hst, hdev]
      exact lt_add_four h.behind
    · rw [StagingSafe, hdev, hsafe, Bool.and_true]
      exact Iff.rfl
  · have hoff := h.off_page hon
    have hpage : pageOf s.st.writeAddr ≠ otaHeaderAddr := by
      rw [hoff.1]
      exact h.writeAddr_ne_header
    have herase : s.erasePage dev.watched = { s with
        st := { s.st with lastErasedPage := pageOf s.st.writeAddr }
        dev := { s.dev with
          dev := dev.flashErase s.dev.dev (pageOf s.st.writeAddr)
          erased := pageOf s.st.writeAddr :: s.dev.erased } } := by
      rw [Ota.erasePage, if_pos (by omega)]
      congr 1
      exact if_neg hpage
    have hdev := watched_programWord dev (s := s.erasePage dev.watched)
      (by rw [herase]; exact h.writeAddr_ne_header) word
    rw [herase] at hdev hst hplaced ⊢
    have hsafe := wordSafe_of (w := { s.dev with
      dev := dev.flashErase s.dev.dev (pageOf s.st.writeAddr)
      erased := pageOf s.st.writeAddr :: s.dev.erased }) h.least hfour List.mem_cons_self h.behind
    refine ⟨⟨hplaced, ?_, ?_, ?_⟩, ?_⟩
    · rw [hst, hdev]
      exact List.mem_cons_self
    · rw [hst, hdev]
      intro p hp
      rcases List.mem_cons.mp hp with rfl | hp
      · exact Nat.le_refl _
      · have := h.pages p hp
        dsimp only
        omega
    · rw [hst, hdev]
      exact lt_add_four h.behind
    · rw [StagingSafe, hdev, hsafe, Bool.and_true]
      exact Iff.rfl

/-- What the handler keeps of an upload while it stages: the tally, and a partial word. -/
def Counted (s : Ota (Watched φ)) : Prop := s.Tallied ∧ s.st.alignBuf.length < 4

theorem Tallied.congr {s t : Ota (Watched φ)} (h : s.Tallied) (hdev : t.dev = s.dev)
    (hw : t.st.writeAddr = s.st.writeAddr) (hl : t.st.lastErasedPage = s.st.lastErasedPage) :
    t.Tallied where
  toPlaced := h.toPlaced.congr hw hl
  mem := by
    rw [hdev, hl]
    exact h.mem
  pages := by
    rw [hdev, hl]
    exact h.pages
  behind := by
    rw [hdev, hw]
    exact h.behind

theorem Counted.decodeByte {s : Ota (Watched φ)} (h : s.Counted) (b : UInt8) :
    (s.decodeByte dev.watched b).Counted ∧
      ((s.decodeByte dev.watched b).StagingSafe ↔ s.StagingSafe) := by
  have hin : s.InUpload := ⟨h.1.toPlaced, h.2⟩
  have hbuf := (hin.decodeByte dev.watched b).buffered
  have hpush : (s.pushByte b).Tallied := h.1.congr rfl rfl rfl
  rcases hin.decodeByte_cases dev.watched b with
    ⟨_, heq⟩ | ⟨_, _, heq⟩ | ⟨_, _, hend, heq⟩ | ⟨_, _, _, heq⟩
  · rw [heq]
    exact ⟨h, Iff.rfl⟩
  · rw [heq] at hbuf ⊢
    exact ⟨⟨hpush, hbuf⟩, Iff.rfl⟩
  · rw [heq] at hbuf ⊢
    obtain ⟨htally, hsafe⟩ := hpush.store dev hend (s.st.alignBuf ++ [b])
    exact ⟨⟨htally, hbuf⟩, hsafe⟩
  · rw [heq] at hbuf ⊢
    exact ⟨⟨hpush.congr rfl rfl rfl, hbuf⟩, Iff.rfl⟩

theorem Counted.decode {s : Ota (Watched φ)} (h : s.Counted) (payload : List UInt8) :
    (s.decode dev.watched payload).Counted ∧
      ((s.decode dev.watched payload).StagingSafe ↔ s.StagingSafe) :=
  decode_induction dev.watched
    (I := fun t => t.Counted ∧ (t.StagingSafe ↔ s.StagingSafe))
    (fun _ b ht => ⟨(ht.1.decodeByte dev b).1, (ht.1.decodeByte dev b).2.trans ht.2⟩)
    payload ⟨h, Iff.rfl⟩

/-- **The flush is safe exactly where the pointer is on the page erased last.** -/
theorem Counted.flushTail {s : Ota (Watched φ)} (h : s.Counted) (hs : s.StagingSafe) :
    ((s.flushTail dev.watched).StagingSafe ↔ (s.st.alignBuf.length ≠ 0 →
      pageOf s.st.writeAddr = s.st.lastErasedPage)) ∧
      ((s.flushTail dev.watched).StagingSafe → (s.flushTail dev.watched).Counted) := by
  unfold Ota.flushTail
  by_cases hlen : 0 < s.st.alignBuf.length
  · rw [if_pos hlen]
    have hdev := watched_programWord dev h.1.writeAddr_ne_header (padWord s.st.alignBuf)
    have hiff : (s.programWord dev.watched (padWord s.st.alignBuf)).StagingSafe ↔
        pageOf s.st.writeAddr = s.st.lastErasedPage := by
      rw [StagingSafe, hdev, ← h.1.wordSafe_iff, show s.dev.safe = true from hs, Bool.true_and]
    refine ⟨hiff.trans ⟨fun hon _ => hon, fun hon => hon (Nat.ne_of_gt hlen)⟩, fun hsafe => ?_⟩
    have hon := hiff.mp hsafe
    have hend : s.st.writeAddr < otaStagingEnd := by
      have := h.1.near
      have := h.1.page
      have := h.1.last
      rw [pageOf_eq] at hon
      rw [otaStagingEnd_eq] at *
      omega
    have hsame : s.erasePage dev.watched = s := by
      rw [Ota.erasePage, if_neg (by omega)]
    have hstore := (h.1.store dev hend (padWord s.st.alignBuf)).1
    rw [hsame] at hstore
    exact ⟨hstore, Nat.zero_lt_succ _⟩
  · rw [if_neg hlen]
    have hzero : s.st.alignBuf.length = 0 := by omega
    exact ⟨iff_of_true hs fun hne => absurd hzero hne, fun _ => h⟩

/-! ## A request -/

/-- The last chunk leaves a partial word at the start of a page that has not been
erased, or at the end of the region. -/
def FlushesUnerased {ψ : Type} (s : Ota ψ) (c : OtaChunk) : Prop :=
  s.Applies c ∧ c.last = true ∧ (s.st.alignBuf.length + c.payload.length) % 4 ≠ 0 ∧
    s.wordsEnd c.payload ≤ otaStagingEnd ∧ s.wordsEnd c.payload % 0x4000 = 0 ∧
    s.wordsEnd c.payload ≠ otaImageAddr

instance {ψ : Type} (s : Ota ψ) (c : OtaChunk) : Decidable (FlushesUnerased s c) :=
  inferInstanceAs (Decidable (_ ∧ _))

/-- A request that stages its bytes in their place. -/
def KeepsStaging (s : Ota (Watched φ)) (params : CgiParams) : Prop :=
  ∀ c, OtaChunk.ofParams params = some c → ¬FlushesUnerased (s.started dev.watched c) c

theorem safe_apply_iff {s : Ota (Watched φ)} {c : OtaChunk} (h : s.Counted)
    (hs : s.StagingSafe) (happ : s.Applies c) :
    ((s.apply dev.watched c).1.StagingSafe ↔ ¬FlushesUnerased s c) ∧
      ((s.apply dev.watched c).1.StagingSafe → (s.apply dev.watched c).1.Counted) := by
  obtain ⟨hcount, hsafe⟩ := h.decode dev c.payload
  have hnum := decode_counters dev.watched ⟨h.1.toPlaced, h.2⟩ happ.1 c.payload
  have hadv : (s.decode dev.watched c.payload).advance.Counted :=
    ⟨hcount.1.congr (by simp) (by simp) (by simp), by simpa using hcount.2⟩
  have hadvs : (s.decode dev.watched c.payload).advance.StagingSafe := by
    rw [StagingSafe, advance_dev]
    exact hsafe.mpr hs
  rcases apply_cases dev.watched s c with ⟨habort, heq⟩ | ⟨_, hlast, heq⟩ | ⟨habort, hlast, heq⟩
  · rw [heq]
    refine ⟨iff_of_true hadvs ?_, fun _ => hadv⟩
    rintro ⟨_, _, _, hin, _, _⟩
    rw [if_pos hin, habort] at hnum
    cases hnum.1
  · rw [heq]
    refine ⟨iff_of_true hadvs ?_, fun _ => hadv⟩
    rintro ⟨_, htrue, _⟩
    rw [hlast] at htrue
    cases htrue
  · obtain ⟨hflush, hkeep⟩ := hadv.flushTail dev hadvs
    rw [heq]
    refine ⟨hflush.trans ?_, hkeep⟩
    have hin : s.wordsEnd c.payload ≤ otaStagingEnd := by
      by_contra hout
      rw [if_neg hout, habort] at hnum
      cases hnum
    rw [if_pos hin] at hnum
    rw [hadv.1.on_page_iff, advance_alignBuf, advance_writeAddr, hnum.2.1, hnum.2.2]
    constructor
    · rintro hon ⟨_, _, htail, _, hstart, hne⟩
      exact hon htail ⟨hstart, hne⟩
    · rintro hno htail ⟨hstart, hne⟩
      exact hno ⟨happ, hlast, htail, hin, hstart, hne⟩

/-- The commit writes the header and the flag only. -/
theorem commit_watched (s : Ota (Watched φ)) (crc : BitVec 32) :
    (s.commit dev.watched crc).dev.safe = s.dev.safe ∧
      (s.commit dev.watched crc).dev.erased = s.dev.erased ∧
      (s.commit dev.watched crc).dev.programmed = s.dev.programmed := by
  simp [commit, OtaDev.watched, OtaDev.setPending]

theorem conclude_watched (r : Ota (Watched φ) × OtaOutcome) :
    ((conclude dev.watched r).StagingSafe ↔ r.1.StagingSafe) ∧
      (r.1.Counted → (conclude dev.watched r).Counted) := by
  unfold conclude
  cases r.2 with
  | verified crc =>
      obtain ⟨hsafe, herased, hprog⟩ := commit_watched dev r.1 crc
      refine ⟨by rw [StagingSafe, hsafe]; exact Iff.rfl, fun h => ⟨⟨h.1.toPlaced, ?_, ?_, ?_⟩, h.2⟩⟩
      · rw [herased]
        exact h.1.mem
      · rw [herased]
        exact h.1.pages
      · rw [hprog]
        exact h.1.behind
  | _ => exact ⟨Iff.rfl, id⟩

/-- Between requests: once a chunk has been applied there is an upload in progress. -/
def Session (s : Ota (Watched φ)) : Prop := s.st.nextSeq ≠ 0 → s.Counted

theorem counted_started {s : Ota (Watched φ)} {c : OtaChunk} (h : s.Session)
    (happ : (s.started dev.watched c).Applies c) : (s.started dev.watched c).Counted := by
  by_cases hz : c.seq = 0
  · rw [started_of_zero dev.watched hz]
    exact ⟨tallied_begin dev s, Nat.zero_lt_succ _⟩
  · rw [started_of_ne dev.watched hz] at happ ⊢
    exact h (happ.2 ▸ hz)

theorem safe_started {s : Ota (Watched φ)} (c : OtaChunk) :
    (s.started dev.watched c).StagingSafe ↔ s.StagingSafe := by
  by_cases hz : c.seq = 0
  · rw [started_of_zero dev.watched hz]
    exact safe_begin dev s
  · rw [started_of_ne dev.watched hz]

/-- **One request, exactly.** -/
theorem safe_request {s : Ota (Watched φ)} (h : s.Session) (hs : s.StagingSafe)
    (params : CgiParams) :
    ((s.webPlatformOtaChunkCGI dev.watched params).1.StagingSafe ↔ s.KeepsStaging dev params) ∧
      ((s.webPlatformOtaChunkCGI dev.watched params).1.StagingSafe →
        (s.webPlatformOtaChunkCGI dev.watched params).1.Session) := by
  unfold webPlatformOtaChunkCGI KeepsStaging
  cases hc : OtaChunk.ofParams params with
  | none => exact ⟨iff_of_true hs nofun, fun _ => h⟩
  | some c =>
      simp only [Option.some.injEq, forall_eq', receive, stage]
      have hconc := conclude_watched dev ((s.started dev.watched c).guard dev.watched c)
      have hss := (safe_started dev c).mpr hs
      rw [hconc.1]
      by_cases happ : (s.started dev.watched c).Applies c
      · have happly := safe_apply_iff dev (counted_started dev h happ) hss happ
        rw [guard_of_applies dev.watched happ] at hconc ⊢
        exact ⟨happly.1, fun hsafe _ => hconc.2 (happly.2 hsafe)⟩
      · have hne : c.seq ≠ 0 := by
          intro hz
          rw [started_of_zero dev.watched hz] at happ
          exact happ (applies_begin dev.watched hz)
        rw [started_of_ne dev.watched hne] at happ hconc ⊢
        have hno : ¬FlushesUnerased s c := fun hf => happ hf.1
        rcases guard_of_not_applies dev.watched happ with ⟨hg, _⟩ | ⟨hg, _, _⟩ | ⟨hg, _⟩
        · rw [hg] at hconc ⊢
          exact ⟨iff_of_true hs hno, fun _ => h⟩
        · rw [hg] at hconc ⊢
          exact ⟨iff_of_true hs hno, fun _ => h⟩
        · rw [hg] at hconc ⊢
          exact ⟨iff_of_true hs hno, fun _ hn => ⟨(h hn).1.congr rfl rfl rfl, (h hn).2⟩⟩

/-- One request of a run. -/
def requestStep (s : Ota (Watched φ)) (params : CgiParams) : Ota (Watched φ) :=
  (s.webPlatformOtaChunkCGI dev.watched params).1

/-- The handler after a reset, on a device in any state. -/
def watchedBoot (d : φ) : Ota (Watched φ) := ⟨.boot, ⟨d, [], [], true⟩, false⟩

/-- **Staging, exactly.**  Over any flash driver and any run of requests since boot, every
staged word lies inside the staging region, on a page erased in the same upload, and is
programmed once, precisely when no request flushes a partial word at the start of a page
other than the first. -/
theorem stagingSafe_iff_keepsStaging (d : φ) (es : List CgiParams) :
    Runs.EveryState (requestStep dev) StagingSafe (watchedBoot d) es ↔
      Runs.EveryStep (requestStep dev) (KeepsStaging dev) (watchedBoot d) es :=
  Runs.everyState_iff_everyStep_of (I := Session) (E := fun _ => True)
    (fun _ params _ h hs hnext => (safe_request dev h hs params).2 hnext)
    (fun _ params _ h hs => (safe_request dev h hs params).1)
    (show (watchedBoot d).Session from fun hne => absurd rfl hne)
    (show (watchedBoot d).StagingSafe from rfl) es fun _ _ => trivial

/-! ## An upload one byte longer than a page -/

/-- Chunk `k` of 448 zero bytes. -/
def fullChunk (k : Nat) : CgiParams :=
  [(ascii "seq", [UInt8.ofNat (48 + k / 10), UInt8.ofNat (48 + k % 10)]), (ascii "last", ascii "0"),
    (ascii "data", List.replicate 896 48)]

/-- 257 bytes more, as the last chunk. -/
def tailChunk : CgiParams :=
  [(ascii "seq", ascii "36"), (ascii "last", ascii "1"), (ascii "data", List.replicate 514 48)]

/-- An image of 16385 bytes. -/
def pageAndByte : List CgiParams := (List.range 36).map fullChunk ++ [tailChunk]

theorem ofParams_fullChunk : ∀ k < 36,
    OtaChunk.ofParams (fullChunk k) = some ⟨k, false, List.replicate 448 0, none⟩ := by
  decide +kernel

theorem ofParams_tailChunk :
    OtaChunk.ofParams tailChunk = some ⟨36, true, List.replicate 257 0, none⟩ := by
  decide +kernel

/-- `k` chunks of 448 bytes have been staged. -/
structure Fed (s : Ota (Watched φ)) (k : Nat) : Prop where
  counted : s.Counted
  running : s.st.abort = false
  turn : s.st.nextSeq = k
  pointer : s.st.writeAddr = otaImageAddr + 448 * k
  buffer : s.st.alignBuf.length = 0

/-- A chunk that fits is staged. -/
theorem Fed.decoded {s : Ota (Watched φ)} {k : Nat} (h : s.Fed k) (hk : k < 36)
    {bytes : List UInt8} (hlen : bytes.length = 448) :
    (s.decode dev.watched bytes).advance.Fed (k + 1) ∧
      (s.decode dev.watched bytes).st.abort = false := by
  have hcount := (h.counted.decode dev bytes).1
  have hin : s.InUpload := ⟨h.counted.1.toPlaced, h.counted.2⟩
  have hnum := decode_counters dev.watched hin h.running bytes
  have hwords : s.wordsEnd bytes = otaImageAddr + 448 * (k + 1) := by
    rw [wordsEnd, h.pointer, h.buffer, hlen]
    omega
  rw [hwords, if_pos (by rw [otaStagingEnd_eq, otaImageAddr_eq]; omega)] at hnum
  obtain ⟨habort, hpointer, hbuffer⟩ := hnum
  refine ⟨⟨⟨hcount.1.congr (by simp) (by simp) (by simp), by simpa using hcount.2⟩,
    by simpa using habort, ?_, by simpa using hpointer, ?_⟩, habort⟩
  · have hturn := decode_nextSeq dev.watched s bytes
    have hsmall : ((k : Int) + 1).bmod (2 ^ 32) = k + 1 := by
      rw [Int.bmod_eq_of_le_mul_two] <;> omega
    rw [advance_nextSeq habort, hturn, h.turn, hsmall, Int.natCast_add, Int.natCast_one]
  · rw [advance_alignBuf, hbuffer, h.buffer, hlen]

/-- Chunk `k` of the upload, when the chunks before it have been staged. -/
theorem Fed.request {s : Ota (Watched φ)} {params : CgiParams} {c : OtaChunk} {k : Nat}
    (hc : OtaChunk.ofParams params = some c) (h : (s.started dev.watched c).Fed k) (hk : k < 36)
    (hseq : c.seq = k) (hlast : c.last = false) (hlen : c.payload.length = 448) :
    (requestStep dev s params).Fed (k + 1) := by
  obtain ⟨hnext, hroom⟩ := h.decoded dev hk hlen
  rw [requestStep, webPlatformOtaChunkCGI, hc]
  dsimp only
  rw [receive, stage, guard_of_applies dev.watched ⟨h.running, hseq.trans h.turn.symm⟩]
  rcases apply_cases dev.watched (s.started dev.watched c) c with
    ⟨habort, _⟩ | ⟨_, _, heq⟩ | ⟨_, htrue, _⟩
  · rw [hroom] at habort
    cases habort
  · rw [heq]
    exact hnext
  · rw [hlast] at htrue
    cases htrue

/-- The run of the first `n + 1` requests. -/
theorem fed_run (d : φ) {n : Nat} (hn : n < 36) :
    (Runs.final (requestStep dev) (watchedBoot d) ((List.range (n + 1)).map fullChunk)).Fed
      (n + 1) := by
  have hlen : (List.replicate 448 (0 : UInt8)).length = 448 := List.length_replicate
  induction n with
  | zero =>
      rw [Nat.zero_add, List.range_one, List.map_cons, List.map_nil, Runs.final_cons,
        Runs.final_nil]
      refine Fed.request dev (ofParams_fullChunk 0 hn) ?_ hn rfl rfl hlen
      rw [started_of_zero dev.watched rfl]
      exact ⟨⟨tallied_begin dev _, Nat.zero_lt_succ _⟩, rfl, rfl, rfl, rfl⟩
  | succ n ih =>
      rw [List.range_succ, List.map_append, Runs.final_append, List.map_cons, List.map_nil,
        Runs.final_cons, Runs.final_nil]
      refine Fed.request dev (ofParams_fullChunk (n + 1) hn) ?_ hn rfl rfl hlen
      have hne : ((n + 1 : Nat) : Int) ≠ 0 := by omega
      rw [started_of_ne dev.watched hne]
      exact ih (by omega)

/-- **The tail is flushed onto a page that has not been erased.** -/
theorem tail_flushed_unerased :
    ¬Runs.EveryState (requestStep norDev) StagingSafe
      (watchedBoot ⟨fun _ => 0xFF, fun _ => 0⟩) pageAndByte := by
  intro hrun
  have hprefix := Runs.everyState_iff_prefix.mp hrun
  have hafter := hprefix pageAndByte [] (List.append_nil _).symm
  rw [pageAndByte, Runs.final_append, Runs.final_cons, Runs.final_nil] at hafter
  have hbefore := hprefix ((List.range 36).map fullChunk) [tailChunk] rfl
  have hfed := fed_run norDev ⟨fun _ => 0xFF, fun _ => 0⟩ (show 35 < 36 by decide)
  -- the state before the last chunk
  generalize Runs.final (requestStep norDev) (watchedBoot ⟨fun _ => 0xFF, fun _ => 0⟩)
    ((List.range 36).map fullChunk) = s at hafter hbefore hfed
  refine (safe_request norDev (fun _ => hfed.counted) hbefore tailChunk).1.mp hafter _
    ofParams_tailChunk ?_
  have hne : ((36 : Nat) : Int) ≠ 0 := by decide
  rw [started_of_ne norDev.watched hne]
  refine ⟨⟨hfed.running, hfed.turn.symm⟩, rfl, ?_⟩
  rw [wordsEnd, hfed.pointer, hfed.buffer, List.length_replicate]
  decide

end Ota

end HomeAuto
