import HomeAuto.OtaEarned
import HomeAuto.OtaVendorAnswers

/-!
# When an upload reports success

On the CC35x1 the trace of an upload is read from the answers of the update service and from the
error flag.  Every failure latches the flag, so there a resent last chunk speaks the truth while
a reboot is pending.  `success_earned_iff` has both platforms and every transport.
-/

namespace HomeAuto

namespace VendorOta

variable {ψ : Type} (psa : PsaFwu ψ)

/-- The page that answers a request. -/
def answer (s : VendorOta ψ) : VendorRequest → Option OtaPage
  | .chunk params => some (s.webPlatformOtaChunkCGI psa params).2
  | .postBegin connection uri contentLen =>
      beginPage (s.httpdPostBegin psa connection uri contentLen).2
  | .postData _ _ => none
  | .postFinished connection =>
      finishedPage s.chunkLast (s.httpdPostFinished psa connection).2

/-! ### The success page -/

theorem applyChunk_ne_duplicate (s : VendorOta ψ) (c : Chunk) :
    (s.applyChunk psa c).2 ≠ .duplicate := by
  unfold applyChunk feedChunk
  split
  · exact nofun
  · split
    · exact nofun
    · split
      · split
        · exact complete_ne_duplicate psa _
        · exact nofun
      · exact nofun

/-- A chunk is acknowledged as resent exactly when its number has been passed. -/
theorem receiveChunk_duplicate_iff (s : VendorOta ψ) (c : Chunk) :
    (s.receiveChunk psa c).2 = .duplicate ↔ s.abort = false ∧ c.seq < s.nextSeq := by
  unfold receiveChunk
  rcases s.guard_cases c.seq with ⟨habort, hg⟩ | ⟨hgo, hlt, hg⟩ | ⟨_, hgt, hg⟩ | ⟨_, heq, hg⟩
  · rw [hg]
    simp [habort]
  · rw [hg]
    simp [hgo, hlt]
  · rw [hg]
    simp [not_lt_of_gt hgt]
  · rw [hg]
    simp [heq, applyChunk_ne_duplicate psa s c]

theorem chunk_duplicate_iff (s : VendorOta ψ) (c : Chunk) :
    (s.chunk psa c).2 = .duplicate ↔ s.abort = false ∧ c.seq ≠ 0 ∧ c.seq < s.nextSeq := by
  by_cases hzero : c.seq = 0
  · rw [chunk_of_zero psa hzero]
    have hturn := begin_nextSeq psa s
    split
    · rw [receiveChunk_duplicate_iff, hturn, hzero]
      simp
    · simp [hzero]
  · rw [chunk, if_neg hzero, receiveChunk_duplicate_iff]
    simp [hzero]

theorem finished_duplicate_iff (s : VendorOta ψ) (connection : Nat) :
    (s.httpdPostFinished psa connection).2 = .duplicate ↔
      connection = s.postConn ∧ s.abort = false ∧ s.chunkDup = true := by
  unfold httpdPostFinished
  by_cases hconn : connection = s.postConn
  · cases habort : s.abort with
    | true => simp [hconn]
    | false =>
        cases hdup : s.chunkDup with
        | true => simp [hconn]
        | false =>
            cases s.chunkLast with
            | true => simp [hconn, complete_ne_duplicate psa s.advance]
            | false => simp [hconn]
  · simp [hconn]

/-- The success page answers an installed image and a resent last chunk. -/
theorem chunkPage_eq_ok (last : Bool) (o : VendorOutcome) :
    chunkPage last o = .fwupdateOk ↔ o = .duplicate ∧ last = true ∨ o = .installed := by
  cases o <;> cases last <;> decide

theorem finishedPage_eq_ok (last : Bool) (o : VendorOutcome) :
    finishedPage last o = some .fwupdateOk ↔ o = .duplicate ∧ last = true ∨ o = .installed := by
  cases o <;> cases last <;> decide

theorem beginPage_ne_ok (o : VendorOutcome) : beginPage o ≠ some .fwupdateOk := by
  cases o <;> decide

/-! ### Requests and their traces -/

/-- What a request came to, when the service answered its calls with `answers`. -/
def steps (s s' : VendorOta (ψ × List PsaAnswer)) (answers : List PsaAnswer) :
    List UploadStep :=
  if (∃ a ∈ answers, ¬a.Took) ∨ s.abort = false ∧ s'.abort = true then [.failed]
  else if installs answers then [.committed]
  else []

/-- The handlers on a service whose answers are recorded, with the trace of the current
upload. -/
structure Traced (ψ : Type) where
  ota : VendorOta (ψ × List PsaAnswer)
  trace : List UploadStep

namespace Traced

/-- Sequence number 0 begins a new trace. -/
def traceFor (t : Traced ψ) (r : VendorRequest) : List UploadStep :=
  if r.seq = some 0 then [] else t.trace

/-- One request. -/
def request (t : Traced ψ) (r : VendorRequest) : Traced ψ where
  ota := (t.ota.handle psa.answered r).1
  trace := t.traceFor r ++ steps (t.ota.addressed psa.answered r)
    (t.ota.handle psa.answered r).1
    ((t.ota.handle psa.answered r).1.psa.2.drop t.ota.psa.2.length)

/-- After a reset, with any slot size and the service in any state. -/
def boot (maxBytes : Nat) (p : ψ) : Traced ψ :=
  ⟨VendorOta.boot psa.answered maxBytes (p, []), []⟩

/-- The request is not answered with the success page unless success is earned. -/
def SuccessEarned (t : Traced ψ) (r : VendorRequest) : Prop :=
  t.ota.answer psa.answered r = some .fwupdateOk → Earned (t.request psa r).trace

/-- A resent last chunk, or the end of a resent last body, comes while a reboot is pending. -/
def ResendsInstalled (t : Traced ψ) : VendorRequest → Prop
  | .chunk params => ∀ c, Chunk.ofParams params = some c → t.ota.abort = false → c.seq ≠ 0 →
      c.seq < t.ota.nextSeq → c.last = true → t.ota.rebootPending = true
  | .postFinished connection => connection = t.ota.postConn → t.ota.abort = false →
      t.ota.chunkDup = true → t.ota.chunkLast = true → t.ota.rebootPending = true
  | _ => True

/-- **While an upload runs, none of its steps has failed**, and a reboot is pending exactly when
one of them has installed the image. -/
def Clean (t : Traced ψ) : Prop := t.ota.abort = false →
  .failed ∉ t.trace ∧ (.committed ∈ t.trace ↔ t.ota.rebootPending = true)

variable {psa} {t : Traced ψ}

/-- The trace behind a request, from the answers to its calls. -/
theorem trace_request {r : VendorRequest} {answers : List PsaAnswer}
    (h : Settles (t.ota.addressed psa.answered r) answers (t.ota.handle psa.answered r)) :
    (t.request psa r).trace = t.traceFor r ++ steps (t.ota.addressed psa.answered r)
      (t.ota.handle psa.answered r).1 answers := by
  have hsame : (t.ota.addressed psa.answered r).psa = t.ota.psa := by
    unfold addressed
    split <;> rfl
  rw [request, h.record, hsame, List.drop_left]

/-- A request that leaves the upload running adds a commit or nothing. -/
theorem trace_request_running {r : VendorRequest} {answers : List PsaAnswer}
    (h : Settles (t.ota.addressed psa.answered r) answers (t.ota.handle psa.answered r))
    (hgo : (t.ota.handle psa.answered r).1.abort = false) :
    (t.request psa r).trace =
      t.traceFor r ++ if installs answers then [.committed] else [] := by
  have htook := (h.running hgo).2
  rw [trace_request h, steps, if_neg]
  rintro (⟨a, ha, hno⟩ | ⟨_, habort⟩)
  · exact hno (htook a ha)
  · exact absurd (hgo.symm.trans habort) (by decide)

/-- The upload that a request addresses is clean. -/
theorem Clean.addressed (h : t.Clean) {r : VendorRequest}
    (hgo : (t.ota.addressed psa.answered r).abort = false) :
    .failed ∉ t.traceFor r ∧ (.committed ∈ t.traceFor r ↔
      (t.ota.addressed psa.answered r).rebootPending = true) := by
  unfold VendorOta.addressed traceFor at *
  by_cases hzero : r.seq = some 0
  · rw [if_pos hzero, if_pos hzero]
    exact ⟨List.not_mem_nil, iff_of_false List.not_mem_nil nofun⟩
  · rw [if_neg hzero] at hgo
    rw [if_neg hzero, if_neg hzero]
    exact h hgo

theorem Clean.request (h : t.Clean) (r : VendorRequest) : (t.request psa r).Clean := by
  intro hgo
  obtain ⟨answers, hr⟩ := settles_handle psa t.ota r
  obtain ⟨hclean, hmem⟩ := h.addressed (hr.running hgo).1
  have hpending : (t.request psa r).ota.rebootPending =
    ((t.ota.addressed psa.answered r).rebootPending || installs answers) := hr.pending
  rw [trace_request_running hr hgo, hpending]
  cases installs answers with
  | true => simp [hclean]
  | false => simp [hclean, hmem]

/-! ### Success -/

/-- A request whose page is the success page exactly when it installs the image or is the
acknowledgement of a resent last chunk. -/
theorem earned_of_outcome (h : t.Clean) {r : VendorRequest} (last : Bool) {ok : Prop}
    (resent : Prop)
    (hok : ok ↔ (t.ota.handle psa.answered r).2 = .duplicate ∧ last = true ∨
      (t.ota.handle psa.answered r).2 = .installed)
    (hdup : (t.ota.handle psa.answered r).2 = .duplicate ↔ t.ota.abort = false ∧ resent)
    (hzero : resent → r.seq ≠ some 0) :
    (ok → Earned (t.request psa r).trace) ↔
      (t.ota.abort = false → resent → last = true → t.ota.rebootPending = true) := by
  obtain ⟨answers, hr⟩ := settles_handle psa t.ota r
  by_cases hres : t.ota.abort = false ∧ resent
  · obtain ⟨hclean, hmem⟩ := h hres.1
    have hout := hdup.mpr hres
    have hbase : t.ota.addressed psa.answered r = t.ota := if_neg (hzero hres.2)
    obtain ⟨rfl, hgo⟩ := hr.resent hout
    rw [hbase] at hgo
    have hzero' := hzero hres.2
    have htrace : (t.request psa r).trace = t.trace := by
      rw [trace_request_running hr (hgo hres.1), traceFor, if_neg hzero', installs,
        if_neg (by decide), List.append_nil]
    rw [hok, hout, htrace, earned_iff_mem hclean, hmem]
    simp [hres]
  · have hout : (t.ota.handle psa.answered r).2 ≠ .duplicate := fun hd => hres (hdup.mp hd)
    refine iff_of_true (fun hpage => ?_) fun habort hr => absurd ⟨habort, hr⟩ hres
    rcases hok.mp hpage with ⟨hd, _⟩ | hinst
    · exact absurd hd hout
    · obtain ⟨hinstalls, hgo⟩ := hr.installed hinst
      rw [trace_request_running hr hgo, hinstalls, if_pos rfl]
      exact earned_concat_committed _

/-- **One request, exactly.** -/
theorem successEarned_iff (h : t.Clean) (r : VendorRequest) :
    t.SuccessEarned psa r ↔ t.ResendsInstalled r := by
  cases r with
  | chunk params =>
      unfold SuccessEarned ResendsInstalled answer webPlatformOtaChunkCGI
      cases hc : Chunk.ofParams params with
      | none => simp [hc]
      | some c =>
          have hhandle : t.ota.handle psa.answered (.chunk params) = t.ota.chunk psa.answered c := by
            simp only [handle, hc]
          simp only [hc, Option.some.injEq, forall_eq']
          rw [earned_of_outcome h c.last (c.seq ≠ 0 ∧ c.seq < t.ota.nextSeq)]
          · simp
          · rw [hhandle, chunkPage_eq_ok]
          · rw [hhandle, chunk_duplicate_iff]
          · rintro ⟨hne, _⟩
            simpa [VendorRequest.seq, hc] using hne
  | postBegin connection uri contentLen =>
      simp [SuccessEarned, ResendsInstalled, answer, beginPage_ne_ok]
  | postData connection bufs => simp [SuccessEarned, ResendsInstalled, answer]
  | postFinished connection =>
      unfold SuccessEarned ResendsInstalled answer
      rw [earned_of_outcome h t.ota.chunkLast
        (connection = t.ota.postConn ∧ t.ota.chunkDup = true)]
      · constructor
        · intro hres hconn habort hdup
          exact hres habort ⟨hconn, hdup⟩
        · rintro hres habort ⟨hconn, hdup⟩
          exact hres hconn habort hdup
      · exact finishedPage_eq_ok _ _
      · rw [handle, finished_duplicate_iff]
        tauto
      · exact fun _ h => absurd h.symm (Option.some_ne_none 0)

variable (psa)

/-- Over any service, any slot size and any run of requests since boot. -/
theorem successEarned_iff_resendsInstalled (maxBytes : Nat) (p : ψ) (es : List VendorRequest) :
    Runs.EveryStep (request psa) (SuccessEarned psa) (boot psa maxBytes p) es ↔
      Runs.EveryStep (request psa) ResendsInstalled (boot psa maxBytes p) es :=
  Runs.everyStep_congr (I := Clean) (fun _ r h _ => h.request r)
    (fun _ r h => successEarned_iff h r)
    (fun _ => ⟨List.not_mem_nil, iff_of_false List.not_mem_nil Bool.false_ne_true⟩) es

end Traced

end VendorOta

/-- **Success is reported only for a committed image, exactly when** a resent last chunk comes
only behind a last chunk with the right totals whose commit was taken (TM4C1294) or while a
reboot is pending (CC35x1), and on the TM4C1294 every commit is taken. -/
theorem success_earned_iff {φ ψ : Type} (dev : OtaDev φ) (d : φ) (es : List CgiParams)
    (psa : PsaFwu ψ) (maxBytes : Nat) (p : ψ) (fs : List VendorRequest) :
    (Runs.EveryStep (Ota.Traced.request dev) (Ota.Traced.SuccessEarned dev)
        (Ota.Traced.boot d) es ↔
      Runs.EveryStep (Ota.Traced.request dev) (Ota.Traced.ResendsCommitted dev)
        (Ota.Traced.boot d) es) ∧
    (Runs.EveryStep (VendorOta.Traced.request psa) (VendorOta.Traced.SuccessEarned psa)
        (VendorOta.Traced.boot psa maxBytes p) fs ↔
      Runs.EveryStep (VendorOta.Traced.request psa) VendorOta.Traced.ResendsInstalled
        (VendorOta.Traced.boot psa maxBytes p) fs) :=
  ⟨Ota.Traced.successEarned_iff_resendsCommitted dev d es,
    VendorOta.Traced.successEarned_iff_resendsInstalled psa maxBytes p fs⟩

/-- A service that refuses everything. -/
def refusingPsa : PsaFwu Unit where
  manifestSize := 1
  manifestSize_pos := Nat.one_pos
  maxComponentId := 6
  query := fun _ => return none
  cancel := fun _ => return
  clean := fun _ => return
  reject := return
  start := fun _ _ => return .error (-137)
  write := fun _ _ _ => return .error (-137)
  finish := fun _ => return .error (-137)
  install := return .error (-137)

/-- A last chunk with a wrong CRC, and the same chunk resent. -/
def rejectedResend : List CgiParams :=
  [[(ascii "seq", ascii "0"), (ascii "data", ascii "aabb")],
    [(ascii "seq", ascii "1"), (ascii "last", ascii "1"), (ascii "data", ascii "cc"),
      (ascii "totlen", ascii "3"), (ascii "totcrc", ascii "0")],
    [(ascii "seq", ascii "1"), (ascii "last", ascii "1"), (ascii "data", ascii "cc"),
      (ascii "totlen", ascii "3"), (ascii "totcrc", ascii "0")]]

/-- A last chunk with a number below zero, as the first request after boot. -/
def negativeResend : List VendorRequest :=
  [.chunk [(ascii "seq", ascii "4294967295"), (ascii "last", ascii "1"), (ascii "data", [])]]

/-- **A resent last chunk is answered with success** after its rejection, and without any
upload. -/
theorem resend_reports_success :
    ¬Runs.EveryStep (Ota.Traced.request norDev) (Ota.Traced.SuccessEarned norDev)
      (Ota.Traced.boot ⟨fun _ => 0xFF, fun _ => 0⟩) rejectedResend ∧
    ¬Runs.EveryStep (VendorOta.Traced.request refusingPsa)
      (VendorOta.Traced.SuccessEarned refusingPsa)
      (VendorOta.Traced.boot refusingPsa 2752512 ()) negativeResend := by
  constructor
  · rintro ⟨_, _, hresend, _⟩
    have hearned := hresend (by decide +kernel)
    rw [earned_iff_lastVerdict] at hearned
    exact absurd hearned (by decide +kernel)
  · rintro ⟨hfirst, _⟩
    have hearned := hfirst (by decide +kernel)
    rw [earned_iff_lastVerdict] at hearned
    exact absurd hearned (by decide +kernel)

end HomeAuto
