import HomeAuto.Lib.Runs
import HomeAuto.OtaVendorStaging

/-!
# Uploads over connections that fail

A browser sends a file in parts, each as the body of one POST request, and sends a part
again, or starts over, when it likes.  The HTTP server hands over any front of a body in
buffers of any sizes, and may report the end of a request early, late or never.

What has been staged is read from the calls to the update service since the upload began:
they are those of the parts taken so far and a front of the next one.  A body that was cut
leaves that front behind: if the part is sent again its bytes are fed again, and if its end is
reported all the same the part counts as taken.  `installs_file` is the guarantee for runs in
which neither happens.
-/

namespace HomeAuto

namespace VendorOta

/-- The body that announces part `k` of a file. -/
def bodyOf (file : List (List UInt8)) (k : Nat) (bytes : List UInt8) : Body where
  seq := (BitVec.ofNat 32 k).toInt
  last := decide (k + 1 = file.length)
  length := bytes.length

/-- The part that a request announces; its URI must say so. -/
def announced (uri : CStr) (file : List (List UInt8)) (k : Nat) : Option (List UInt8) :=
  file[k]?.filter fun bytes => decide (k < 2 ^ 32) && isUploadUri uri &&
    decide (Body.ofUri uri bytes.length = some (bodyOf file k bytes))

/-- The buffers in which the next bytes of a body arrive. -/
def pbufs : List Nat → List UInt8 → List (List UInt8)
  | [], _ => []
  | n :: sizes, bytes => bytes.take n :: pbufs sizes (bytes.drop n)

theorem flatten_pbufs (sizes : List Nat) (bytes : List UInt8) :
    (pbufs sizes bytes).flatten = bytes.take sizes.sum := by
  induction sizes generalizing bytes with
  | nil => simp [pbufs]
  | cons n sizes ih => rw [pbufs, List.flatten_cons, ih, List.sum_cons, List.take_add]

end VendorOta

/-- The handlers, on a recorded service, with the browser and the server.  `file` is being
uploaded; `before` are the calls recorded before its first part, `taken` parts of it have been
taken and `part` is what the server has handed over of the next one; `inFlight` has, for every
open request, the part it sends and the bytes still to come. -/
structure PostWorld (ψ : Type) where
  ota : VendorOta (ψ × List PsaCall)
  before : List PsaCall
  file : List (List UInt8)
  taken : Nat
  part : List UInt8
  inFlight : Nat → Option (Nat × List UInt8)

/-- What the browser and the server do: begin the upload of a file, send a part of it,
hand over bytes, and report the end of a request. -/
inductive PostEvent
  | start (connection : Nat) (uri : CStr) (file : List (List UInt8))
  | send (connection : Nat) (uri : CStr) (k : Nat)
  | deliver (connection : Nat) (sizes : List Nat)
  | finish (connection : Nat)

/-- The image bytes of a call. -/
def PsaCall.bytes : PsaCall → List UInt8
  | .start _ manifest => manifest
  | .write _ _ data => data

namespace VendorOta

/-- The bytes that the calls carry are the file. -/
theorem StagesFile.bytes {ψ : Type} {psa : PsaFwu ψ} {component : Nat} {file : List UInt8}
    {calls : List PsaCall} (h : StagesFile psa component file calls) :
    (calls.map PsaCall.bytes).flatten = file := by
  obtain ⟨writes, rfl, hflat, _⟩ := h
  have hwrites : (writes.map fun w => PsaCall.write component w.1 w.2).map PsaCall.bytes =
      writes.map Prod.snd := by
    rw [List.map_map]
    rfl
  rw [List.map_cons, List.flatten_cons, hwrites, hflat]
  exact List.take_append_drop ..

/-- The calls since `before` stage a file.  A file shorter than a manifest makes no call yet: it
lies in the manifest buffer. -/
def Staged {ψ : Type} (psa : PsaFwu ψ) (before : List PsaCall) (s : VendorOta (ψ × List PsaCall))
    (file : List UInt8) : Prop :=
  if psa.manifestSize ≤ file.length then
    ∃ calls, s.psa.2 = before ++ calls ∧ StagesFile psa s.target file calls
  else s.psa.2 = before ∧ s.fileOffset = file.length ∧ s.manifest.take file.length = file

end VendorOta

namespace PostWorld

open VendorOta

variable {ψ : Type} (psa : PsaFwu ψ)

/-- Part 0 begins the upload of a file. -/
def restart (w : PostWorld ψ) (file : List (List UInt8)) (k : Nat) : PostWorld ψ :=
  if k = 0 then { w with before := w.ota.psa.2, file := file, taken := 0, part := [] } else w

/-- A request has been announced. -/
def announce (w : PostWorld ψ) (connection : Nat) (uri : CStr) (file : List (List UInt8))
    (k : Nat) : PostWorld ψ :=
  match announced uri file k with
  | none => w
  | some bytes => { w.restart file k with
      ota := (w.ota.httpdPostBegin psa.recorded connection uri bytes.length).1
      inFlight := Function.update w.inFlight connection
        (if (w.ota.httpdPostBegin psa.recorded connection uri bytes.length).2 = .accepted then
          some (k, bytes) else none) }

/-- Bytes of a body have arrived. -/
def receive (w : PostWorld ψ) (connection : Nat) (k : Nat) (rest : List UInt8)
    (sizes : List Nat) : PostWorld ψ :=
  if (w.ota.httpdPostReceiveData psa.recorded connection (pbufs sizes rest)).2 = .accepted then
    { w with
      ota := (w.ota.httpdPostReceiveData psa.recorded connection (pbufs sizes rest)).1
      part := w.part ++ rest.take sizes.sum
      inFlight := Function.update w.inFlight connection (some (k, rest.drop sizes.sum)) }
  else
    { w with
      ota := (w.ota.httpdPostReceiveData psa.recorded connection (pbufs sizes rest)).1
      inFlight := Function.update w.inFlight connection (some (k, rest.drop sizes.sum)) }

/-- The end of a request has been reported. -/
def finished (w : PostWorld ψ) (connection : Nat) : PostWorld ψ :=
  if (w.ota.httpdPostFinished psa.recorded connection).2 = .stored ∨
      (w.ota.httpdPostFinished psa.recorded connection).2 = .installed then
    { w with
      ota := (w.ota.httpdPostFinished psa.recorded connection).1
      taken := w.taken + 1
      part := []
      inFlight := Function.update w.inFlight connection none }
  else
    { w with
      ota := (w.ota.httpdPostFinished psa.recorded connection).1
      inFlight := Function.update w.inFlight connection none }

/-- One event.  The server speaks of open requests only. -/
def step (w : PostWorld ψ) : PostEvent → PostWorld ψ
  | .start connection uri file => w.announce psa connection uri file 0
  | .send connection uri k => w.announce psa connection uri w.file k
  | .deliver connection sizes =>
      match w.inFlight connection with
      | none => w
      | some (k, rest) => w.receive psa connection k rest sizes
  | .finish connection =>
      match w.inFlight connection with
      | none => w
      | some _ => w.finished psa connection

/-- After a reset, with any slot size and the service in any state. -/
def boot (maxBytes : BitVec 32) (p : ψ) : PostWorld ψ where
  ota := VendorOta.boot psa.recorded maxBytes.toNat (p, [])
  before := []
  file := []
  taken := 0
  part := []
  inFlight := fun _ => none

/-- **An image that is installed is the file**: the calls to the service since the upload began
carry every byte of it once and in order, each to its own place. -/
def InstallsFile (w : PostWorld ψ) : PostEvent → Prop
  | .finish connection => w.inFlight connection ≠ none →
      (w.ota.httpdPostFinished psa.recorded connection).2 = .installed →
      Staged psa w.before (w.ota.httpdPostFinished psa.recorded connection).1 w.file.flatten
  | _ => True

/-- No part is sent anew behind a front of it that has been fed, and the end of a new part
is reported when the whole part has arrived. -/
def PartsWhole (w : PostWorld ψ) : PostEvent → Prop
  | .send _ uri k => (announced uri w.file k).isSome → k ≠ 0 → w.ota.abort = false →
      (BitVec.ofNat 32 k).toInt = w.ota.nextSeq → w.part = []
  | .finish connection => connection = w.ota.postConn → w.ota.abort = false →
      w.ota.chunkDup = false → ∀ r ∈ w.inFlight connection, r.2 = []
  | _ => True

instance (w : PostWorld ψ) : ∀ e, Decidable (w.PartsWhole e)
  | .start _ _ _ | .deliver _ _ => inferInstanceAs (Decidable True)
  | .send _ uri k => inferInstanceAs (Decidable ((announced uri w.file k).isSome → k ≠ 0 →
      w.ota.abort = false → (BitVec.ofNat 32 k).toInt = w.ota.nextSeq → w.part = []))
  | .finish connection => inferInstanceAs (Decidable (connection = w.ota.postConn →
      w.ota.abort = false → w.ota.chunkDup = false → ∀ r ∈ w.inFlight connection, r.2 = []))

/-! ## What holds between events -/

/-- The bytes that should have been fed since the upload began. -/
def arrived (w : PostWorld ψ) : List UInt8 := (w.file.take w.taken).flatten ++ w.part

/-- The request that owns the upload sends the next part. -/
structure Sends (w : PostWorld ψ) (k : Nat) (rest : List UInt8) : Prop where
  turn : k = w.taken
  body : w.file[k]? = some (w.part ++ rest)
  nonempty : w.part ++ rest ≠ []
  last : w.ota.chunkLast = decide (k + 1 = w.file.length)
  room : w.arrived.length + rest.length ≤ w.ota.maxBytes

/-- The turn is that of the next part.  As long as there is one, the bytes that have arrived are
the bytes that were fed. -/
structure UpToDate (w : PostWorld ψ) : Prop where
  turn : w.ota.nextSeq = (w.taken : Int).bmod (2 ^ 32)
  fed : w.taken < w.file.length →
    HasFed psa w.ota w.ota.target w.ota.overrun w.before w.arrived
  room : w.arrived.length ≤ w.ota.maxBytes
  parts : w.taken ≤ (w.file.take w.taken).flatten.length

/-- The upload is up to date, and so is the request that owns it. -/
structure InOrder (w : PostWorld ψ) : Prop extends UpToDate psa w where
  current : ∀ k rest, w.inFlight w.ota.postConn = some (k, rest) → w.ota.chunkDup = false →
    w.Sends k rest

/-- An upload that has not been aborted is in order. -/
structure Sound (w : PostWorld ψ) : Prop where
  small : w.ota.maxBytes < 2 ^ 32
  inOrder : w.ota.abort = false → w.InOrder psa

theorem announced_some {uri : CStr} {file : List (List UInt8)} {k : Nat} {bytes : List UInt8}
    (h : announced uri file k = some bytes) : file[k]? = some bytes ∧ k < 2 ^ 32 ∧
      isUploadUri uri = true ∧ Body.ofUri uri bytes.length = some (bodyOf file k bytes) := by
  obtain ⟨hget, hcond⟩ := Option.filter_eq_some_iff.mp h
  simp only [Bool.and_eq_true, decide_eq_true_eq] at hcond
  exact ⟨hget, hcond.1.1, hcond.1.2, hcond.2⟩

/-- The handler of an announced part. -/
theorem httpdPostBegin_announced {φ : Type} (fwu : PsaFwu φ) {uri : CStr}
    {file : List (List UInt8)} {k : Nat} {bytes : List UInt8}
    (h : announced uri file k = some bytes) (s : VendorOta φ) (connection : Nat) :
    s.httpdPostBegin fwu connection uri bytes.length =
      s.body fwu connection (bodyOf file k bytes) := by
  obtain ⟨_, _, huri, hbody⟩ := announced_some h
  rw [httpdPostBegin, huri, if_neg (by decide), hbody]

/-- Sequence numbers tell parts apart. -/
theorem part_eq {k n : Nat} (hk : k < 2 ^ 32) (hn : n < 2 ^ 32)
    (h : (BitVec.ofNat 32 k).toInt = (n : Int).bmod (2 ^ 32)) : k = n := by
  rw [BitVec.toInt_eq_toNat_bmod, BitVec.toNat_ofNat, Nat.mod_eq_of_lt hk] at h
  have hmod := congrArg (· % ((2 ^ 32 : Nat) : Int)) h
  simp only [Int.bmod_emod] at hmod
  omega

variable {psa}

/-- A request keeps what has been fed. -/
theorem UpToDate.fed_of_lt {w : PostWorld ψ} (h : w.UpToDate psa) (hsmall : w.ota.maxBytes < 2 ^ 32)
    (hlt : w.taken < w.file.length) : w.ota.fileOffset = w.arrived.length := by
  have hroom := h.room
  rw [(h.fed hlt).offset]
  omega

/-- The announcement of a body leaves alone what has been fed. -/
theorem UpToDate.admitted {w : PostWorld ψ} (h : w.UpToDate psa) (connection : Nat)
    (dup last : Bool) (flight : Nat → Option (Nat × List UInt8)) :
    UpToDate psa { w with
      ota := { w.ota with chunkDup := dup, chunkLast := last, postConn := connection }
      inFlight := flight } where
  turn := h.turn
  fed hmore := by
    have hfed := h.fed hmore
    exact ⟨rfl, rfl, hfed.calls, hfed.offset, hfed.manifest, hfed.image⟩
  room := h.room
  parts := h.parts

/-- A body of a running upload is announced, in its turn or not, in a world that is up to date. -/
theorem UpToDate.announceBody {w : PostWorld ψ} (hsmall : w.ota.maxBytes < 2 ^ 32)
    (h : w.ota.abort = false → w.UpToDate psa) {connection k : Nat} {bytes : List UInt8}
    (hpart : w.ota.abort = false → (BitVec.ofNat 32 k).toInt = w.ota.nextSeq → w.part = [])
    (hk : k < 2 ^ 32) (hbody : w.file[k]? = some bytes) (hne : bytes ≠ []) :
    Sound psa { w with
      ota := (w.ota.announceBody connection (bodyOf w.file k bytes)).1
      inFlight := Function.update w.inFlight connection
        (if (w.ota.announceBody connection (bodyOf w.file k bytes)).2 = .accepted then
          some (k, bytes) else none) } := by
  unfold VendorOta.announceBody
  rcases w.ota.guard_cases (bodyOf w.file k bytes).seq with
    ⟨habort, hg⟩ | ⟨hgo, hlt, hg⟩ | ⟨_, _, hg⟩ | ⟨hgo, heq, hg⟩
  · rw [hg]
    exact ⟨hsmall, fun hgo => absurd (habort.symm.trans hgo) (by decide)⟩
  · -- a part that has been taken is received once more, and fed nowhere
    rw [hg]
    simp only [admitBody, Bool.true_eq_false, false_and, if_false]
    refine ⟨hsmall, fun _ => ⟨(h hgo).admitted connection true _ _, ?_⟩⟩
    exact fun _ _ _ hdup => nomatch hdup
  · rw [hg]
    exact ⟨hsmall, fun hgo => nomatch hgo⟩
  · rw [hg]
    simp only [admitBody, true_and]
    by_cases hcap : w.ota.maxBytes < w.ota.fileOffset + (bodyOf w.file k bytes).length
    · rw [if_pos hcap]
      exact ⟨hsmall, fun hgo => nomatch hgo⟩
    · rw [if_neg hcap]
      have hup := h hgo
      have hempty := hpart hgo heq
      have htaken : k = w.taken := by
        have hp := hup.parts
        have hr := hup.room
        rw [arrived, List.length_append] at hr
        exact part_eq hk (by omega) (heq.trans hup.turn)
      obtain ⟨hmore, _⟩ := List.getElem?_eq_some_iff.mp hbody
      have hoff := hup.fed_of_lt hsmall (htaken ▸ hmore)
      have hlen : (bodyOf w.file k bytes).length = bytes.length := rfl
      refine ⟨hsmall, fun _ => ⟨hup.admitted connection false _ _, ?_⟩⟩
      intro k' rest hflight _
      dsimp only at hflight
      rw [Function.update_self, if_pos rfl, Option.some.injEq, Prod.mk.injEq] at hflight
      obtain ⟨rfl, rfl⟩ := hflight
      refine ⟨htaken, ?_, ?_, rfl, ?_⟩
      · dsimp only
        rw [hempty, List.nil_append]
        exact hbody
      · dsimp only
        rw [hempty, List.nil_append]
        exact hne
      · rw [arrived] at hoff ⊢
        dsimp only
        omega

/-- A body that is announced is not empty. -/
theorem announced_ne_nil {uri : CStr} {file : List (List UInt8)} {k : Nat} {bytes : List UInt8}
    (h : announced uri file k = some bytes) : bytes ≠ [] := by
  obtain ⟨_, _, _, hbody⟩ := announced_some h
  rintro rfl
  rw [Body.ofUri, if_pos (.inl (by simp))] at hbody
  cases hbody

/-- Part 0 prepares a new upload, and feeds nothing. -/
theorem begin_true {s s' : VendorOta (ψ × List PsaCall)} (h : s.begin psa.recorded = (s', true)) :
    s'.abort = false ∧ s'.nextSeq = 0 ∧ s'.maxBytes = s.maxBytes ∧
      HasFed psa s' s'.target s'.overrun s.psa.2 [] := by
  have hquiet := psa.quiet_recorded.otaPrepareTarget s.psa
  unfold begin at h
  split at h
  · rename_i target p hprepare
    obtain ⟨rfl, _⟩ := Prod.mk.injEq .. ▸ h
    rw [hprepare] at hquiet
    dsimp only at hquiet
    rw [← hquiet]
    exact ⟨rfl, rfl, rfl, hasFed_restarted s target p⟩
  · cases h

theorem begin_maxBytes {φ : Type} (fwu : PsaFwu φ) (s : VendorOta φ) :
    (s.begin fwu).1.maxBytes = s.maxBytes := by
  unfold begin
  split <;> rfl

/-- **A request is announced.** -/
theorem Sound.announce {w : PostWorld ψ} (h : w.Sound psa) {uri : CStr}
    {file : List (List UInt8)} {k : Nat} (hfile : k ≠ 0 → file = w.file)
    (hpart : (announced uri file k).isSome → k ≠ 0 → w.ota.abort = false →
      (BitVec.ofNat 32 k).toInt = w.ota.nextSeq → w.part = []) (connection : Nat) :
    (w.announce psa connection uri file k).Sound psa := by
  unfold PostWorld.announce
  cases hann : announced uri file k with
  | none => exact h
  | some bytes =>
      obtain ⟨hget, hk, _, _⟩ := announced_some hann
      have hne := announced_ne_nil hann
      dsimp only
      rw [httpdPostBegin_announced psa.recorded hann, body]
      by_cases hzero : k = 0
      · subst hzero
        have hseq : (bodyOf file 0 bytes).seq = 0 := rfl
        rw [if_pos hseq, restart, if_pos rfl]
        have hsame := begin_maxBytes psa.recorded w.ota
        cases hbegin : w.ota.begin psa.recorded with
        | mk s ok =>
            rw [hbegin] at hsame
            have hmax : s.maxBytes < 2 ^ 32 := hsame ▸ h.small
            cases ok with
            | true =>
                obtain ⟨_, hturn, _, hfed⟩ := begin_true hbegin
                exact UpToDate.announceBody (w := { w with
                    ota := s, before := w.ota.psa.2, file := file, taken := 0, part := [] })
                  hmax (fun _ => ⟨hturn.trans Int.zero_bmod.symm, fun _ => hfed, Nat.zero_le _,
                    Nat.zero_le _⟩) (fun _ _ => rfl) hk hget hne
            | false =>
                have habort := begin_failed psa.recorded (s := w.ota) (by rw [hbegin])
                rw [hbegin] at habort
                exact ⟨hmax, fun hgo => absurd (habort.symm.trans hgo) (by decide)⟩
      · have hsame := hfile hzero
        subst hsame
        have hseq : (bodyOf w.file k bytes).seq ≠ 0 := by
          intro hz
          have := part_eq hk (by decide) (hz.trans Int.zero_bmod.symm)
          exact hzero this
        rw [if_neg hseq, restart, if_neg hzero]
        exact UpToDate.announceBody h.small (fun hgo => (h.inOrder hgo).toUpToDate)
          (hpart (by rw [hann]; rfl) hzero) hk hget hne

/-- Buffers that are all taken are fed, and leave the request alone. -/
theorem feedPbufs_accepted {s : VendorOta (ψ × List PsaCall)} {component : Nat} {overrun : Bool}
    {log : List PsaCall} {fed : List UInt8} {bufs : List (List UInt8)}
    (hs : HasFed psa s component overrun log fed)
    (h : (s.feedPbufs psa.recorded bufs).2 = .accepted)
    (hlt : fed.length + bufs.flatten.length < 2 ^ 32) :
    SameRequest s (s.feedPbufs psa.recorded bufs).1 ∧
      HasFed psa (s.feedPbufs psa.recorded bufs).1 component overrun log
        (fed ++ bufs.flatten) := by
  induction bufs generalizing s fed with
  | nil =>
      rw [List.flatten_nil, List.append_nil]
      exact ⟨.refl s, hs⟩
  | cons buf bufs ih =>
      rw [List.flatten_cons, List.length_append] at hlt
      rw [List.flatten_cons, ← List.append_assoc]
      unfold feedPbufs at h ⊢
      by_cases hnil : buf = []
      · subst hnil
        rw [if_pos rfl] at h ⊢
        rw [List.append_nil]
        exact ih hs h (by omega)
      · rw [if_neg hnil] at h ⊢
        have hkeep := (s.otaFeed_keeps psa.recorded buf).1
        have hfeed := hs.otaFeed (by omega) buf (by omega) (.inr (by omega))
        cases hr : s.otaFeed psa.recorded buf with
        | mk s' st =>
            rw [hr] at h hkeep hfeed
            cases st with
            | success =>
                obtain ⟨hrest, hfed⟩ := ih (hfeed.post rfl) h (by
                  rw [List.length_append]
                  omega)
                exact ⟨hkeep.trans hrest, hfed⟩
            | successReboot => cases h
            | error code => cases h

theorem feedPbufs_aborts {φ : Type} (fwu : PsaFwu φ) {s : VendorOta φ}
    {bufs : List (List UInt8)} (h : (s.feedPbufs fwu bufs).2 ≠ .accepted) :
    (s.feedPbufs fwu bufs).1.abort = true := by
  induction bufs generalizing s with
  | nil => exact absurd rfl h
  | cons buf bufs ih =>
      unfold feedPbufs at h ⊢
      by_cases hnil : buf = []
      · rw [if_pos hnil] at h ⊢
        exact ih h
      · rw [if_neg hnil] at h ⊢
        cases hfeed : s.otaFeed fwu buf with
        | mk s' st =>
            rw [hfeed] at h
            cases st with
            | success => exact ih h
            | successReboot => rfl
            | error code => rfl

theorem feedPbufs_maxBytes {φ : Type} (fwu : PsaFwu φ) (s : VendorOta φ)
    (bufs : List (List UInt8)) : (s.feedPbufs fwu bufs).1.maxBytes = s.maxBytes := by
  induction bufs generalizing s with
  | nil => rfl
  | cons buf bufs ih =>
      unfold feedPbufs
      by_cases hnil : buf = []
      · rw [if_pos hnil]
        exact ih s
      · rw [if_neg hnil]
        have hkeep := (s.otaFeed_keeps fwu buf).1.maxBytes
        cases hfeed : s.otaFeed fwu buf with
        | mk s' st =>
            rw [hfeed] at hkeep
            cases st with
            | success => exact (ih s').trans hkeep
            | successReboot => exact hkeep
            | error code => exact hkeep

/-- What has been fed stays fed while only requests come and go. -/
theorem UpToDate.keep {w : PostWorld ψ} (h : w.UpToDate psa)
    (flight : Nat → Option (Nat × List UInt8)) : UpToDate psa { w with inFlight := flight } :=
  ⟨h.turn, h.fed, h.room, h.parts⟩

/-- Nothing of the upload is touched when a request's bytes are not taken. -/
theorem InOrder.dropBytes {w : PostWorld ψ} (h : w.InOrder psa) {connection k : Nat}
    {rest : List UInt8} (hdead : connection = w.ota.postConn → w.ota.chunkDup = true) :
    InOrder psa { w with inFlight := Function.update w.inFlight connection (some (k, rest)) } where
  toUpToDate := h.toUpToDate.keep _
  current := by
    intro k' rest' hflight hdup
    dsimp only at hflight hdup
    by_cases hconn : w.ota.postConn = connection
    · rw [hdead hconn.symm] at hdup
      cases hdup
    · rw [Function.update_of_ne hconn] at hflight
      have hs := h.current k' rest' hflight hdup
      exact ⟨hs.turn, hs.body, hs.nonempty, hs.last, hs.room⟩

/-- Bytes of the part whose turn it is are fed. -/
theorem InOrder.takeBytes {w : PostWorld ψ} (h : w.InOrder psa) {connection k : Nat}
    {rest : List UInt8} (hs : w.Sends k rest) (hmine : connection = w.ota.postConn)
    (hsmall : w.ota.maxBytes < 2 ^ 32) {sizes : List Nat}
    (hok : (w.ota.feedPbufs psa.recorded (pbufs sizes rest)).2 = .accepted) :
    InOrder psa { w with
      ota := (w.ota.feedPbufs psa.recorded (pbufs sizes rest)).1
      part := w.part ++ rest.take sizes.sum
      inFlight := Function.update w.inFlight connection (some (k, rest.drop sizes.sum)) } := by
  have hmax := feedPbufs_maxBytes psa.recorded w.ota (pbufs sizes rest)
  have hroom := hs.room
  have htake : (rest.take sizes.sum).length ≤ rest.length := by
    rw [List.length_take]
    omega
  obtain ⟨hmore, _⟩ := List.getElem?_eq_some_iff.mp hs.body
  obtain ⟨hkeep, hfed⟩ := feedPbufs_accepted (h.fed (hs.turn ▸ hmore)) hok (by
    rw [flatten_pbufs]
    omega)
  rw [flatten_pbufs, arrived, List.append_assoc] at hfed
  have hlen : ((w.file.take w.taken).flatten ++ (w.part ++ rest.take sizes.sum)).length =
      w.arrived.length + (rest.take sizes.sum).length := by
    rw [← List.append_assoc, List.length_append]
    rfl
  refine ⟨⟨hkeep.nextSeq.trans h.turn, fun _ => ?_, ?_, h.parts⟩, ?_⟩
  · exact ⟨rfl, rfl, hfed.target ▸ hfed.calls, hfed.offset, hfed.manifest, hfed.image⟩
  · rw [arrived]
    dsimp only
    rw [hmax, hlen]
    omega
  · intro k' rest' hfl _
    dsimp only at hfl
    rw [hkeep.postConn, hmine, Function.update_self, Option.some.injEq, Prod.mk.injEq] at hfl
    obtain ⟨rfl, rfl⟩ := hfl
    have happ : w.part ++ rest.take sizes.sum ++ rest.drop sizes.sum = w.part ++ rest := by
      rw [List.append_assoc, List.take_append_drop]
    refine ⟨hs.turn, happ ▸ hs.body, happ ▸ hs.nonempty, hkeep.chunkLast.trans hs.last, ?_⟩
    rw [arrived]
    dsimp only
    rw [hmax, hlen, List.length_drop, List.length_take]
    omega

/-- **Bytes arrive.** -/
theorem Sound.receive {w : PostWorld ψ} (h : w.Sound psa) {connection k : Nat}
    {rest : List UInt8} (hflight : w.inFlight connection = some (k, rest)) (sizes : List Nat) :
    (w.receive psa connection k rest sizes).Sound psa := by
  unfold PostWorld.receive httpdPostReceiveData
  by_cases hconn : connection ≠ w.ota.postConn
  · simp only [hconn, ne_eq, not_false_eq_true, if_true, reduceCtorEq, if_false]
    exact ⟨h.small, fun hgo => (h.inOrder hgo).dropBytes fun heq => absurd heq hconn⟩
  · rw [if_neg hconn]
    have hmine : connection = w.ota.postConn := not_not.mp hconn
    cases habort : w.ota.abort with
    | true => exact ⟨h.small, fun hgo => absurd (habort.symm.trans hgo) (by decide)⟩
    | false =>
        have hin := h.inOrder habort
        cases hdup : w.ota.chunkDup with
        | true => exact ⟨h.small, fun _ => hin.dropBytes fun _ => hdup⟩
        | false =>
            have hsmall := h.small
            have hmax := feedPbufs_maxBytes psa.recorded w.ota (pbufs sizes rest)
            simp only [Bool.false_eq_true, if_false]
            by_cases hok : (w.ota.feedPbufs psa.recorded (pbufs sizes rest)).2 = .accepted
            · rw [if_pos hok]
              have hs := hin.current k rest (hmine ▸ hflight) hdup
              exact ⟨hmax ▸ hsmall, fun _ => hin.takeBytes hs hmine hsmall hok⟩
            · rw [if_neg hok]
              refine ⟨hmax ▸ hsmall, fun hgo => ?_⟩
              exact absurd ((feedPbufs_aborts psa.recorded hok).symm.trans hgo) (by decide)

/-- A request that ends without being taken. -/
theorem InOrder.dropRequest {w : PostWorld ψ} (h : w.InOrder psa) (connection : Nat) :
    InOrder psa { w with inFlight := Function.update w.inFlight connection none } where
  toUpToDate := h.toUpToDate.keep _
  current := by
    intro k rest hflight hdup
    dsimp only at hflight hdup
    by_cases hconn : w.ota.postConn = connection
    · rw [hconn, Function.update_self] at hflight
      cases hflight
    · rw [Function.update_of_ne hconn] at hflight
      have hs := h.current k rest hflight hdup
      exact ⟨hs.turn, hs.body, hs.nonempty, hs.last, hs.room⟩

/-- A part that has been fed in full is one more part of the file. -/
theorem take_succ_flatten {w : PostWorld ψ} {k : Nat} (hs : w.Sends k []) :
    (w.file.take (w.taken + 1)).flatten = w.arrived := by
  have hbody := hs.body
  rw [hs.turn, List.append_nil] at hbody
  rw [List.take_add_one, hbody, arrived]
  simp

/-- A part is taken: the next state of the handlers keeps the request, and is up to date when
there is one more part. -/
theorem InOrder.takePart {w : PostWorld ψ} (h : w.InOrder psa) {k connection : Nat}
    {s : VendorOta (ψ × List PsaCall)} (hs : w.Sends k []) (hconn : connection = w.ota.postConn)
    (hkeep : SameRequest w.ota.advance s)
    (hfed : w.taken + 1 < w.file.length →
      HasFed psa s s.target s.overrun w.before w.arrived) :
    InOrder psa { w with
      ota := s
      taken := w.taken + 1
      part := []
      inFlight := Function.update w.inFlight connection none } where
  turn := by
    have hnext : w.ota.advance.nextSeq = (w.ota.nextSeq + 1).bmod (2 ^ 32) := rfl
    dsimp only
    rw [hkeep.nextSeq, hnext, h.turn, Int.bmod_add_bmod, Int.natCast_add, Int.natCast_one]
  fed := by
    rw [arrived]
    dsimp only
    rw [take_succ_flatten hs, List.append_nil]
    exact hfed
  room := by
    rw [arrived]
    dsimp only
    rw [take_succ_flatten hs, List.append_nil, hkeep.maxBytes]
    exact h.room
  parts := by
    have hne := hs.nonempty
    rw [List.append_nil] at hne
    have hpos := List.length_pos_iff.mpr hne
    have hparts := h.parts
    dsimp only
    rw [take_succ_flatten hs, arrived, List.length_append]
    omega
  current := by
    intro k' rest hflight _
    have hpost : s.postConn = w.ota.postConn := hkeep.postConn
    dsimp only at hflight
    rw [hpost, hconn, Function.update_self] at hflight
    cases hflight

/-- An image is installed behind its flush, which the service has taken. -/
theorem complete_installed {s : VendorOta (ψ × List PsaCall)}
    (h : (s.complete psa.recorded).2 = .installed) :
    (s.otaFlushImage psa.recorded).2 = .success ∧
      ∃ p, (s.complete psa.recorded).1 = { (s.otaFlushImage psa.recorded).1 with
        psa := (p, (s.otaFlushImage psa.recorded).1.psa.2)
        rebootPending := true
        resetRequested := true } := by
  unfold complete otaFinalize at h ⊢
  cases hflush : s.otaFlushImage psa.recorded with
  | mk s₁ st =>
      rw [hflush] at h
      cases st with
      | successReboot => cases h
      | error code => cases h
      | success =>
          refine ⟨rfl, ?_⟩
          dsimp only at h ⊢
          cases hfinish : (psa.recorded.finish s₁.target).run s₁.psa with
          | mk st p =>
              have hsame : p.2 = s₁.psa.2 := congrArg (fun r => r.2.2) hfinish.symm
              rw [hfinish] at h
              cases st with
              | successReboot => cases h
              | error code => cases h
              | success =>
                  dsimp only at h ⊢
                  cases hinstall : psa.recorded.install.run p with
                  | mk st p' =>
                      have hsame' : p'.2 = p.2 := congrArg (fun r => r.2.2) hinstall.symm
                      rw [hinstall] at h
                      cases st with
                      | success => cases h
                      | error code => cases h
                      | successReboot =>
                          refine ⟨p'.1, ?_⟩
                          dsimp only
                          rw [← hsame, ← hsame']

/-- **What is installed has been staged.** -/
theorem staged_of_installed {s : VendorOta (ψ × List PsaCall)} {component : Nat}
    {overrun : Bool} {log : List PsaCall} {fed : List UInt8}
    (hs : HasFed psa s component overrun log fed) (h32 : fed.length < 2 ^ 32)
    (h : (s.complete psa.recorded).2 = .installed) :
    Staged psa log (s.complete psa.recorded).1 fed := by
  obtain ⟨hflush, p, hend⟩ := complete_installed h
  rw [hend]
  unfold Staged
  by_cases hlo : psa.manifestSize ≤ fed.length
  · rw [if_pos hlo]
    obtain ⟨_, hbase, hbuf⟩ := hs.image hlo
    obtain ⟨htarget, _, hcalls⟩ :=
      (otaFlushImage_leaves hlo h32.le hs.target hs.calls hbase hbuf).post hflush
    exact ⟨_, hcalls, htarget.symm ▸ stagesFile_psaCalls component fed⟩
  · obtain ⟨_, hempty, _, hmanifest⟩ := hs.manifest (by omega)
    have hcalls := hs.calls
    rw [PsaFwu.psaCallsSoFar, if_pos (by omega), List.append_nil] at hcalls
    have hoff := hs.offset
    rw [Nat.mod_eq_of_lt h32] at hoff
    rw [if_neg hlo, otaFlushImage, if_pos hempty]
    exact ⟨hcalls, hoff, hmanifest⟩

/-- **A request ends.** -/
theorem Sound.finished {w : PostWorld ψ} (h : w.Sound psa) {connection k : Nat}
    {rest : List UInt8} (hflight : w.inFlight connection = some (k, rest))
    (hwhole : connection = w.ota.postConn → w.ota.abort = false → w.ota.chunkDup = false →
      rest = []) :
    (w.finished psa connection).Sound psa ∧
      ((w.ota.httpdPostFinished psa.recorded connection).2 = .installed →
        Staged psa w.before (w.ota.httpdPostFinished psa.recorded connection).1
          w.file.flatten) := by
  unfold PostWorld.finished httpdPostFinished
  by_cases hconn : connection ≠ w.ota.postConn
  · simp only [hconn, ne_eq, not_false_eq_true, if_true, reduceCtorEq, or_self, if_false,
      false_implies, and_true]
    exact ⟨h.small, fun hgo => (h.inOrder hgo).dropRequest connection⟩
  · rw [if_neg hconn]
    have hmine : connection = w.ota.postConn := not_not.mp hconn
    cases habort : w.ota.abort with
    | true =>
        exact ⟨⟨h.small, fun hgo => absurd (habort.symm.trans hgo) (by decide)⟩, nofun⟩
    | false =>
        have hin := h.inOrder habort
        cases hdup : w.ota.chunkDup with
        | true => exact ⟨⟨h.small, fun _ => hin.dropRequest connection⟩, nofun⟩
        | false =>
            have hrest := hwhole hmine habort hdup
            subst hrest
            have hs := hin.current k [] (hmine ▸ hflight) hdup
            obtain ⟨hmore, _⟩ := List.getElem?_eq_some_iff.mp hs.body
            have hfed := hin.fed (hs.turn ▸ hmore)
            have hadvance : HasFed psa w.ota.advance w.ota.target w.ota.overrun w.before
                w.arrived :=
              ⟨rfl, rfl, hfed.calls, hfed.offset, hfed.manifest, hfed.image⟩
            simp only [Bool.false_eq_true, if_false]
            cases hlast : w.ota.chunkLast with
            | false =>
                exact ⟨⟨h.small, fun _ => hin.takePart hs hmine (.refl _) fun _ => hadvance⟩,
                  nofun⟩
            | true =>
                have hend : w.taken + 1 = w.file.length := by
                  have hsl := hs.last
                  rw [hlast, hs.turn] at hsl
                  simpa using hsl.symm
                simp only [if_true]
                rcases w.ota.advance.complete_cases psa.recorded with ⟨hout, hkeep, _⟩ |
                  ⟨hout, hfail, hmax⟩
                · rw [hout, if_pos (.inr rfl)]
                  refine ⟨⟨?_, fun _ => hin.takePart hs hmine hkeep fun hlt => ?_⟩, fun _ => ?_⟩
                  · dsimp only
                    rw [hkeep.maxBytes]
                    exact h.small
                  · omega
                  · have hroom := hin.room
                    have hsmall := h.small
                    have hstaged := staged_of_installed hadvance (by omega) hout
                    rwa [← take_succ_flatten hs, hend, List.take_length] at hstaged
                · rw [hout, if_neg (by decide)]
                  refine ⟨⟨?_, fun hgo => absurd (hfail.symm.trans hgo) (by decide)⟩, nofun⟩
                  dsimp only
                  rw [hmax]
                  exact h.small

/-- **One event** of a run whose parts are whole. -/
theorem Sound.step {w : PostWorld ψ} (h : w.Sound psa) {e : PostEvent} (hok : w.PartsWhole e) :
    (w.step psa e).Sound psa ∧ w.InstallsFile psa e := by
  cases e with
  | start connection uri file =>
      exact ⟨h.announce (fun hne => absurd rfl hne) (fun _ hne => absurd rfl hne) connection,
        trivial⟩
  | send connection uri k => exact ⟨h.announce (fun _ => rfl) hok connection, trivial⟩
  | deliver connection sizes =>
      refine ⟨?_, trivial⟩
      cases hflight : w.inFlight connection with
      | none =>
          simp only [PostWorld.step, hflight]
          exact h
      | some r =>
          simp only [PostWorld.step, hflight]
          exact h.receive hflight sizes
  | finish connection =>
      cases hflight : w.inFlight connection with
      | none =>
          simp only [PostWorld.step, hflight]
          exact ⟨h, fun hne => absurd hflight hne⟩
      | some r =>
          obtain ⟨hsound, hinst⟩ := h.finished hflight
            fun hmine habort hdup => hok hmine habort hdup r hflight
          simp only [PostWorld.step, hflight]
          exact ⟨hsound, fun _ => hinst⟩

variable (psa)

theorem sound_boot (maxBytes : BitVec 32) (p : ψ) : (boot psa maxBytes p).Sound psa where
  small := maxBytes.isLt
  inOrder _ :=
    { turn := Int.zero_bmod.symm
      fed := fun hlt => absurd hlt (Nat.not_lt_zero _)
      room := Nat.zero_le _
      parts := Nat.zero_le _
      current := nofun }

/-- **Exactly once, over failing connections.**  In every run in which no part is sent anew
behind a front of it that was fed, and no cut part is reported as finished, every image that
is installed is the file. -/
theorem installs_file (maxBytes : BitVec 32) (p : ψ) (es : List PostEvent)
    (h : Runs.EveryStep (step psa) PartsWhole (boot psa maxBytes p) es) :
    Runs.EveryStep (step psa) (InstallsFile psa) (boot psa maxBytes p) es :=
  h.imp (I := Sound psa) (fun _ _ hw hok => (hw.step hok).1)
    (fun _ _ hw hok => (hw.step hok).2) (sound_boot psa maxBytes p)

end PostWorld

/-- A service that runs from the second vendor slot and follows the states of the first: an
update is started once, written while it is being written, finished, and installed. -/
def updatingPsa : PsaFwu PsaFwuState where
  manifestSize := 16
  manifestSize_pos := Nat.succ_pos 15
  maxComponentId := 6
  query := fun c s => (some ⟨if c = otaVendorSlot1 then s else .ready, c = otaVendorSlot2⟩, s)
  cancel := fun _ s => ((), if s = .writing ∨ s = .candidate then .failed else s)
  clean := fun _ _ => ((), .ready)
  reject := fun s => ((), if s = .staged ∨ s = .trial then .failed else s)
  start := fun _ _ s => if s = .ready then (.success, .writing) else (.error (-137), s)
  write := fun _ _ _ s => (if s = .writing then .success else .error (-137), s)
  finish := fun _ s => if s = .writing then (.success, .candidate) else (.error (-137), s)
  install := fun s => if s = .candidate then (.successReboot, .staged) else (.error (-137), s)

namespace PostWorld

open VendorOta

/-- A file in two parts, longer than a manifest. -/
def twoParts : List (List UInt8) := [List.replicate 16 7 ++ [1], [2, 3]]

/-- The requests for its parts. -/
def firstUri : CStr := ascii "/fwupload?seq=0&last=0"
def secondUri : CStr := ascii "/fwupload?seq=1&last=1"

/-- An upload whose second part is sent twice, the first time without any of its bytes
arriving. -/
def retriedPost : List PostEvent :=
  [.start 1 firstUri twoParts, .deliver 1 [9, 8], .finish 1, .send 2 secondUri 1,
    .send 3 secondUri 1, .deliver 3 [1, 1], .finish 3]

theorem retried_post_installs_file :
    Runs.EveryStep (step updatingPsa) (InstallsFile updatingPsa)
        (boot updatingPsa 2752512 .failed) retriedPost ∧
      (Runs.final (step updatingPsa) (boot updatingPsa 2752512 .failed) retriedPost).ota.psa =
        (.staged, [.start 4 (List.replicate 16 7), .write 4 16 [1, 2, 3]]) :=
  ⟨installs_file updatingPsa 2752512 .failed retriedPost (by decide +kernel), by decide +kernel⟩

/-- The same upload, cut behind the first byte of its second part. -/
def cutPost : List PostEvent :=
  [.start 1 firstUri twoParts, .deliver 1 [17], .finish 1, .send 2 secondUri 1, .deliver 2 [1],
    .send 3 secondUri 1, .deliver 3 [2]]

/-- The handlers before its end is reported. -/
def cutWorld : PostWorld PsaFwuState :=
  Runs.final (step updatingPsa) (boot updatingPsa 2752512 .ready) cutPost

/-- The byte is staged twice, and the image is installed. -/
theorem cutWorld_finished :
    ((cutWorld.ota.httpdPostFinished updatingPsa.recorded 3).1.psa.2,
        (cutWorld.ota.httpdPostFinished updatingPsa.recorded 3).2) =
      (cutWorld.before ++ [.start 4 (List.replicate 16 7), .write 4 16 [1, 2, 2, 3]],
        .installed) := by
  decide +kernel

/-- **The front of a cut part is staged twice.** -/
theorem cut_part_fed_twice :
    ¬Runs.EveryStep (step updatingPsa) (InstallsFile updatingPsa)
      (boot updatingPsa 2752512 .ready) (cutPost ++ [.finish 3]) := by
  rintro ⟨_, _, _, _, _, _, _, hfinish, _⟩
  have hinstall : InstallsFile updatingPsa cutWorld (.finish 3) := hfinish
  obtain ⟨hlog, hout⟩ := Prod.mk.inj cutWorld_finished
  have hstaged := hinstall (by decide +kernel) hout
  rw [Staged, if_pos (by decide +kernel)] at hstaged
  obtain ⟨calls, hcalls, hfile⟩ := hstaged
  have hbytes := hfile.bytes
  rw [← List.append_cancel_left (hlog.symm.trans hcalls)] at hbytes
  exact absurd hbytes (by decide +kernel)

end PostWorld

end HomeAuto
