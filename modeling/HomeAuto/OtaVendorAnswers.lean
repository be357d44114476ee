import HomeAuto.OtaVendorPrepare

/-!
# What the update service answers

A service with a record of its answers to the calls that carry an update out.  From the record
one can tell whether a request has installed an image and whether a call of it has failed.

`Settles` says what one request leaves: as long as the upload runs, every call of it was taken,
and the reboot is pending exactly when an image of the upload has been installed.
-/

namespace HomeAuto

/-- What the service answered to a call. -/
inductive PsaAnswer
  | started (st : PsaStatus)
  | written (st : PsaStatus)
  | finished (component : Nat) (st : PsaStatus)
  | installed (st : PsaStatus)
  deriving DecidableEq

/-- The call has done what it is for; an installation asks for a reboot. -/
def PsaAnswer.Took : PsaAnswer → Prop
  | .started st | .written st | .finished _ st => st = .success
  | .installed st => st = .successReboot

instance : DecidablePred PsaAnswer.Took
  | .started _ | .written _ | .finished _ _ | .installed _ => inferInstanceAs (Decidable (_ = _))

/-- **The answers to a request install an image**: they end with one that has finished it and one
that has installed it. -/
def installs : List PsaAnswer → Bool
  | [.finished _ .success, .installed .successReboot] => true
  | _ :: answers => installs answers
  | [] => false

namespace PsaFwu

variable {ψ : Type} (psa : PsaFwu ψ)

/-- Pass a call on, and record the answer. -/
def recordAnswer (call : StateM ψ PsaStatus) (entry : PsaStatus → PsaAnswer) :
    StateM (ψ × List PsaAnswer) PsaStatus := fun p =>
  ((call.run p.1).1, (call.run p.1).2, p.2 ++ [entry (call.run p.1).1])

/-- Pass a call on whose answer is not recorded. -/
def passAnswer {α : Type} (call : StateM ψ α) : StateM (ψ × List PsaAnswer) α := fun p =>
  ((call.run p.1).1, (call.run p.1).2, p.2)

/-- Record the answers of a service. -/
def answered : PsaFwu (ψ × List PsaAnswer) where
  manifestSize := psa.manifestSize
  manifestSize_pos := psa.manifestSize_pos
  maxComponentId := psa.maxComponentId
  query c := passAnswer (psa.query c)
  cancel c := passAnswer (psa.cancel c)
  clean c := passAnswer (psa.clean c)
  reject := passAnswer psa.reject
  start c m := recordAnswer (psa.start c m) .started
  write c off data := recordAnswer (psa.write c off data) .written
  finish c := recordAnswer (psa.finish c) (.finished c)
  install := recordAnswer psa.install .installed

/-- Preparing an update is not part of it. -/
theorem quiet_answered : psa.answered.Quiet :=
  ⟨fun _ _ => rfl, fun _ _ => rfl, fun _ _ => rfl, fun _ => rfl⟩

theorem record_finish (c : Nat) (p : ψ × List PsaAnswer) :
    ((psa.answered.finish c).run p).2.2 =
      p.2 ++ [.finished c ((psa.answered.finish c).run p).1] := rfl

theorem record_install (p : ψ × List PsaAnswer) :
    (psa.answered.install.run p).2.2 = p.2 ++ [.installed (psa.answered.install.run p).1] := rfl

end PsaFwu

namespace VendorOta

variable {ψ : Type} (psa : PsaFwu ψ)

/-! ## Staging -/

/-- The answer to a call that carries image data. -/
def PsaAnswer.IsStaging : PsaAnswer → Prop
  | .started _ | .written _ => True
  | .finished _ _ | .installed _ => False

/-- A staging operation that ends with `r` was answered with `answers`: image calls only, all of
them taken when it succeeds.  The flags of the upload are as before. -/
structure Streams (s : VendorOta (ψ × List PsaAnswer)) (answers : List PsaAnswer)
    (r : VendorOta (ψ × List PsaAnswer) × PsaStatus) : Prop where
  record : r.1.psa.2 = s.psa.2 ++ answers
  staging : ∀ a ∈ answers, PsaAnswer.IsStaging a
  took : r.2 = .success → ∀ a ∈ answers, a.Took
  abort : r.1.abort = s.abort
  pending : r.1.rebootPending = s.rebootPending

section Streams

variable {s s' : VendorOta (ψ × List PsaAnswer)} {answers answers' : List PsaAnswer}
variable {r : VendorOta (ψ × List PsaAnswer) × PsaStatus}

theorem Streams.nothing (s : VendorOta (ψ × List PsaAnswer)) (st : PsaStatus) :
    Streams s [] (s, st) :=
  ⟨(List.append_nil _).symm, nofun, fun _ => nofun, rfl, rfl⟩

/-- An operation behind one that has succeeded. -/
theorem Streams.trans (h : Streams s answers (s', .success)) (h' : Streams s' answers' r) :
    Streams s (answers ++ answers') r where
  record := by rw [h'.record, h.record, List.append_assoc]
  staging a ha := (List.mem_append.mp ha).elim (h.staging a) (h'.staging a)
  took hok a ha := (List.mem_append.mp ha).elim (h.took rfl a) (h'.took hok a)
  abort := h'.abort.trans h.abort
  pending := h'.pending.trans h.pending

/-- The operation on a state in which only other fields differ. -/
theorem Streams.congr {t : VendorOta (ψ × List PsaAnswer)} (h : Streams t answers r)
    (hpsa : t.psa = s.psa) (habort : t.abort = s.abort)
    (hpending : t.rebootPending = s.rebootPending) : Streams s answers r :=
  ⟨hpsa ▸ h.record, h.staging, h.took, h.abort.trans habort, h.pending.trans hpending⟩

end Streams

theorem streams_writeBlock (s : VendorOta (ψ × List PsaAnswer)) :
    ∃ answers, Streams s answers (s.writeBlock psa.answered) := by
  refine ⟨[.written ((psa.write s.target s.wrBase s.wrBuf).run s.psa.1).1], ?_⟩
  have hrun : (psa.answered.write s.target s.wrBase s.wrBuf).run s.psa =
      (((psa.write s.target s.wrBase s.wrBuf).run s.psa.1).1,
        ((psa.write s.target s.wrBase s.wrBuf).run s.psa.1).2,
        s.psa.2 ++ [.written ((psa.write s.target s.wrBase s.wrBuf).run s.psa.1).1]) := rfl
  rw [writeBlock, hrun]
  cases ((psa.write s.target s.wrBase s.wrBuf).run s.psa.1).1 with
  | success => exact ⟨rfl, by simp [PsaAnswer.IsStaging], by simp [PsaAnswer.Took], rfl, rfl⟩
  | successReboot => exact ⟨rfl, by simp [PsaAnswer.IsStaging], nofun, rfl, rfl⟩
  | error code => exact ⟨rfl, by simp [PsaAnswer.IsStaging], nofun, rfl, rfl⟩

theorem streams_otaStageImage (s : VendorOta (ψ × List PsaAnswer)) (data : List UInt8) :
    ∃ answers, Streams s answers (s.otaStageImage psa.answered data) := by
  rw [otaStageImage]
  by_cases hne : data = []
  · rw [dif_pos hne]
    exact ⟨[], .nothing s _⟩
  · rw [dif_neg hne]
    split
    · obtain ⟨answers, hwrite⟩ := streams_writeBlock psa (s.buffer data)
      replace hwrite := hwrite.congr (s := s) rfl rfl rfl
      split
      · rename_i s' heq
        rw [heq] at hwrite
        obtain ⟨answers', hrest⟩ := streams_otaStageImage s' (data.drop s.room)
        exact ⟨answers ++ answers', hwrite.trans hrest⟩
      · exact ⟨answers, hwrite⟩
    · obtain ⟨answers, hrest⟩ := streams_otaStageImage (s.buffer data) (data.drop s.room)
      exact ⟨answers, hrest.congr rfl rfl rfl⟩
termination_by data.length
decreasing_by
  all_goals
    have hroom := s.room_pos
    have hlen := List.length_pos_iff.mpr hne
    rw [List.length_drop]
    omega

theorem streams_otaFlushImage (s : VendorOta (ψ × List PsaAnswer)) :
    ∃ answers, Streams s answers (s.otaFlushImage psa.answered) := by
  unfold otaFlushImage
  split
  · exact ⟨[], .nothing s _⟩
  · exact streams_writeBlock psa s

theorem streams_startUpdate (s : VendorOta (ψ × List PsaAnswer)) :
    ∃ answers, Streams s answers (s.startUpdate psa.answered) := by
  unfold startUpdate
  split
  · refine ⟨[.started ((psa.start s.target s.manifest).run s.psa.1).1], ?_⟩
    have hrun : (psa.answered.start s.target s.manifest).run s.psa =
        (((psa.start s.target s.manifest).run s.psa.1).1,
          ((psa.start s.target s.manifest).run s.psa.1).2,
          s.psa.2 ++ [.started ((psa.start s.target s.manifest).run s.psa.1).1]) := rfl
    rw [hrun]
    cases ((psa.start s.target s.manifest).run s.psa.1).1 with
    | success => exact ⟨rfl, by simp [PsaAnswer.IsStaging], by simp [PsaAnswer.Took], rfl, rfl⟩
    | successReboot => exact ⟨rfl, by simp [PsaAnswer.IsStaging], nofun, rfl, rfl⟩
    | error code => exact ⟨rfl, by simp [PsaAnswer.IsStaging], nofun, rfl, rfl⟩
  · exact ⟨[], .nothing s _⟩

theorem streams_feedImage (s : VendorOta (ψ × List PsaAnswer)) (data : List UInt8) :
    ∃ answers, Streams s answers (s.feedImage psa.answered data) := by
  unfold VendorOta.feedImage
  split
  · exact ⟨[], .nothing s _⟩
  · split
    · exact ⟨[], .nothing s _⟩
    · obtain ⟨answers, hstage⟩ := streams_otaStageImage psa s data
      refine ⟨answers, ?_⟩
      split
      · rename_i s' heq
        rw [heq] at hstage
        exact ⟨hstage.record, hstage.staging, hstage.took, hstage.abort, hstage.pending⟩
      · exact hstage

/-- **`OtaFeed` makes image calls only**, and succeeds only when all are taken. -/
theorem streams_otaFeed (s : VendorOta (ψ × List PsaAnswer)) (data : List UInt8) :
    ∃ answers, Streams s answers (s.otaFeed psa.answered data) := by
  unfold VendorOta.otaFeed
  split
  · obtain ⟨answers, hstart⟩ := streams_startUpdate psa (s.takeManifest psa.answered data)
    replace hstart := hstart.congr (s := s) rfl rfl rfl
    split
    · rename_i s' heq
      rw [heq] at hstart
      obtain ⟨answers', hfeed⟩ := streams_feedImage psa s'
        (data.drop (psa.answered.manifestSize - s.fileOffset))
      exact ⟨answers ++ answers', hstart.trans hfeed⟩
    · exact ⟨answers, hstart⟩
  · exact streams_feedImage psa s data

/-! ## Requests -/

/-- Image calls do not install anything. -/
theorem installs_append {answers : List PsaAnswer}
    (h : ∀ a ∈ answers, PsaAnswer.IsStaging a) (answers' : List PsaAnswer) :
    installs (answers ++ answers') = installs answers' := by
  induction answers with
  | nil => rfl
  | cons a answers ih =>
      have hrest := ih fun b hb => h b (List.mem_cons_of_mem a hb)
      have ha := h a List.mem_cons_self
      cases a with
      | started st => rw [List.cons_append, installs, hrest]; nofun
      | written st => rw [List.cons_append, installs, hrest]; nofun
      | finished component st => cases ha
      | installed st => cases ha

theorem installs_of_staging {answers : List PsaAnswer}
    (h : ∀ a ∈ answers, PsaAnswer.IsStaging a) : installs answers = false := by
  have happ := installs_append h []
  rwa [List.append_nil] at happ

/-- What a request that was answered with `answers` leaves of an upload that stood at `s`. -/
structure Settles (s : VendorOta (ψ × List PsaAnswer)) (answers : List PsaAnswer)
    (r : VendorOta (ψ × List PsaAnswer) × VendorOutcome) : Prop where
  record : r.1.psa.2 = s.psa.2 ++ answers
  running : r.1.abort = false → s.abort = false ∧ ∀ a ∈ answers, a.Took
  pending : r.1.rebootPending = (s.rebootPending || installs answers)
  installed : r.2 = .installed → installs answers = true ∧ r.1.abort = false
  resent : r.2 = .duplicate → answers = [] ∧ (s.abort = false → r.1.abort = false)

section Settles

variable {s s' : VendorOta (ψ × List PsaAnswer)} {answers answers' : List PsaAnswer}
variable {r : VendorOta (ψ × List PsaAnswer) × VendorOutcome} {o : VendorOutcome}

/-- Nothing has been called. -/
theorem Settles.nothing (hpsa : s'.psa.2 = s.psa.2) (habort : s'.abort = false → s.abort = false)
    (hpending : s'.rebootPending = s.rebootPending) (ho : o ≠ .installed ∧ o ≠ .duplicate) :
    Settles s [] (s', o) where
  record := hpsa.trans (List.append_nil _).symm
  running hgo := ⟨habort hgo, nofun⟩
  pending := hpending.trans (Bool.or_false _).symm
  installed hinst := absurd hinst ho.1
  resent hdup := absurd hdup ho.2

/-- A resend changes nothing. -/
theorem Settles.same (s : VendorOta (ψ × List PsaAnswer)) : Settles s [] (s, .duplicate) where
  record := (List.append_nil _).symm
  running hgo := ⟨hgo, nofun⟩
  pending := (Bool.or_false _).symm
  installed := nofun
  resent _ := ⟨rfl, id⟩

/-- Only the record and the two flags of the earlier state matter. -/
theorem Settles.congr (h : Settles s' answers r) (hpsa : s'.psa.2 = s.psa.2)
    (habort : s'.abort = s.abort) (hpending : s'.rebootPending = s.rebootPending) :
    Settles s answers r where
  record := hpsa ▸ h.record
  running := habort ▸ h.running
  pending := hpending ▸ h.pending
  installed := h.installed
  resent := habort ▸ h.resent

/-- A step that has failed cancels the update. -/
theorem Settles.cancelled (hrecord : s'.psa.2 = s.psa.2 ++ answers)
    (hpending : s'.rebootPending = s.rebootPending) (hno : installs answers = false) :
    Settles s answers (s'.cancelled psa.answered, .failed) where
  record := hrecord
  running := nofun
  pending := by rw [hno, Bool.or_false]; exact hpending
  installed := nofun
  resent := nofun

/-- A request whose image calls were all taken. -/
theorem Streams.settles (h : Streams s answers (s', .success)) (h' : Settles s' answers' r)
    (hr : r.2 ≠ .duplicate) : Settles s (answers ++ answers') r where
  record := by rw [h'.record, h.record, List.append_assoc]
  running hgo := by
    obtain ⟨habort, htook⟩ := h'.running hgo
    refine ⟨h.abort ▸ habort, fun a ha => ?_⟩
    exact (List.mem_append.mp ha).elim (h.took rfl a) (htook a)
  pending := by rw [installs_append h.staging, h'.pending, h.pending]
  installed hinst := by
    rw [installs_append h.staging]
    exact h'.installed hinst
  resent hdup := absurd hdup hr

end Settles

theorem complete_ne_duplicate (fwu : PsaFwu ψ) (s : VendorOta ψ) :
    (s.complete fwu).2 ≠ .duplicate := by
  unfold complete
  split <;> exact nofun

/-- **The end of the image.** -/
theorem settles_complete {s : VendorOta (ψ × List PsaAnswer)} (hs : s.abort = false) :
    ∃ answers, Settles s answers (s.complete psa.answered) := by
  obtain ⟨answers, hflush⟩ := streams_otaFlushImage psa s
  unfold complete otaFinalize
  cases hr : s.otaFlushImage psa.answered with
  | mk s₁ st =>
  rw [hr] at hflush
  have hno := installs_append hflush.staging
  have hlast (l : List PsaAnswer) (h : installs l = false) : installs (answers ++ l) = false :=
    (hno l).trans h
  cases st with
  | successReboot =>
      exact ⟨_, .cancelled psa hflush.record hflush.pending (installs_of_staging hflush.staging)⟩
  | error code =>
      exact ⟨_, .cancelled psa hflush.record hflush.pending (installs_of_staging hflush.staging)⟩
  | success =>
  dsimp only
  cases hfinish : (psa.answered.finish s₁.target).run s₁.psa with
  | mk st p =>
  have hp : p.2 = s.psa.2 ++ (answers ++ [.finished s₁.target st]) := by
    have hrun := psa.record_finish s₁.target s₁.psa
    rw [hfinish, hflush.record, List.append_assoc] at hrun
    exact hrun
  cases st with
  | successReboot => exact ⟨_, .cancelled psa hp hflush.pending (hlast _ rfl)⟩
  | error code => exact ⟨_, .cancelled psa hp hflush.pending (hlast _ rfl)⟩
  | success =>
  dsimp only
  cases hinstall : psa.answered.install.run p with
  | mk st' p' =>
  have hp' : p'.2 = s.psa.2 ++ (answers ++ [.finished s₁.target .success, .installed st']) := by
    have hrun := psa.record_install p
    rw [hinstall, hp, List.append_assoc, List.append_assoc] at hrun
    exact hrun
  cases st' with
  | success => exact ⟨_, .cancelled psa hp' hflush.pending (hlast _ rfl)⟩
  | error code => exact ⟨_, .cancelled psa hp' hflush.pending (hlast _ rfl)⟩
  | successReboot =>
      refine ⟨_, hp', fun _ => ⟨hs, ?_⟩, ?_, fun _ => ⟨hno _, hflush.abort.trans hs⟩, nofun⟩
      · intro a ha
        rcases List.mem_append.mp ha with ha | ha
        · exact hflush.took rfl a ha
        · simp only [List.mem_cons, List.not_mem_nil, or_false] at ha
          rcases ha with rfl | rfl <;> rfl
      · rw [hno]
        exact (Bool.or_true _).symm

theorem settles_feedChunk {s : VendorOta (ψ × List PsaAnswer)} (hs : s.abort = false)
    (bytes : List UInt8) (last : Bool) :
    ∃ answers, Settles s answers (s.feedChunk psa.answered bytes last) := by
  obtain ⟨answers, hfeed⟩ := streams_otaFeed psa s bytes
  have hno := installs_of_staging hfeed.staging
  unfold feedChunk
  cases hr : s.otaFeed psa.answered bytes with
  | mk s' st =>
      rw [hr] at hfeed
      cases st with
      | successReboot => exact ⟨_, .cancelled psa hfeed.record hfeed.pending hno⟩
      | error code => exact ⟨_, .cancelled psa hfeed.record hfeed.pending hno⟩
      | success =>
          cases last with
          | true =>
              obtain ⟨answers', hend⟩ := settles_complete psa (s := s'.advance)
                (hfeed.abort.trans hs)
              exact ⟨_, hfeed.settles (hend.congr (s := s') rfl rfl rfl)
                (complete_ne_duplicate psa.answered _)⟩
          | false =>
              have hend : Settles s' [] (s'.advance, .stored) := .nothing rfl id rfl ⟨nofun, nofun⟩
              exact ⟨_, hfeed.settles hend nofun⟩

theorem settles_receiveChunk (s : VendorOta (ψ × List PsaAnswer)) (c : Chunk) :
    ∃ answers, Settles s answers (s.receiveChunk psa.answered c) := by
  unfold receiveChunk
  rcases s.guard_cases c.seq with ⟨_, hg⟩ | ⟨_, _, hg⟩ | ⟨_, _, hg⟩ | ⟨hgo, _, hg⟩
  · rw [hg]
    exact ⟨_, .nothing rfl id rfl ⟨nofun, nofun⟩⟩
  · rw [hg]
    exact ⟨_, .same s⟩
  · rw [hg]
    exact ⟨_, .nothing rfl nofun rfl ⟨nofun, nofun⟩⟩
  · rw [hg]
    dsimp only
    unfold applyChunk
    split
    · exact ⟨_, .nothing rfl nofun rfl ⟨nofun, nofun⟩⟩
    · split
      · exact ⟨_, .nothing rfl nofun rfl ⟨nofun, nofun⟩⟩
      · exact settles_feedChunk psa hgo _ _

theorem settles_announceBody (s : VendorOta (ψ × List PsaAnswer)) (connection : Nat) (b : Body) :
    Settles s [] (s.announceBody connection b) := by
  have hadmit (dup : Bool) : Settles s [] (s.admitBody connection b dup) := by
    unfold admitBody
    split
    · exact .nothing rfl nofun rfl ⟨nofun, nofun⟩
    · exact .nothing rfl id rfl ⟨nofun, nofun⟩
  unfold announceBody
  rcases s.guard_cases b.seq with ⟨_, hg⟩ | ⟨_, _, hg⟩ | ⟨_, _, hg⟩ | ⟨_, _, hg⟩
  · rw [hg]
    exact .nothing rfl id rfl ⟨nofun, nofun⟩
  · rw [hg]
    exact hadmit true
  · rw [hg]
    exact .nothing rfl nofun rfl ⟨nofun, nofun⟩
  · rw [hg]
    exact hadmit false

theorem feedPbufs_ne_duplicate (fwu : PsaFwu ψ) (s : VendorOta ψ) (bufs : List (List UInt8)) :
    (s.feedPbufs fwu bufs).2 ≠ .duplicate := by
  induction bufs generalizing s with
  | nil => exact nofun
  | cons buf bufs ih =>
      unfold feedPbufs
      split
      · exact ih s
      · split
        · exact ih _
        · exact nofun

theorem settles_feedPbufs {s : VendorOta (ψ × List PsaAnswer)} (hs : s.abort = false)
    (bufs : List (List UInt8)) :
    ∃ answers, Settles s answers (s.feedPbufs psa.answered bufs) := by
  induction bufs generalizing s with
  | nil => exact ⟨_, .nothing rfl id rfl ⟨nofun, nofun⟩⟩
  | cons buf bufs ih =>
      unfold feedPbufs
      split
      · exact ih hs
      · obtain ⟨answers, hfeed⟩ := streams_otaFeed psa s buf
        have hno := installs_of_staging hfeed.staging
        cases hr : s.otaFeed psa.answered buf with
        | mk s' st =>
            rw [hr] at hfeed
            cases st with
            | successReboot => exact ⟨_, .cancelled psa hfeed.record hfeed.pending hno⟩
            | error code => exact ⟨_, .cancelled psa hfeed.record hfeed.pending hno⟩
            | success =>
                obtain ⟨answers', hrest⟩ := ih (hfeed.abort.trans hs)
                exact ⟨_, hfeed.settles hrest (feedPbufs_ne_duplicate psa.answered s' bufs)⟩

/-- Sequence number 0 resets the upload, and makes none of its calls. -/
theorem begin_settled (s : VendorOta (ψ × List PsaAnswer)) :
    (s.begin psa.answered).1.psa.2 = s.psa.2 ∧
      (s.begin psa.answered).1.rebootPending = false ∧
      ((s.begin psa.answered).2 = true → (s.begin psa.answered).1.abort = false) := by
  have hquiet := psa.quiet_answered.otaPrepareTarget s.psa
  unfold begin
  cases hprepare : psa.answered.otaPrepareTarget.run s.psa with
  | mk target p =>
      rw [hprepare] at hquiet
      cases target with
      | none => exact ⟨hquiet, rfl, nofun⟩
      | some target => exact ⟨hquiet, rfl, fun _ => rfl⟩

end VendorOta

/-- A request to the upload handlers. -/
inductive VendorRequest
  | chunk (params : CgiParams)
  | postBegin (connection : Nat) (uri : CStr) (contentLen : Int)
  | postData (connection : Nat) (bufs : List (List UInt8))
  | postFinished (connection : Nat)

/-- The sequence number with which a request addresses the upload, if it does. -/
def VendorRequest.seq : VendorRequest → Option Int
  | .chunk params => (VendorOta.Chunk.ofParams params).map VendorOta.Chunk.seq
  | .postBegin _ uri contentLen =>
      if VendorOta.isUploadUri uri then (VendorOta.Body.ofUri uri contentLen).map VendorOta.Body.seq
      else none
  | .postData _ _ | .postFinished _ => none

namespace VendorOta

variable {ψ : Type}

/-- The handler of a request. -/
def handle (psa : PsaFwu ψ) (s : VendorOta ψ) : VendorRequest → VendorOta ψ × VendorOutcome
  | .chunk params =>
      match Chunk.ofParams params with
      | none => (s, .refused)
      | some c => s.chunk psa c
  | .postBegin connection uri contentLen => s.httpdPostBegin psa connection uri contentLen
  | .postData connection bufs => s.httpdPostReceiveData psa connection bufs
  | .postFinished connection => s.httpdPostFinished psa connection

variable (psa : PsaFwu ψ)

/-- The upload that a request addresses: a new one with sequence number 0. -/
def addressed (psa : PsaFwu ψ) (s : VendorOta ψ) (r : VendorRequest) : VendorOta ψ :=
  if r.seq = some 0 then s.restarted psa else s

/-- A request that begins an upload. -/
theorem settles_of_zero (s : VendorOta (ψ × List PsaAnswer))
    {next : VendorOta (ψ × List PsaAnswer) → VendorOta (ψ × List PsaAnswer) × VendorOutcome}
    (hnext : ∀ s, ∃ answers, Settles s answers (next s)) :
    ∃ answers, Settles (s.restarted psa.answered) answers
      (if (s.begin psa.answered).2 then next (s.begin psa.answered).1
        else ((s.begin psa.answered).1, .failed)) := by
  obtain ⟨hrecord, hpending, habort⟩ := begin_settled psa s
  cases hok : (s.begin psa.answered).2 with
  | true =>
      obtain ⟨answers, hnext⟩ := hnext (s.begin psa.answered).1
      exact ⟨answers, hnext.congr hrecord (habort hok) hpending⟩
  | false => exact ⟨_, .nothing hrecord (fun _ => rfl) hpending ⟨nofun, nofun⟩⟩

/-- **One request.** -/
theorem settles_handle (s : VendorOta (ψ × List PsaAnswer)) (r : VendorRequest) :
    ∃ answers, Settles (s.addressed psa.answered r) answers (s.handle psa.answered r) := by
  unfold addressed
  cases r with
  | chunk params =>
      cases hc : Chunk.ofParams params with
      | none =>
          rw [if_neg (by simp [VendorRequest.seq, hc])]
          simp only [handle, hc]
          exact ⟨_, .nothing rfl id rfl ⟨nofun, nofun⟩⟩
      | some c =>
          have hseq : (VendorRequest.chunk params).seq = some c.seq := by
            rw [VendorRequest.seq, hc, Option.map_some]
          simp only [handle, hc, hseq, Option.some.injEq]
          by_cases hzero : c.seq = 0
          · rw [if_pos hzero, chunk_of_zero psa.answered hzero]
            exact settles_of_zero psa s fun s => settles_receiveChunk psa s c
          · rw [if_neg hzero, chunk, if_neg hzero]
            exact settles_receiveChunk psa s c
  | postBegin connection uri contentLen =>
      simp only [handle, httpdPostBegin]
      cases huri : isUploadUri uri with
      | false =>
          rw [if_neg (by simp [VendorRequest.seq, huri])]
          exact ⟨_, .nothing rfl id rfl ⟨nofun, nofun⟩⟩
      | true =>
          rw [if_neg (by decide : ¬true = false)]
          cases hb : Body.ofUri uri contentLen with
          | none =>
              rw [if_neg (by simp [VendorRequest.seq, hb])]
              exact ⟨_, .nothing rfl id rfl ⟨nofun, nofun⟩⟩
          | some b =>
              have hseq : (VendorRequest.postBegin connection uri contentLen).seq = some b.seq := by
                rw [VendorRequest.seq, if_pos huri, hb, Option.map_some]
              simp only [hseq, Option.some.injEq]
              by_cases hzero : b.seq = 0
              · rw [if_pos hzero, body_of_zero psa.answered hzero]
                exact settles_of_zero psa s fun s => ⟨_, settles_announceBody s connection b⟩
              · rw [if_neg hzero, body, if_neg hzero]
                exact ⟨_, settles_announceBody s connection b⟩
  | postData connection bufs =>
      rw [if_neg nofun]
      simp only [handle, httpdPostReceiveData]
      split
      · exact ⟨_, .nothing rfl id rfl ⟨nofun, nofun⟩⟩
      · cases habort : s.abort with
        | true => exact ⟨_, .nothing rfl id rfl ⟨nofun, nofun⟩⟩
        | false =>
            cases s.chunkDup with
            | true => exact ⟨_, .same s⟩
            | false => exact settles_feedPbufs psa habort bufs
  | postFinished connection =>
      rw [if_neg nofun]
      simp only [handle, httpdPostFinished]
      split
      · exact ⟨_, .nothing rfl id rfl ⟨nofun, nofun⟩⟩
      · cases habort : s.abort with
        | true => exact ⟨_, .nothing rfl id rfl ⟨nofun, nofun⟩⟩
        | false =>
            cases s.chunkDup with
            | true => exact ⟨_, .same s⟩
            | false =>
                cases s.chunkLast with
                | false => exact ⟨_, .nothing rfl id rfl ⟨nofun, nofun⟩⟩
                | true =>
                    obtain ⟨answers, hend⟩ := settles_complete psa (s := s.advance) habort
                    exact ⟨answers, hend.congr rfl rfl rfl⟩

end VendorOta

end HomeAuto
