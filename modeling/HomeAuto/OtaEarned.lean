import HomeAuto.Lib.Runs
import HomeAuto.OtaCalls

/-!
# When an upload to the TM4C1294 reports success

The steps of the current upload are kept as a trace, read from what can be seen of a request:
the calls to the flash driver, what the device reads back, and the error flag.  Success is
earned when some step of the upload committed the image and no step has failed since.  Two
answers carry the success page: the one to the last chunk, and the acknowledgement of a resent
last chunk, which repeats whatever its sequence number says was applied before.

A rejected last chunk leaves the upload open, so for a resent one it counts what the last chunk
taken most recently named as its totals.
-/

namespace HomeAuto

/-- What a step of an upload came to. -/
inductive UploadStep
  | stored
  | failed
  | committed
  deriving DecidableEq

/-- **Success is earned**: the image was committed, and nothing has failed since. -/
def Earned (trace : List UploadStep) : Prop :=
  ∃ pre post, trace = pre ++ .committed :: post ∧ .failed ∉ post

/-- The verdict on the last chunk taken most recently. -/
def lastVerdict (trace : List UploadStep) : Option UploadStep :=
  (trace.filter (· ≠ .stored)).getLast?

theorem earned_iff_lastVerdict (trace : List UploadStep) :
    Earned trace ↔ lastVerdict trace = some .committed := by
  constructor
  · rintro ⟨pre, post, rfl, hpost⟩
    have hall : post.filter (· ≠ .stored) = post.filter (· = .committed) := by
      refine List.filter_congr fun x hx => ?_
      have hne : x ≠ .failed := by
        rintro rfl
        exact hpost hx
      cases x <;> simp_all
    rw [lastVerdict, List.filter_append, List.filter_cons_of_pos (by decide), hall,
      List.getLast?_append]
    cases hlast : (post.filter (· = .committed)).getLast? with
    | none =>
        rw [List.getLast?_cons, hlast]
        rfl
    | some x =>
        have hmem := List.mem_of_getLast? hlast
        have hx := (List.mem_filter.mp hmem).2
        rw [List.getLast?_cons, hlast]
        simp_all
  · intro h
    induction trace using List.reverseRecOn with
    | nil => simp [lastVerdict] at h
    | append_singleton trace x ih =>
        rw [lastVerdict, List.filter_append] at h
        cases x with
        | stored =>
            rw [List.filter_cons_of_neg (by decide), List.filter_nil, List.append_nil] at h
            obtain ⟨pre, post, rfl, hpost⟩ := ih h
            refine ⟨pre, post ++ [.stored], by simp, ?_⟩
            simpa using hpost
        | failed =>
            rw [List.filter_cons_of_pos (by decide), List.filter_nil, List.getLast?_concat] at h
            cases h
        | committed => exact ⟨trace, [], rfl, by simp⟩

/-- Without failures, success is earned by any commit. -/
theorem earned_iff_mem {trace : List UploadStep} (h : .failed ∉ trace) :
    Earned trace ↔ .committed ∈ trace := by
  constructor
  · rintro ⟨pre, post, rfl, _⟩
    simp
  · intro hmem
    obtain ⟨pre, post, rfl⟩ := List.append_of_mem hmem
    refine ⟨pre, post, rfl, fun hfail => h ?_⟩
    simp [hfail]

theorem earned_concat_committed (trace : List UploadStep) : Earned (trace ++ [.committed]) :=
  ⟨trace, [], rfl, by simp⟩

theorem not_earned_concat_failed (trace : List UploadStep) : ¬Earned (trace ++ [.failed]) := by
  rw [earned_iff_lastVerdict, lastVerdict, List.filter_append,
    List.filter_cons_of_pos (by decide), List.filter_nil, List.getLast?_concat]
  decide

theorem earned_concat_stored (trace : List UploadStep) :
    Earned (trace ++ [.stored]) ↔ Earned trace := by
  rw [earned_iff_lastVerdict, earned_iff_lastVerdict, lastVerdict, lastVerdict,
    List.filter_append, List.filter_cons_of_neg (by decide), List.filter_nil, List.append_nil]

theorem not_earned_nil : ¬Earned [] := by
  rw [earned_iff_lastVerdict]
  decide

/-! ## The TM4C1294 -/

namespace Ota

variable {φ : Type} (dev : OtaDev φ)

/-- What a chunk came to, when the upload it addresses stood at `s` and stands at `s'` behind it,
and its request made `calls`. -/
def steps (s s' : Ota (Logged φ)) (c : OtaChunk) (calls : List (φ × OtaCall)) :
    List UploadStep :=
  if s.st.abort = true ∨ c.seq < s.st.nextSeq then []
  else if s.st.nextSeq < c.seq ∨ s'.st.abort = true then [.failed]
  else if c.last = false then [.stored]
  else if commits dev c.totals calls s'.dev.1 then [.committed]
  else [.failed]

/-- The handler on a logged device, the trace of the current upload, and the last chunk of it
taken most recently, with the state in which it came. -/
structure Traced (φ : Type) where
  ota : Ota (Logged φ)
  trace : List UploadStep
  final : Option (Ota (Logged φ) × OtaChunk)

namespace Traced

/-- Sequence number 0 begins a new trace. -/
def traceFor (t : Traced φ) (seq : Int) : List UploadStep := if seq = 0 then [] else t.trace

def finalFor (t : Traced φ) (seq : Int) : Option (Ota (Logged φ) × OtaChunk) :=
  if seq = 0 then none else t.final

/-- The observer, behind a chunk that left the handler at `after`. -/
def observe (t : Traced φ) (c : OtaChunk) (after : Ota (Logged φ)) : Traced φ where
  ota := after
  trace := t.traceFor c.seq ++
    steps dev (t.ota.started dev.logged c) after c (callsSince t.ota.dev after.dev)
  final :=
    if (t.ota.started dev.logged c).Applies c ∧ c.last = true then
      some (t.ota.started dev.logged c, c)
    else t.finalFor c.seq

/-- One request. -/
def request (t : Traced φ) (params : CgiParams) : Traced φ :=
  match OtaChunk.ofParams params with
  | none => { t with ota := (t.ota.webPlatformOtaChunkCGI dev.logged params).1 }
  | some c => t.observe dev c (t.ota.webPlatformOtaChunkCGI dev.logged params).1

/-- After a reset, on a device in any state. -/
def boot (d : φ) : Traced φ := ⟨⟨.boot, (d, []), false⟩, [], none⟩

/-- The request is not answered with the success page unless success is earned. -/
def SuccessEarned (t : Traced φ) (params : CgiParams) : Prop :=
  (t.ota.webPlatformOtaChunkCGI dev.logged params).2 = .fwupdateOk →
    Earned (t.request dev params).trace

/-- The last chunk taken most recently named the totals of the staged image, and the device took
the commit. -/
def FinalTook (final : Option (Ota (Logged φ) × OtaChunk)) : Prop :=
  ∃ r ∈ final, r.1.TotalsMatch dev.logged r.2 ∧ r.1.CommitTakes dev.logged r.2

/-- A resent last chunk comes when the last chunk taken most recently named the right totals and
the device took the commit, and a last chunk that names the right totals finds a device that
takes it. -/
def ResendsCommitted (t : Traced φ) (params : CgiParams) : Prop :=
  ∀ c, OtaChunk.ofParams params = some c →
    ((t.ota.started dev.logged c).st.abort = false →
      c.seq < (t.ota.started dev.logged c).st.nextSeq → c.last = true →
      FinalTook dev (t.finalFor c.seq)) ∧
    ((t.ota.started dev.logged c).Applies c → c.last = true →
      ((t.ota.started dev.logged c).decode dev.logged c.payload).st.abort = false →
      (t.ota.started dev.logged c).TotalsMatch dev.logged c →
      (t.ota.started dev.logged c).CommitTakes dev.logged c)

/-- While an upload runs, its success is earned exactly by the last chunk taken most recently. -/
def Recounted (t : Traced φ) : Prop :=
  t.ota.st.abort = false → (Earned t.trace ↔ FinalTook dev t.final)

end Traced

theorem flushTail_abort {ψ : Type} (fl : OtaDev ψ) (s : Ota ψ) :
    (s.flushTail fl).st.abort = s.st.abort := by
  unfold flushTail
  split <;> rfl

theorem conclude_abort {ψ : Type} (fl : OtaDev ψ) (r : Ota ψ × OtaOutcome) :
    (conclude fl r).st.abort = r.1.st.abort := by
  unfold conclude
  split <;> rfl

/-- **What the handler makes of a chunk.**  It ignores the chunk, acknowledges a resend, gives the
upload up, stores the chunk, or verifies the image behind it. -/
theorem receive_cases {ψ : Type} (fl : OtaDev ψ) (s₀ : Ota ψ) (c : OtaChunk) :
    ((s₀.started fl c).st.abort = true ∧ s₀.receive fl c = s₀.started fl c ∧
      (s₀.stage fl c).2 = .ignored) ∨
    ((s₀.started fl c).st.abort = false ∧ c.seq < (s₀.started fl c).st.nextSeq ∧
      s₀.receive fl c = s₀.started fl c ∧ (s₀.stage fl c).2 = .duplicate) ∨
    ((s₀.started fl c).st.abort = false ∧ ¬c.seq < (s₀.started fl c).st.nextSeq ∧
      (s₀.receive fl c).st.abort = true ∧ (s₀.stage fl c).2.page c.last = .tools ∧
      ((s₀.started fl c).Applies c →
        ((s₀.started fl c).decode fl c.payload).st.abort = true)) ∨
    ((s₀.started fl c).Applies c ∧ c.last = false ∧ (s₀.receive fl c).st.abort = false ∧
      (s₀.stage fl c).2 = .stored) ∨
    ((s₀.started fl c).Applies c ∧ c.last = true ∧
      ((s₀.started fl c).decode fl c.payload).st.abort = false ∧
      (s₀.receive fl c).st.abort = false ∧
      s₀.receive fl c = conclude fl ((s₀.started fl c).filled fl c,
        ((s₀.started fl c).filled fl c).verify fl c.totals) ∧
      (s₀.stage fl c).2 = ((s₀.started fl c).filled fl c).verify fl c.totals) := by
  unfold receive stage
  generalize s₀.started fl c = s
  by_cases happ : s.Applies c
  · have hnew : ¬c.seq < s.st.nextSeq := by
      rw [happ.2]
      exact Int.lt_irrefl _
    rw [guard_of_applies fl happ]
    rcases apply_cases fl s c with ⟨habort, heq⟩ | ⟨habort, hlast, heq⟩ | ⟨habort, hlast, heq⟩
    · refine .inr (.inr (.inl ⟨happ.1, hnew, ?_, ?_, fun _ => habort⟩))
      · rw [heq, conclude_abort, advance_abort, habort]
      · rw [heq]
        rfl
    · refine .inr (.inr (.inr (.inl ⟨happ, hlast, ?_, ?_⟩)))
      · rw [heq, conclude_abort, advance_abort, habort]
      · rw [heq]
    · refine .inr (.inr (.inr (.inr ⟨happ, hlast, habort, ?_, ?_, ?_⟩)))
      · rw [heq, conclude_abort, flushTail_abort, advance_abort, habort]
      · rw [heq]
        rfl
      · rw [heq]
        rfl
  · rcases guard_of_not_applies fl happ with ⟨hg, habort⟩ | ⟨hg, habort, hlt⟩ | ⟨hg, hgt⟩
    · exact .inl ⟨habort, by rw [hg]; rfl, by rw [hg]⟩
    · exact .inr (.inl ⟨habort, hlt, by rw [hg]; rfl, by rw [hg]⟩)
    · cases habort : s.st.abort with
      | true =>
          have hstop : s.guard fl c = (s, .ignored) := if_pos habort
          exact .inl ⟨rfl, by rw [hstop]; rfl, by rw [hstop]⟩
      | false =>
          refine .inr (.inr (.inl ⟨rfl, by omega, ?_, ?_, fun h => absurd h happ⟩))
          · rw [hg]
            rfl
          · rw [hg]
            rfl

/-- The success page answers a verified image. -/
theorem verify_page_iff {ψ : Type} (fl : OtaDev ψ) (s : Ota ψ) (c : OtaChunk) (last : Bool) :
    ((s.filled fl c).verify fl c.totals).page last = .fwupdateOk ↔ s.TotalsMatch fl c := by
  rw [verify_filled]
  by_cases hmatch : s.TotalsMatch fl c
  · rw [if_pos hmatch]
    exact iff_of_true rfl hmatch
  · rw [if_neg hmatch]
    exact iff_of_false nofun hmatch

namespace Traced

variable {dev} {t : Traced φ}

theorem not_finalTook_none : ¬FinalTook dev none := by simp [FinalTook]

/-- What the observer makes of the upload that a chunk addresses. -/
theorem Recounted.addressed (h : t.Recounted dev) {c : OtaChunk}
    (hgo : (t.ota.started dev.logged c).st.abort = false) :
    Earned (t.traceFor c.seq) ↔ FinalTook dev (t.finalFor c.seq) := by
  unfold traceFor finalFor
  by_cases hzero : c.seq = 0
  · rw [if_pos hzero, if_pos hzero]
    exact iff_of_false not_earned_nil not_finalTook_none
  · rw [if_neg hzero, if_neg hzero]
    rw [started_of_ne dev.logged hzero] at hgo
    exact h hgo

theorem finalTook_some (s : Ota (Logged φ)) (c : OtaChunk) :
    FinalTook dev (some (s, c)) ↔ s.TotalsMatch dev.logged c ∧ s.CommitTakes dev.logged c := by
  simp [FinalTook]

/-- A last chunk in its turn: success is earned when it commits. -/
theorem earned_observe_final (t : Traced φ) {c : OtaChunk}
    (happ : (t.ota.started dev.logged c).Applies c) (hlast : c.last = true)
    (hgo : (t.ota.receive dev.logged c).st.abort = false)
    (hend : t.ota.receive dev.logged c = conclude dev.logged
      ((t.ota.started dev.logged c).filled dev.logged c,
        ((t.ota.started dev.logged c).filled dev.logged c).verify dev.logged c.totals)) :
    Earned (t.observe dev c (t.ota.receive dev.logged c)).trace ↔
      (t.ota.started dev.logged c).TotalsMatch dev.logged c ∧
        (t.ota.started dev.logged c).CommitTakes dev.logged c := by
  have hcommits := commits_iff dev (stages_started dev t.ota c) hend
  have hsteps : steps dev (t.ota.started dev.logged c) (t.ota.receive dev.logged c) c
      (callsSince t.ota.dev (t.ota.receive dev.logged c).dev) =
        if commits dev c.totals (callsSince t.ota.dev (t.ota.receive dev.logged c).dev)
          (t.ota.receive dev.logged c).dev.1 = true then [.committed] else [.failed] := by
    rw [steps, if_neg (by simp [happ.1, happ.2]), if_neg (by simp [happ.2, hgo]),
      if_neg (by simp [hlast])]
  rw [observe]
  dsimp only
  rw [hsteps]
  split
  · rename_i hyes
    exact iff_of_true (earned_concat_committed _) (hcommits.mp hyes)
  · rename_i hno
    exact iff_of_false (not_earned_concat_failed _) fun hboth => hno (hcommits.mpr hboth)

/-- The trace behind a chunk that is not the last. -/
theorem earned_observe_stored (t : Traced φ) {c : OtaChunk}
    (happ : (t.ota.started dev.logged c).Applies c) (hlast : c.last = false)
    (hgo : (t.ota.receive dev.logged c).st.abort = false) :
    Earned (t.observe dev c (t.ota.receive dev.logged c)).trace ↔ Earned (t.traceFor c.seq) := by
  rw [observe, steps, if_neg (by simp [happ.1, happ.2]), if_neg (by simp [happ.2, hgo]),
    if_pos hlast, earned_concat_stored]

/-- A resent chunk leaves the trace. -/
theorem trace_observe_resent (t : Traced φ) {c : OtaChunk}
    (hlt : c.seq < (t.ota.started dev.logged c).st.nextSeq) (after : Ota (Logged φ)) :
    (t.observe dev c after).trace = t.traceFor c.seq := by
  rw [observe, steps, if_pos (.inr hlt), List.append_nil]

/-- The observer keeps its account. -/
theorem Recounted.observe (h : t.Recounted dev) (c : OtaChunk) :
    (t.observe dev c (t.ota.receive dev.logged c)).Recounted dev := by
  intro hgo
  have hbase := h.addressed (c := c)
  rcases receive_cases dev.logged t.ota c with ⟨habort, heq, _⟩ | ⟨habort, hlt, _⟩ |
    ⟨_, _, habort, _⟩ | ⟨happ, hlast, habort, _⟩ | ⟨happ, hlast, _, habort, hend, _⟩
  · have hgo' : (t.ota.receive dev.logged c).st.abort = false := hgo
    rw [heq, habort] at hgo'
    cases hgo'
  · have hnot : ¬(t.ota.started dev.logged c).Applies c := fun happ => by
      have := happ.2
      omega
    rw [trace_observe_resent t hlt]
    simp only [Traced.observe, hnot, false_and, if_false]
    exact hbase habort
  · exact absurd (habort.symm.trans hgo) (by decide)
  · rw [earned_observe_stored t happ hlast habort]
    simp only [Traced.observe, hlast, Bool.false_eq_true, and_false, if_false]
    exact hbase happ.1
  · rw [earned_observe_final t happ hlast habort hend]
    simp only [Traced.observe, happ, hlast, and_self, if_true]
    exact (finalTook_some _ c).symm

/-- **One request, exactly.** -/
theorem successEarned_iff (h : t.Recounted dev) (params : CgiParams) :
    t.SuccessEarned dev params ↔ t.ResendsCommitted dev params := by
  unfold SuccessEarned ResendsCommitted request webPlatformOtaChunkCGI
  cases OtaChunk.ofParams params with
  | none => exact iff_of_true nofun nofun
  | some c =>
      simp only [Option.some.injEq, forall_eq']
      have hbase := h.addressed (c := c)
      rcases receive_cases dev.logged t.ota c with ⟨habort, _, hout⟩ | ⟨habort, hlt, _, hout⟩ |
        ⟨habort, hnew, _, hout, hfull⟩ | ⟨happ, hlast, _, hout⟩ |
        ⟨happ, hlast, hfit, hgo, hend, hout⟩
      · rw [hout]
        refine iff_of_true nofun ⟨fun hgo => ?_, fun happ => ?_⟩
        · exact absurd (habort.symm.trans hgo) (by decide)
        · exact absurd (habort.symm.trans happ.1) (by decide)
      · have hnot : ¬(t.ota.started dev.logged c).Applies c := fun happ => by
          have := happ.2
          omega
        rw [hout, trace_observe_resent t hlt, hbase habort]
        cases hlast : c.last with
        | false => exact iff_of_true nofun ⟨nofun, fun happ => absurd happ hnot⟩
        | true =>
            exact ⟨fun hpage => ⟨fun _ _ _ => hpage rfl, fun happ => absurd happ hnot⟩,
              fun hresent _ => hresent.1 habort hlt rfl⟩
      · rw [hout]
        refine iff_of_true nofun ⟨fun _ hlt => absurd hlt hnew, fun happ _ hfit => ?_⟩
        exact absurd ((hfull happ).symm.trans hfit) (by decide)
      · rw [hout]
        refine iff_of_true nofun ⟨fun _ _ htrue => ?_, fun _ htrue => ?_⟩
        · exact absurd (hlast.symm.trans htrue) (by decide)
        · exact absurd (hlast.symm.trans htrue) (by decide)
      · have hnew : ¬c.seq < (t.ota.started dev.logged c).st.nextSeq := by
          rw [happ.2]
          exact Int.lt_irrefl _
        rw [hout, verify_page_iff, earned_observe_final t happ hlast hgo hend]
        constructor
        · intro hearned
          exact ⟨fun _ hlt => absurd hlt hnew, fun _ _ _ hmatch => (hearned hmatch).2⟩
        · rintro ⟨_, htakes⟩ hmatch
          exact ⟨hmatch, htakes happ hlast hfit hmatch⟩

theorem Recounted.request (h : t.Recounted dev) (params : CgiParams) :
    (t.request dev params).Recounted dev := by
  unfold Traced.request webPlatformOtaChunkCGI
  cases OtaChunk.ofParams params with
  | none => exact h
  | some c => exact h.observe c

variable (dev)

/-- Over any device and any run of requests since boot. -/
theorem successEarned_iff_resendsCommitted (d : φ) (es : List CgiParams) :
    Runs.EveryStep (request dev) (SuccessEarned dev) (boot d) es ↔
      Runs.EveryStep (request dev) (ResendsCommitted dev) (boot d) es :=
  Runs.everyStep_congr (I := Recounted dev) (fun _ params h _ => h.request params)
    (fun _ params h => successEarned_iff h params)
    (fun _ => iff_of_false not_earned_nil not_finalTook_none) es

end Traced

end Ota

end HomeAuto
