import HomeAuto.AppClient
import HomeAuto.PostConnectRuns

/-!
# The post-connect sequence under back-pressure

Every packet of the sequence fits the transmit buffer and is given to `tcp_write` once, and
the sequencer moves on whatever `tcp_write` answers.  So when the sequence ends, the packet of
every item is among the writes that TCP has accepted exactly when no write of its steps was
refused.
-/

namespace HomeAuto

/-! ## Packets fit -/

theorem length_palSnprintf (size : Nat) (format : String) (args : List FmtArg) :
    (palSnprintf size format args).length ≤ size - 1 :=
  List.length_take_le _ _

/-- The packet of a call: a PUBLISH, or a SUBSCRIBE with some packet identifier. -/
def AppCall.HasPacket : AppCall → List UInt8 → Prop
  | .publish topic payload retain, bytes => bytes = mqttPublishPacket topic payload retain
  | .subscribe topic, bytes => ∃ packetID, bytes = mqttSubscribePacket packetID topic

/-- The packet of a call was written, and is among the writes that TCP has accepted. -/
def SentCall.Accepted (writes : List (Nat × List UInt8)) (made : SentCall) : Prop :=
  ∃ w ∈ made.written, made.call.HasPacket w.2 ∧ w ∈ writes

/-- The packet of a call fits the transmit buffer. -/
def AppCall.Fits : AppCall → Prop
  | .publish topic payload _ => mqttPublishRem topic payload + 5 ≤ mqttTxbufSize
  | .subscribe _ => True

theorem fits_publish {topic : CStr} {payload : List UInt8} (htopic : topic.length ≤ 95)
    (hpayload : payload.length ≤ 511) (retain : UInt8) :
    (AppCall.publish topic payload retain).Fits := by
  change (2 + topic.length % 65536 + payload.length) % 65536 + 5 ≤ 768
  omega

namespace HaMqtt

variable (a : HaMqtt)

/-- The status topic fits its buffer. -/
def StatusFits : Prop := a.topicStatus.length < cfgTopicLen + 16

theorem length_discTopic (format : String) (args : List FmtArg) :
    (discTopic format args).length ≤ 95 := length_palSnprintf 96 format args

theorem length_scratchTopic (format : String) (args : List FmtArg) :
    (scratchTopic format args).length ≤ 95 :=
  (length_palSnprintf 80 format args).trans (by decide)

theorem length_discPayload (format : String) (args : List FmtArg) :
    (discPayload format args).length ≤ 511 := length_palSnprintf 512 format args

theorem length_levelStr (on : Bool) : (levelStr on).length ≤ 511 := by
  cases on <;> decide +kernel

theorem length_coverState (state : CoverState) : state.str.length ≤ 511 := by
  cases state <;> decide +kernel

/-- Every packet of the sequence fits. -/
theorem fits_itemCall (hstatus : a.StatusFits) (item : PubItem) : (a.itemCall item).Fits := by
  cases item with
  | status =>
      have hlen : a.topicStatus.length < 64 := hstatus
      exact fits_publish (by omega) (by decide +kernel) 1
  | relayDiscovery relay =>
      refine fits_publish (length_discTopic _ _) ?_ 1
      split
      · exact Nat.zero_le _
      · exact length_discPayload _ _
  | relayState relay => exact fits_publish (length_scratchTopic _ _) (length_levelStr _) 1
  | relaySetSub => trivial
  | relayPulseSub => trivial
  | inputStale input => exact fits_publish (length_discTopic _ _) (Nat.zero_le _) 1
  | inputDiscovery input =>
      refine fits_publish (length_discTopic _ _) ?_ 1
      split
      · exact length_discPayload _ _
      · exact length_discPayload _ _
  | inputState input => exact fits_publish (length_scratchTopic _ _) (length_levelStr _) 1
  | coverDiscovery shutter =>
      refine fits_publish (length_discTopic _ _) ?_ 1
      split
      · exact length_discPayload _ _
      · exact Nat.zero_le _
  | coverState shutter => exact fits_publish (length_scratchTopic _ _) (length_coverState _) 1
  | coverSub => trivial
  | tempDiscovery => exact fits_publish (length_discTopic _ _) (length_discPayload _ _) 1

end HaMqtt

/-! ## One call -/

namespace Mqtt

/-- The packet of a call. -/
def packetOf (c : Mqtt) : AppCall → List UInt8
  | .publish topic payload retain => mqttPublishPacket topic payload retain
  | .subscribe topic => mqttSubscribePacket c.cli.packetID topic

theorem hasPacket_packetOf (c : Mqtt) (call : AppCall) : call.HasPacket (c.packetOf call) := by
  cases call with
  | publish topic payload retain => rfl
  | subscribe topic => exact ⟨_, rfl⟩

/-- The client holds a connection, and TCP takes the k-th of the writes to come. -/
def tcpTakes (c : Mqtt) (ans : Answers) (k : Nat) : Bool :=
  c.cli.psPcb.isSome && ans.tcpWrite (c.net.writeCalls + k)

/-- What a call of the application in a session does to the connection: one `tcp_write` of
the packet `bytes`, and the result of the call is that of the write. -/
structure Writes (ans : Answers) (c : Mqtt) (bytes : List UInt8) (r : Mqtt × Bool) : Prop where
  state : r.1.cli.eState = c.cli.eState
  pcb : r.1.cli.psPcb = c.cli.psPcb
  taken : r.2 = c.tcpTakes ans 0
  calls : c.cli.psPcb.isSome = true → r.1.net.writeCalls = c.net.writeCalls + 1
  accepted : r.1.net.writes =
    c.net.writes ++ (c.cli.psPcb.toList.filter fun _ => r.2).map fun p => (p, bytes)

variable {c : Mqtt} {ans : Answers} {call : AppCall}

theorem writes_mqttSendRaw (ans : Answers) (hready : c.cli.eState = .ready)
    (bytes : List UInt8) : Writes ans c bytes (c.mqttSendRaw bytes ans) := by
  have hstate : beforeConnect c.cli.eState = false := by rw [hready]; rfl
  unfold mqttSendRaw
  cases hpcb : c.cli.psPcb with
  | none =>
      refine ⟨rfl, rfl, ?_, ?_, ?_⟩
      · simp only [tcpTakes, hpcb, Option.isSome_none, Bool.false_and]
      · simp [hpcb]
      · simp [hpcb]
  | some p =>
      simp only [hstate, Bool.false_eq_true, if_false]
      cases hans : ans.tcpWrite c.net.writeCalls with
      | true =>
          refine ⟨rfl, rfl, ?_, fun _ => rfl, ?_⟩
          · simp [tcpTakes, hpcb, hans]
          · simp [hpcb]
      | false =>
          refine ⟨rfl, rfl, ?_, fun _ => rfl, ?_⟩
          · simp [tcpTakes, hpcb, hans]
          · simp [hpcb]

/-- A call whose packet fits is one write. -/
theorem writes_appCallTaken (ans : Answers) (hready : c.cli.eState = .ready)
    (hfits : call.Fits) : Writes ans c (c.packetOf call) (c.appCallTaken ans call) := by
  have hnot : ¬c.cli.eState ≠ .ready := not_not.mpr hready
  cases call with
  | publish topic payload retain =>
      have hsize : ¬mqttTxbufSize < mqttPublishRem topic payload + 5 := Nat.not_lt.mpr hfits
      simp only [appCallTaken, mqttClientPublish, if_neg hnot, if_neg hsize]
      exact writes_mqttSendRaw ans hready _
  | subscribe topic =>
      simp only [appCallTaken, mqttClientSubscribe, if_neg hnot]
      have hraw := writes_mqttSendRaw ans
        (c := { c with cli := { c.cli with packetID := c.cli.packetID + 1#16 } }) hready
        (mqttSubscribePacket c.cli.packetID topic)
      exact ⟨hraw.state, hraw.pcb, hraw.taken, hraw.calls, hraw.accepted⟩

/-- After a write, the writes to come are the others. -/
theorem Writes.tcpTakes_succ {bytes : List UInt8} {r : Mqtt × Bool}
    (h : Writes ans c bytes r) (k : Nat) : r.1.tcpTakes ans k = c.tcpTakes ans (k + 1) := by
  unfold tcpTakes
  rw [h.pcb]
  cases hpcb : c.cli.psPcb.isSome with
  | false => rfl
  | true => rw [h.calls hpcb, Nat.add_assoc, Nat.add_comm 1 k]

end Mqtt

/-! ## One step of the sequence -/

namespace MqttApp

variable {ipaddrAton : CStr → Option (BitVec 32)} {palStrToUl : StrToUl}
variable {s : MqttApp} {e : AppEvent} {a : HaMqtt} {m : Nat}

/-- Every call of the record had a write that TCP took. -/
def AllTaken (s : MqttApp) : Prop := ∀ made ∈ s.sent, made.written ≠ []

/-- What is recorded of a call is its packet, and has been accepted. -/
def Recorded (s : MqttApp) : Prop :=
  ∀ made ∈ s.sent, ∀ w ∈ made.written, made.call.HasPacket w.2 ∧ w ∈ s.cli.net.writes

/-- No write of the items that the event issues is refused. -/
def NoRefusal (s : MqttApp) : AppEvent → Prop
  | .pubService ans =>
      s.ha.pubStep ≤ s.ha.pubMax →
        ∀ k < (s.ha.mqttAppPostConnect s.ha.pubStep).length, s.cli.tcpTakes ans k = true
  | _ => True

/-- What TCP takes of an item. -/
theorem written_issueItem (hready : s.ready = true) (hstatus : s.ha.StatusFits)
    (ans : Answers) (item : PubItem) :
    ((s.cli.appCallTaken ans (s.ha.itemCall item)).1.net.writes.drop s.cli.net.writes.length) =
      (s.cli.cli.psPcb.toList.filter fun _ => s.cli.tcpTakes ans 0).map
        fun p => (p, s.cli.packetOf (s.ha.itemCall item)) := by
  have hstate : s.cli.cli.eState = .ready := of_decide_eq_true hready
  have hwrites := Mqtt.writes_appCallTaken ans hstate (s.ha.fits_itemCall hstatus item)
  rw [hwrites.accepted, List.drop_left, hwrites.taken]

theorem allTaken_issueItem (hready : s.ready = true) (hstatus : s.ha.StatusFits)
    (ans : Answers) (item : PubItem) :
    (issueItem ans s item).AllTaken ↔ s.AllTaken ∧ s.cli.tcpTakes ans 0 = true := by
  simp only [AllTaken, issueItem, List.mem_append, List.mem_singleton, or_imp, forall_and,
    forall_eq, written_issueItem hready hstatus]
  refine and_congr_right fun _ => ?_
  unfold Mqtt.tcpTakes
  cases s.cli.cli.psPcb with
  | none => simp
  | some p => cases ans.tcpWrite (s.cli.net.writeCalls + 0) <;> simp

theorem recorded_issueItem (hready : s.ready = true) (hstatus : s.ha.StatusFits)
    (ans : Answers) (item : PubItem) (h : s.Recorded) : (issueItem ans s item).Recorded := by
  obtain ⟨ws, hws, _⟩ := (calm_issueItem ans s item).writes
  intro made hmade w hw
  rcases List.mem_append.mp hmade with hold | hnew
  · obtain ⟨hpacket, hmem⟩ := h made hold w hw
    refine ⟨hpacket, ?_⟩
    rw [hws]
    exact List.mem_append_left _ hmem
  · rw [List.mem_singleton.mp hnew] at hw ⊢
    refine ⟨?_, List.mem_of_mem_drop hw⟩
    rw [written_issueItem hready hstatus] at hw
    obtain ⟨p, _, heq⟩ := List.mem_map.mp hw
    rw [← heq]
    exact s.cli.hasPacket_packetOf _

theorem recorded_foldl (ans : Answers) (items : List PubItem) (hready : s.ready = true)
    (hstatus : s.ha.StatusFits) (h : s.Recorded) : (items.foldl (issueItem ans) s).Recorded := by
  induction items generalizing s with
  | nil => exact h
  | cons item items ih =>
      exact ih ((ready_issueItem ans s item).trans hready) hstatus
        (recorded_issueItem hready hstatus ans item h)

/-- Items issued one after the other are taken exactly when each write is. -/
theorem allTaken_foldl (ans : Answers) (items : List PubItem) (hready : s.ready = true)
    (hstatus : s.ha.StatusFits) :
    (items.foldl (issueItem ans) s).AllTaken ↔
      s.AllTaken ∧ ∀ k < items.length, s.cli.tcpTakes ans k = true := by
  induction items generalizing s with
  | nil => simp
  | cons item items ih =>
      have hstate : s.cli.cli.eState = .ready := of_decide_eq_true hready
      have hwrites := Mqtt.writes_appCallTaken ans hstate (s.ha.fits_itemCall hstatus item)
      have htail (k : Nat) : (issueItem ans s item).cli.tcpTakes ans k =
          s.cli.tcpTakes ans (k + 1) := hwrites.tcpTakes_succ k
      rw [List.foldl_cons, ih ((ready_issueItem ans s item).trans hready) hstatus,
        allTaken_issueItem hready hstatus, List.length_cons, Nat.forall_lt_succ_left, and_assoc]
      simp only [htail]

/-! ## Runs -/

theorem statusFits_mqttAppStart (h : s.ha.StatusFits) : s.mqttAppStart.ha.StatusFits := by
  unfold mqttAppStart
  split
  · exact h
  · exact (length_palSnprintf _ _ _).trans_lt (by decide)

theorem statusFits_applyPass (h : s.ha.StatusFits) : s.applyPass.ha.StatusFits := by
  unfold applyPass
  split
  · exact h
  · refine statusFits_mqttAppStart ?_
    simp only [HaMqtt.StatusFits]
    exact h

/-- The status topic stays within its buffer. -/
theorem statusFits_step (h : s.ha.StatusFits) (e : AppEvent) :
    (s.step ipaddrAton palStrToUl e).ha.StatusFits := by
  cases e with
  | mqttConfig params => exact h
  | ioConfig params => exact h
  | outputConfig cfg names =>
      simp only [step, HaMqtt.StatusFits]
      exact h
  | requestApply => exact h
  | applyPass => exact statusFits_applyPass h
  | republishPass chain loc =>
      simp only [step, republishPass, mqttAppRepublish]
      split
      · exact h
      split
      · exact h
      · exact h
  | product ev =>
      simp only [step, HaMqtt.StatusFits]
      exact h
  | pubService ans =>
      simp only [step, mqttAppPubServiceTick]
      split
      · exact h
      split
      · change ((s.issueStep s.ha.pubStep ans).ha).StatusFits
        rw [issueStep, (foldl_issueItem ans _ s).1]
        exact h
      · exact h
  | tick ms ans chain loc =>
      simp only [step, mqttAppTick, connectEdge]
      split
      · exact h
      · exact h
  | stop => exact h
  | outside ev =>
      simp only [step]
      split
      · exact h
      · exact h

/-- The step that the poll takes. -/
theorem Driven.pubService_eq (h : Driven a m s) (hle : s.ha.pubStep ≤ s.ha.pubMax)
    (ans : Answers) : s.mqttAppPubServiceTick ans =
      (s.issueStep s.ha.pubStep ans).setPubStep (s.ha.pubStep + 1) := by
  rw [mqttAppPubServiceTick, if_neg (by rw [h.ready]; decide), if_pos ⟨h.pos, hle⟩]

/-- An undisturbed event leaves everything taken exactly when no write of it is refused. -/
theorem allTaken_step (h : Driven a m s) (hstatus : s.ha.StatusFits)
    (hok : s.Undisturbed ipaddrAton palStrToUl e) :
    (s.step ipaddrAton palStrToUl e).AllTaken ↔ s.AllTaken ∧ s.NoRefusal e := by
  by_cases hpub : ∃ ans, e = .pubService ans
  · obtain ⟨ans, he⟩ := hpub
    subst he
    change (s.mqttAppPubServiceTick ans).AllTaken ↔ s.AllTaken ∧ s.NoRefusal (.pubService ans)
    by_cases hle : s.ha.pubStep ≤ s.ha.pubMax
    · rw [h.pubService_eq hle]
      simp only [NoRefusal, hle, forall_const]
      exact allTaken_foldl ans _ h.ready hstatus
    · rw [mqttAppPubServiceTick_of_lt h.ready (by omega) ans]
      exact (and_iff_left fun hpast => absurd hpast hle).symm
  · obtain ⟨_, _, hsent⟩ :=
      kept_of_not_starts palStrToUl hok.running fun ans he => hpub ⟨ans, he⟩
    have hquiet : s.NoRefusal e := by
      cases e with
      | pubService ans => exact absurd ⟨ans, rfl⟩ hpub
      | _ => trivial
    simp only [AllTaken, hsent, hquiet, and_true]

/-- And keeps the record. -/
theorem recorded_step (h : Driven a m s) (hstatus : s.ha.StatusFits)
    (hok : s.Undisturbed ipaddrAton palStrToUl e) (hrecorded : s.Recorded) :
    (s.step ipaddrAton palStrToUl e).Recorded := by
  by_cases hpub : ∃ ans, e = .pubService ans
  · obtain ⟨ans, he⟩ := hpub
    subst he
    change (s.mqttAppPubServiceTick ans).Recorded
    by_cases hle : s.ha.pubStep ≤ s.ha.pubMax
    · rw [h.pubService_eq hle]
      exact recorded_foldl ans _ h.ready hstatus hrecorded
    · rw [mqttAppPubServiceTick_of_lt h.ready (by omega) ans]
      exact hrecorded
  · obtain ⟨_, _, hsent⟩ :=
      kept_of_not_starts palStrToUl hok.running fun ans he => hpub ⟨ans, he⟩
    intro made hmade w hw
    rw [hsent] at hmade
    obtain ⟨hpacket, hmem⟩ := hrecorded made hmade w hw
    exact ⟨hpacket, (writes_step ipaddrAton palStrToUl s e).subset hmem⟩

/-- Along an undisturbed run, everything is taken exactly when no write of a step is
refused. -/
theorem allTaken_final (h : Driven a m s) (hstatus : s.ha.StatusFits) (es : List AppEvent)
    (hok : Runs.EveryStep (step ipaddrAton palStrToUl) (Undisturbed ipaddrAton palStrToUl) s es) :
    (Runs.final (step ipaddrAton palStrToUl) s es).AllTaken ↔
      s.AllTaken ∧ Runs.EveryStep (step ipaddrAton palStrToUl) NoRefusal s es := by
  induction es generalizing s with
  | nil => exact (and_iff_left trivial).symm
  | cons e es ih =>
      rw [Runs.final_cons, ih (h.step hok.1) (statusFits_step hstatus e) hok.2,
        allTaken_step h hstatus hok.1, Runs.everyStep_cons, and_assoc]

theorem recorded_final (h : Driven a m s) (hstatus : s.ha.StatusFits) (hrecorded : s.Recorded)
    (es : List AppEvent)
    (hok : Runs.EveryStep (step ipaddrAton palStrToUl) (Undisturbed ipaddrAton palStrToUl) s es) :
    (Runs.final (step ipaddrAton palStrToUl) s es).Recorded := by
  induction es generalizing s with
  | nil => exact hrecorded
  | cons e es ih =>
      exact ih (h.step hok.1) (statusFits_step hstatus e)
        (recorded_step h hstatus hok.1 hrecorded) hok.2

/-- A call of the record is accepted exactly when TCP took a write of it. -/
theorem Recorded.accepted_iff (h : s.Recorded) {made : SentCall} (hmade : made ∈ s.sent) :
    made.Accepted s.cli.net.writes ↔ made.written ≠ [] := by
  constructor
  · intro ⟨w, hw, _⟩ hnone
    rw [hnone] at hw
    cases hw
  · intro hsome
    obtain ⟨w, hw⟩ := List.exists_mem_of_ne_nil _ hsome
    exact ⟨w, hw, h made hmade w hw⟩

theorem forall₂_and_right_iff {α β : Type} {R : α → β → Prop} {P : β → Prop} {as : List α}
    {bs : List β} (h : List.Forall₂ R as bs) :
    List.Forall₂ (fun a b => R a b ∧ P b) as bs ↔ ∀ b ∈ bs, P b := by
  induction h with
  | nil => exact iff_of_true .nil nofun
  | cons hab _ ih =>
      rw [List.forall₂_cons, ih, List.forall_mem_cons]
      exact and_congr_left' (and_iff_right hab)

/-- Driven to its end, every item of the sequence has its accepted packet exactly when TCP took
a write of every call. -/
theorem accepted_iff_allTaken (hs : s.Started) (hstatus : s.ha.StatusFits) (es : List AppEvent)
    (hok : Runs.EveryStep (step ipaddrAton palStrToUl) (Undisturbed ipaddrAton palStrToUl) s es)
    (hend : (Runs.final (step ipaddrAton palStrToUl) s es).ha.pubMax <
      (Runs.final (step ipaddrAton palStrToUl) s es).ha.pubStep) :
    List.Forall₂
        (fun item made => s.ha.SentFor item made ∧
          made.Accepted (Runs.final (step ipaddrAton palStrToUl) s es).cli.net.writes)
        (s.ha.issued s.ha.pubMax) (Runs.final (step ipaddrAton palStrToUl) s es).sent ↔
      (Runs.final (step ipaddrAton palStrToUl) s es).AllTaken := by
  have hdriven := (hok.invariant (fun _ _ hd hu => Driven.step hd hu) hs.driven).last
  have hempty : s.Recorded := by
    intro made hmade
    rw [hs.none] at hmade
    cases hmade
  have hrecorded := recorded_final hs.driven hstatus hempty es hok
  rw [forall₂_and_right_iff (hdriven.record_at_end hend)]
  exact forall₂_congr fun made hmade => hrecorded.accepted_iff hmade

theorem Started.allTaken (h : s.Started) : s.AllTaken := by
  intro made hmade
  rw [h.none] at hmade
  cases hmade

/-- **The sequence under back-pressure.**  Driven to its end in one session, the calls made stand
one for one for the items of the sequence, and the packet of each is among the writes that TCP
has accepted, exactly when, at every step, the client held a connection and no write was
refused. -/
theorem accepted_iff_noRefusal (ipaddrAton : CStr → Option (BitVec 32)) (palStrToUl : StrToUl)
    (hs : s.Started) (hstatus : s.ha.StatusFits) (es : List AppEvent)
    (hok : Runs.EveryStep (step ipaddrAton palStrToUl) (Undisturbed ipaddrAton palStrToUl) s es)
    (hend : (Runs.final (step ipaddrAton palStrToUl) s es).ha.pubMax <
      (Runs.final (step ipaddrAton palStrToUl) s es).ha.pubStep) :
    List.Forall₂
        (fun item made => s.ha.SentFor item made ∧
          made.Accepted (Runs.final (step ipaddrAton palStrToUl) s es).cli.net.writes)
        (s.ha.issued s.ha.pubMax) (Runs.final (step ipaddrAton palStrToUl) s es).sent ↔
      Runs.EveryStep (step ipaddrAton palStrToUl) NoRefusal s es := by
  rw [accepted_iff_allTaken hs hstatus es hok hend, allTaken_final hs.driven hstatus es hok]
  exact and_iff_right hs.allTaken

/-! ## A refused write -/

theorem psPcb_mqttSendRaw (c : Mqtt) (bytes : List UInt8) (ans : Answers) :
    (c.mqttSendRaw bytes ans).1.cli.psPcb = c.cli.psPcb := by
  unfold Mqtt.mqttSendRaw
  split
  · rfl
  split
  · rfl
  split
  · rfl
  · rfl

/-- A call of the application leaves the connection to the client. -/
theorem psPcb_appCallTaken (c : Mqtt) (call : AppCall) (ans : Answers) :
    (c.appCallTaken ans call).1.cli.psPcb = c.cli.psPcb := by
  cases call with
  | publish topic payload retain =>
      simp only [Mqtt.appCallTaken, Mqtt.mqttClientPublish]
      split
      · rfl
      split
      · rfl
      · exact psPcb_mqttSendRaw _ _ _
  | subscribe topic =>
      simp only [Mqtt.appCallTaken, Mqtt.mqttClientSubscribe]
      split
      · rfl
      · exact psPcb_mqttSendRaw _ _ _

theorem psPcb_foldl_issueItem (ans : Answers) (items : List PubItem) (s : MqttApp) :
    (items.foldl (issueItem ans) s).cli.cli.psPcb = s.cli.cli.psPcb := by
  induction items generalizing s with
  | nil => rfl
  | cons item items ih => exact (ih _).trans (psPcb_appCallTaken _ _ _)

/-- The poll leaves the connection to the client. -/
theorem psPcb_pubServiceTick (s : MqttApp) (ans : Answers) :
    (s.mqttAppPubServiceTick ans).cli.cli.psPcb = s.cli.cli.psPcb := by
  unfold mqttAppPubServiceTick
  split
  · rfl
  split
  · exact psPcb_foldl_issueItem _ _ _
  · rfl

/-- With a connection, no write is refused where every one is taken. -/
theorem noRefusal_obliging (n : Nat) (hpcb : s.cli.cli.psPcb.isSome = true) :
    Runs.EveryStep (step ipaddrAton palStrToUl) NoRefusal s
      ((List.replicate n Answers.obliging).map .pubService) := by
  induction n generalizing s with
  | zero => trivial
  | succ n ih =>
      refine ⟨?_, ih ?_⟩
      · intro _ k _
        exact Bool.and_eq_true_iff.mpr ⟨hpcb, rfl⟩
      · change (s.mqttAppPubServiceTick .obliging).cli.cli.psPcb.isSome = true
        rw [psPcb_pubServiceTick]
        exact hpcb

/-- The settings of a hub without relays or inputs. -/
def coverSettings : HaMqtt :=
  { oneShutterSettings with
    hub := { Hub.oneShutterHub with ioDevices := 0 }, hasTempSensor := false }

/-- Its session has been opened and the sequence started. -/
def sequenceStart : MqttApp :=
  Runs.final (step (fun _ => some 0x0A000001#32) ustrtoul) (boot coverSettings)
    [.requestApply, .applyPass,
      .tick 0#32 .obliging (fun _ => 0#8) 0#8,
      .outside (.connected 0 .ok .obliging),
      .outside (.recv 0 (some [[0x20, 2, 0, 0]]) .ok .obliging),
      .tick 0#32 .obliging (fun _ => 0#8) 0#8]

theorem started_sequenceStart : sequenceStart.Started :=
  ⟨by decide +kernel, by decide +kernel, by decide +kernel⟩

theorem statusFits_sequenceStart : sequenceStart.ha.StatusFits := by
  unfold HaMqtt.StatusFits
  decide +kernel

/-- The send buffer is full. -/
def fullBuffer : Answers := { Answers.obliging with tcpWrite := fun _ => false }

/-- The poll drives that sequence to its end; `first` answers the write of its first step. -/
def drivenToEnd (first : Answers) : List AppEvent :=
  (first :: List.replicate 66 Answers.obliging).map .pubService

theorem runs_drivenToEnd (first : Answers) :
    Runs.EveryStep (step (fun _ => some 0x0A000001#32) ustrtoul)
        (Undisturbed (fun _ => some 0x0A000001#32) ustrtoul) sequenceStart (drivenToEnd first) ∧
      (Runs.final (step (fun _ => some 0x0A000001#32) ustrtoul) sequenceStart
        (drivenToEnd first)).ha.pubMax <
      (Runs.final (step (fun _ => some 0x0A000001#32) ustrtoul) sequenceStart
        (drivenToEnd first)).ha.pubStep := by
  have hmax : sequenceStart.ha.pubMax = 67 := by decide +kernel
  have hleft : (first :: List.replicate 66 Answers.obliging).length + sequenceStart.ha.pubStep =
      sequenceStart.ha.pubMax + 1 := by
    rw [hmax, started_sequenceStart.first, List.length_cons, List.length_replicate]
  unfold drivenToEnd
  exact runs_to_end _ _ (first :: List.replicate 66 .obliging) started_sequenceStart.driven hleft

/-- With every write taken, every item arrives. -/
theorem accepted_when_obliging :
    sequenceStart.ha.pubMax = 67 ∧ List.Forall₂
      (fun item made => sequenceStart.ha.SentFor item made ∧
        made.Accepted (Runs.final (step (fun _ => some 0x0A000001#32) ustrtoul) sequenceStart
          (drivenToEnd .obliging)).cli.net.writes)
      (sequenceStart.ha.issued sequenceStart.ha.pubMax)
      (Runs.final (step (fun _ => some 0x0A000001#32) ustrtoul) sequenceStart
        (drivenToEnd .obliging)).sent :=
  ⟨by decide +kernel,
    (accepted_iff_noRefusal _ _ started_sequenceStart statusFits_sequenceStart _
      (runs_drivenToEnd .obliging).1 (runs_drivenToEnd .obliging).2).mpr
        (noRefusal_obliging 67 (by decide +kernel))⟩

/-- With the first write refused, the sequence runs to its end and the online status has not
been sent. -/
theorem status_lost :
    Runs.EveryStep (step (fun _ => some 0x0A000001#32) ustrtoul)
        (Undisturbed (fun _ => some 0x0A000001#32) ustrtoul) sequenceStart
        (drivenToEnd fullBuffer) ∧
      (Runs.final (step (fun _ => some 0x0A000001#32) ustrtoul) sequenceStart
        (drivenToEnd fullBuffer)).ha.pubMax <
      (Runs.final (step (fun _ => some 0x0A000001#32) ustrtoul) sequenceStart
        (drivenToEnd fullBuffer)).ha.pubStep ∧
      ¬List.Forall₂
        (fun item made => sequenceStart.ha.SentFor item made ∧
          made.Accepted (Runs.final (step (fun _ => some 0x0A000001#32) ustrtoul) sequenceStart
            (drivenToEnd fullBuffer)).cli.net.writes)
        (sequenceStart.ha.issued sequenceStart.ha.pubMax)
        (Runs.final (step (fun _ => some 0x0A000001#32) ustrtoul) sequenceStart
          (drivenToEnd fullBuffer)).sent := by
  obtain ⟨hok, hend⟩ := runs_drivenToEnd fullBuffer
  refine ⟨hok, hend, ?_⟩
  rw [accepted_iff_allTaken started_sequenceStart statusFits_sequenceStart _ hok hend,
    allTaken_final started_sequenceStart.driven statusFits_sequenceStart _ hok]
  intro htaken
  have hfirst := htaken.2.1 (by decide +kernel) 0 (by decide +kernel)
  revert hfirst
  decide +kernel

end MqttApp

end HomeAuto
