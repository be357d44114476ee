import HomeAuto.HubCommands
import HomeAuto.Lib.Runs
import HomeAuto.PostConnectCalls

/-!
# Completeness of the post-connect sequence

The sequence is started by the connect edge of `MQTTAppTick` and by `MQTTAppRepublish`, and
`MQTTAppPubServiceTick` drives it to the bound in `g_iPubMax`.  While nothing disturbs it,
the calls made stand for the items of the steps behind the counter, so the sequence is complete
exactly when the bound covers the last step of the configuration it runs for.

`product_on_connect` computes the bound anew; `MQTTAppRepublish` runs on with the old one.
Along a run, every sequence is complete exactly when each republication finds a bound that
still covers the configuration.
-/

namespace HomeAuto

namespace MqttApp

variable (ipaddrAton : CStr → Option (BitVec 32)) (palStrToUl : StrToUl)

/-- The event starts the sequence. -/
def Starts (s : MqttApp) : AppEvent → Prop
  | .tick ms ans _ _ => (s.clientTick ipaddrAton ms ans).ready = true ∧ s.wasConnected = false
  | .republishPass _ _ => s.republishPending = true ∧ s.ready = true
  | _ => False

/-- The event leaves the session ready and the configuration of the sequence as it is, and
does not start the sequence again. -/
structure Undisturbed (s : MqttApp) (e : AppEvent) : Prop where
  ready : (s.step ipaddrAton palStrToUl e).ready = true
  layout : HaMqtt.SameLayout s.ha (s.step ipaddrAton palStrToUl e).ha
  running : ¬s.Starts ipaddrAton e

/-- The calls made stand, one for one, for what the configuration asks for: every item once, and
nothing else. -/
def Complete (s : MqttApp) : Prop :=
  ∃ items : List PubItem, items.Nodup ∧ (∀ item, item ∈ items ↔ s.ha.Due item) ∧
    List.Forall₂ s.ha.SentFor items s.sent

/-- Driven to its end without disturbance, the sequence is complete. -/
def CompletesFrom (s : MqttApp) : Prop :=
  ∀ es, Runs.EveryStep (step ipaddrAton palStrToUl) (Undisturbed ipaddrAton palStrToUl) s es →
    (Runs.final (step ipaddrAton palStrToUl) s es).ha.pubMax <
      (Runs.final (step ipaddrAton palStrToUl) s es).ha.pubStep →
    (Runs.final (step ipaddrAton palStrToUl) s es).Complete

/-- The sequence has been started and nothing is issued yet. -/
structure Started (s : MqttApp) : Prop where
  ready : s.ready = true
  first : s.ha.pubStep = 1
  none : s.sent = []

/-- The sequence is under way for the configuration of `a`, up to the bound `m`. -/
structure Driven (a : HaMqtt) (m : Nat) (s : MqttApp) : Prop where
  ready : s.ready = true
  layout : HaMqtt.SameLayout a s.ha
  topics : HaMqtt.SameTopics a s.ha
  bound : s.ha.pubMax = m
  pos : 1 ≤ s.ha.pubStep
  le : s.ha.pubStep ≤ m + 1
  record : List.Forall₂ a.SentFor (a.issued (s.ha.pubStep - 1)) s.sent

variable {ipaddrAton palStrToUl}
variable {s : MqttApp} {e : AppEvent} {a : HaMqtt} {m : Nat}

/-! ## Calls keep the session -/

theorem eState_mqttSendRaw (c : Mqtt) (bytes : List UInt8) (ans : Answers) :
    (c.mqttSendRaw bytes ans).1.cli.eState = c.cli.eState := by
  unfold Mqtt.mqttSendRaw
  split
  · rfl
  split
  · rfl
  split
  · rfl
  · rfl

/-- A call of the application leaves the state of the session. -/
theorem eState_appCallTaken (c : Mqtt) (call : AppCall) (ans : Answers) :
    (c.appCallTaken ans call).1.cli.eState = c.cli.eState := by
  cases call with
  | publish topic payload retain =>
      simp only [Mqtt.appCallTaken, Mqtt.mqttClientPublish]
      split
      · rfl
      split
      · rfl
      · exact eState_mqttSendRaw _ _ _
  | subscribe topic =>
      simp only [Mqtt.appCallTaken, Mqtt.mqttClientSubscribe]
      split
      · rfl
      · exact eState_mqttSendRaw _ _ _

/-! ## One step of the sequence -/

@[simp] theorem ha_issueItem (ans : Answers) (s : MqttApp) (item : PubItem) :
    (issueItem ans s item).ha = s.ha := rfl

theorem ready_issueItem (ans : Answers) (s : MqttApp) (item : PubItem) :
    (issueItem ans s item).ready = s.ready := by
  simp only [ready, issueItem, eState_appCallTaken]

/-- Issuing an item adds a call that stands for it. -/
theorem sent_issueItem (ans : Answers) (s : MqttApp) (item : PubItem) :
    ∃ made, (issueItem ans s item).sent = s.sent ++ [made] ∧ s.ha.SentFor item made :=
  ⟨_, rfl, s.ha.says_itemCall item, .refl _, .refl _⟩

/-- Issuing some items: the product's part and the session stay, and the record grows by calls
that stand for them. -/
theorem foldl_issueItem (ans : Answers) (items : List PubItem) (s : MqttApp) :
    (items.foldl (issueItem ans) s).ha = s.ha ∧
      (items.foldl (issueItem ans) s).ready = s.ready ∧
      ∃ made, (items.foldl (issueItem ans) s).sent = s.sent ++ made ∧
        List.Forall₂ s.ha.SentFor items made := by
  induction items generalizing s with
  | nil => exact ⟨rfl, rfl, [], (List.append_nil _).symm, .nil⟩
  | cons item items ih =>
      obtain ⟨hha, hready, made, hsent, hmade⟩ := ih (issueItem ans s item)
      obtain ⟨first, hone, hfirst⟩ := sent_issueItem ans s item
      refine ⟨hha, hready.trans (ready_issueItem ans s item), first :: made, ?_,
        .cons hfirst hmade⟩
      rw [List.foldl_cons, hsent, hone, List.append_assoc, List.singleton_append]

/-- The next step of a sequence that is not at its end. -/
theorem mqttAppPubServiceTick_of_le (hready : s.ready = true) (hpos : 1 ≤ s.ha.pubStep)
    (hle : s.ha.pubStep ≤ s.ha.pubMax) (ans : Answers) :
    (s.mqttAppPubServiceTick ans).ha = { s.ha with pubStep := s.ha.pubStep + 1 } ∧
      (s.mqttAppPubServiceTick ans).ready = true ∧
      ∃ made, (s.mqttAppPubServiceTick ans).sent = s.sent ++ made ∧
        List.Forall₂ s.ha.SentFor (s.ha.mqttAppPostConnect s.ha.pubStep) made := by
  obtain ⟨hha, hkept, hsent⟩ :=
    foldl_issueItem ans (s.ha.mqttAppPostConnect s.ha.pubStep) s
  have htick : s.mqttAppPubServiceTick ans =
      (s.issueStep s.ha.pubStep ans).setPubStep (s.ha.pubStep + 1) := by
    rw [mqttAppPubServiceTick, if_neg (by rw [hready]; decide), if_pos ⟨hpos, hle⟩]
  rw [htick]
  refine ⟨?_, hkept.trans hready, hsent⟩
  exact congrArg (fun ha : HaMqtt => { ha with pubStep := s.ha.pubStep + 1 }) hha

/-- At its end the sequence rests. -/
theorem mqttAppPubServiceTick_of_lt (hready : s.ready = true)
    (hlt : s.ha.pubMax < s.ha.pubStep) (ans : Answers) :
    s.mqttAppPubServiceTick ans = s := by
  rw [mqttAppPubServiceTick, if_neg (by rw [hready]; decide), if_neg (by omega)]

/-- The items of one step more. -/
theorem issued_succ (a : HaMqtt) (m : Nat) :
    a.issued (m + 1) = a.issued m ++ a.mqttAppPostConnect (m + 1) := by
  rw [HaMqtt.issued, HaMqtt.issued, List.range'_1_concat, List.flatMap_append, Nat.add_comm 1 m,
    List.flatMap_singleton]

/-- A step of the sequence keeps it under way. -/
theorem Driven.pubService (h : Driven a m s) (ans : Answers) :
    Driven a m (s.mqttAppPubServiceTick ans) := by
  by_cases hle : s.ha.pubStep ≤ s.ha.pubMax
  · obtain ⟨hha, hready, made, hsent, hmade⟩ := mqttAppPubServiceTick_of_le h.ready h.pos hle ans
    have hpos := h.pos
    have hbound := h.bound
    refine ⟨hready, ?_, ?_, ?_, ?_, ?_, ?_⟩
    · rw [hha]
      exact h.layout.trans ⟨rfl, rfl, rfl, rfl, rfl, rfl⟩
    · rw [hha]
      exact h.topics.trans ⟨rfl, rfl, rfl⟩
    · rw [hha]
      exact hbound
    · rw [hha]
      exact Nat.le_add_left 1 _
    · rw [hha]
      change s.ha.pubStep + 1 ≤ m + 1
      omega
    · obtain ⟨k, hk⟩ : ∃ k, s.ha.pubStep = k + 1 := ⟨s.ha.pubStep - 1, by omega⟩
      have hstep : a.issued (s.ha.pubStep + 1 - 1) =
          a.issued (s.ha.pubStep - 1) ++ a.mqttAppPostConnect s.ha.pubStep := by
        rw [hk]
        exact issued_succ a k
      rw [h.layout.mqttAppPostConnect] at hmade
      rw [hsent, hha, hstep]
      refine List.rel_append h.record (hmade.imp ?_)
      exact fun item made hsame => hsame.congr h.layout.symm h.topics.symm
  · rw [mqttAppPubServiceTick_of_lt h.ready (by omega) ans]
    exact h

/-! ## Runs -/

theorem pubStep_mqttAppStart (s : MqttApp) :
    s.mqttAppStart.ha.pubStep = s.ha.pubStep ∧ s.mqttAppStart.ha.pubMax = s.ha.pubMax ∧
      s.mqttAppStart.sent = s.sent := by
  unfold mqttAppStart
  split
  · exact ⟨rfl, rfl, rfl⟩
  · exact ⟨rfl, rfl, rfl⟩

theorem pubStep_applyPass (s : MqttApp) :
    s.applyPass.ha.pubStep = s.ha.pubStep ∧ s.applyPass.ha.pubMax = s.ha.pubMax ∧
      s.applyPass.sent = s.sent := by
  unfold applyPass
  split
  · exact ⟨rfl, rfl, rfl⟩
  · exact pubStep_mqttAppStart _

/-- The connect edge, when the session has just become ready. -/
theorem connectEdge_of_edge (h : s.ready = true ∧ s.wasConnected = false)
    (chain : Nat → BitVec 8) (loc : BitVec 8) :
    s.connectEdge chain loc = { s.onConnect chain loc with wasConnected := s.ready } := by
  rw [connectEdge, if_pos h]

/-- And otherwise. -/
theorem connectEdge_of_not (h : ¬(s.ready = true ∧ s.wasConnected = false))
    (chain : Nat → BitVec 8) (loc : BitVec 8) :
    s.connectEdge chain loc = { s with wasConnected := s.ready } := by
  rw [connectEdge, if_neg h]

/-- A republication in a session that is ready. -/
theorem mqttAppRepublish_of_ready (h : s.ready = true) (chain : Nat → BitVec 8) (loc : BitVec 8) :
    s.mqttAppRepublish chain loc =
      { s with
        ha := { s.ha with inSnap := s.ha.ioInputReadAll chain loc, pubStep := 1 }
        sent := [] } := by
  rw [mqttAppRepublish, if_neg (by rw [h]; decide)]

/-- A republication without a session. -/
theorem mqttAppRepublish_of_not_ready (h : s.ready = false) (chain : Nat → BitVec 8)
    (loc : BitVec 8) : s.mqttAppRepublish chain loc = s := by
  rw [mqttAppRepublish, if_pos h]

/-- The counter, its bound and the record move with the start of the sequence and with its
steps only. -/
theorem kept_of_not_starts (palStrToUl : StrToUl) (hstart : ¬s.Starts ipaddrAton e)
    (hpub : ∀ ans, e ≠ .pubService ans) :
    (s.step ipaddrAton palStrToUl e).ha.pubStep = s.ha.pubStep ∧
      (s.step ipaddrAton palStrToUl e).ha.pubMax = s.ha.pubMax ∧
      (s.step ipaddrAton palStrToUl e).sent = s.sent := by
  cases e with
  | mqttConfig params => exact ⟨rfl, rfl, rfl⟩
  | ioConfig params => exact ⟨rfl, rfl, rfl⟩
  | outputConfig cfg names => simp only [step, and_self]
  | requestApply => exact ⟨rfl, rfl, rfl⟩
  | applyPass => exact pubStep_applyPass s
  | republishPass chain loc =>
      simp only [Starts, not_and] at hstart
      simp only [step, republishPass]
      split
      · exact ⟨rfl, rfl, rfl⟩
      · rename_i hflag
        have hready : s.ready = false := by simpa using hstart (by simpa using hflag)
        have hnot : ({ s with republishPending := false } : MqttApp).ready = false := hready
        rw [mqttAppRepublish_of_not_ready hnot]
        exact ⟨rfl, rfl, rfl⟩
  | product ev => exact ⟨rfl, rfl, rfl⟩
  | pubService ans => exact absurd rfl (hpub ans)
  | tick ms ans chain loc =>
      have hedge : ¬((s.clientTick ipaddrAton ms ans).ready = true ∧
          (s.clientTick ipaddrAton ms ans).wasConnected = false) := hstart
      simp only [step, mqttAppTick]
      rw [connectEdge_of_not hedge]
      exact ⟨rfl, rfl, rfl⟩
  | stop => exact ⟨rfl, rfl, rfl⟩
  | outside ev =>
      simp only [step]
      split
      · exact ⟨rfl, rfl, rfl⟩
      · exact ⟨rfl, rfl, rfl⟩

/-- `MQTTAppStart` leaves the session, or leaves the topics as they are. -/
theorem topics_mqttAppStart (s : MqttApp) (h : s.mqttAppStart.ready = true) :
    HaMqtt.SameTopics s.ha s.mqttAppStart.ha := by
  by_cases hhost : s.configHasBroker = false
  · rw [mqttAppStart, if_pos hhost]
    exact .refl _
  · rw [mqttAppStart, if_neg hhost] at h
    cases h

/-- An event that leaves the session ready leaves the topics as they are. -/
theorem topics_step (ipaddrAton : CStr → Option (BitVec 32)) (palStrToUl : StrToUl)
    (h : (s.step ipaddrAton palStrToUl e).ready = true) :
    HaMqtt.SameTopics s.ha (s.step ipaddrAton palStrToUl e).ha := by
  cases e with
  | mqttConfig params => exact ⟨rfl, rfl, rfl⟩
  | ioConfig params => exact ⟨rfl, rfl, rfl⟩
  | outputConfig cfg names =>
      have hbase : (Hub.outputCtrlReload { s.ha.hub with outCfg := cfg }).baseTopic =
          s.ha.hub.baseTopic := Hub.baseTopic_outputCtrlReload _
      simp only [step]
      exact ⟨hbase, rfl, rfl⟩
  | requestApply => exact .refl _
  | applyPass =>
      simp only [step, applyPass] at h ⊢
      split at h
      · rename_i hflag
        rw [if_pos hflag]
        exact .refl _
      · rename_i hflag
        rw [if_neg hflag]
        have hbase : s.ha.hub.applyPending.baseTopic = s.ha.hub.baseTopic :=
          s.ha.hub.baseTopic_applyPending
        have hpass := topics_mqttAppStart _ h
        exact ⟨hpass.base.trans hbase, hpass.status, hpass.device⟩
  | republishPass chain loc =>
      simp only [step, republishPass, mqttAppRepublish]
      split
      · exact .refl _
      split
      · exact .refl _
      · exact ⟨rfl, rfl, rfl⟩
  | product ev => exact ⟨Hub.baseTopic_step palStrToUl _ ev, rfl, rfl⟩
  | pubService ans =>
      simp only [step, mqttAppPubServiceTick]
      split
      · exact ⟨rfl, rfl, rfl⟩
      split
      · have hha := (foldl_issueItem ans (s.ha.mqttAppPostConnect s.ha.pubStep) s).1
        have hsame : HaMqtt.SameTopics s.ha (s.issueStep s.ha.pubStep ans).ha := by
          rw [issueStep, hha]
          exact .refl _
        exact hsame.trans ⟨rfl, rfl, rfl⟩
      · exact .refl _
  | tick ms ans chain loc =>
      simp only [step, mqttAppTick, connectEdge]
      split
      · exact ⟨rfl, rfl, rfl⟩
      · exact .refl _
  | stop => exact .refl _
  | outside ev =>
      simp only [step]
      split
      · exact .refl _
      · exact .refl _

/-- An undisturbed event keeps the sequence under way. -/
theorem Driven.step (h : Driven a m s) (hok : s.Undisturbed ipaddrAton palStrToUl e) :
    Driven a m (s.step ipaddrAton palStrToUl e) := by
  by_cases hpub : ∃ ans, e = .pubService ans
  · obtain ⟨ans, he⟩ := hpub
    subst he
    exact h.pubService ans
  · obtain ⟨hstep, hmax, hsent⟩ := kept_of_not_starts palStrToUl hok.running
      fun ans he => hpub ⟨ans, he⟩
    refine ⟨hok.ready, h.layout.trans hok.layout, ?_, ?_, ?_, ?_, ?_⟩
    · exact h.topics.trans (topics_step ipaddrAton palStrToUl hok.ready)
    · rw [hmax]
      exact h.bound
    · rw [hstep]
      exact h.pos
    · rw [hstep]
      exact h.le
    · rw [hsent, hstep]
      exact h.record

theorem Started.driven (h : s.Started) : Driven s.ha s.ha.pubMax s where
  ready := h.ready
  layout := .refl s.ha
  topics := .refl s.ha
  bound := rfl
  pos := h.first.ge
  le := by rw [h.first]; exact Nat.le_add_left 1 _
  record := by rw [h.none, h.first]; exact .nil

/-- At its end, the sequence has made the calls of the steps up to the bound. -/
theorem Driven.record_at_end (h : Driven a m s) (hend : s.ha.pubMax < s.ha.pubStep) :
    List.Forall₂ a.SentFor (a.issued m) s.sent := by
  have hbound := h.bound
  have hle := h.le
  have hrecord := h.record
  rw [show s.ha.pubStep - 1 = m by omega] at hrecord
  exact hrecord

/-- So it is complete exactly when the bound covers the last step: otherwise there are fewer
calls than items. -/
theorem Driven.complete_iff (h : Driven a m s) (hend : s.ha.pubMax < s.ha.pubStep) :
    s.Complete ↔ a.lastStep ≤ m := by
  have hrecord := h.record_at_end hend
  rw [← a.issued_complete_iff m]
  constructor
  · intro ⟨items, hnodup, hall, hsent⟩
    have hlength : items.length = (a.issued m).length :=
      hsent.length_eq.trans hrecord.length_eq.symm
    have hsub : a.issued m ⊆ items := by
      intro item hmem
      rw [hall, h.layout.due]
      exact (HaMqtt.mem_issued_iff.mp hmem).1
    have hperm : (a.issued m).Perm items :=
      ((a.nodup_issued m).subperm hsub).perm_of_length_le hlength.le
    intro item
    rw [hperm.mem_iff, hall, h.layout.due]
  · intro hall
    refine ⟨a.issued m, a.nodup_issued m, ?_, ?_⟩
    · intro item
      rw [h.layout.due]
      exact hall item
    · exact hrecord.imp fun item made hmade => hmade.congr h.layout h.topics

/-- As many events of the poll as steps are left bring the sequence to its end, whatever
the writes answer. -/
theorem runs_to_end (ipaddrAton : CStr → Option (BitVec 32)) (palStrToUl : StrToUl)
    (answers : List Answers) (h : Driven a m s)
    (hleft : answers.length + s.ha.pubStep = m + 1) :
    Runs.EveryStep (step ipaddrAton palStrToUl) (Undisturbed ipaddrAton palStrToUl) s
        (answers.map .pubService) ∧
      (Runs.final (step ipaddrAton palStrToUl) s (answers.map .pubService)).ha.pubMax <
        (Runs.final (step ipaddrAton palStrToUl) s (answers.map .pubService)).ha.pubStep := by
  induction answers generalizing s with
  | nil =>
      have hbound := h.bound
      rw [List.length_nil] at hleft
      exact ⟨trivial, show s.ha.pubMax < s.ha.pubStep by omega⟩
  | cons ans answers ih =>
      rw [List.length_cons] at hleft
      have hle : s.ha.pubStep ≤ s.ha.pubMax := by
        have hbound := h.bound
        omega
      obtain ⟨hha, hready, _⟩ := mqttAppPubServiceTick_of_le h.ready h.pos hle ans
      have hok : s.Undisturbed ipaddrAton palStrToUl (.pubService ans) := by
        refine ⟨hready, ?_, not_false⟩
        change HaMqtt.SameLayout s.ha (s.mqttAppPubServiceTick ans).ha
        rw [hha]
        exact ⟨rfl, rfl, rfl, rfl, rfl, rfl⟩
      have hnext : (s.step ipaddrAton palStrToUl (.pubService ans)).ha.pubStep =
          s.ha.pubStep + 1 := congrArg HaMqtt.pubStep hha
      obtain ⟨htail, hend⟩ := ih (h.step hok) (by omega)
      exact ⟨⟨hok, htail⟩, hend⟩

/-- A sequence that is started completes exactly when its bound covers the last step. -/
theorem Started.completesFrom_iff (h : s.Started) :
    s.CompletesFrom ipaddrAton palStrToUl ↔ s.ha.lastStep ≤ s.ha.pubMax := by
  constructor
  · intro hc
    have hleft : (List.replicate s.ha.pubMax Answers.obliging).length + s.ha.pubStep =
        s.ha.pubMax + 1 := by rw [List.length_replicate, h.first]
    obtain ⟨hok, hlt⟩ := runs_to_end ipaddrAton palStrToUl _ h.driven hleft
    have hdriven := (hok.invariant (fun _ _ hd hu => Driven.step hd hu) h.driven).last
    exact (hdriven.complete_iff hlt).mp (hc _ hok hlt)
  · intro hm es hok hlt
    have hdriven := (hok.invariant (fun _ _ hd hu => Driven.step hd hu) h.driven).last
    exact (hdriven.complete_iff hlt).mpr hm

/-! ## The bound -/

/-- Where the sequence is started anew without the connect edge, its bound covers the
configuration. -/
def BoundCovers (s : MqttApp) : AppEvent → Prop
  | .republishPass _ _ =>
      s.republishPending = true → s.ready = true → s.ha.lastStep ≤ s.ha.pubMax
  | _ => True

/-- A sequence that an event starts completes exactly when the bound covers it: always
after the connect edge, which computes the bound. -/
theorem completes_iff_boundCovers (s : MqttApp) (e : AppEvent) :
    (s.Starts ipaddrAton e →
        (s.step ipaddrAton palStrToUl e).CompletesFrom ipaddrAton palStrToUl) ↔
      s.BoundCovers e := by
  cases e with
  | mqttConfig params => exact iff_of_true not_false.elim trivial
  | ioConfig params => exact iff_of_true not_false.elim trivial
  | outputConfig cfg names => exact iff_of_true not_false.elim trivial
  | requestApply => exact iff_of_true not_false.elim trivial
  | applyPass => exact iff_of_true not_false.elim trivial
  | product ev => exact iff_of_true not_false.elim trivial
  | pubService ans => exact iff_of_true not_false.elim trivial
  | stop => exact iff_of_true not_false.elim trivial
  | outside ev => exact iff_of_true not_false.elim trivial
  | tick ms ans chain loc =>
      refine iff_of_true ?_ trivial
      intro hstart
      have hstep : s.step ipaddrAton palStrToUl (.tick ms ans chain loc) =
          { (s.clientTick ipaddrAton ms ans).onConnect chain loc with
            wasConnected := (s.clientTick ipaddrAton ms ans).ready } :=
        connectEdge_of_edge hstart chain loc
      rw [hstep]
      have hstarted : Started { (s.clientTick ipaddrAton ms ans).onConnect chain loc with
          wasConnected := (s.clientTick ipaddrAton ms ans).ready } := ⟨hstart.1, rfl, rfl⟩
      exact hstarted.completesFrom_iff.mpr le_rfl
  | republishPass chain loc =>
      simp only [Starts, BoundCovers, and_imp]
      refine forall_congr' fun hflag => forall_congr' fun hready => ?_
      have hstep : s.step ipaddrAton palStrToUl (.republishPass chain loc) =
          { s with
            republishPending := false
            ha := { s.ha with inSnap := s.ha.ioInputReadAll chain loc, pubStep := 1 }
            sent := [] } := by
        change s.republishPass chain loc = _
        have hstill : ({ s with republishPending := false } : MqttApp).ready = true := hready
        rw [republishPass, if_neg (by rw [hflag]; decide), mqttAppRepublish_of_ready hstill]
      rw [hstep]
      have hstarted : Started { s with
          republishPending := false
          ha := { s.ha with inSnap := s.ha.ioInputReadAll chain loc, pubStep := 1 }
          sent := [] } := ⟨hready, rfl, rfl⟩
      exact hstarted.completesFrom_iff

/-- **Completeness of the sequence.**  In a run from any state, every sequence that is
started completes exactly when each republication finds a bound that covers the
configuration it publishes. -/
theorem sequences_complete_iff_boundCovers (ipaddrAton : CStr → Option (BitVec 32))
    (palStrToUl : StrToUl) (s : MqttApp) (es : List AppEvent) :
    Runs.EveryStep (step ipaddrAton palStrToUl)
        (fun s e => s.Starts ipaddrAton e →
          (s.step ipaddrAton palStrToUl e).CompletesFrom ipaddrAton palStrToUl) s es ↔
      Runs.EveryStep (step ipaddrAton palStrToUl) BoundCovers s es :=
  Runs.everyStep_congr (I := fun _ => True) (fun _ _ _ _ => trivial)
    (fun s e _ => completes_iff_boundCovers s e) trivial es

/-! ## A bound that is too low -/

instance (s : MqttApp) : ∀ e, Decidable (s.BoundCovers e)
  | .republishPass _ _ =>
      inferInstanceAs (Decidable (s.republishPending = true → s.ready = true → _ ≤ _))
  | .mqttConfig _ | .ioConfig _ | .outputConfig _ _ | .requestApply | .applyPass | .product _
  | .pubService _ | .tick _ _ _ _ | .stop | .outside _ => .isTrue trivial

/-- The settings of a hub with one shutter and one relay device. -/
def oneShutterSettings : HaMqtt where
  hub := Hub.oneShutterHub
  cfg := ⟨1883#16, false, ascii "10.0.0.1", ascii "hub", [], [], ascii "ha"⟩
  devId := ascii "hub"
  topicStatus := []
  shName := fun _ => []
  inputType := fun _ => 0#8
  dinDevices := 0
  localInputs := 0
  hasTempSensor := true
  inSnap := fun _ => 0#8
  pubStep := 0
  pubMax := 0

/-- A session is opened and its sequence started; then a save empties the host, a second
relay device is configured, and the flags are found. -/
def secondRelayDevice : List AppEvent :=
  [.requestApply, .applyPass,
    .tick 0#32 .obliging (fun _ => 0#8) 0#8,
    .outside (.connected 0 .ok .obliging),
    .outside (.recv 0 (some [[0x20, 2, 0, 0]]) .ok .obliging),
    .tick 0#32 .obliging (fun _ => 0#8) 0#8,
    .mqttConfig [], .ioConfig [(ascii "relay", ascii "2")], .applyPass,
    .republishPass (fun _ => 0#8) 0#8]

/-- The republication runs on with the bound of one relay device. -/
theorem republication_incomplete :
    ¬Runs.EveryStep (step (fun _ => some 0x0A000001#32) ustrtoul)
      (fun s e => s.Starts (fun _ => some 0x0A000001#32) e →
        (s.step (fun _ => some 0x0A000001#32) ustrtoul e).CompletesFrom
          (fun _ => some 0x0A000001#32) ustrtoul)
      (boot oneShutterSettings) secondRelayDevice := by
  intro hall
  have hcovers : Runs.EveryStep (step (fun _ => some 0x0A000001#32) ustrtoul) BoundCovers
      (boot oneShutterSettings) secondRelayDevice :=
    hall.mono fun s e h => (completes_iff_boundCovers s e).mp h
  revert hcovers
  decide +kernel

end MqttApp

end HomeAuto
