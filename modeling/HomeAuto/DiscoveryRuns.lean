import HomeAuto.ConfigWatch
import HomeAuto.DiscoveryJson
import HomeAuto.HubCommands
import HomeAuto.ShutterSave

/-!
# The discovery messages of a running device

The base topic changes with `MQTTAppBuildTopics` only, the client id with the settings page and
the shutter names with the output-configuration page, and each of them cuts its strings to
their buffers.  So in every run the strings are stored (`stored_run`), and every discovery
message is whole and announces its strings exactly if they are plain (`discovery_iff_plain`).
-/

namespace HomeAuto

/-! ## The names of the output-configuration page -/

/-- `ConfigShutterName`. -/
def OutputRecord.configShutterName (r : OutputRecord) (iSlot : Nat) : CStr :=
  if h : iSlot < cfgMaxShutters then fieldString (r.shName ⟨iSlot, h⟩) else []

/-- The name that the page stores is cut to its field. -/
theorem length_fieldString_nameField (name : List UInt8) :
    (fieldString (nameField name)).length < cfgNameLen := by
  rw [fieldString_nameField]
  exact (List.length_take_le _ _).trans_lt (by decide)

/-- Every name field is written by `ConfigShutterNameSet` or cleared. -/
theorem exists_nameField_outCfgCGIHandler (s : OutPanel) (params : CgiParams)
    (i : Fin cfgMaxShutters) :
    ∃ name, (s.outCfgCGIHandler params).out.shName i = nameField name := by
  have hcount : s.hub.chain.relayChainCount ≤ cfgMaxOutputs :=
    s.hub.chain.relayChainCount_le.trans (by decide)
  have hslot := s.out.outCfgEdit_slot hcount params i
  change ∃ name, (s.out.outCfgEdit s.hub.chain.relayChainCount params).stamped.shName i = _
  rw [(OutputRecord.frame_stamped _).2.2]
  cases hn : (submitted s.hub.chain.relayChainCount params)[i.val]? with
  | none =>
      rw [hn] at hslot
      exact ⟨[], hslot.2.2⟩
  | some e =>
      rw [hn] at hslot
      exact ⟨e.name, congrArg (·.2.2.2) hslot⟩

theorem length_configShutterName_lt (s : OutPanel) (params : CgiParams) (iSlot : Nat) :
    ((s.outCfgCGIHandler params).out.configShutterName iSlot).length < cfgNameLen := by
  unfold OutputRecord.configShutterName
  split
  · rename_i hslot
    obtain ⟨name, hname⟩ := exists_nameField_outCfgCGIHandler s params ⟨iSlot, hslot⟩
    rw [hname]
    exact length_fieldString_nameField name
  · decide

/-- A record and names come to the application from the page, as it has stored them. -/
def AppEvent.FromCgi : AppEvent → Prop
  | .outputConfig cfg names =>
      ∃ (s : OutPanel) (params : CgiParams),
        cfg = (s.outCfgCGIHandler params).out.outCfg ∧
          names = (s.outCfgCGIHandler params).out.configShutterName
  | _ => True

/-! ## The strings stay stored -/

namespace HaMqtt

/-- What `Stored` is about. -/
theorem Stored.congr {a a' : HaMqtt} (h : a.Stored)
    (hbase : a'.hub.baseTopic = a.hub.baseTopic) (hcfg : a'.cfg = a.cfg)
    (hname : a'.shName = a.shName) (hdev : a'.devId = a.devId) : a'.Stored where
  base := hbase ▸ h.base
  topic := hcfg ▸ h.topic
  client := hcfg ▸ h.client
  name := hname ▸ h.name
  device := hdev ▸ h.device

theorem Stored.mqttAppBuildTopics {a : HaMqtt} (h : a.Stored) :
    (a.mqttAppBuildTopics a.cfg.topicBase).Stored where
  base := (List.length_take_le _ _).trans_lt (by decide)
  topic := h.topic
  client := h.client
  name := h.name
  device := h.device

end HaMqtt

namespace MqttApp

variable {ipaddrAton : CStr → Option (BitVec 32)} {palStrToUl : StrToUl} {s : MqttApp}

theorem stored_mqttAppStart (h : s.ha.Stored) : s.mqttAppStart.ha.Stored := by
  unfold mqttAppStart
  split
  · exact h
  · exact h.mqttAppBuildTopics

theorem stored_applyPass (h : s.ha.Stored) : s.applyPass.ha.Stored := by
  unfold applyPass
  split
  · exact h
  · have hbase : s.ha.hub.applyPending.baseTopic = s.ha.hub.baseTopic :=
      s.ha.hub.baseTopic_applyPending
    exact stored_mqttAppStart ⟨(congrArg List.length hbase).trans_lt h.base, h.topic, h.client,
      h.name, h.device⟩

theorem stored_mqttAppPubServiceTick (h : s.ha.Stored) (ans : Answers) :
    (s.mqttAppPubServiceTick ans).ha.Stored := by
  unfold mqttAppPubServiceTick
  split
  · exact h.congr rfl rfl rfl rfl
  · split
    · obtain ⟨hha, -⟩ := foldl_issueItem ans (s.ha.mqttAppPostConnect s.ha.pubStep) s
      have hissued : (s.issueStep s.ha.pubStep ans).ha.Stored := hha.symm ▸ h
      exact hissued.congr rfl rfl rfl rfl
    · exact h

/-- One event. -/
theorem stored_step (h : s.ha.Stored) {e : AppEvent} (he : e.FromCgi) :
    (s.step ipaddrAton palStrToUl e).ha.Stored := by
  cases e with
  | mqttConfig params =>
      exact ⟨h.base, MqttConfig.length_getStringParam _ _ (by decide) h.topic,
        MqttConfig.length_getStringParam _ _ (by decide) h.client, h.name, h.device⟩
  | ioConfig params => exact h.congr rfl rfl rfl rfl
  | outputConfig cfg names =>
      obtain ⟨panel, params, -, rfl⟩ := he
      have hbase : (Hub.outputCtrlReload { s.ha.hub with outCfg := cfg }).baseTopic =
          s.ha.hub.baseTopic := Hub.baseTopic_outputCtrlReload _
      simp only [step]
      exact ⟨hbase.symm ▸ h.base, h.topic, h.client, length_configShutterName_lt panel params,
        h.device⟩
  | requestApply => exact h
  | applyPass => exact stored_applyPass h
  | republishPass chain loc =>
      simp only [step, republishPass, mqttAppRepublish]
      split
      · exact h
      · split
        · exact h
        · exact h.congr rfl rfl rfl rfl
  | product ev => exact h.congr (Hub.baseTopic_step palStrToUl _ ev) rfl rfl rfl
  | pubService ans => exact stored_mqttAppPubServiceTick h ans
  | tick ms ans chain loc =>
      simp only [step, mqttAppTick, connectEdge]
      split
      · exact h.congr rfl rfl rfl rfl
      · exact h
  | stop => exact h
  | outside ev =>
      simp only [step]
      split
      · exact h
      · exact h

/-- A whole run. -/
theorem stored_run (h : s.ha.Stored) {es : List AppEvent} (hes : ∀ e ∈ es, e.FromCgi) :
    (Runs.final (step ipaddrAton palStrToUl) s es).ha.Stored := by
  induction es generalizing s with
  | nil => exact h
  | cons e es ih =>
      obtain ⟨he, hes⟩ := List.forall_mem_cons.mp hes
      exact ih (stored_step h he) hes

/-! ## The base topic in use -/

/-- With a broker, and no change that waits to be applied, the base topic in use is the
configured one. -/
def BaseApplied (s : MqttApp) : Prop :=
  s.startPending = false → s.ha.cfg.host ≠ [] → s.ha.hub.baseTopic = s.ha.cfg.topicBase

theorem BaseApplied.congr {s' : MqttApp} (h : s.BaseApplied)
    (hpending : s'.startPending = s.startPending)
    (hbase : s'.ha.hub.baseTopic = s.ha.hub.baseTopic) (hcfg : s'.ha.cfg = s.ha.cfg) :
    s'.BaseApplied := by
  unfold BaseApplied
  rw [hpending, hbase, hcfg]
  exact h

/-- `MQTTAppStart` takes the configured base topic, if there is a broker. -/
theorem baseTopic_mqttAppStart (htopic : s.ha.cfg.topicBase.length < cfgTopicLen)
    (hhost : s.ha.cfg.host ≠ []) : s.mqttAppStart.ha.hub.baseTopic = s.ha.cfg.topicBase := by
  have hbroker : ¬s.configHasBroker = false := by simpa [configHasBroker] using hhost
  rw [mqttAppStart, if_neg hbroker]
  exact List.take_of_length_le (Nat.le_sub_one_of_lt htopic)

theorem baseApplied_applyPass (h : s.BaseApplied) (hs : s.ha.Stored) :
    s.applyPass.BaseApplied := by
  unfold applyPass
  split
  · exact h
  · intro _ hhost
    rw [Followed.cfg_mqttAppStart] at hhost ⊢
    exact baseTopic_mqttAppStart hs.topic hhost

theorem startPending_foldl_issueItem (ans : Answers) (items : List PubItem) (s : MqttApp) :
    (items.foldl (issueItem ans) s).startPending = s.startPending := by
  induction items generalizing s with
  | nil => rfl
  | cons item items ih => exact ih (issueItem ans s item)

theorem baseApplied_step (h : s.BaseApplied) (hs : s.ha.Stored) (e : AppEvent) :
    (s.step ipaddrAton palStrToUl e).BaseApplied := by
  cases e with
  | mqttConfig params => exact fun hpending => absurd hpending.symm Bool.false_ne_true
  | ioConfig params => exact fun hpending => absurd hpending.symm Bool.false_ne_true
  | outputConfig cfg names =>
      have hbase : (Hub.outputCtrlReload { s.ha.hub with outCfg := cfg }).baseTopic =
          s.ha.hub.baseTopic := Hub.baseTopic_outputCtrlReload _
      unfold BaseApplied
      simp only [step]
      rw [hbase]
      exact h
  | requestApply => exact fun hpending => absurd hpending.symm Bool.false_ne_true
  | applyPass => exact baseApplied_applyPass h hs
  | republishPass chain loc =>
      simp only [step, republishPass, mqttAppRepublish]
      split
      · exact h
      · split
        · exact h.congr rfl rfl rfl
        · exact h.congr rfl rfl rfl
  | product ev => exact h.congr rfl (Hub.baseTopic_step palStrToUl _ ev) rfl
  | pubService ans =>
      simp only [step, mqttAppPubServiceTick]
      split
      · exact h.congr rfl rfl rfl
      · split
        · obtain ⟨hha, -⟩ := foldl_issueItem ans (s.ha.mqttAppPostConnect s.ha.pubStep) s
          have hissued : (s.issueStep s.ha.pubStep ans).BaseApplied :=
            h.congr (startPending_foldl_issueItem ans _ s) (congrArg (·.hub.baseTopic) hha)
              (congrArg (·.cfg) hha)
          exact hissued.congr rfl rfl rfl
        · exact h
  | tick ms ans chain loc =>
      simp only [step, mqttAppTick, connectEdge]
      split
      · exact h.congr rfl rfl rfl
      · exact h.congr rfl rfl rfl
  | stop => exact h.congr rfl rfl rfl
  | outside ev =>
      simp only [step]
      split
      · exact h.congr rfl rfl rfl
      · exact h

theorem baseApplied_run (h : s.BaseApplied) (hs : s.ha.Stored) {es : List AppEvent}
    (hes : ∀ e ∈ es, e.FromCgi) : (Runs.final (step ipaddrAton palStrToUl) s es).BaseApplied := by
  induction es generalizing s with
  | nil => exact h
  | cons e es ih =>
      obtain ⟨he, hes⟩ := List.forall_mem_cons.mp hes
      exact ih (baseApplied_step h hs e) (stored_step hs he) hes

/-- **The discovery messages of a running device.**  After the start and any events, a payload
that is not empty is whole, and it announces the strings exactly if all three are plain.  The
base topic in use is the configured one, once it has been applied. -/
theorem discovery_iff_plain {ha : HaMqtt} (hha : ha.Stored) {es : List AppEvent}
    (hes : ∀ e ∈ es, e.FromCgi)
    (hs : s = Runs.final (step ipaddrAton palStrToUl) (boot ha) (.requestApply :: es))
    {item : PubItem} {name : CStr} (hname : s.ha.announcedName item = some name)
    (hpayload : (s.ha.itemCall item).payload ≠ []) :
    (s.ha.itemCall item).payload = s.ha.wholePayload item ∧ s.BaseApplied ∧
      (Announces (s.ha.itemCall item).payload s.ha.hub.baseTopic name s.ha.cfg.clientID ↔
        PlainText s.ha.hub.baseTopic ∧ PlainText name ∧ PlainText s.ha.cfg.clientID) := by
  have hstart : (boot ha).ha.Stored := hha
  have hstored : s.ha.Stored := by
    rw [hs]
    exact stored_run hstart (List.forall_mem_cons.mpr ⟨trivial, hes⟩)
  have hwhole := hstored.whole hname hpayload
  refine ⟨hwhole, ?_, ?_⟩
  · have hfirst : ((boot ha).step ipaddrAton palStrToUl .requestApply).BaseApplied :=
      fun hpending => absurd hpending.symm Bool.false_ne_true
    rw [hs]
    exact baseApplied_run hfirst hstart hes
  · rw [hwhole]
    exact hstored.announces_whole_iff hname

/-! ## A quotation mark in the base topic -/

/-- The settings of a hub with one relay device, at start-up. -/
def startSettings : HaMqtt := { oneShutterSettings with devId := mqttAppDevId fun _ => 0 }

theorem stored_startSettings : startSettings.Stored where
  base := by decide
  topic := by decide
  client := by decide
  name _ := by
    change 0 < cfgNameLen
    decide
  device := ⟨fun _ => 0, rfl⟩

/-- The settings page is given a base topic, which is applied. -/
def setTopic (topic : CStr) : List AppEvent :=
  [.mqttConfig [(ascii "host", ascii "10.0.0.1"), (ascii "topic", topic)], .applyPass]

theorem fromCgi_setTopic (topic : CStr) : ∀ e ∈ setTopic topic, e.FromCgi := by
  simp [setTopic, AppEvent.FromCgi]

/-- The message of a relay that is no member of a shutter has a payload. -/
theorem relayPayload_ne_nil {a : HaMqtt} {relay : Nat}
    (h : a.hub.outCfg.outputCtrlIsShutterMember relay = false) :
    (a.itemCall (.relayDiscovery relay)).payload ≠ [] := by
  obtain ⟨payload, hcall, hannounced⟩ := a.says_itemCall (.relayDiscovery relay)
  rw [hcall]
  exact hannounced.mpr h

/-- The hub after it has been given a base topic. -/
def hubWithTopic (topic : CStr) : MqttApp :=
  Runs.final (step (fun _ => none) ustrtoul) (boot startSettings)
    (.requestApply :: setTopic topic)

theorem stored_hubWithTopic (topic : CStr) : (hubWithTopic topic).ha.Stored := by
  have hstart : (boot startSettings).ha.Stored := stored_startSettings
  exact stored_run hstart (List.forall_mem_cons.mpr ⟨trivial, fromCgi_setTopic topic⟩)

/-- A base topic with a quotation mark breaks the message of a relay. -/
theorem quote_breaks_message :
    (hubWithTopic (ascii "a%22b")).ha.announcedName (.relayDiscovery 5) = some (ascii "Out06") ∧
      ((hubWithTopic (ascii "a%22b")).ha.itemCall (.relayDiscovery 5)).payload ≠ [] ∧
      (hubWithTopic (ascii "a%22b")).ha.hub.baseTopic = ascii "a\"b" ∧
      ¬Announces ((hubWithTopic (ascii "a%22b")).ha.itemCall (.relayDiscovery 5)).payload
        (hubWithTopic (ascii "a%22b")).ha.hub.baseTopic (ascii "Out06")
        (hubWithTopic (ascii "a%22b")).ha.cfg.clientID := by
  have hname : (hubWithTopic (ascii "a%22b")).ha.announcedName (.relayDiscovery 5) =
      some (ascii "Out06") := by decide +kernel
  have hmember : (hubWithTopic (ascii "a%22b")).ha.hub.outCfg.outputCtrlIsShutterMember 5 =
      false := by decide +kernel
  have hbase : (hubWithTopic (ascii "a%22b")).ha.hub.baseTopic = ascii "a\"b" := by decide +kernel
  have hpayload := relayPayload_ne_nil hmember
  have hstored := stored_hubWithTopic (ascii "a%22b")
  refine ⟨hname, hpayload, hbase, ?_⟩
  rw [hstored.whole hname hpayload, hstored.announces_whole_iff hname, hbase]
  rintro ⟨⟨t, ht, hplain⟩, -⟩
  have hquote : utf8 "a\"b".toList = ascii "a\"b" := by decide
  have hquoted : t = "a\"b".toList := utf8_injective (ht.trans hquote.symm)
  rw [hquoted] at hplain
  revert hplain
  decide

/-- A plain base topic. -/
theorem discovery_iff_plain_home :
    (hubWithTopic (ascii "home")).ha.announcedName (.relayDiscovery 5) = some (ascii "Out06") ∧
      Announces ((hubWithTopic (ascii "home")).ha.itemCall (.relayDiscovery 5)).payload
        (hubWithTopic (ascii "home")).ha.hub.baseTopic (ascii "Out06")
        (hubWithTopic (ascii "home")).ha.cfg.clientID := by
  have hname : (hubWithTopic (ascii "home")).ha.announcedName (.relayDiscovery 5) =
      some (ascii "Out06") := by decide +kernel
  have hmember : (hubWithTopic (ascii "home")).ha.hub.outCfg.outputCtrlIsShutterMember 5 =
      false := by decide +kernel
  have hbase : (hubWithTopic (ascii "home")).ha.hub.baseTopic = utf8 "home".toList := by
    decide +kernel
  have hclient : (hubWithTopic (ascii "home")).ha.cfg.clientID = utf8 "hub".toList := by
    decide +kernel
  have hout : utf8 "Out06".toList = ascii "Out06" := by decide
  have hrun : hubWithTopic (ascii "home") = Runs.final (step (fun _ => none) ustrtoul)
      (boot startSettings) (.requestApply :: setTopic (ascii "home")) := rfl
  obtain ⟨-, -, hiff⟩ := discovery_iff_plain stored_startSettings
    (fromCgi_setTopic (ascii "home")) hrun hname (relayPayload_ne_nil hmember)
  refine ⟨hname, hiff.mpr ⟨⟨_, hbase.symm, ?_⟩, ⟨_, hout, ?_⟩, ⟨_, hclient.symm, ?_⟩⟩⟩
  · decide
  · decide
  · decide

end MqttApp

end HomeAuto
