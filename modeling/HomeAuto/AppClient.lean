import HomeAuto.MqttApp
import HomeAuto.MqttTarget

/-!
# The client under the application

Each event of the application does one of three things to the client.  `MQTTAppStart` starts it,
when a save is applied and there is a host.  A tick that finds it due, or an address, makes an
attempt (`Dials`).  Everything else is `Calm`.

So the writes that TCP has accepted only grow, and the strings of the client stay within its
buffers.
-/

namespace HomeAuto

namespace MqttConfig

/-- What the broker is told: user and password with authentication only. -/
def login (c : MqttConfig) : Login where
  clientID := c.clientID
  user := if c.useAuth then c.user else []
  pass := if c.useAuth then c.pass else []

/-- The port of the broker; 0 stands for 1883. -/
def tcpPort (c : MqttConfig) : BitVec 16 := if c.port = 0#16 then 1883#16 else c.port

/-- The parameters of a client that was started with this configuration. -/
def target (c : MqttConfig) : Target := ⟨c.host, c.tcpPort, c.login⟩

end MqttConfig

namespace MqttApp

variable {ipaddrAton : CStr → Option (BitVec 32)} {palStrToUl : StrToUl}
variable {s : MqttApp} {e : AppEvent}

/-- The event begins an attempt to connect. -/
def Dials (s : MqttApp) : AppEvent → Prop
  | .tick ms _ _ _ => s.cli.Retries ms
  | .outside (.dnsFound (some _) _) => 0 < s.cli.net.lookups
  | _ => False

/-- The event gives a configuration to `MQTTAppStart`. -/
def Applies (s : MqttApp) (e : AppEvent) : Prop := e = .applyPass ∧ s.startPending = true

theorem not_applies_of_ne {s : MqttApp} {e : AppEvent} (h : e ≠ .applyPass) : ¬s.Applies e :=
  fun happlies => h happlies.1

/-! ## Calm events -/

theorem calm_appCallTaken (ans : Answers) (c : Mqtt) (call : AppCall) :
    Mqtt.Calm c (c.appCallTaken ans call).1 := by
  cases call with
  | publish topic payload retain => exact Mqtt.calm_mqttClientPublish c topic payload retain ans
  | subscribe topic => exact Mqtt.calm_mqttClientSubscribe c topic ans

theorem calm_issueItem (ans : Answers) (s : MqttApp) (item : PubItem) :
    Mqtt.Calm s.cli (issueItem ans s item).cli :=
  calm_appCallTaken ans s.cli (s.ha.itemCall item)

theorem calm_foldl_issueItem (ans : Answers) (items : List PubItem) (s : MqttApp) :
    Mqtt.Calm s.cli (items.foldl (issueItem ans) s).cli := by
  induction items generalizing s with
  | nil => exact .refl _
  | cons item items ih => exact (calm_issueItem ans s item).trans (ih (issueItem ans s item))

theorem calm_mqttAppPubServiceTick (s : MqttApp) (ans : Answers) :
    Mqtt.Calm s.cli (s.mqttAppPubServiceTick ans).cli := by
  unfold mqttAppPubServiceTick
  split
  · exact .refl _
  split
  · exact calm_foldl_issueItem ans _ s
  · exact .refl _

theorem cli_republishPass (s : MqttApp) (chain : Nat → BitVec 8) (loc : BitVec 8) :
    (s.republishPass chain loc).cli = s.cli := by
  unfold republishPass mqttAppRepublish
  split
  · rfl
  split
  · rfl
  · rfl

theorem cli_connectEdge (s : MqttApp) (chain : Nat → BitVec 8) (loc : BitVec 8) :
    (s.connectEdge chain loc).cli = s.cli := by
  unfold connectEdge
  split
  · rfl
  · rfl

/-- What comes from outside and is no address is calm. -/
theorem calm_outside (c : Mqtt) (ev : MqttEvent) (hout : ev.isOutside = true)
    (hdns : ∀ ip ans, ev = .dnsFound (some ip) ans → ¬0 < c.net.lookups) :
    Mqtt.Calm c (c.step ipaddrAton ev) := by
  unfold Mqtt.step
  split
  · rename_i hcan
    cases ev with
    | publish topic payload retain ans =>
        exact Mqtt.calm_mqttClientPublish c topic payload retain ans
    | dnsFound ip ans =>
        cases ip with
        | none => exact Mqtt.calm_backOff c
        | some ip => exact absurd hcan (hdns ip ans rfl)
    | connected p eErr ans =>
        have hlive : (c.net.pcb p).live = true := by
          have hp : c.net.pcb p = .connecting := hcan
          rw [hp]
          rfl
        exact (Mqtt.calm_movePcb fun _ => hlive).trans (Mqtt.calm_mqttConnectedCB _ eErr ans)
    | recv p buf eErr ans => exact Mqtt.calm_mqttRecvCB c p buf eErr ans
    | err p =>
        have hmove : Mqtt.Calm c (c.movePcb p .free) := Mqtt.calm_movePcb nofun
        exact hmove.trans (Mqtt.calm_mqttErrCB _)
    | setWill topic msg retain => cases hout
    | start host port clientID user pass => cases hout
    | stop => cases hout
    | subscribe topic ans => cases hout
    | tick ms ans => cases hout
  · exact .refl c

/-- **An event that neither dials nor applies is calm.** -/
theorem calm_step (ipaddrAton : CStr → Option (BitVec 32)) (palStrToUl : StrToUl)
    (hdials : ¬s.Dials e) (happlies : ¬s.Applies e) :
    Mqtt.Calm s.cli (s.step ipaddrAton palStrToUl e).cli := by
  cases e with
  | mqttConfig params => exact .refl _
  | ioConfig params => exact .refl _
  | outputConfig cfg names =>
      simp only [step]
      exact .refl _
  | requestApply => exact .refl _
  | applyPass =>
      have hflag : s.startPending = false :=
        Bool.eq_false_iff.mpr fun hset => happlies ⟨rfl, hset⟩
      simp only [step, applyPass, hflag, if_true]
      exact .refl _
  | republishPass chain loc =>
      simp only [step, cli_republishPass]
      exact .refl _
  | product ev => exact .refl _
  | pubService ans => exact calm_mqttAppPubServiceTick s ans
  | tick ms ans chain loc =>
      simp only [step, mqttAppTick, cli_connectEdge]
      exact Mqtt.calm_mqttClientTick hdials ipaddrAton ans
  | stop => exact Mqtt.calm_mqttClientStop s.cli
  | outside ev =>
      simp only [step]
      split
      · rename_i hout
        refine calm_outside s.cli ev hout ?_
        intro ip ans heq
        subst heq
        exact hdials
      · exact .refl _

/-! ## Attempts -/

/-- A tick that finds the client due. -/
theorem attempts_tick (ipaddrAton : CStr → Option (BitVec 32)) (palStrToUl : StrToUl)
    {ms : BitVec 32} (h : s.cli.Retries ms) (ans : Answers) (chain : Nat → BitVec 8)
    (loc : BitVec 8) :
    Mqtt.Attempts s.cli (s.step ipaddrAton palStrToUl (.tick ms ans chain loc)).cli
      (s.cli.attemptCalls ipaddrAton ans) := by
  simp only [step, mqttAppTick, cli_connectEdge]
  exact Mqtt.attempts_mqttClientTick h ipaddrAton ans

/-- An address, while lookups have been begun. -/
theorem cli_dnsFound (ipaddrAton : CStr → Option (BitVec 32)) (palStrToUl : StrToUl)
    (h : 0 < s.cli.net.lookups) (ip : BitVec 32) (ans : Answers) :
    (s.step ipaddrAton palStrToUl (.outside (.dnsFound (some ip) ans))).cli =
      s.cli.mqttDNSFoundCB (some ip) ans := by
  have hcan : s.cli.net.CanDeliver (.dnsFound (some ip) ans) := h
  change s.cli.step ipaddrAton (.dnsFound (some ip) ans) = _
  rw [Mqtt.step, if_pos hcan]
  rfl

theorem attempts_dnsFound (ipaddrAton : CStr → Option (BitVec 32)) (palStrToUl : StrToUl)
    (h : 0 < s.cli.net.lookups) (ip : BitVec 32) (ans : Answers) :
    Mqtt.Attempts s.cli (s.step ipaddrAton palStrToUl (.outside (.dnsFound (some ip) ans))).cli
      (s.cli.dialCalls ip ans) := by
  rw [cli_dnsFound ipaddrAton palStrToUl h]
  exact Mqtt.attempts_mqttDNSFoundCB s.cli ip ans

/-! ## Applying -/

/-- The pass of the main loop without a broker leaves the client as it is. -/
theorem cli_applyPass_none (hhost : s.ha.cfg.host = []) : s.applyPass.cli = s.cli := by
  unfold applyPass
  split
  · rfl
  · rw [mqttAppStart, if_pos (by simp [configHasBroker, hhost])]

/-- With a broker it starts the client with the configuration. -/
theorem cli_applyPass_some (hflag : s.startPending = true) (hhost : s.ha.cfg.host ≠ []) :
    ∃ topic, s.applyPass.cli =
      (s.cli.mqttClientSetWill (some topic) (ascii "offline") 1).mqttClientStart
        (some s.ha.cfg.host) s.ha.cfg.port (some s.ha.cfg.login.clientID)
        (some s.ha.cfg.login.user) (some s.ha.cfg.login.pass) := by
  rw [applyPass, if_neg (by rw [hflag]; decide), mqttAppStart,
    if_neg (by simp [configHasBroker, hhost])]
  exact ⟨_, rfl⟩

/-- Nothing is asked of lwIP beyond freeing a pcb. -/
theorem net_applyPass (s : MqttApp) :
    s.applyPass.cli.net.calls = s.cli.net.calls ∧
      s.applyPass.cli.net.created = s.cli.net.created ∧
      s.applyPass.cli.net.lookups = s.cli.net.lookups ∧
      s.applyPass.cli.net.writes = s.cli.net.writes := by
  by_cases happlies : s.startPending = true ∧ s.ha.cfg.host ≠ []
  · obtain ⟨topic, hcli⟩ := cli_applyPass_some happlies.1 happlies.2
    have hdetach := Mqtt.calm_detachPcb
      (s.cli.mqttClientSetWill (some topic) (ascii "offline") 1)
    rw [hcli]
    refine ⟨hdetach.calls, hdetach.created, hdetach.lookups, ?_⟩
    exact Mqtt.writes_detachPcb _
  · have hcli : s.applyPass.cli = s.cli := by
      by_cases hflag : s.startPending = true
      · exact cli_applyPass_none (not_not.mp fun hhost => happlies ⟨hflag, hhost⟩)
      · rw [applyPass, if_pos (Bool.eq_false_iff.mpr hflag)]
    rw [hcli]
    exact ⟨rfl, rfl, rfl, rfl⟩

/-- It frees the pcb that the client holds, and no other. -/
theorem live_applyPass (hflag : s.startPending = true) (hhost : s.ha.cfg.host ≠ []) (p : Nat) :
    (s.applyPass.cli.net.pcb p).live = true ↔
      (s.cli.net.pcb p).live = true ∧ s.cli.cli.psPcb ≠ some p := by
  obtain ⟨topic, hcli⟩ := cli_applyPass_some hflag hhost
  rw [hcli, Mqtt.pcb_mqttClientStart]
  change (PcbState.live (if s.cli.cli.psPcb = some p then _ else _)) = true ↔ _
  by_cases hheld : s.cli.cli.psPcb = some p
  · rw [if_pos hheld]
    exact iff_of_false nofun fun h => h.2 hheld
  · rw [if_neg hheld]
    exact (and_iff_left hheld).symm

theorem clientStored_applyPass (h : s.cli.cli.Stored) : s.applyPass.cli.cli.Stored := by
  by_cases happlies : s.startPending = true ∧ s.ha.cfg.host ≠ []
  · obtain ⟨topic, hcli⟩ := cli_applyPass_some happlies.1 happlies.2
    rw [hcli]
    exact Mqtt.stored_mqttClientStart _ _ _ _ _ _ (Mqtt.stored_mqttClientSetWill _ _ _ h)
  · have hcli : s.applyPass.cli = s.cli := by
      by_cases hflag : s.startPending = true
      · exact cli_applyPass_none (not_not.mp fun hhost => happlies ⟨hflag, hhost⟩)
      · rw [applyPass, if_pos (Bool.eq_false_iff.mpr hflag)]
    rw [hcli]
    exact h

/-! ## Every event -/

/-- What an event is to the client: calm, an application, or an attempt. -/
theorem cli_step_elim {P : Mqtt → Prop} (ipaddrAton : CStr → Option (BitVec 32))
    (palStrToUl : StrToUl) (s : MqttApp) (e : AppEvent)
    (calm : ∀ c, Mqtt.Calm s.cli c → P c) (applied : P s.applyPass.cli)
    (attempted : ∀ c made, Mqtt.Attempts s.cli c made → P c) :
    P (s.step ipaddrAton palStrToUl e).cli := by
  by_cases happlies : s.Applies e
  · rw [happlies.1]
    exact applied
  by_cases hdials : s.Dials e
  · cases e with
    | tick ms ans chain loc =>
        exact attempted _ _ (attempts_tick ipaddrAton palStrToUl hdials ans chain loc)
    | outside ev =>
        cases ev with
        | dnsFound ip ans =>
            cases ip with
            | none => exact hdials.elim
            | some ip =>
                exact attempted _ _ (attempts_dnsFound ipaddrAton palStrToUl hdials ip ans)
        | _ => exact hdials.elim
    | _ => exact hdials.elim
  · exact calm _ (calm_step ipaddrAton palStrToUl hdials happlies)

/-- **The writes only grow.** -/
theorem writes_step (ipaddrAton : CStr → Option (BitVec 32)) (palStrToUl : StrToUl)
    (s : MqttApp) (e : AppEvent) :
    s.cli.net.writes <+: (s.step ipaddrAton palStrToUl e).cli.net.writes := by
  apply cli_step_elim (P := fun c => s.cli.net.writes <+: c.net.writes)
  · intro c hcalm
    obtain ⟨ws, hws, _⟩ := hcalm.writes
    exact ⟨ws, hws.symm⟩
  · rw [(net_applyPass s).2.2.2]
  · intro c made hatt
    rw [hatt.writes]

end MqttApp

end HomeAuto
