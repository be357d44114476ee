import HomeAuto.Lib.Runs
import HomeAuto.MqttLink

/-!
# Stop is not quite final

`MQTTClientStop` aborts the pcb it holds and clears `bEnabled`, and only the tick reads
`bEnabled`.  A lookup cannot be cancelled, so its answer still comes, and
`MQTTDNSFoundCB` opens a connection whatever the client's state; a pcb that had been lost
before the stop still delivers its connection and its data.

`stopped_iff_keepsStopped` says which callbacks break the silence, over every run up to
the next start.
-/

namespace HomeAuto

/-- A call of `MQTTClientStart`. -/
def MqttEvent.isStart : MqttEvent → Bool
  | .start _ _ _ _ _ => true
  | _ => false

namespace Mqtt

variable (ipaddrAton : CStr → Option (BitVec 32))

/-- Nothing has come of the time since state `s`: no pcb created, no byte written, and
the client idle. -/
structure Stopped (s t : Mqtt) : Prop where
  created : t.net.created = s.net.created
  writes : t.net.writes = s.net.writes
  idle : t.cli.eState = .idle

/-- The client holds no pcb and is not to reconnect. -/
structure Disabled (t : Mqtt) : Prop where
  psPcb : t.cli.psPcb = none
  enabled : t.cli.bEnabled = false

/-- A callback that leaves a stopped client alone: no address while `tcp_new` has a pcb
to give, no connection of a pcb, and no delivery whose last CONNACK accepts. -/
def KeepsStopped (t : Mqtt) (e : MqttEvent) : Prop :=
  t.net.CanDeliver e →
    match e with
    | .dnsFound (some _) ans => ans.tcpNew = false
    | .connected _ eErr _ => eErr ≠ .ok
    | .recv _ (some segs) .ok _ => (connackVerdicts t.cli.rx segs).getLast? ≠ some true
    | _ => True

/-! ## Steady steps -/

theorem steady_movePcb (t : Mqtt) (p : Nat) (st : PcbState) : Steady t (t.movePcb p st) :=
  ⟨rfl, .inl rfl, rfl, fun h => ⟨h, rfl⟩⟩

theorem steady_mqttErrCB (t : Mqtt) : Steady t t.mqttErrCB :=
  ⟨rfl, .inl rfl, rfl, fun _ => ⟨rfl, rfl⟩⟩

theorem steady_detachPcb (t : Mqtt) (h : t.cli.psPcb = none) : t.detachPcb = t := by
  simp [detachPcb, h]

theorem Disabled.steady {t t' : Mqtt} (h : t.Disabled) (hst : Steady t t') : t'.Disabled :=
  ⟨(hst.silent h.psPcb).1, hst.enabled.trans h.enabled⟩

/-- After a steady step only the state can tell. -/
theorem Stopped.steady_iff {s t t' : Mqtt} (h : Stopped s t) (hd : t.Disabled)
    (hst : Steady t t') : Stopped s t' ↔ t'.cli.eState = .idle :=
  ⟨fun h' => h'.idle, fun hidle =>
    ⟨hst.created.trans h.created, ((hst.silent hd.psPcb).2).trans h.writes, hidle⟩⟩

/-- A disabled, idle client does nothing in a tick. -/
theorem tick_of_disabled {t : Mqtt} (hd : t.Disabled) (hidle : t.cli.eState = .idle)
    (ms : BitVec 32) (ans : Answers) : t.mqttClientTick ipaddrAton ms ans = t := by
  simp [mqttClientTick, hidle, hd.enabled]

/-- Every event but a start and a DNS answer with an address is steady. -/
theorem steady_perform {t : Mqtt} (hd : t.Disabled) (hidle : t.cli.eState = .idle)
    (e : MqttEvent) (hstart : e.isStart = false) (hdns : ∀ ip ans, e ≠ .dnsFound (some ip) ans) :
    Steady t (t.perform ipaddrAton e) := by
  cases e with
  | setWill topic msg retain => exact ⟨rfl, .inl rfl, rfl, fun h => ⟨h, rfl⟩⟩
  | start host port clientID user pass => cases hstart
  | stop =>
      have hdet := steady_detachPcb { t with cli := { t.cli with bEnabled := false } } hd.psPcb
      rw [perform, mqttClientStop, hdet]
      exact ⟨hd.enabled.symm, .inl rfl, rfl, fun h => ⟨h, rfl⟩⟩
  | publish topic payload retain ans =>
      exact (sendsOnly_mqttClientPublish t topic payload retain ans).toSteady
  | subscribe topic ans => exact (sendsOnly_mqttClientSubscribe t topic ans).toSteady
  | tick ms ans =>
      rw [perform, tick_of_disabled ipaddrAton hd hidle]
      exact .refl t
  | dnsFound ip ans =>
      cases ip with
      | none => exact steady_backOff t
      | some ip => exact absurd rfl (hdns ip ans)
  | connected p eErr ans =>
      exact (steady_movePcb t p .established).trans (steady_mqttConnectedCB _ eErr ans)
  | recv p buf eErr ans => exact steady_mqttRecvCB t p buf eErr ans
  | err p => exact (steady_movePcb t p .free).trans (steady_mqttErrCB _)

/-- The state after a callback on an idle client without a pcb. -/
theorem eState_recvData {t : Mqtt} (hidle : t.cli.eState = .idle) (segs : List (List UInt8))
    (ans : Answers) : (t.recvData segs ans).cli.eState = .idle ↔
      (connackVerdicts t.cli.rx segs).getLast? ≠ some true := by
  have hlink := congrArg Link.eState (link_recvData t segs ans)
  rw [link_eState, Link.become_eState, hidle] at hlink
  rw [hlink, Link.believed]
  cases (connackVerdicts t.cli.rx segs).getLast? with
  | none => simp
  | some v => cases v <;> simp

theorem eState_recvClosed {t : Mqtt} (hidle : t.cli.eState = .idle) (p : Nat) :
    (t.recvClosed p).cli.eState = .idle := by
  unfold recvClosed
  split
  · rfl
  · exact hidle

theorem eState_mqttConnectedCB {t : Mqtt} (hidle : t.cli.eState = .idle) (p : Nat)
    (eErr : LwipErr) (ans : Answers) :
    ((t.movePcb p .established).mqttConnectedCB eErr ans).1.cli.eState = .idle ↔ eErr ≠ .ok := by
  have hlink := congrArg Link.eState (link_mqttConnectedCB (t.movePcb p .established) eErr ans)
  rw [link_eState] at hlink
  rw [hlink]
  by_cases h : eErr = .ok
  · simp [h]
  · rw [if_neg h]
    exact iff_of_true hidle h

/-! ## One event -/

/-- An address arrives at a stopped client. -/
theorem stopped_mqttDNSFoundCB_iff {s t : Mqtt} (h : Stopped s t) (ip : BitVec 32)
    (ans : Answers) : Stopped s (t.mqttDNSFoundCB (some ip) ans) ↔ ans.tcpNew = false := by
  have hcreated := congrArg Link.created (link_mqttDNSFoundCB t (some ip) ans)
  cases hnew : ans.tcpNew with
  | false =>
      simp only [mqttDNSFoundCB, hnew, iff_true]
      exact ⟨h.created, h.writes, rfl⟩
  | true =>
      refine iff_of_false (fun hst => ?_) (by simp)
      have hsame := hst.created.trans h.created.symm
      rw [link_created, hsame] at hcreated
      cases hconn : ans.tcpConnect <;> simp [hnew, hconn, Link.opened] at hcreated

/-- **One event on a stopped client, exactly.** -/
theorem stopped_step_iff {s t : Mqtt} (h : Stopped s t) (hd : t.Disabled) (e : MqttEvent)
    (hstart : e.isStart = false) : Stopped s (t.step ipaddrAton e) ↔ t.KeepsStopped e := by
  unfold step KeepsStopped
  by_cases hcan : t.net.CanDeliver e
  · rw [if_pos hcan]
    simp only [hcan, true_implies]
    cases e with
    | dnsFound ip ans =>
        cases ip with
        | some ip => exact stopped_mqttDNSFoundCB_iff h ip ans
        | none => exact iff_of_true ⟨h.created, h.writes, rfl⟩ trivial
    | connected p eErr ans =>
        rw [h.steady_iff hd (steady_perform ipaddrAton hd h.idle _ hstart nofun)]
        exact eState_mqttConnectedCB h.idle p eErr ans
    | recv p buf eErr ans =>
        rw [h.steady_iff hd (steady_perform ipaddrAton hd h.idle _ hstart nofun)]
        simp only [perform, mqttRecvCB]
        cases buf with
        | none => exact iff_of_true (eState_recvClosed h.idle p) trivial
        | some segs =>
            cases eErr with
            | ok => simpa using eState_recvData h.idle segs ans
            | abrt => exact iff_of_true (eState_recvClosed h.idle p) trivial
            | other => exact iff_of_true (eState_recvClosed h.idle p) trivial
    | start host port clientID user pass => cases hstart
    | setWill topic msg retain => exact iff_of_true ⟨h.created, h.writes, h.idle⟩ trivial
    | stop =>
        rw [h.steady_iff hd (steady_perform ipaddrAton hd h.idle _ hstart nofun)]
        exact iff_of_true rfl trivial
    | publish topic payload retain ans =>
        have hsend := sendsOnly_mqttClientPublish t topic payload retain ans
        rw [h.steady_iff hd (steady_perform ipaddrAton hd h.idle _ hstart nofun)]
        exact iff_of_true ((congrArg Link.eState hsend.link).trans h.idle) trivial
    | subscribe topic ans =>
        have hsend := sendsOnly_mqttClientSubscribe t topic ans
        rw [h.steady_iff hd (steady_perform ipaddrAton hd h.idle _ hstart nofun)]
        exact iff_of_true ((congrArg Link.eState hsend.link).trans h.idle) trivial
    | tick ms ans =>
        rw [perform, tick_of_disabled ipaddrAton hd h.idle]
        exact iff_of_true h trivial
    | err p =>
        rw [h.steady_iff hd (steady_perform ipaddrAton hd h.idle _ hstart nofun)]
        exact iff_of_true rfl trivial
  · rw [if_neg hcan]
    exact iff_of_true h fun hdel => absurd hdel hcan

/-- While it stays stopped, the client stays disabled. -/
theorem disabled_step {s t : Mqtt} (h : Stopped s t) (hd : t.Disabled) (e : MqttEvent)
    (hstart : e.isStart = false) (hnext : Stopped s (t.step ipaddrAton e)) :
    (t.step ipaddrAton e).Disabled := by
  by_cases hcan : t.net.CanDeliver e
  · rw [step, if_pos hcan] at hnext ⊢
    by_cases hdns : ∃ ip ans, e = .dnsFound (some ip) ans
    · obtain ⟨ip, ans, rfl⟩ := hdns
      have hnew := (stopped_mqttDNSFoundCB_iff h ip ans).mp hnext
      simp only [perform, mqttDNSFoundCB, hnew]
      exact ⟨rfl, hd.enabled⟩
    · exact hd.steady (steady_perform ipaddrAton hd h.idle e hstart
        fun ip ans heq => hdns ⟨ip, ans, heq⟩)
  · rw [step, if_neg hcan]
    exact hd

theorem disabled_mqttClientStop (s : Mqtt) : s.mqttClientStop.Disabled := by
  refine ⟨?_, ?_⟩
  · have := congrArg Link.psPcb (link_mqttClientStop s)
    simpa using this
  · unfold mqttClientStop detachPcb
    cases s.cli.psPcb <;> rfl

theorem stopped_mqttClientStop (s : Mqtt) : Stopped s s.mqttClientStop where
  created := by
    have := congrArg Link.created (link_mqttClientStop s)
    simpa using this
  writes := by
    unfold mqttClientStop detachPcb
    cases s.cli.psPcb <;> rfl
  idle := rfl

/-- **Stop, exactly.**  From any state: after `MQTTClientStop` and up to the next start,
no pcb is created, no byte written and the client idle in every state, precisely when
every callback leaves the stopped client alone. -/
theorem stopped_iff_keepsStopped (s : Mqtt) (es : List MqttEvent)
    (hes : ∀ e ∈ es, e.isStart = false) :
    Runs.EveryState (step ipaddrAton) (Stopped s) s.mqttClientStop es ↔
      Runs.EveryStep (step ipaddrAton) KeepsStopped s.mqttClientStop es :=
  Runs.everyState_iff_everyStep_of (I := Disabled) (E := fun e => e.isStart = false)
    (fun _ e he hd h hnext => disabled_step ipaddrAton h hd e he hnext)
    (fun _ e he hd h => stopped_step_iff ipaddrAton h hd e he)
    (disabled_mqttClientStop s) (stopped_mqttClientStop s) es hes

/-! ## An answer after the stop -/

/-- The client while the lookup of its broker is in progress. -/
def lookingUp : Mqtt :=
  Runs.final (step fun _ => none) init
    [.start (some (ascii "broker")) 1883#16 none none none, .tick 100#32 .obliging]

/-- A lookup that fails after the stop, and any number of ticks, change nothing. -/
theorem stopped_on_failed_lookup :
    Runs.EveryState (step fun _ => none) (Stopped lookingUp) lookingUp.mqttClientStop
      [.tick 100#32 .obliging, .dnsFound none .obliging, .tick 60000#32 .obliging] :=
  (stopped_iff_keepsStopped (fun _ => none) lookingUp
    [.tick 100#32 .obliging, .dnsFound none .obliging, .tick 60000#32 .obliging]
    (by simp [MqttEvent.isStart])).mpr
    ⟨fun _ => trivial, fun _ => trivial, fun _ => trivial, trivial⟩

/-- The address of the broker arrives after the stop, and the stopped client connects. -/
theorem stopped_client_connects :
    (lookingUp.mqttClientStop.step (fun _ => none)
        (.dnsFound (some 0x0A000002#32) .obliging)).cli.eState = .tcp ∧
      ¬Runs.EveryState (step fun _ => none) (Stopped lookingUp) lookingUp.mqttClientStop
        [.dnsFound (some 0x0A000002#32) .obliging] := by
  refine ⟨by decide +kernel, fun h => ?_⟩
  exact absurd h.last.idle (by decide +kernel)

end Mqtt

end HomeAuto
