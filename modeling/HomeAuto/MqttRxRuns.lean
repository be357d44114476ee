import HomeAuto.Lib.Runs
import HomeAuto.MqttRxBuffer

/-!
# The receive path over runs of the client

Beside a run of the client goes the array `pui8Rx`: deliveries are received into it, and
`MQTTDNSFoundCB` resets `ui16RxLen` when it has made a pcb.  The array holds the bytes
received at every moment (`tracks_run`), so what is proved of one delivery on an array holds
in every state that a run reaches (`receive_safe`).
-/

namespace HomeAuto

namespace Mqtt

/-- The bytes received on the connection, and how many connections there were. -/
def received (s : Mqtt) : List UInt8 × Nat := (s.cli.rx, s.net.created)

/-- The bytes received stay, or a new connection begins without any. -/
def RxKept (s s' : Mqtt) : Prop :=
  s'.received = s.received ∨ s'.received = ([], s.net.created + 1)

theorem received_mqttSendRaw (s : Mqtt) (bytes : List UInt8) (ans : Answers) :
    (s.mqttSendRaw bytes ans).1.received = s.received := by
  have hrx := congrArg Prod.snd (intake_mqttSendRaw s bytes ans)
  have hcreated := (sendsOnly_mqttSendRaw s bytes ans).created
  exact Prod.ext hrx hcreated

theorem received_appCall (ans : Answers) (s : Mqtt) (c : AppCall) :
    (appCall ans s c).received = s.received := by
  have hrx := congrArg Prod.snd (intake_appCall ans s c)
  have hcreated := (sendsOnly_appCall ans s c).created
  exact Prod.ext hrx hcreated

theorem received_dropConnection (s : Mqtt) : s.dropConnection.received = s.received := by
  have hrx := congrArg Prod.snd (intake_dropConnection s)
  have hcreated := (steady_dropConnection s).created
  exact Prod.ext hrx hcreated

theorem received_recvClosed (s : Mqtt) (p : Nat) : (s.recvClosed p).received = s.received := by
  unfold recvClosed
  split <;> rfl

theorem rxKept_mqttDNSFoundCB (s : Mqtt) (ip : Option (BitVec 32)) (ans : Answers) :
    RxKept s (s.mqttDNSFoundCB ip ans) :=
  mqttDNSFoundCB_rule (.inl rfl) (fun _ => .inl rfl) (fun _ => .inr rfl)
    (fun ip => .inr (received_dropConnection (s.openPcb ip))) ip

theorem rxKept_mqttTryConnect (ipaddrAton : CStr → Option (BitVec 32)) (s : Mqtt)
    (ans : Answers) : RxKept s (s.mqttTryConnect ipaddrAton ans) :=
  mqttTryConnect_rule (.inl rfl)
    (fun ip => rxKept_mqttDNSFoundCB (s.setState .tcp) (some ip) ans)
    (fun ip => rxKept_mqttDNSFoundCB s.askName (some ip) ans) (.inl rfl) (.inl rfl) ipaddrAton

/-- The parts of a tick that begins no attempt keep the bytes received. -/
theorem tickParts_received (ans : Answers) :
    TickParts (fun s s' => s'.received = s.received) ans where
  trans h h' := h'.trans h
  counters _ _ _ := rfl
  ping s := received_mqttSendRaw s _ ans
  drop := received_dropConnection

theorem rxKept_mqttClientTick (ipaddrAton : CStr → Option (BitVec 32)) (s : Mqtt)
    (ms : BitVec 32) (ans : Answers) : RxKept s (s.mqttClientTick ipaddrAton ms ans) :=
  mqttClientTick_rule (fun _ => .inl rfl) (fun _ => .inl rfl)
    (fun _ _ _ => rxKept_mqttTryConnect ipaddrAton (s.setReconnect 0#32) ans)
    (fun _ => .inl ((tickParts_received ans).tickReady s ms))
    (fun _ _ => .inl ((tickParts_received ans).tickConnecting s ms))

theorem received_detachPcb (s : Mqtt) : s.detachPcb.received = s.received := by
  unfold detachPcb
  cases s.cli.psPcb <;> rfl

theorem received_mqttConnectedCB (s : Mqtt) (eErr : LwipErr) (ans : Answers) :
    (s.mqttConnectedCB eErr ans).1.received = s.received := by
  unfold mqttConnectedCB
  split
  · rfl
  · exact received_mqttSendRaw s.enterConnect _ ans

/-- The segments of an event that delivers data. -/
def delivered : MqttEvent → Option (List (List UInt8))
  | .recv _ (some segs) .ok _ => some segs
  | _ => none

/-- **Who touches the assembly buffer**: a delivery, and the begin of a connection. -/
theorem rx_perform (ipaddrAton : CStr → Option (BitVec 32)) (s : Mqtt) (e : MqttEvent) :
    match delivered e with
    | some segs => (s.perform ipaddrAton e).received = ((rxParse s.cli.rx segs).2, s.net.created)
    | none => RxKept s (s.perform ipaddrAton e) := by
  cases e with
  | setWill topic msg retain => exact .inl rfl
  | start host port clientID user pass => exact .inl (received_detachPcb s)
  | stop =>
      exact .inl (received_detachPcb { s with cli := { s.cli with bEnabled := false } })
  | publish topic payload retain ans =>
      exact .inl (received_appCall ans s (.publish topic payload retain))
  | subscribe topic ans => exact .inl (received_appCall ans s (.subscribe topic))
  | tick ms ans => exact rxKept_mqttClientTick ipaddrAton s ms ans
  | dnsFound ip ans => exact rxKept_mqttDNSFoundCB s ip ans
  | connected p eErr ans =>
      exact .inl (received_mqttConnectedCB (s.movePcb p .established) eErr ans)
  | err p => exact .inl rfl
  | recv p buf eErr ans =>
      cases buf with
      | none => exact .inl (received_recvClosed s p)
      | some segs =>
          cases eErr with
          | ok =>
              have hcreated := (steady_recvData s segs ans).created
              exact Prod.ext rfl hcreated
          | abrt => exact .inl (received_recvClosed s p)
          | other => exact .inl (received_recvClosed s p)

end Mqtt

/-- The client and its assembly buffer. -/
structure Buffered where
  mqtt : Mqtt
  buf : RxBuffer

namespace Buffered

variable (ipaddrAton : CStr → Option (BitVec 32))

/-- What an event does to the array: a delivery is received, and a new connection resets
`ui16RxLen`. -/
def bufStep (x : Buffered) (e : MqttEvent) : Option RxBuffer :=
  if x.mqtt.net.CanDeliver e then
    match Mqtt.delivered e with
    | some segs => (x.buf.receive segs).map (·.2)
    | none =>
        some (if (x.mqtt.step ipaddrAton e).net.created = x.mqtt.net.created then x.buf
          else x.buf.reset)
  else some x.buf

/-- One event; `none` would be a parse loop that does not end. -/
def step (x : Buffered) (e : MqttEvent) : Option Buffered :=
  (x.bufStep ipaddrAton e).map fun buf => ⟨x.mqtt.step ipaddrAton e, buf⟩

/-- A run from `MQTTClientInit`. -/
def run (es : List MqttEvent) : Option Buffered :=
  es.foldlM (step ipaddrAton) ⟨.init, .empty⟩

/-- The array holds the bytes received, and they fit. -/
structure Tracks (x : Buffered) : Prop where
  contents : x.buf.contents = x.mqtt.cli.rx
  fits : x.buf.rxLen.toNat ≤ mqttRxbufSize

/-- **One event** leaves the array with the bytes received. -/
theorem tracks_step {x : Buffered} (h : x.Tracks) (e : MqttEvent) :
    ∃ buf, x.step ipaddrAton e = some ⟨x.mqtt.step ipaddrAton e, buf⟩ ∧
      Tracks ⟨x.mqtt.step ipaddrAton e, buf⟩ := by
  unfold step bufStep Mqtt.step
  by_cases hcan : x.mqtt.net.CanDeliver e
  · rw [if_pos hcan, if_pos hcan]
    have hrx := x.mqtt.rx_perform ipaddrAton e
    cases hsegs : Mqtt.delivered e with
    | some segs =>
        rw [hsegs] at hrx
        obtain ⟨heads, buf, hreceive, _, _, hle, hparse⟩ := RxBuffer.receive_eq h.fits segs
        rw [h.contents] at hparse
        dsimp only at hrx
        rw [hparse] at hrx
        refine ⟨buf, ?_, ⟨(congrArg Prod.fst hrx).symm, hle⟩⟩
        dsimp only
        rw [hreceive]
        rfl
    | none =>
        rw [hsegs] at hrx
        refine ⟨_, rfl, ?_⟩
        dsimp only at hrx ⊢
        rcases hrx with hkept | hnew
        · have hcreated : (x.mqtt.perform ipaddrAton e).net.created = x.mqtt.net.created :=
            congrArg Prod.snd hkept
          rw [if_pos hcreated]
          exact ⟨h.contents.trans (congrArg Prod.fst hkept).symm, h.fits⟩
        · have hcreated : (x.mqtt.perform ipaddrAton e).net.created = x.mqtt.net.created + 1 :=
            congrArg Prod.snd hnew
          rw [if_neg (by omega)]
          exact ⟨(congrArg Prod.fst hnew).symm, Nat.zero_le _⟩
  · rw [if_neg hcan, if_neg hcan]
    exact ⟨x.buf, rfl, h.contents, h.fits⟩

/-- **A run** leaves the array with the bytes received. -/
theorem tracks_run (es : List MqttEvent) :
    ∃ buf, run ipaddrAton es = some ⟨Runs.final (Mqtt.step ipaddrAton) .init es, buf⟩ ∧
      Tracks ⟨Runs.final (Mqtt.step ipaddrAton) .init es, buf⟩ := by
  have hrun (es : List MqttEvent) (x : Buffered) (h : x.Tracks) :
      ∃ buf, es.foldlM (step ipaddrAton) x =
          some ⟨Runs.final (Mqtt.step ipaddrAton) x.mqtt es, buf⟩ ∧
        Tracks ⟨Runs.final (Mqtt.step ipaddrAton) x.mqtt es, buf⟩ := by
    induction es generalizing x with
    | nil => exact ⟨x.buf, rfl, h⟩
    | cons e es ih =>
        obtain ⟨buf, hstep, htracks⟩ := tracks_step ipaddrAton h e
        obtain ⟨buf', hrest, htracks'⟩ := ih _ htracks
        refine ⟨buf', ?_, htracks'⟩
        rw [List.foldlM_cons, hstep]
        exact hrest
  exact hrun es ⟨.init, .empty⟩ ⟨rfl, Nat.zero_le _⟩

/-- **The receive path is safe**, on whatever the broker sends, in every state that a run
of the client reaches: the run is never stuck in a parse loop, the array holds exactly the
bytes received, and the next delivery, whatever its segments, keeps within the array, makes
safe passes only, ends, and leaves what is not yet a packet. -/
theorem receive_safe (es : List MqttEvent) :
    ∃ buf, run ipaddrAton es = some ⟨Runs.final (Mqtt.step ipaddrAton) .init es, buf⟩ ∧
      buf.contents = (Runs.final (Mqtt.step ipaddrAton) .init es).cli.rx ∧
      buf.rxLen.toNat ≤ mqttRxbufSize ∧ ∀ segs, buf.DeliverySafe segs := by
  obtain ⟨buf, hrun, htracks⟩ := tracks_run ipaddrAton es
  exact ⟨buf, hrun, htracks.contents, htracks.fits,
    fun segs => RxBuffer.deliverySafe htracks.fits segs⟩

end Buffered

end HomeAuto
