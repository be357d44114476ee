import HomeAuto.ConnectTimeout
import HomeAuto.MqttRxRuns

/-!
# The keep-alive of a session (`MQTTClientTick`)

`ui32KeepAliveMs` counts the tick time since the last packet sent, and at half the
keep-alive time a PINGREQ goes out; `ui32PingWaitMs` counts while a PINGRESP is awaited, and
past the keep-alive time the client gives the session up.

* `counters_perform` — what an event other than a tick does to the two counters;
* `counters_tick` — a tick outside READY leaves the wait alone;
* `tickReady_cases` — what a tick does in READY.
-/

namespace HomeAuto

namespace Mqtt

variable (ipaddrAton : CStr → Option (BitVec 32))

/-! ## What sending does -/

/-- Packets were written and the counter is zero, or none were and it is what it was. -/
def Sends (s s' : Mqtt) : Prop :=
  (s'.net.writes.length = s.net.writes.length ∧ s'.cli.keepAliveMs = s.cli.keepAliveMs) ∨
    (s.net.writes.length < s'.net.writes.length ∧ s'.cli.keepAliveMs = 0#32)

theorem Sends.refl (s : Mqtt) : Sends s s := .inl ⟨rfl, rfl⟩

theorem Sends.trans {s t u : Mqtt} (h : Sends s t) (h' : Sends t u) : Sends s u := by
  rcases h' with ⟨hlen', hkeep'⟩ | ⟨hlen', hkeep'⟩
  · rcases h with ⟨hlen, hkeep⟩ | ⟨hlen, hkeep⟩
    · exact .inl ⟨hlen'.trans hlen, hkeep'.trans hkeep⟩
    · exact .inr ⟨by omega, hkeep'.trans hkeep⟩
  · refine .inr ⟨?_, hkeep'⟩
    rcases h with ⟨hlen, _⟩ | ⟨hlen, _⟩ <;> omega

/-- What `MQTTSendRaw` does to the counters. -/
theorem counters_mqttSendRaw (s : Mqtt) (bytes : List UInt8) (ans : Answers) :
    (s.mqttSendRaw bytes ans).1.cli.pingWaitMs = s.cli.pingWaitMs ∧
      (s.mqttSendRaw bytes ans).1.cli.eState = s.cli.eState ∧
      if (s.mqttSendRaw bytes ans).2 then
        (s.mqttSendRaw bytes ans).1.net.writes.length = s.net.writes.length + 1 ∧
          (s.mqttSendRaw bytes ans).1.cli.keepAliveMs = 0#32
      else
        (s.mqttSendRaw bytes ans).1.net.writes.length = s.net.writes.length ∧
          (s.mqttSendRaw bytes ans).1.cli.keepAliveMs = s.cli.keepAliveMs := by
  unfold mqttSendRaw
  cases s.cli.psPcb with
  | none => exact ⟨rfl, rfl, rfl, rfl⟩
  | some p =>
      dsimp only
      split
      · exact ⟨rfl, rfl, rfl, rfl⟩
      · split
        · refine ⟨rfl, rfl, ?_⟩
          simp
        · exact ⟨rfl, rfl, rfl, rfl⟩

theorem sends_mqttSendRaw (s : Mqtt) (bytes : List UInt8) (ans : Answers) :
    Sends s (s.mqttSendRaw bytes ans).1 := by
  obtain ⟨_, _, hsent⟩ := counters_mqttSendRaw s bytes ans
  split at hsent
  · exact .inr ⟨by omega, hsent.2⟩
  · exact .inl hsent

theorem sends_appCall (ans : Answers) (s : Mqtt) (c : AppCall) :
    Sends s (appCall ans s c) ∧ (appCall ans s c).cli.pingWaitMs = s.cli.pingWaitMs := by
  cases c with
  | publish topic payload retain =>
      simp only [appCall, mqttClientPublish]
      split
      · exact ⟨.refl s, rfl⟩
      · split
        · exact ⟨.refl s, rfl⟩
        · exact ⟨sends_mqttSendRaw s _ ans, (counters_mqttSendRaw s _ ans).1⟩
  | subscribe topic =>
      simp only [appCall, mqttClientSubscribe]
      split
      · exact ⟨.refl s, rfl⟩
      · exact ⟨sends_mqttSendRaw _ _ ans, (counters_mqttSendRaw _ _ ans).1⟩

theorem sends_appCalls (ans : Answers) (calls : List AppCall) (s : Mqtt) :
    Sends s (calls.foldl (appCall ans) s) ∧
      (calls.foldl (appCall ans) s).cli.pingWaitMs = s.cli.pingWaitMs := by
  induction calls generalizing s with
  | nil => exact ⟨.refl s, rfl⟩
  | cons c calls ih =>
      have hone := sends_appCall ans s c
      have hrest := ih (appCall ans s c)
      exact ⟨hone.1.trans hrest.1, hrest.2.trans hone.2⟩

theorem sends_dropConnection (s : Mqtt) :
    Sends s s.dropConnection ∧ s.dropConnection.cli.pingWaitMs = s.cli.pingWaitMs ∧
      s.dropConnection.cli.eState = .idle := by
  rw [dropConnection, abortPcb]
  cases s.cli.psPcb <;> exact ⟨.refl s, rfl, rfl⟩

/-! ## What a delivery does -/

/-- A PINGRESP. -/
def isPong (pkt : RxHeader × List UInt8) : Bool := charAt pkt.2 0 &&& 0xF0 = 0xD0

/-- A packet sends what the application answers to it, and a PINGRESP ends the wait. -/
theorem sends_handOn (ans : Answers) (s : Mqtt) (pkt : RxHeader × List UInt8) :
    Sends s (handOn ans s pkt) ∧
      (handOn ans s pkt).cli.pingWaitMs = if isPong pkt then 0#32 else s.cli.pingWaitMs := by
  rw [handOn, mqttHandlePacket]
  cases hverdict : connackVerdict pkt with
  | some accepted =>
      have hpong : isPong pkt = false := by
        unfold connackVerdict at hverdict
        split at hverdict
        · rename_i htype
          rw [isPong, htype]
          rfl
        · cases hverdict
      rw [hpong]
      cases accepted with
      | true => exact ⟨.refl s, rfl⟩
      | false =>
          have hdrop := sends_dropConnection { s with handled := s.handled ++ [pkt.2] }
          exact ⟨hdrop.1, hdrop.2.1⟩
  | none =>
      dsimp only
      by_cases hpong : charAt pkt.2 0 &&& 0xF0 = 0xD0
      · rw [if_pos hpong, isPong, if_pos (decide_eq_true hpong)]
        exact ⟨.refl s, rfl⟩
      · have hno : ¬isPong pkt = true := by rwa [isPong, decide_eq_true_eq]
        rw [if_neg hpong, if_neg hno]
        split
        · cases publishBody (pkt.2.drop pkt.1.hdrLen) pkt.1.remLen with
          | none => exact ⟨.refl s, rfl⟩
          | some m => exact sends_appCalls ans (ans.react m.1 m.2) _
        · exact ⟨.refl s, rfl⟩

theorem sends_handOns (ans : Answers) (pkts : List (RxHeader × List UInt8)) (s : Mqtt) :
    Sends s (pkts.foldl (handOn ans) s) ∧
      (pkts.foldl (handOn ans) s).cli.pingWaitMs =
        if pkts.any isPong then 0#32 else s.cli.pingWaitMs := by
  induction pkts generalizing s with
  | nil => exact ⟨.refl s, rfl⟩
  | cons pkt pkts ih =>
      have hone := sends_handOn ans s pkt
      have hrest := ih (handOn ans s pkt)
      refine ⟨hone.1.trans hrest.1, ?_⟩
      rw [List.foldl_cons, hrest.2, hone.2, List.any_cons]
      cases isPong pkt <;> cases pkts.any isPong <;> rfl

/-! ## What an event does -/

/-- The tick time of an event. -/
def tickMs : MqttEvent → Nat
  | .tick ms _ => ms.toNat
  | _ => 0

def isTick : MqttEvent → Bool
  | .tick _ _ => true
  | _ => false

/-- `MQTTConnectedCB` begins the session of a new connection. -/
def beginsSession : MqttEvent → Bool
  | .connected _ .ok _ => true
  | _ => false

/-- The event delivers a PINGRESP. -/
def brings (s : Mqtt) (e : MqttEvent) : Bool :=
  match delivered e with
  | some segs => (rxParse s.cli.rx segs).1.any isPong
  | none => false

theorem counters_detachPcb (s : Mqtt) :
    Sends s s.detachPcb ∧ s.detachPcb.cli.pingWaitMs = s.cli.pingWaitMs := by
  unfold detachPcb
  cases s.cli.psPcb <;> exact ⟨.refl s, rfl⟩

theorem counters_mqttDNSFoundCB (s : Mqtt) (ip : Option (BitVec 32)) (ans : Answers) :
    Sends s (s.mqttDNSFoundCB ip ans) ∧
      (s.mqttDNSFoundCB ip ans).cli.pingWaitMs = s.cli.pingWaitMs ∧
      (s.mqttDNSFoundCB ip ans).cli.eState ≠ .ready := by
  have hidle : MqttCliState.idle ≠ .ready := by decide
  have htcp : MqttCliState.tcp ≠ .ready := by decide
  refine mqttDNSFoundCB_rule
    (P := fun t => Sends s t ∧ t.cli.pingWaitMs = s.cli.pingWaitMs ∧ t.cli.eState ≠ .ready)
    ⟨.refl s, rfl, hidle⟩ (fun _ => ⟨.refl s, rfl, hidle⟩) (fun _ => ⟨.refl s, rfl, htcp⟩)
    (fun ip => ?_) ip
  obtain ⟨hsends, hwait, hstate⟩ := sends_dropConnection (s.openPcb ip)
  exact ⟨hsends, hwait, hstate ▸ hidle⟩

theorem counters_recvClosed (s : Mqtt) (p : Nat) :
    Sends s (s.recvClosed p) ∧ (s.recvClosed p).cli.pingWaitMs = s.cli.pingWaitMs ∧
      ((s.recvClosed p).cli.eState = .ready → s.cli.eState = .ready) := by
  unfold recvClosed
  split
  · exact ⟨.refl s, rfl, nofun⟩
  · exact ⟨.refl s, rfl, id⟩

theorem counters_mqttTryConnect (s : Mqtt) (ans : Answers) (hidle : s.cli.eState ≠ .ready) :
    (s.mqttTryConnect ipaddrAton ans).cli.pingWaitMs = s.cli.pingWaitMs ∧
      (s.mqttTryConnect ipaddrAton ans).cli.eState ≠ .ready := by
  have hlookup : MqttCliState.dns ≠ .ready := by decide
  have hfailed : MqttCliState.idle ≠ .ready := by decide
  exact mqttTryConnect_rule
    (P := fun t => t.cli.pingWaitMs = s.cli.pingWaitMs ∧ t.cli.eState ≠ .ready)
    ⟨rfl, hidle⟩ (fun ip => (counters_mqttDNSFoundCB (s.setState .tcp) (some ip) ans).2)
    (fun ip => (counters_mqttDNSFoundCB s.askName (some ip) ans).2)
    ⟨rfl, hlookup⟩ ⟨rfl, hfailed⟩ ipaddrAton

/-- A tick outside READY leaves the wait alone and does not enter READY. -/
theorem counters_tick (s : Mqtt) (ms : BitVec 32) (ans : Answers)
    (hready : s.cli.eState ≠ .ready) :
    (s.mqttClientTick ipaddrAton ms ans).cli.pingWaitMs = s.cli.pingWaitMs ∧
      (s.mqttClientTick ipaddrAton ms ans).cli.eState ≠ .ready := by
  have hconnecting : (s.tickConnecting ms).cli.pingWaitMs = s.cli.pingWaitMs ∧
      (s.tickConnecting ms).cli.eState ≠ .ready := by
    unfold tickConnecting
    split
    · obtain ⟨_, hwait, hidle⟩ := sends_dropConnection (s.addKeepAlive ms)
      refine ⟨hwait, ?_⟩
      rw [hidle]
      exact nofun
    · exact ⟨rfl, hready⟩
  exact mqttClientTick_rule
    (P := fun t => t.cli.pingWaitMs = s.cli.pingWaitMs ∧ t.cli.eState ≠ .ready)
    (fun _ => ⟨rfl, hready⟩) (fun _ => ⟨rfl, hready⟩)
    (fun _ _ _ => counters_mqttTryConnect ipaddrAton (s.setReconnect 0#32) ans hready)
    (fun hst => absurd hst hready) (fun _ _ => hconnecting)

/-- The connected callback: a new session clears the wait. -/
theorem counters_mqttConnectedCB (s : Mqtt) (eErr : LwipErr) (ans : Answers) :
    if eErr = .ok then
      (s.mqttConnectedCB eErr ans).1.cli.pingWaitMs = 0#32 ∧
        (s.mqttConnectedCB eErr ans).1.cli.eState = .connect
    else (s.mqttConnectedCB eErr ans).1 = s := by
  unfold mqttConnectedCB
  by_cases hok : eErr = .ok
  · obtain ⟨hwait, hstate, _⟩ := counters_mqttSendRaw s.enterConnect
      (mqttConnectPacket s.cli.clientID s.cli.user s.cli.pass s.cli.will) ans
    rw [if_neg (not_not.mpr hok), if_pos hok]
    exact ⟨hwait, hstate⟩
  · rw [if_pos hok, if_neg hok]

/-- **What an event other than a tick does to the counters**: the wait ends with a new
session and with a PINGRESP; outside the begin of a session, packets are sent and the
keep-alive counter is cleared, or neither. -/
theorem counters_perform (s : Mqtt) (e : MqttEvent) (htick : isTick e = false) :
    (s.perform ipaddrAton e).cli.pingWaitMs =
        (if beginsSession e ∨ s.brings e then 0#32 else s.cli.pingWaitMs) ∧
      (beginsSession e = false → Sends s (s.perform ipaddrAton e)) ∧
      (beginsSession e = true → (s.perform ipaddrAton e).cli.eState = .connect) ∧
      (delivered e = none → (s.perform ipaddrAton e).cli.eState = .ready →
        s.cli.eState = .ready) := by
  cases e with
  | tick ms ans => cases htick
  | setWill topic msg retain => exact ⟨rfl, fun _ => .refl s, nofun, fun _ => id⟩
  | start host port clientID user pass =>
      have hdetach := counters_detachPcb s
      exact ⟨hdetach.2, fun _ => hdetach.1, nofun, nofun⟩
  | stop =>
      have hdetach := counters_detachPcb { s with cli := { s.cli with bEnabled := false } }
      exact ⟨hdetach.2, fun _ => hdetach.1, nofun, nofun⟩
  | publish topic payload retain ans =>
      have hsend := sends_appCall ans s (.publish topic payload retain)
      refine ⟨hsend.2, fun _ => hsend.1, nofun, fun _ hready => ?_⟩
      have hlink := (sendsOnly_appCall ans s (.publish topic payload retain)).link
      exact (congrArg Link.eState hlink).symm.trans hready
  | subscribe topic ans =>
      have hsend := sends_appCall ans s (.subscribe topic)
      refine ⟨hsend.2, fun _ => hsend.1, nofun, fun _ hready => ?_⟩
      have hlink := (sendsOnly_appCall ans s (.subscribe topic)).link
      exact (congrArg Link.eState hlink).symm.trans hready
  | dnsFound ip ans =>
      obtain ⟨hsends, hwait, hready⟩ := counters_mqttDNSFoundCB s ip ans
      exact ⟨hwait, fun _ => hsends, nofun, fun _ h => absurd h hready⟩
  | err p => exact ⟨rfl, fun _ => .refl s, nofun, nofun⟩
  | connected p eErr ans =>
      have hcb := counters_mqttConnectedCB (s.movePcb p .established) eErr ans
      cases eErr with
      | ok =>
          have hconnect : ((s.movePcb p .established).mqttConnectedCB .ok ans).1.cli.eState =
              .connect := hcb.2
          refine ⟨hcb.1, nofun, fun _ => hconnect, fun _ hready => ?_⟩
          cases hconnect.symm.trans hready
      | abrt => exact ⟨rfl, fun _ => .refl s, nofun, fun _ => id⟩
      | other => exact ⟨rfl, fun _ => .refl s, nofun, fun _ => id⟩
  | recv p buf eErr ans =>
      have hclosed := counters_recvClosed s p
      cases buf with
      | none => exact ⟨hclosed.2.1, fun _ => hclosed.1, nofun, fun _ => hclosed.2.2⟩
      | some segs =>
          cases eErr with
          | ok =>
              have hdata := sends_handOns ans (rxParse s.cli.rx segs).1 s
              refine ⟨?_, fun _ => hdata.1, nofun, nofun⟩
              change ((rxParse s.cli.rx segs).1.foldl (handOn ans) s).cli.pingWaitMs = _
              rw [hdata.2]
              simp only [beginsSession, brings, delivered, Bool.false_eq_true, false_or]
          | abrt => exact ⟨hclosed.2.1, fun _ => hclosed.1, nofun, fun _ => hclosed.2.2⟩
          | other => exact ⟨hclosed.2.1, fun _ => hclosed.1, nofun, fun _ => hclosed.2.2⟩

/-! ## A tick in READY -/

/-- A PINGREQ is due. -/
def PingDue (s : Mqtt) (ms : BitVec 32) : Prop :=
  mqttKeepaliveS * 1000 / 2 ≤ (s.cli.keepAliveMs + ms).toNat

instance (s : Mqtt) (ms : BitVec 32) : Decidable (s.PingDue ms) :=
  inferInstanceAs (Decidable (_ ≤ _))

/-- The wait as the second part of the tick finds it. -/
def awaited (s : Mqtt) (ms : BitVec 32) : BitVec 32 :=
  if s.PingDue ms ∧ s.cli.pingWaitMs = 0#32 then 1#32 else s.cli.pingWaitMs

/-- A PINGREQ that is due is sent. -/
def PingSent (s : Mqtt) (e : MqttEvent) : Prop :=
  match e with
  | .tick ms ans => s.cli.eState = .ready → s.PingDue ms →
      ((s.addKeepAlive ms).mqttSendRaw mqttPingPacket ans).2 = true
  | _ => True

instance (s : Mqtt) (e : MqttEvent) : Decidable (s.PingSent e) :=
  match e with
  | .tick _ _ => inferInstanceAs (Decidable (_ → _ → _))
  | .setWill _ _ _ => .isTrue trivial
  | .start _ _ _ _ _ => .isTrue trivial
  | .stop => .isTrue trivial
  | .publish _ _ _ _ => .isTrue trivial
  | .subscribe _ _ => .isTrue trivial
  | .dnsFound _ _ => .isTrue trivial
  | .connected _ _ _ => .isTrue trivial
  | .recv _ _ _ _ => .isTrue trivial
  | .err _ => .isTrue trivial

/-- The first part: a PINGREQ that is due clears the keep-alive counter and begins the
wait. -/
theorem pingIfDue_cases {s : Mqtt} {ms : BitVec 32} {ans : Answers}
    (hready : s.cli.eState = .ready) (hsent : s.PingSent (.tick ms ans)) :
    ((s.addKeepAlive ms).pingIfDue ans).cli.eState = .ready ∧
      ((s.addKeepAlive ms).pingIfDue ans).cli.pingWaitMs = s.awaited ms ∧
      ((s.addKeepAlive ms).pingIfDue ans).cli.keepAliveMs =
        (if s.PingDue ms then 0#32 else s.cli.keepAliveMs + ms) ∧
      ((s.addKeepAlive ms).pingIfDue ans).net.writes.length =
        s.net.writes.length + (if s.PingDue ms then 1 else 0) := by
  unfold pingIfDue awaited
  by_cases hdue : s.PingDue ms
  · obtain ⟨hwait, hstate, hcount⟩ :=
      counters_mqttSendRaw (s.addKeepAlive ms) mqttPingPacket ans
    rw [if_pos (hsent hready hdue)] at hcount
    have hwait' : ((s.addKeepAlive ms).mqttSendPing ans).cli.pingWaitMs = s.cli.pingWaitMs :=
      hwait
    have hpart : mqttKeepaliveS * 1000 / 2 ≤ (s.addKeepAlive ms).cli.keepAliveMs.toNat := hdue
    rw [if_pos hpart, if_pos hdue, if_pos hdue, hwait']
    by_cases hzero : s.cli.pingWaitMs = 0#32
    · rw [if_pos hzero, if_pos ⟨hdue, hzero⟩]
      exact ⟨hstate.trans hready, rfl, hcount.2, hcount.1⟩
    · rw [if_neg hzero, if_neg fun h => hzero h.2]
      exact ⟨hstate.trans hready, hwait', hcount.2, hcount.1⟩
  · have hpart : ¬mqttKeepaliveS * 1000 / 2 ≤ (s.addKeepAlive ms).cli.keepAliveMs.toNat := hdue
    rw [if_neg hpart, if_neg hdue, if_neg hdue, if_neg fun h => hdue h.1]
    exact ⟨hready, rfl, rfl, rfl⟩

theorem tick_ready {s : Mqtt} (hready : s.cli.eState = .ready) (ms : BitVec 32) (ans : Answers) :
    s.mqttClientTick ipaddrAton ms ans = s.tickReady ms ans := by
  unfold mqttClientTick
  rw [hready]

/-- **What a tick does in READY.** -/
theorem tickReady_cases {s : Mqtt} {ms : BitVec 32} {ans : Answers}
    (hready : s.cli.eState = .ready) (hsent : s.PingSent (.tick ms ans)) :
    (s.tickReady ms ans).cli.keepAliveMs =
        (if s.PingDue ms then 0#32 else s.cli.keepAliveMs + ms) ∧
      (s.tickReady ms ans).net.writes.length =
        s.net.writes.length + (if s.PingDue ms then 1 else 0) ∧
      (s.tickReady ms ans).cli.pingWaitMs =
        (if s.awaited ms = 0#32 then 0#32 else s.awaited ms + ms) ∧
      ((s.tickReady ms ans).cli.eState = .ready ↔
        s.awaited ms = 0#32 ∨ (s.awaited ms + ms).toNat ≤ mqttKeepaliveS * 1000) := by
  obtain ⟨hstate, hwait, hkeep, hcount⟩ := pingIfDue_cases hready hsent
  unfold tickReady
  rw [← hkeep, ← hcount, ← hwait]
  generalize (s.addKeepAlive ms).pingIfDue ans = u at *
  unfold awaitPong
  by_cases hzero : u.cli.pingWaitMs = 0#32
  · rw [if_pos hzero, if_pos hzero]
    exact ⟨rfl, rfl, hzero, iff_of_true hstate (.inl hzero)⟩
  · rw [if_neg hzero, if_neg hzero]
    by_cases hlate : mqttKeepaliveS * 1000 < (u.cli.pingWaitMs + ms).toNat
    · rw [if_pos hlate]
      obtain ⟨_, hdrop, hidle⟩ := sends_dropConnection (u.setPingWait (u.cli.pingWaitMs + ms))
      have hkeep' := keepAlive_dropConnection (u.setPingWait (u.cli.pingWaitMs + ms))
      refine ⟨hkeep', ?_, hdrop, iff_of_false ?_ ?_⟩
      · rw [dropConnection, abortPcb]
        cases (u.setPingWait (u.cli.pingWaitMs + ms)).cli.psPcb <;> rfl
      · rw [hidle]
        decide
      · rintro (h | h)
        · exact hzero h
        · omega
    · rw [if_neg hlate]
      exact ⟨rfl, rfl, rfl, iff_of_true hstate (.inr (by omega))⟩

end Mqtt

end HomeAuto
