import HomeAuto.MqttClient

/-!
# What ticks and attempts are made up of

One rule for each function of the client that decides what to do next: a property of its result
holds when it holds of what each of its branches leaves.  A tick in READY and a tick of an attempt
assign counters, send a PINGREQ and drop the connection, so they keep what these keep
(`TickParts`).
-/

namespace HomeAuto

namespace Mqtt

variable {s : Mqtt} {ans : Answers} {P : Mqtt → Prop}

/-! ## Attempts -/

/-- What a DNS answer can leave. -/
theorem mqttDNSFoundCB_rule (hbackOff : P s.backOff)
    (hnoPcb : ∀ ip,
      P (({ s with cli := { s.cli with brokerIP := ip } }.call .tcpNew).setPcb none).backOff)
    (hopened : ∀ ip, P (s.openPcb ip)) (hrefused : ∀ ip, P (s.openPcb ip).dropConnection)
    (ip : Option (BitVec 32)) : P (s.mqttDNSFoundCB ip ans) := by
  unfold mqttDNSFoundCB
  cases ip with
  | none => exact hbackOff
  | some ip =>
      cases ans.tcpNew with
      | false => exact hnoPcb ip
      | true =>
          cases ans.tcpConnect with
          | true => exact hopened ip
          | false => exact hrefused ip

/-- What the begin of an attempt can leave. -/
theorem mqttTryConnect_rule (hnoHost : P s)
    (hliteral : ∀ ip, P ((s.setState .tcp).mqttDNSFoundCB (some ip) ans))
    (hcached : ∀ ip, P (s.askName.mqttDNSFoundCB (some ip) ans))
    (hlookup : P { s.askName with net := { s.askName.net with lookups := s.net.lookups + 1 } })
    (hfailed : P s.askName.backOff) (ipaddrAton : CStr → Option (BitVec 32)) :
    P (s.mqttTryConnect ipaddrAton ans) := by
  unfold mqttTryConnect
  split
  · exact hnoHost
  · cases ipaddrAton s.cli.host with
    | some ip => exact hliteral ip
    | none =>
        cases ans.dns with
        | cached ip => exact hcached ip
        | inProgress => exact hlookup
        | failed => exact hfailed

/-! ## Ticks -/

/-- What a tick can leave. -/
theorem mqttClientTick_rule {ms : BitVec 32} {ipaddrAton : CStr → Option (BitVec 32)}
    (hsame : s.cli.eState = .idle → P s)
    (hwait : s.cli.eState = .idle → P (s.setReconnect (s.cli.reconnectMs - ms)))
    (hretry : s.cli.eState = .idle → s.cli.bEnabled = true ∧ s.cli.host ≠ [] →
      s.cli.reconnectMs.toNat ≤ ms.toNat →
        P ((s.setReconnect 0#32).mqttTryConnect ipaddrAton ans))
    (hready : s.cli.eState = .ready → P (s.tickReady ms ans))
    (hconnecting : s.cli.eState ≠ .idle → s.cli.eState ≠ .ready → P (s.tickConnecting ms)) :
    P (s.mqttClientTick ipaddrAton ms ans) := by
  unfold mqttClientTick
  cases hst : s.cli.eState with
  | idle =>
      dsimp only
      split
      · rename_i hon
        split
        · rename_i hdue
          exact hretry hst hon hdue
        · exact hwait hst
      · exact hsame hst
  | ready => exact hready hst
  | dns => exact hconnecting (by rw [hst]; decide) (by rw [hst]; decide)
  | tcp => exact hconnecting (by rw [hst]; decide) (by rw [hst]; decide)
  | connect => exact hconnecting (by rw [hst]; decide) (by rw [hst]; decide)

/-- A relation that the parts of a tick keep. -/
structure TickParts (R : Mqtt → Mqtt → Prop) (ans : Answers) : Prop where
  trans : ∀ {s t u}, R s t → R t u → R s u
  counters : ∀ (s : Mqtt) (keep wait : BitVec 32),
    R s { s with cli := { s.cli with keepAliveMs := keep, pingWaitMs := wait } }
  ping : ∀ s, R s (s.mqttSendPing ans)
  drop : ∀ s, R s s.dropConnection

namespace TickParts

variable {R : Mqtt → Mqtt → Prop}

theorem addKeepAlive (h : TickParts R ans) (s : Mqtt) (ms : BitVec 32) : R s (s.addKeepAlive ms) :=
  h.counters s (s.cli.keepAliveMs + ms) s.cli.pingWaitMs

theorem setPingWait (h : TickParts R ans) (s : Mqtt) (ms : BitVec 32) : R s (s.setPingWait ms) :=
  h.counters s s.cli.keepAliveMs ms

theorem refl (h : TickParts R ans) (s : Mqtt) : R s s :=
  h.counters s s.cli.keepAliveMs s.cli.pingWaitMs

theorem tickReady (h : TickParts R ans) (s : Mqtt) (ms : BitVec 32) :
    R s (s.tickReady ms ans) := by
  have hping (t : Mqtt) : R t (t.pingIfDue ans) := by
    unfold pingIfDue
    split
    · split
      · exact h.trans (h.ping t) (h.setPingWait _ _)
      · exact h.ping t
    · exact h.refl t
  have hpong (t : Mqtt) : R t (t.awaitPong ms) := by
    unfold awaitPong
    split
    · exact h.refl t
    · split
      · exact h.trans (h.setPingWait t _) (h.drop _)
      · exact h.setPingWait t _
  exact h.trans (h.addKeepAlive s ms) (h.trans (hping _) (hpong _))

theorem tickConnecting (h : TickParts R ans) (s : Mqtt) (ms : BitVec 32) :
    R s (s.tickConnecting ms) := by
  unfold Mqtt.tickConnecting
  split
  · exact h.trans (h.addKeepAlive s ms) (h.drop _)
  · exact h.addKeepAlive s ms

end TickParts

end Mqtt

end HomeAuto
