import HomeAuto.MqttConnect
import HomeAuto.PcbOwnership

/-!
# The parameters of the client

`MQTTClientStart` copies the broker, the port and the credentials into the client.  Nothing
else assigns them, and only `MQTTTryConnect` and `MQTTDNSFoundCB` begin a connection: every
other operation is `Calm`.  It keeps the parameters, makes no call to open a connection, creates
no pcb and brings none to life, and what it writes tells a broker nothing but the login in use.

An attempt (`Attempts`) is described by the calls of lwIP that it makes.
-/

namespace HomeAuto

/-- The credentials of `MQTTClientStart`. -/
structure Login where
  clientID : CStr
  user : CStr
  pass : CStr

/-- What a broker is told about who connects. -/
structure Told where
  clientID : CStr
  user : Option CStr
  pass : Option CStr
  deriving DecidableEq

/-- An empty user name disables authentication. -/
def Login.told (l : Login) : Told where
  clientID := l.clientID
  user := if l.user = [] then none else some l.user
  pass := if l.user = [] ∨ l.pass = [] then none else some l.pass

/-- What a packet tells the broker, if it is a CONNECT of MQTT 3.1.1. -/
def toldBy (bytes : List UInt8) : Option Told :=
  (MqttWire.decodeConnect bytes).map fun c => ⟨c.clientID, c.user, c.password⟩

/-- The parameters of `MQTTClientStart`, as the client keeps them. -/
structure Target where
  host : CStr
  port : BitVec 16
  login : Login

/-! ## What a CONNECT tells -/

/-- The strings of the client are those of its buffers. -/
structure MqttClient.Stored (c : MqttClient) : Prop where
  clientID : c.clientID.length ≤ mqttStrMax
  user : c.user.length ≤ mqttStrMax
  pass : c.pass.length ≤ mqttStrMax
  will : ∀ w ∈ c.will, w.topic.length ≤ mqttStrMax ∧ w.msg.length ≤ mqttStrMax

/-- The settings at start-up are stored ones. -/
theorem MqttClient.stored_init : MqttClient.init.Stored where
  clientID := Nat.zero_le _
  user := Nat.zero_le _
  pass := Nat.zero_le _
  will := nofun

namespace MqttClient.Stored

variable {c : MqttClient}

/-- Stored settings fit into their buffers, -/
theorem short (h : c.Stored) : c.Short := by
  have hmax : mqttStrMax < 65536 := by decide
  exact ⟨h.clientID.trans_lt hmax, h.user.trans_lt hmax, h.pass.trans_lt hmax,
    fun w hw => ⟨(h.will w hw).1.trans_lt hmax, (h.will w hw).2.trans_lt hmax⟩⟩

/-- and the CONNECT made of them has a length of 16 bits. -/
theorem room (h : c.Stored) : c.connectRoom < 65536 := by
  have hclientID := h.clientID
  have huser := h.user
  have hpass := h.pass
  have hwill := h.will
  unfold mqttStrMax at hclientID huser hpass hwill
  unfold MqttClient.connectRoom
  cases hw : c.will with
  | none =>
      dsimp only
      split_ifs <;> omega
  | some w =>
      obtain ⟨htopic, hmsg⟩ := hwill w hw
      dsimp only
      split_ifs <;> omega

end MqttClient.Stored

/-- A packet of another type tells nothing. -/
theorem toldBy_of_ne {b : UInt8} (h : b ≠ 0x10) (n : Nat) (bs : List UInt8) :
    toldBy ((b :: bs).take n) = none := by
  cases n with
  | zero => rfl
  | succ n =>
      rw [List.take_succ_cons, toldBy, MqttWire.decodeConnect, MqttWire.split]
      cases MqttWire.takeLength 4 (bs.take n) with
      | none => rfl
      | some r =>
          rw [Option.bind_some]
          split
          · rw [Option.bind_some, if_neg h]
            rfl
          · rfl

/-- Only a CONNECT tells a broker who logs in. -/
theorem toldBy_mqttPublishPacket (topic : CStr) (payload : List UInt8) (retain : UInt8) :
    toldBy (mqttPublishPacket topic payload retain) = none := by
  apply toldBy_of_ne
  split <;> decide

theorem toldBy_mqttSubscribePacket (packetID : BitVec 16) (topic : CStr) :
    toldBy (mqttSubscribePacket packetID topic) = none := toldBy_of_ne (by decide) _ _

namespace Mqtt

/-- The parameters in use. -/
def target (s : Mqtt) : Target :=
  ⟨s.cli.host, s.cli.port, ⟨s.cli.clientID, s.cli.user, s.cli.pass⟩⟩

/-- **A CONNECT tells the login in use.** -/
theorem toldBy_mqttConnectPacket {s : Mqtt} (h : s.cli.Stored) :
    toldBy (mqttConnectPacket s.cli.clientID s.cli.user s.cli.pass s.cli.will) =
      some s.target.login.told := by
  rw [toldBy, MqttClient.decodeConnect_mqttConnectPacket h.short h.room]
  rfl

/-- The parameters are kept, no connection is begun and none comes to life, and a broker is told
the login in use at most. -/
structure Calm (s s' : Mqtt) : Prop where
  target : s'.target = s.target
  will : s'.cli.will = s.cli.will
  lookups : s'.net.lookups = s.net.lookups
  calls : s'.net.calls = s.net.calls
  created : s'.net.created = s.net.created
  live : ∀ p, (s'.net.pcb p).live = true → (s.net.pcb p).live = true
  writes : ∃ ws, s'.net.writes = s.net.writes ++ ws ∧
    (s.cli.Stored → ∀ w ∈ ws, ∀ told, toldBy w.2 = some told → told = s.target.login.told)

/-- The parameters are kept, these calls are made, nothing is written, and at most the pcb of such
a call comes to life. -/
structure Attempts (s s' : Mqtt) (made : List LwipCall) : Prop where
  target : s'.target = s.target
  will : s'.cli.will = s.cli.will
  calls : s'.net.calls = s.net.calls ++ made
  created : s.net.created ≤ s'.net.created
  live : ∀ p, (s'.net.pcb p).live = true → (s.net.pcb p).live = true ∨
    p < s'.net.created ∧ ∃ ip port, LwipCall.tcpConnect p ip port ∈ made
  writes : s'.net.writes = s.net.writes

variable {s t u : Mqtt} {calls calls' : List LwipCall}

/-- What is stored depends on the parameters and on the will. -/
theorem stored_of_target (htarget : t.target = s.target) (hwill : t.cli.will = s.cli.will)
    (h : s.cli.Stored) : t.cli.Stored := by
  have hlogin := congrArg Target.login htarget
  have hclientID : t.cli.clientID = s.cli.clientID := congrArg Login.clientID hlogin
  have huser : t.cli.user = s.cli.user := congrArg Login.user hlogin
  have hpass : t.cli.pass = s.cli.pass := congrArg Login.pass hlogin
  exact ⟨hclientID ▸ h.clientID, huser ▸ h.user, hpass ▸ h.pass, hwill ▸ h.will⟩

/-- A call that is calm keeps the settings as they are stored. -/
theorem Calm.stored (h : Calm s t) (hs : s.cli.Stored) : t.cli.Stored :=
  stored_of_target h.target h.will hs

theorem Attempts.stored (h : Attempts s t calls) (hs : s.cli.Stored) : t.cli.Stored :=
  stored_of_target h.target h.will hs

theorem Calm.refl (s : Mqtt) : Calm s s :=
  ⟨rfl, rfl, rfl, rfl, rfl, fun _ hp => hp, [], (List.append_nil _).symm, nofun⟩

/-- Calm calls can follow one another, -/
theorem Calm.trans (h : Calm s t) (h' : Calm t u) : Calm s u where
  target := h'.target.trans h.target
  will := h'.will.trans h.will
  lookups := h'.lookups.trans h.lookups
  calls := h'.calls.trans h.calls
  created := h'.created.trans h.created
  live := fun p hp => h.live p (h'.live p hp)
  writes := by
    obtain ⟨ws, hws, htold⟩ := h.writes
    obtain ⟨ws', hws', htold'⟩ := h'.writes
    refine ⟨ws ++ ws', ?_, ?_⟩
    · rw [hws', hws, List.append_assoc]
    · intro hs w hw told hw'
      rcases List.mem_append.mp hw with hfirst | hsecond
      · exact htold hs w hfirst told hw'
      · have hlogin := htold' (h.stored hs) w hsecond told hw'
        rw [h.target] at hlogin
        exact hlogin

/-- and stand before an attempt -/
theorem Attempts.after_calm (h : Calm s t) (hquiet : t.net.writes = s.net.writes)
    (h' : Attempts t u calls) : Attempts s u calls where
  target := h'.target.trans h.target
  will := h'.will.trans h.will
  calls := h.calls ▸ h'.calls
  created := h.created ▸ h'.created
  live := by
    intro p hp
    rcases h'.live p hp with hlive | hnew
    · exact .inl (h.live p hlive)
    · exact .inr hnew
  writes := h'.writes.trans hquiet

/-- or behind it. -/
theorem Attempts.then_calm (h : Attempts s t calls) (h' : Calm t u)
    (hquiet : u.net.writes = t.net.writes) : Attempts s u calls where
  target := h'.target.trans h.target
  will := h'.will.trans h.will
  calls := h'.calls.trans h.calls
  created := h'.created ▸ h.created
  live := by
    intro p hp
    rw [h'.created]
    exact h.live p (h'.live p hp)
  writes := hquiet.trans h.writes

/-! ## Assignments -/

/-- An assignment to the client which leaves the parameters. -/
theorem calm_of_net (htarget : t.target = s.target) (hwill : t.cli.will = s.cli.will)
    (hnet : t.net = s.net) : Calm s t where
  target := htarget
  will := hwill
  lookups := congrArg LwIP.lookups hnet
  calls := congrArg LwIP.calls hnet
  created := congrArg LwIP.created hnet
  live := by
    intro p hp
    rw [hnet] at hp
    exact hp
  writes := by
    rw [hnet]
    exact ⟨[], (List.append_nil _).symm, nofun⟩

/-- What only moves the client's state is calm. -/
theorem calm_setState (s : Mqtt) (st : MqttCliState) : Calm s (s.setState st) :=
  calm_of_net rfl rfl rfl

theorem calm_setPcb (s : Mqtt) (p : Option Nat) : Calm s (s.setPcb p) := calm_of_net rfl rfl rfl

theorem calm_setPingWait (s : Mqtt) (ms : BitVec 32) : Calm s (s.setPingWait ms) :=
  calm_of_net rfl rfl rfl

theorem calm_backOff (s : Mqtt) : Calm s s.backOff := calm_of_net rfl rfl rfl

/-- A pcb that is live already, or does not become so, may change its phase. -/
theorem calm_movePcb {p : Nat} {st : PcbState}
    (h : st.live = true → (s.net.pcb p).live = true) : Calm s (s.movePcb p st) where
  target := rfl
  will := rfl
  lookups := rfl
  calls := rfl
  created := rfl
  writes := ⟨[], (List.append_nil _).symm, nofun⟩
  live := by
    intro q hq
    by_cases hqp : q = p
    · subst hqp
      have hst : st.live = true := by simpa [movePcb] using hq
      exact h hst
    · simpa [movePcb, hqp] using hq

/-- An error of the connection starts no attempt, -/
theorem calm_mqttErrCB (s : Mqtt) : Calm s s.mqttErrCB := calm_of_net rfl rfl rfl

theorem calm_abortPcb (s : Mqtt) : Calm s s.abortPcb := by
  unfold abortPcb
  split
  · exact .refl s
  · rename_i p _
    have hmove : Calm s (s.movePcb p .free) := calm_movePcb nofun
    exact (hmove.trans (calm_mqttErrCB _)).trans (calm_setPcb _ _)

/-- and dropping the connection starts none. -/
theorem calm_dropConnection (s : Mqtt) : Calm s s.dropConnection :=
  (calm_abortPcb s).trans (calm_backOff _)

theorem calm_detachPcb (s : Mqtt) : Calm s s.detachPcb := by
  unfold detachPcb
  split
  · exact .refl s
  · rename_i p _
    have hmove : Calm s (s.movePcb p .free) := calm_movePcb nofun
    exact hmove.trans (calm_setPcb _ _)

/-! ## Sending -/

/-- A packet that tells nothing else. -/
theorem calm_mqttSendRaw (s : Mqtt) {bytes : List UInt8}
    (h : s.cli.Stored → ∀ told, toldBy bytes = some told → told = s.target.login.told)
    (ans : Answers) : Calm s (s.mqttSendRaw bytes ans).1 := by
  unfold mqttSendRaw
  split
  · exact .refl s
  · rename_i p _
    split
    · exact .refl s
    split
    · refine ⟨rfl, rfl, rfl, rfl, rfl, fun _ hp => hp, [(p, bytes)], rfl, ?_⟩
      intro hs w hw told htold
      rw [List.mem_singleton.mp hw] at htold
      exact h hs told htold
    · exact ⟨rfl, rfl, rfl, rfl, rfl, fun _ hp => hp, [], (List.append_nil _).symm, nofun⟩

/-- A packet that tells nothing. -/
theorem calm_mqttSendRaw_of_none (s : Mqtt) {bytes : List UInt8} (h : toldBy bytes = none)
    (ans : Answers) : Calm s (s.mqttSendRaw bytes ans).1 := by
  apply calm_mqttSendRaw
  intro _ told htold
  rw [h] at htold
  cases htold

/-- Publishing and subscribing tell no broker a login. -/
theorem calm_mqttClientPublish (s : Mqtt) (topic : CStr) (payload : List UInt8) (retain : UInt8)
    (ans : Answers) : Calm s (s.mqttClientPublish topic payload retain ans).1 := by
  unfold mqttClientPublish
  split
  · exact .refl s
  split
  · exact .refl s
  · exact calm_mqttSendRaw_of_none s (toldBy_mqttPublishPacket topic payload retain) ans

theorem calm_mqttClientSubscribe (s : Mqtt) (topic : CStr) (ans : Answers) :
    Calm s (s.mqttClientSubscribe topic ans).1 := by
  unfold mqttClientSubscribe
  split
  · exact .refl s
  · have hid : Calm s { s with cli := { s.cli with packetID := s.cli.packetID + 1#16 } } :=
      calm_of_net rfl rfl rfl
    exact hid.trans (calm_mqttSendRaw_of_none _ (toldBy_mqttSubscribePacket _ topic) ans)

theorem calm_appCall (ans : Answers) (s : Mqtt) (call : AppCall) : Calm s (appCall ans s call) := by
  cases call with
  | publish topic payload retain => exact calm_mqttClientPublish s topic payload retain ans
  | subscribe topic => exact calm_mqttClientSubscribe s topic ans

theorem calm_appCalls (ans : Answers) (calls : List AppCall) (s : Mqtt) :
    Calm s (calls.foldl (appCall ans) s) := by
  induction calls generalizing s with
  | nil => exact .refl s
  | cons call calls ih => exact (calm_appCall ans s call).trans (ih _)

/-! ## Receiving -/

theorem calm_connack (s : Mqtt) (accepted : Bool) : Calm s (s.connack accepted) := by
  cases accepted with
  | true => exact calm_setState s .ready
  | false => exact calm_dropConnection s

/-- A packet from the broker starts no attempt, whatever it is. -/
theorem calm_mqttHandlePacket (ans : Answers) (s : Mqtt) (pkt : RxHeader × List UInt8) :
    Calm s (mqttHandlePacket ans s pkt) := by
  unfold mqttHandlePacket
  split
  · exact calm_connack s _
  split
  · exact calm_setPingWait s _
  split
  · split
    · exact calm_appCalls ans _ s
    · exact .refl s
  · exact .refl s

theorem calm_handOns (ans : Answers) (pkts : List (RxHeader × List UInt8)) (s : Mqtt) :
    Calm s (pkts.foldl (handOn ans) s) := by
  induction pkts generalizing s with
  | nil => exact .refl s
  | cons pkt pkts ih =>
      have hpush : Calm s { s with handled := s.handled ++ [pkt.2] } := calm_of_net rfl rfl rfl
      exact (hpush.trans (calm_mqttHandlePacket ans _ pkt)).trans (ih _)

theorem calm_recvClosed (s : Mqtt) (p : Nat) : Calm s (s.recvClosed p) := by
  have hmove : Calm s (s.movePcb p .closing) := calm_movePcb nofun
  unfold recvClosed
  split
  · exact (hmove.trans (calm_setPcb _ _)).trans (calm_backOff _)
  · exact hmove

theorem calm_recvData (s : Mqtt) (segs : List (List UInt8)) (ans : Answers) :
    Calm s (s.recvData segs ans) := by
  have hset : Calm ((rxParse s.cli.rx segs).1.foldl (handOn ans) s) (s.recvData segs ans) :=
    calm_of_net rfl rfl rfl
  exact (calm_handOns ans _ s).trans hset

/-- The callbacks of a connection that is open are calm, -/
theorem calm_mqttRecvCB (s : Mqtt) (p : Nat) (buf : Option (List (List UInt8)))
    (eErr : LwipErr) (ans : Answers) : Calm s (s.mqttRecvCB p buf eErr ans) := by
  unfold mqttRecvCB
  split
  · exact calm_recvClosed s p
  split
  · exact calm_recvClosed s p
  · exact calm_recvData s _ ans

/-- the one that tells the login in use included. -/
theorem calm_mqttConnectedCB (s : Mqtt) (eErr : LwipErr) (ans : Answers) :
    Calm s (s.mqttConnectedCB eErr ans).1 := by
  unfold mqttConnectedCB
  split
  · exact .refl s
  · have henter : Calm s s.enterConnect := calm_of_net rfl rfl rfl
    refine henter.trans (calm_mqttSendRaw _ ?_ ans)
    intro hs told htold
    rw [toldBy_mqttConnectPacket hs] at htold
    exact (Option.some.inj htold).symm

/-! ## Calls and ticks -/

/-- A stop is calm. -/
theorem calm_mqttClientStop (s : Mqtt) : Calm s s.mqttClientStop := by
  have hoff : Calm s { s with cli := { s.cli with bEnabled := false } } := calm_of_net rfl rfl rfl
  exact (hoff.trans (calm_detachPcb _)).trans (calm_setState _ .idle)

/-- So are all parts of a tick but the attempt. -/
theorem tickParts_calm (ans : Answers) : TickParts Calm ans where
  trans := Calm.trans
  counters _ _ _ := calm_of_net rfl rfl rfl
  ping s := calm_mqttSendRaw_of_none s (by decide) ans
  drop := calm_dropConnection

/-- The tick begins an attempt: the client is idle, enabled, has a broker, and its wait is
over. -/
def Retries (s : Mqtt) (ms : BitVec 32) : Prop :=
  s.cli.eState = .idle ∧ s.cli.bEnabled = true ∧ s.cli.host ≠ [] ∧
    s.cli.reconnectMs.toNat ≤ ms.toNat

instance (s : Mqtt) (ms : BitVec 32) : Decidable (s.Retries ms) :=
  inferInstanceAs (Decidable (_ ∧ _))

/-- Any other tick is calm. -/
theorem calm_mqttClientTick {ms : BitVec 32} (h : ¬s.Retries ms)
    (ipaddrAton : CStr → Option (BitVec 32)) (ans : Answers) :
    Calm s (s.mqttClientTick ipaddrAton ms ans) :=
  mqttClientTick_rule (fun _ => .refl s) (fun _ => calm_of_net rfl rfl rfl)
    (fun hidle hon hdue => absurd ⟨hidle, hon.1, hon.2, hdue⟩ h)
    (fun _ => (tickParts_calm ans).tickReady s ms)
    (fun _ _ => (tickParts_calm ans).tickConnecting s ms)

/-! ## Attempts -/

/-- The calls for an address: `tcp_new`, and `tcp_connect` when there is a pcb. -/
def dialCalls (s : Mqtt) (ip : BitVec 32) (ans : Answers) : List LwipCall :=
  if ans.tcpNew then [.tcpNew, .tcpConnect s.net.created ip s.cli.port] else [.tcpNew]

/-- The calls of an attempt: a name is looked up, and an address is connected to. -/
def attemptCalls (ipaddrAton : CStr → Option (BitVec 32)) (s : Mqtt) (ans : Answers) :
    List LwipCall :=
  match ipaddrAton s.cli.host with
  | some ip => s.dialCalls ip ans
  | none => .dnsGetHostByName s.cli.host ::
      (match ans.dns with
        | .cached ip => s.dialCalls ip ans
        | .inProgress | .failed => [])

theorem writes_dropConnection (s : Mqtt) : s.dropConnection.net.writes = s.net.writes := by
  unfold dropConnection abortPcb
  split <;> rfl

/-- The calls of an attempt: a new pcb, connected to the address and the configured port. -/
theorem attempts_openPcb (s : Mqtt) (ip : BitVec 32) :
    Attempts s (s.openPcb ip) [.tcpNew, .tcpConnect s.net.created ip s.cli.port] where
  target := rfl
  will := rfl
  calls := rfl
  created := Nat.le_succ _
  writes := rfl
  live := by
    intro p hp
    by_cases hnew : p = s.net.created
    · subst hnew
      exact .inr ⟨Nat.lt_succ_self _, ip, s.cli.port,
        List.mem_cons_of_mem _ List.mem_cons_self⟩
    · exact .inl (by simpa [openPcb, hnew] using hp)

/-- **An address.** -/
theorem attempts_mqttDNSFoundCB (s : Mqtt) (ip : BitVec 32) (ans : Answers) :
    Attempts s (s.mqttDNSFoundCB (some ip) ans) (s.dialCalls ip ans) := by
  unfold mqttDNSFoundCB dialCalls
  dsimp only
  split
  · split
    · exact attempts_openPcb s ip
    · exact (attempts_openPcb s ip).then_calm (calm_dropConnection _) (writes_dropConnection _)
  · exact ⟨rfl, rfl, rfl, Nat.le_refl _, fun _ hp => .inl hp, rfl⟩

theorem lookups_mqttDNSFoundCB (s : Mqtt) (ip : BitVec 32) (ans : Answers) :
    (s.mqttDNSFoundCB (some ip) ans).net.lookups = s.net.lookups := by
  unfold mqttDNSFoundCB
  dsimp only
  split
  · split
    · rfl
    · exact (calm_dropConnection (s.openPcb ip)).lookups
  · rfl

/-- **The begin of an attempt.** -/
theorem attempts_mqttTryConnect (ipaddrAton : CStr → Option (BitVec 32)) (s : Mqtt)
    (hhost : s.cli.host ≠ []) (ans : Answers) :
    Attempts s (s.mqttTryConnect ipaddrAton ans) (s.attemptCalls ipaddrAton ans) := by
  unfold mqttTryConnect attemptCalls
  rw [if_neg hhost]
  cases ipaddrAton s.cli.host with
  | some ip => exact (attempts_mqttDNSFoundCB _ ip ans).after_calm (calm_setState s .tcp) rfl
  | none =>
      dsimp only
      cases ans.dns with
      | cached ip =>
          have hdial := attempts_mqttDNSFoundCB s.askName ip ans
          refine ⟨hdial.target, hdial.will, ?_, hdial.created, ?_, hdial.writes⟩
          · exact hdial.calls.trans (List.append_assoc _ _ _)
          · intro p hp
            rcases hdial.live p hp with hlive | ⟨hnew, ip', port, hmem⟩
            · exact .inl hlive
            · exact .inr ⟨hnew, ip', port, List.mem_cons_of_mem _ hmem⟩
      | inProgress => exact ⟨rfl, rfl, rfl, Nat.le_refl _, fun _ hp => .inl hp, rfl⟩
      | failed => exact ⟨rfl, rfl, rfl, Nat.le_refl _, fun _ hp => .inl hp, rfl⟩

/-- **A tick that retries** makes exactly the calls of its attempt. -/
theorem attempts_mqttClientTick {ms : BitVec 32} (h : s.Retries ms)
    (ipaddrAton : CStr → Option (BitVec 32)) (ans : Answers) :
    Attempts s (s.mqttClientTick ipaddrAton ms ans) (s.attemptCalls ipaddrAton ans) := by
  obtain ⟨hidle, henabled, hhost, hdue⟩ := h
  have hwait : Calm s (s.setReconnect 0#32) := calm_of_net rfl rfl rfl
  simp only [mqttClientTick, hidle, henabled, hhost, hdue, ne_eq, not_false_eq_true, and_self,
    if_true]
  exact (attempts_mqttTryConnect ipaddrAton (s.setReconnect 0#32) hhost ans).after_calm hwait rfl

/-- A lookup is begun when lwIP says that it is under way. -/
theorem lookups_mqttClientTick {ms : BitVec 32} (h : s.Retries ms)
    (ipaddrAton : CStr → Option (BitVec 32)) (ans : Answers) :
    (s.mqttClientTick ipaddrAton ms ans).net.lookups = s.net.lookups ∨
      (s.mqttClientTick ipaddrAton ms ans).net.lookups = s.net.lookups + 1 ∧
        s.attemptCalls ipaddrAton ans = [.dnsGetHostByName s.cli.host] := by
  obtain ⟨hidle, henabled, hhost, hdue⟩ := h
  have hsame : (s.setReconnect 0#32).cli.host = s.cli.host := rfl
  simp only [mqttClientTick, hidle, henabled, hhost, hdue, ne_eq, not_false_eq_true, and_self,
    if_true, mqttTryConnect, hsame, if_false]
  unfold attemptCalls
  cases ipaddrAton s.cli.host with
  | some ip => exact .inl (lookups_mqttDNSFoundCB _ ip ans)
  | none =>
      cases ans.dns with
      | cached ip => exact .inl (lookups_mqttDNSFoundCB _ ip ans)
      | inProgress => exact .inr ⟨rfl, rfl⟩
      | failed => exact .inl rfl

/-! ## The start -/

/-- A start takes over the host, the port and the login it is given. -/
theorem target_mqttClientStart (s : Mqtt) (host : CStr) (port : BitVec 16)
    (clientID user pass : CStr) :
    (s.mqttClientStart (some host) port (some clientID) (some user) (some pass)).target =
      ⟨host.take mqttStrMax, if port = 0#16 then 1883#16 else port,
        ⟨clientID.take mqttStrMax, user.take mqttStrMax, pass.take mqttStrMax⟩⟩ := rfl

/-- The will changes none of the settings of the login. -/
theorem stored_mqttClientSetWill {s : Mqtt} (topic : Option CStr) (msg : CStr) (retain : UInt8)
    (h : s.cli.Stored) : (s.mqttClientSetWill topic msg retain).cli.Stored where
  clientID := h.clientID
  user := h.user
  pass := h.pass
  will := by
    intro w hw
    obtain ⟨t, _, heq⟩ := Option.map_eq_some_iff.mp hw
    rw [← heq]
    exact ⟨List.length_take_le _ _, List.length_take_le _ _⟩

theorem writes_detachPcb (s : Mqtt) : s.detachPcb.net.writes = s.net.writes := by
  unfold detachPcb
  split <;> rfl

/-- The strings given are cut to the buffers. -/
theorem stored_mqttClientStart (s : Mqtt) (host : Option CStr) (port : BitVec 16)
    (clientID user pass : Option CStr) (h : s.cli.Stored) :
    (s.mqttClientStart host port clientID user pass).cli.Stored where
  clientID := List.length_take_le _ _
  user := List.length_take_le _ _
  pass := List.length_take_le _ _
  will := ((calm_detachPcb s).stored h).will

/-- The start frees the pcb that is held and no other. -/
theorem pcb_mqttClientStart (s : Mqtt) (host : Option CStr) (port : BitVec 16)
    (clientID user pass : Option CStr) (p : Nat) :
    (s.mqttClientStart host port clientID user pass).net.pcb p =
      if s.cli.psPcb = some p then .free else s.net.pcb p := by
  change s.detachPcb.net.pcb p = _
  unfold detachPcb
  split
  · rename_i hnone
    rw [hnone, if_neg (by simp)]
  · rename_i q hq
    rw [hq]
    by_cases hpq : p = q
    · simp [movePcb, setPcb, hpq]
    · have hne : ¬(some q = some p) := fun heq => hpq (Option.some.inj heq).symm
      simp [movePcb, setPcb, hpq, hne]

end Mqtt

end HomeAuto
