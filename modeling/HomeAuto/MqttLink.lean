import HomeAuto.MqttSteps

/-!
# Who holds the connection

`Link` is the part of the client and of lwIP that says which pcbs are alive, which one
the client holds, and in which state the client believes itself to be.  Every operation
of the client acts on it in one of five ways: it backs off, loses its pcb, drops it,
opens a new one, or believes a CONNACK.

Sending leaves the link alone.  So a delivery acts on it through its CONNACKs only,
and `foldl_connack` says what any number of them does.
-/

namespace HomeAuto

/-- The pcbs of lwIP, and what the client holds and believes. -/
structure Link where
  psPcb : Option Nat
  eState : MqttCliState
  pcb : Nat → PcbState
  created : Nat

/-- The link of a system. -/
def Mqtt.link (s : Mqtt) : Link := ⟨s.cli.psPcb, s.cli.eState, s.net.pcb, s.net.created⟩

@[simp] theorem Mqtt.link_psPcb (s : Mqtt) : s.link.psPcb = s.cli.psPcb := rfl
@[simp] theorem Mqtt.link_eState (s : Mqtt) : s.link.eState = s.cli.eState := rfl
@[simp] theorem Mqtt.link_pcb (s : Mqtt) : s.link.pcb = s.net.pcb := rfl
@[simp] theorem Mqtt.link_created (s : Mqtt) : s.link.created = s.net.created := rfl

namespace Link

/-- Assign `eState`. -/
def become (l : Link) (st : MqttCliState) : Link := { l with eState := st }

/-- A pcb changes its phase. -/
def move (l : Link) (p : Nat) (st : PcbState) : Link :=
  { l with pcb := Function.update l.pcb p st }

/-- The client forgets its pcb. -/
def forget (l : Link) : Link := { l with psPcb := none }

/-- Abort the pcb the client holds and forget it. -/
def abort (l : Link) : Link :=
  match l.psPcb with
  | none => l
  | some p => (l.move p .free).forget

/-- Abort the pcb and go idle. -/
def drop (l : Link) : Link := l.abort.become .idle

/-- A new pcb, on its way to be connected. -/
def opened (l : Link) : Link where
  psPcb := some l.created
  eState := .tcp
  pcb := Function.update l.pcb l.created .connecting
  created := l.created + 1

/-- A CONNACK. -/
def connack (l : Link) (accepted : Bool) : Link :=
  if accepted then l.become .ready else l.drop

@[simp] theorem become_psPcb (l : Link) (st : MqttCliState) : (l.become st).psPcb = l.psPcb := rfl
@[simp] theorem become_eState (l : Link) (st : MqttCliState) : (l.become st).eState = st := rfl
@[simp] theorem become_pcb (l : Link) (st : MqttCliState) : (l.become st).pcb = l.pcb := rfl
@[simp] theorem become_become (l : Link) (st st' : MqttCliState) :
    (l.become st).become st' = l.become st' := rfl
@[simp] theorem become_self (l : Link) : l.become l.eState = l := rfl
@[simp] theorem forget_psPcb (l : Link) : l.forget.psPcb = none := rfl
@[simp] theorem forget_pcb (l : Link) : l.forget.pcb = l.pcb := rfl
@[simp] theorem forget_eState (l : Link) : l.forget.eState = l.eState := rfl
@[simp] theorem move_psPcb (l : Link) (p : Nat) (st : PcbState) :
    (l.move p st).psPcb = l.psPcb := rfl
@[simp] theorem move_eState (l : Link) (p : Nat) (st : PcbState) :
    (l.move p st).eState = l.eState := rfl

/-- Without a pcb there is nothing to abort. -/
theorem abort_of_none {l : Link} (h : l.psPcb = none) : l.abort = l := by
  simp [abort, h]

theorem abort_of_some {l : Link} {p : Nat} (h : l.psPcb = some p) :
    l.abort = (l.move p .free).forget := by
  simp [abort, h]

@[simp] theorem abort_psPcb (l : Link) : l.abort.psPcb = none := by
  cases h : l.psPcb with
  | none => rw [abort_of_none h, h]
  | some p => rw [abort_of_some h, forget_psPcb]

@[simp] theorem abort_created (l : Link) : l.abort.created = l.created := by
  cases h : l.psPcb with
  | none => rw [abort_of_none h]
  | some p =>
      rw [abort_of_some h]
      rfl

@[simp] theorem drop_psPcb (l : Link) : l.drop.psPcb = none := l.abort_psPcb
@[simp] theorem drop_eState (l : Link) : l.drop.eState = .idle := rfl
@[simp] theorem drop_created (l : Link) : l.drop.created = l.created := l.abort_created

/-- An abort does not depend on the state, -/
theorem abort_become (l : Link) (st : MqttCliState) :
    (l.become st).abort = l.abort.become st := by
  cases h : l.psPcb with
  | none => rw [abort_of_none h, abort_of_none (by simpa using h)]
  | some p =>
      rw [abort_of_some h, abort_of_some (l := l.become st) (p := p) (by simpa using h)]
      rfl

/-- and a drop ends in the same one. -/
theorem drop_become (l : Link) (st : MqttCliState) : (l.become st).drop = l.drop := by
  rw [drop, abort_become, become_become, drop]

/-- A connection is dropped once. -/
theorem drop_drop (l : Link) : l.drop.drop = l.drop := by
  rw [drop, abort_of_none l.drop_psPcb, drop, become_become]

/-- What the client believes after some CONNACKs. -/
def believed (st : MqttCliState) (verdicts : List Bool) : MqttCliState :=
  match verdicts.getLast? with
  | none => st
  | some true => .ready
  | some false => .idle

/-- **Any number of CONNACKs**: the pcb is dropped when one of them refuses, and the last
one decides what the client believes. -/
theorem foldl_connack (verdicts : List Bool) (l : Link) :
    verdicts.foldl connack l =
      (if false ∈ verdicts then l.drop else l).become (believed l.eState verdicts) := by
  induction verdicts using List.reverseRecOn with
  | nil => rfl
  | append_singleton vs v ih =>
      have hlast : believed l.eState (vs ++ [v]) = if v then .ready else .idle := by
        cases v <;> simp [believed]
      rw [List.foldl_append, ih, hlast]
      cases v with
      | true =>
          have hmem : false ∈ vs ++ [true] ↔ false ∈ vs := by simp
          simp [connack, hmem]
      | false =>
          simp only [List.foldl_cons, List.foldl_nil, connack, Bool.false_eq_true, if_false,
            List.mem_append, List.mem_singleton, or_true, if_true, drop_become]
          split
          · rw [drop_drop]
            rfl
          · rfl

/-- What `MQTTTryConnect` can make of the link: nothing for an empty host, a lookup
begun, no address, no pcb, a pcb on its way, or one that `tcp_connect` refused. -/
inductive Attempt (l : Link) : Link → Prop
  | untouched : Attempt l l
  | lookup : Attempt l (l.become .dns)
  | failed : Attempt l (l.become .idle)
  | noPcb : Attempt l (l.forget.become .idle)
  | opened : Attempt l l.opened
  | refused : Attempt l l.opened.drop

end Link

namespace Mqtt

/-! ## Operations on the link -/

/-- The functions of the client, as they act on the link. -/
theorem link_setState (s : Mqtt) (st : MqttCliState) : (s.setState st).link = s.link.become st :=
  rfl

theorem link_backOff (s : Mqtt) : s.backOff.link = s.link.become .idle := rfl

theorem link_movePcb (s : Mqtt) (p : Nat) (st : PcbState) :
    (s.movePcb p st).link = s.link.move p st := rfl

/-- lwIP has freed the pcb already: the client forgets it. -/
theorem link_mqttErrCB (s : Mqtt) : s.mqttErrCB.link = s.link.forget.become .idle := rfl

theorem link_dropConnection (s : Mqtt) : s.dropConnection.link = s.link.drop := by
  rw [dropConnection, link_backOff, abortPcb]
  cases h : s.cli.psPcb with
  | none => rw [Link.drop, Link.abort_of_none (by simpa using h)]
  | some p =>
      rw [Link.drop, Link.abort_of_some (l := s.link) (p := p) (by simpa using h)]
      rfl

theorem link_detachPcb (s : Mqtt) : s.detachPcb.link = s.link.abort := by
  rw [detachPcb]
  cases h : s.cli.psPcb with
  | none => rw [Link.abort_of_none (by simpa using h)]
  | some p =>
      rw [Link.abort_of_some (l := s.link) (p := p) (by simpa using h)]
      rfl

/-- A stop drops the connection, -/
theorem link_mqttClientStop (s : Mqtt) : s.mqttClientStop.link = s.link.drop := by
  rw [mqttClientStop, link_setState, link_detachPcb]
  rfl

/-- and so does a start. -/
theorem link_mqttClientStart (s : Mqtt) (host : Option CStr) (port : BitVec 16)
    (clientID user pass : Option CStr) :
    (s.mqttClientStart host port clientID user pass).link = s.link.drop :=
  congrArg (Link.become · .idle) (link_detachPcb s)

/-- What a DNS answer does to the link. -/
theorem link_mqttDNSFoundCB (s : Mqtt) (ip : Option (BitVec 32)) (ans : Answers) :
    (s.mqttDNSFoundCB ip ans).link =
      if ip = none then s.link.become .idle
      else if ans.tcpNew = false then s.link.forget.become .idle
      else if ans.tcpConnect then s.link.opened
      else s.link.opened.drop := by
  unfold mqttDNSFoundCB
  cases ip with
  | none => rfl
  | some ip =>
      cases ans.tcpNew with
      | false => rfl
      | true =>
          cases ans.tcpConnect with
          | true => rfl
          | false => exact link_dropConnection _

/-! ## Sending leaves the link alone -/

/-- What every callback keeps: the `bEnabled` flag, a keep-alive time that is at most
reset, and, when no pcb is held, silence. -/
structure Steady (s s' : Mqtt) : Prop where
  enabled : s'.cli.bEnabled = s.cli.bEnabled
  keepAlive : s'.cli.keepAliveMs = s.cli.keepAliveMs ∨ s'.cli.keepAliveMs = 0#32
  created : s'.net.created = s.net.created
  silent : s.cli.psPcb = none → s'.cli.psPcb = none ∧ s'.net.writes = s.net.writes

theorem Steady.refl (s : Mqtt) : Steady s s := ⟨rfl, .inl rfl, rfl, fun h => ⟨h, rfl⟩⟩

/-- What every callback keeps, any number of them keeps. -/
theorem Steady.trans {s t u : Mqtt} (h : Steady s t) (h' : Steady t u) : Steady s u where
  enabled := h'.enabled.trans h.enabled
  keepAlive := by
    rcases h'.keepAlive with hu | hu
    · rcases h.keepAlive with ht | ht
      · exact .inl (hu.trans ht)
      · exact .inr (hu.trans ht)
    · exact .inr hu
  created := h'.created.trans h.created
  silent := by
    intro hnone
    have ht := h.silent hnone
    have hu := h'.silent ht.1
    exact ⟨hu.1, hu.2.trans ht.2⟩

/-- A send keeps the link as well. -/
structure SendsOnly (s s' : Mqtt) : Prop extends Steady s s' where
  link : s'.link = s.link

theorem SendsOnly.refl (s : Mqtt) : SendsOnly s s := ⟨Steady.refl s, rfl⟩

theorem SendsOnly.trans {s t u : Mqtt} (h : SendsOnly s t) (h' : SendsOnly t u) :
    SendsOnly s u := ⟨h.toSteady.trans h'.toSteady, h'.link.trans h.link⟩

/-- A send leaves the link alone, also where TCP refuses it. -/
theorem sendsOnly_mqttSendRaw (s : Mqtt) (bytes : List UInt8) (ans : Answers) :
    SendsOnly s (s.mqttSendRaw bytes ans).1 := by
  unfold mqttSendRaw
  cases h : s.cli.psPcb with
  | none => exact .refl s
  | some p =>
      have hheld : s.cli.psPcb ≠ none := by simp [h]
      by_cases hst : beforeConnect s.cli.eState = true
      · simpa [hst] using SendsOnly.refl s
      · by_cases hw : ans.tcpWrite s.net.writeCalls = true
        · simp only [hst, hw, Bool.false_eq_true, if_false, if_true]
          exact ⟨⟨rfl, .inr rfl, rfl, fun hnone => absurd hnone hheld⟩, rfl⟩
        · simp only [hst, hw, Bool.false_eq_true, if_false]
          exact ⟨⟨rfl, .inl rfl, rfl, fun hnone => absurd hnone hheld⟩, rfl⟩

theorem sendsOnly_mqttClientPublish (s : Mqtt) (topic : CStr) (payload : List UInt8)
    (retain : UInt8) (ans : Answers) :
    SendsOnly s (s.mqttClientPublish topic payload retain ans).1 := by
  unfold mqttClientPublish
  split
  · exact .refl s
  · split
    · exact .refl s
    · exact sendsOnly_mqttSendRaw s _ ans

theorem sendsOnly_mqttClientSubscribe (s : Mqtt) (topic : CStr) (ans : Answers) :
    SendsOnly s (s.mqttClientSubscribe topic ans).1 := by
  unfold mqttClientSubscribe
  split
  · exact .refl s
  · have hid : SendsOnly s { s with cli := { s.cli with packetID := s.cli.packetID + 1#16 } } :=
      ⟨⟨rfl, .inl rfl, rfl, fun h => ⟨h, rfl⟩⟩, rfl⟩
    exact hid.trans (sendsOnly_mqttSendRaw _ _ ans)

theorem sendsOnly_appCall (ans : Answers) (s : Mqtt) (c : AppCall) :
    SendsOnly s (appCall ans s c) := by
  cases c with
  | publish topic payload retain => exact sendsOnly_mqttClientPublish s topic payload retain ans
  | subscribe topic => exact sendsOnly_mqttClientSubscribe s topic ans

/-- The calls of the application are sends. -/
theorem sendsOnly_appCalls (ans : Answers) (calls : List AppCall) (s : Mqtt) :
    SendsOnly s (calls.foldl (appCall ans) s) := by
  induction calls generalizing s with
  | nil => exact .refl s
  | cons c calls ih => exact (sendsOnly_appCall ans s c).trans (ih _)

/-- Only CONNACKs touch the link. -/
theorem sendsOnly_mqttHandlePacket (ans : Answers) (s : Mqtt) (pkt : RxHeader × List UInt8)
    (h : connackVerdict pkt = none) : SendsOnly s (mqttHandlePacket ans s pkt) := by
  simp only [mqttHandlePacket, h]
  split
  · exact ⟨⟨rfl, .inl rfl, rfl, fun h => ⟨h, rfl⟩⟩, rfl⟩
  · split
    · cases publishBody (pkt.2.drop pkt.1.hdrLen) pkt.1.remLen with
      | none => exact .refl s
      | some m => exact sendsOnly_appCalls ans (ans.react m.1 m.2) s
    · exact .refl s

/-! ## Steady operations -/

theorem steady_backOff (s : Mqtt) : Steady s s.backOff :=
  ⟨rfl, .inl rfl, rfl, fun h => ⟨h, rfl⟩⟩

theorem steady_dropConnection (s : Mqtt) : Steady s s.dropConnection := by
  rw [dropConnection, abortPcb]
  cases h : s.cli.psPcb with
  | none => exact steady_backOff s
  | some p => exact ⟨rfl, .inl rfl, rfl, fun hnone => absurd hnone (by simp [h])⟩

/-- A CONNACK keeps the settings, -/
theorem steady_connack (s : Mqtt) (accepted : Bool) : Steady s (s.connack accepted) := by
  cases accepted with
  | true => exact ⟨rfl, .inl rfl, rfl, fun h => ⟨h, rfl⟩⟩
  | false => exact steady_dropConnection s

/-- and acts on the link. -/
theorem link_connack (s : Mqtt) (accepted : Bool) :
    (s.connack accepted).link = s.link.connack accepted := by
  cases accepted with
  | true => rfl
  | false => exact link_dropConnection s

/-! ## A delivery -/

/-- The verdicts of the CONNACKs that a delivery completes. -/
def connackVerdicts (rx : List UInt8) (segs : List (List UInt8)) : List Bool :=
  (rxParse rx segs).1.filterMap connackVerdict

/-- Every packet that is handed on keeps the settings, -/
theorem steady_handOn (ans : Answers) (s : Mqtt) (pkt : RxHeader × List UInt8) :
    Steady s (handOn ans s pkt) := by
  have hpush : Steady s { s with handled := s.handled ++ [pkt.2] } :=
    ⟨rfl, .inl rfl, rfl, fun h => ⟨h, rfl⟩⟩
  rw [handOn]
  cases h : connackVerdict pkt with
  | none => exact hpush.trans (sendsOnly_mqttHandlePacket ans _ pkt h).toSteady
  | some v =>
      simp only [mqttHandlePacket, h]
      exact hpush.trans (steady_connack _ v)

/-- and acts on the link if it is a CONNACK. -/
theorem link_handOn (ans : Answers) (s : Mqtt) (pkt : RxHeader × List UInt8) :
    (handOn ans s pkt).link = (connackVerdict pkt).toList.foldl Link.connack s.link := by
  rw [handOn]
  cases h : connackVerdict pkt with
  | none => exact (sendsOnly_mqttHandlePacket ans _ pkt h).link
  | some v =>
      simp only [mqttHandlePacket, h]
      exact link_connack _ v

theorem steady_handOns (ans : Answers) (pkts : List (RxHeader × List UInt8)) (s : Mqtt) :
    Steady s (pkts.foldl (handOn ans) s) := by
  induction pkts generalizing s with
  | nil => exact .refl s
  | cons pkt pkts ih => exact (steady_handOn ans s pkt).trans (ih _)

/-- The packets of a delivery act on it one after the other. -/
theorem link_handOns (ans : Answers) (pkts : List (RxHeader × List UInt8)) (s : Mqtt) :
    (pkts.foldl (handOn ans) s).link =
      (pkts.filterMap connackVerdict).foldl Link.connack s.link := by
  induction pkts generalizing s with
  | nil => rfl
  | cons pkt pkts ih =>
      rw [List.foldl_cons, ih, link_handOn]
      cases h : connackVerdict pkt <;> simp [h]

theorem steady_recvData (s : Mqtt) (segs : List (List UInt8)) (ans : Answers) :
    Steady s (s.recvData segs ans) := by
  have hpar := steady_handOns ans (rxParse s.cli.rx segs).1 s
  exact ⟨hpar.enabled, hpar.keepAlive, hpar.created, hpar.silent⟩

/-- **A delivery acts on the link through its CONNACKs.** -/
theorem link_recvData (s : Mqtt) (segs : List (List UInt8)) (ans : Answers) :
    (s.recvData segs ans).link =
      (if false ∈ connackVerdicts s.cli.rx segs then s.link.drop else s.link).become
        (Link.believed s.cli.eState (connackVerdicts s.cli.rx segs)) := by
  have hfold := link_handOns ans (rxParse s.cli.rx segs).1 s
  rw [Link.foldl_connack] at hfold
  exact hfold

/-- The peer closes: a pcb that is held is forgotten. -/
theorem link_recvClosed (s : Mqtt) (p : Nat) :
    (s.recvClosed p).link =
      if s.cli.psPcb = some p then ((s.link.move p .closing).forget).become .idle
      else s.link.move p .closing := by
  unfold recvClosed
  split <;> rfl

theorem steady_recvClosed (s : Mqtt) (p : Nat) : Steady s (s.recvClosed p) := by
  unfold recvClosed
  split
  · exact ⟨rfl, .inl rfl, rfl, fun _ => ⟨rfl, rfl⟩⟩
  · exact ⟨rfl, .inl rfl, rfl, fun h => ⟨h, rfl⟩⟩

/-- The receive callback keeps the settings, -/
theorem steady_mqttRecvCB (s : Mqtt) (p : Nat) (buf : Option (List (List UInt8)))
    (eErr : LwipErr) (ans : Answers) : Steady s (s.mqttRecvCB p buf eErr ans) := by
  unfold mqttRecvCB
  cases buf with
  | none => exact steady_recvClosed s p
  | some segs =>
      by_cases h : eErr ≠ .ok
      · simpa [h] using steady_recvClosed s p
      · simpa [h] using steady_recvData s segs ans

/-- and the connected callback too; -/
theorem steady_mqttConnectedCB (s : Mqtt) (eErr : LwipErr) (ans : Answers) :
    Steady s (s.mqttConnectedCB eErr ans).1 := by
  unfold mqttConnectedCB
  split
  · exact .refl s
  · have henter : Steady s s.enterConnect := ⟨rfl, .inr rfl, rfl, fun h => ⟨h, rfl⟩⟩
    exact henter.trans (sendsOnly_mqttSendRaw _ _ ans).toSteady

/-- it waits for the CONNACK from then on. -/
theorem link_mqttConnectedCB (s : Mqtt) (eErr : LwipErr) (ans : Answers) :
    (s.mqttConnectedCB eErr ans).1.link =
      if eErr = .ok then s.link.become .connect else s.link := by
  unfold mqttConnectedCB
  by_cases h : eErr = .ok
  · simp only [h, ne_eq, not_true_eq_false, if_false, if_true]
    exact (sendsOnly_mqttSendRaw _ _ ans).link
  · simp [h]

/-! ## A tick -/

/-- A DNS answer with an address, whatever the client believed before. -/
theorem attempt_mqttDNSFoundCB (s : Mqtt) (st : MqttCliState) (ip : BitVec 32) (ans : Answers) :
    Link.Attempt s.link ((s.setState st).mqttDNSFoundCB (some ip) ans).link := by
  rw [link_mqttDNSFoundCB, link_setState]
  cases ans.tcpNew with
  | false => exact .noPcb
  | true =>
      cases ans.tcpConnect with
      | true => exact .opened
      | false => exact .refused

/-- An attempt makes of the link what `Link.Attempt` says. -/
theorem attempt_mqttTryConnect (ipaddrAton : CStr → Option (BitVec 32)) (s : Mqtt)
    (ans : Answers) : Link.Attempt s.link (s.mqttTryConnect ipaddrAton ans).link :=
  mqttTryConnect_rule (P := fun t => Link.Attempt s.link t.link) .untouched
    (fun ip => attempt_mqttDNSFoundCB s .tcp ip ans)
    (fun ip => attempt_mqttDNSFoundCB (s.call (.dnsGetHostByName s.cli.host)) .dns ip ans)
    .lookup .failed ipaddrAton

theorem sendsOnly_pingIfDue (s : Mqtt) (ans : Answers) : SendsOnly s (s.pingIfDue ans) := by
  unfold pingIfDue
  split
  · have hping : SendsOnly s (s.mqttSendPing ans) := sendsOnly_mqttSendRaw s _ ans
    split
    · exact hping.trans ⟨⟨rfl, .inl rfl, rfl, fun h => ⟨h, rfl⟩⟩, rfl⟩
    · exact hping
  · exact .refl s

/-- A tick of a session drops it if the broker does not answer a ping, -/
theorem link_awaitPong (s : Mqtt) (ms : BitVec 32) :
    (s.awaitPong ms).link = s.link ∨ (s.awaitPong ms).link = s.link.drop := by
  unfold awaitPong
  split
  · exact .inl rfl
  · split
    · exact .inr (link_dropConnection _)
    · exact .inl rfl

/-- while it is ready -/
theorem link_tickReady (s : Mqtt) (ms : BitVec 32) (ans : Answers) :
    (s.tickReady ms ans).link = s.link ∨ (s.tickReady ms ans).link = s.link.drop := by
  have hping : ((s.addKeepAlive ms).pingIfDue ans).link = s.link :=
    (sendsOnly_pingIfDue (s.addKeepAlive ms) ans).link
  rcases link_awaitPong ((s.addKeepAlive ms).pingIfDue ans) ms with h | h
  · exact .inl (h.trans hping)
  · exact .inr (h.trans (congrArg Link.drop hping))

/-- or while it is being set up. -/
theorem link_tickConnecting (s : Mqtt) (ms : BitVec 32) :
    (s.tickConnecting ms).link = s.link ∨ (s.tickConnecting ms).link = s.link.drop := by
  unfold tickConnecting
  split
  · exact .inr (link_dropConnection _)
  · exact .inl rfl

/-- **What a tick does to the link**: nothing, an attempt when idle, or a drop. -/
theorem link_mqttClientTick (ipaddrAton : CStr → Option (BitVec 32)) (s : Mqtt)
    (ms : BitVec 32) (ans : Answers) :
    (s.mqttClientTick ipaddrAton ms ans).link = s.link ∨
      s.cli.eState = .idle ∧ Link.Attempt s.link (s.mqttClientTick ipaddrAton ms ans).link ∨
      (s.mqttClientTick ipaddrAton ms ans).link = s.link.drop := by
  exact mqttClientTick_rule
    (P := fun t => t.link = s.link ∨ s.cli.eState = .idle ∧ Link.Attempt s.link t.link ∨
      t.link = s.link.drop)
    (fun _ => .inl rfl) (fun _ => .inl rfl)
    (fun hidle _ _ =>
      .inr (.inl ⟨hidle, attempt_mqttTryConnect ipaddrAton (s.setReconnect 0#32) ans⟩))
    (fun _ => (link_tickReady s ms ans).imp_right .inr)
    (fun _ _ => (link_tickConnecting s ms).imp_right .inr)

end Mqtt

end HomeAuto
