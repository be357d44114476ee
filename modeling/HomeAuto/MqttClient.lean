import HomeAuto.MqttFraming
import HomeAuto.MqttPackets

/-!
# The MQTT client (`mqtt_client.c`) on lwIP

`MqttClient` is the static state `g_sCli`.  lwIP is not part of the sources; what the
client relies on of it is modelled by `LwIP`, the connection objects (pcbs) created so
far with the phase each is in, and by the answers lwIP gives to the calls made during
one event.  All callbacks run to completion under the client's lock, so a run is a
list of events: calls of the application, ticks, and the callbacks lwIP may deliver.

Two facts about lwIP enter the definitions: `tcp_abort` calls the error callback that
is still registered for the pcb, and a pcb given to `tcp_close` keeps its error callback
until lwIP has freed it.
-/

namespace HomeAuto

/-- `tMQTTCliState`. -/
inductive MqttCliState
  | idle
  | dns
  | tcp
  | connect
  | ready
  deriving DecidableEq, Repr

/-- `tMQTTClient`.  A pcb is named by the number of pcbs created before it; `rx` is the
filled part of the assembly buffer. -/
structure MqttClient where
  psPcb : Option Nat
  eState : MqttCliState
  bEnabled : Bool
  brokerIP : BitVec 32
  host : CStr
  port : BitVec 16
  clientID : CStr
  user : CStr
  pass : CStr
  will : Option MqttWill
  packetID : BitVec 16
  keepAliveMs : BitVec 32
  reconnectMs : BitVec 32
  pingWaitMs : BitVec 32
  rx : List UInt8

/-- `MQTTClientInit`. -/
def MqttClient.init : MqttClient where
  psPcb := none
  eState := .idle
  bEnabled := false
  brokerIP := 0#32
  host := []
  port := 0#16
  clientID := []
  user := []
  pass := []
  will := none
  packetID := 1#16
  keepAliveMs := 0#32
  reconnectMs := 0#32
  pingWaitMs := 0#32
  rx := []

/-- The phase of a pcb.  `closing` is after `tcp_close`; `free` covers pcbs not yet
created, aborted, or freed by lwIP. -/
inductive PcbState
  | free
  | connecting
  | established
  | closing
  deriving DecidableEq, Repr

/-- A call of lwIP that is made to open a connection. -/
inductive LwipCall
  | dnsGetHostByName (name : CStr)
  | tcpNew
  | tcpConnect (p : Nat) (ip : BitVec 32) (port : BitVec 16)
  deriving DecidableEq

/-- What the client can observe of lwIP, and what lwIP observes of the client: its pcbs, the
lookups begun, the `tcp_write` calls made, the writes accepted, and the calls made to open a
connection. -/
structure LwIP where
  pcb : Nat → PcbState
  created : Nat
  lookups : Nat
  writeCalls : Nat
  writes : List (Nat × List UInt8)
  calls : List LwipCall

/-- The client, lwIP, and the packets handed to `MQTTHandlePacket` so far. -/
structure Mqtt where
  cli : MqttClient
  net : LwIP
  handled : List (List UInt8)

/-- The system after `MQTTClientInit`. -/
def Mqtt.init : Mqtt where
  cli := .init
  net := ⟨fun _ => .free, 0, 0, 0, [], []⟩
  handled := []

/-- The result of `dns_gethostbyname`. -/
inductive DnsAnswer
  | cached (ip : BitVec 32)
  | inProgress
  | failed

/-- A call the application makes while it handles an inbound message. -/
inductive AppCall
  | publish (topic : CStr) (payload : List UInt8) (retain : UInt8)
  | subscribe (topic : CStr)

/-- What lwIP and the application answer during one event: the lookup, whether `tcp_new`
and `tcp_connect` succeed, whether the n-th `tcp_write` does, and the calls the
application makes on a message. -/
structure Answers where
  dns : DnsAnswer
  tcpNew : Bool
  tcpConnect : Bool
  tcpWrite : Nat → Bool
  react : CStr → List UInt8 → List AppCall

/-- An lwIP that begins lookups, has pcbs to give and takes every write, and an application
that makes no call. -/
def Answers.obliging : Answers where
  dns := .inProgress
  tcpNew := true
  tcpConnect := true
  tcpWrite := fun _ => true
  react := fun _ _ => []

/-- The return codes of the lwIP callbacks. -/
inductive LwipErr
  | ok
  | abrt
  | other
  deriving DecidableEq, Repr

namespace Mqtt

/-! ## Assignments and lwIP calls -/

/-- Assign `eState`. -/
def setState (s : Mqtt) (st : MqttCliState) : Mqtt := { s with cli := { s.cli with eState := st } }

/-- Assign `psPcb`. -/
def setPcb (s : Mqtt) (p : Option Nat) : Mqtt := { s with cli := { s.cli with psPcb := p } }

/-- Assign `ui32PingWaitMs`. -/
def setPingWait (s : Mqtt) (ms : BitVec 32) : Mqtt :=
  { s with cli := { s.cli with pingWaitMs := ms } }

/-- Assign `ui32ReconnectMs`. -/
def setReconnect (s : Mqtt) (ms : BitVec 32) : Mqtt :=
  { s with cli := { s.cli with reconnectMs := ms } }

/-- `eState = MQTT_CLI_IDLE; ui32ReconnectMs = MQTT_RECONNECT_MS`. -/
def backOff (s : Mqtt) : Mqtt :=
  { s with cli := { s.cli with
      eState := .idle, reconnectMs := BitVec.ofNat 32 mqttReconnectMs } }

/-- lwIP moves a pcb to another phase. -/
def movePcb (s : Mqtt) (p : Nat) (st : PcbState) : Mqtt :=
  { s with net := { s.net with pcb := Function.update s.net.pcb p st } }

/-- `MQTTErrCB`: the pcb is gone, whichever it was. -/
def mqttErrCB (s : Mqtt) : Mqtt := (s.setPcb none).backOff

/-- `tcp_abort` on a pcb whose error callback is registered. -/
def tcpAbort (s : Mqtt) (p : Nat) : Mqtt := (s.movePcb p .free).mqttErrCB

/-- `if(psPcb) { tcp_abort(psPcb); psPcb = NULL; }`. -/
def abortPcb (s : Mqtt) : Mqtt :=
  match s.cli.psPcb with
  | none => s
  | some p => (s.tcpAbort p).setPcb none

/-- The teardown of a failed connection: abort, then back off. -/
def dropConnection (s : Mqtt) : Mqtt := s.abortPcb.backOff

/-- The deliberate teardown of `MQTTClientStart` and `MQTTClientStop`: the callbacks are
detached first, so the abort does not call back. -/
def detachPcb (s : Mqtt) : Mqtt :=
  match s.cli.psPcb with
  | none => s
  | some p => (s.movePcb p .free).setPcb none

/-- Call lwIP to open a connection. -/
def call (s : Mqtt) (c : LwipCall) : Mqtt :=
  { s with net := { s.net with calls := s.net.calls ++ [c] } }

/-- `tcp_new` and the assignments up to `tcp_connect`, and this call. -/
def openPcb (s : Mqtt) (ip : BitVec 32) : Mqtt where
  cli := { s.cli with psPcb := some s.net.created, brokerIP := ip, eState := .tcp, rx := [] }
  net := { s.net with
    pcb := Function.update s.net.pcb s.net.created .connecting
    created := s.net.created + 1
    calls := s.net.calls ++ [.tcpNew, .tcpConnect s.net.created ip s.cli.port] }
  handled := s.handled

/-! ## Connecting -/

/-- `MQTTDNSFoundCB`. -/
def mqttDNSFoundCB (s : Mqtt) (ip : Option (BitVec 32)) (ans : Answers) : Mqtt :=
  match ip with
  | none => s.backOff
  | some ip =>
      if ans.tcpNew then
        if ans.tcpConnect then s.openPcb ip else (s.openPcb ip).dropConnection
      else
        (({ s with cli := { s.cli with brokerIP := ip } }.call .tcpNew).setPcb none).backOff

/-- `eState = MQTT_CLI_DNS`, and the call of `dns_gethostbyname`. -/
def askName (s : Mqtt) : Mqtt := (s.setState .dns).call (.dnsGetHostByName s.cli.host)

/-- `MQTTTryConnect`; `ipaddrAton` reads a dotted quad. -/
def mqttTryConnect (ipaddrAton : CStr → Option (BitVec 32)) (s : Mqtt) (ans : Answers) : Mqtt :=
  if s.cli.host = [] then s
  else
    match ipaddrAton s.cli.host with
    | some ip => (s.setState .tcp).mqttDNSFoundCB (some ip) ans
    | none =>
        match ans.dns with
        | .cached ip => s.askName.mqttDNSFoundCB (some ip) ans
        | .inProgress => { s.askName with net := { s.askName.net with lookups := s.net.lookups + 1 } }
        | .failed => s.askName.backOff

/-! ## Sending -/

/-- The states below `MQTT_CLI_CONNECT`. -/
def beforeConnect (st : MqttCliState) : Bool := st = .idle || st = .dns || st = .tcp

/-- `MQTTSendRaw`, with whether it returned 0. -/
def mqttSendRaw (s : Mqtt) (bytes : List UInt8) (ans : Answers) : Mqtt × Bool :=
  match s.cli.psPcb with
  | none => (s, false)
  | some p =>
      if beforeConnect s.cli.eState then (s, false)
      else if ans.tcpWrite s.net.writeCalls then
        ({ s with
            cli := { s.cli with keepAliveMs := 0#32 }
            net := { s.net with
              writeCalls := s.net.writeCalls + 1, writes := s.net.writes ++ [(p, bytes)] } },
          true)
      else ({ s with net := { s.net with writeCalls := s.net.writeCalls + 1 } }, false)

/-- `MQTTSendConnect`. -/
def mqttSendConnect (s : Mqtt) (ans : Answers) : Mqtt × Bool :=
  s.mqttSendRaw (mqttConnectPacket s.cli.clientID s.cli.user s.cli.pass s.cli.will) ans

/-- `MQTTClientPublish`, with whether it returned 0. -/
def mqttClientPublish (s : Mqtt) (topic : CStr) (payload : List UInt8) (retain : UInt8)
    (ans : Answers) : Mqtt × Bool :=
  if s.cli.eState ≠ .ready then (s, false)
  else if mqttTxbufSize < mqttPublishRem topic payload + 5 then (s, false)
  else s.mqttSendRaw (mqttPublishPacket topic payload retain) ans

/-- `MQTTClientSubscribe`, with whether it returned 0. -/
def mqttClientSubscribe (s : Mqtt) (topic : CStr) (ans : Answers) : Mqtt × Bool :=
  if s.cli.eState ≠ .ready then (s, false)
  else
    { s with cli := { s.cli with packetID := s.cli.packetID + 1#16 } }.mqttSendRaw
      (mqttSubscribePacket s.cli.packetID topic) ans

/-- A call of the application. -/
def appCall (ans : Answers) (s : Mqtt) : AppCall → Mqtt
  | .publish topic payload retain => (s.mqttClientPublish topic payload retain ans).1
  | .subscribe topic => (s.mqttClientSubscribe topic ans).1

/-! ## Receiving -/

/-- The assignments of `MQTTConnectedCB`. -/
def enterConnect (s : Mqtt) : Mqtt :=
  { s with cli := { s.cli with
      eState := .connect, keepAliveMs := 0#32, pingWaitMs := 0#32 } }

/-- `MQTTConnectedCB`. -/
def mqttConnectedCB (s : Mqtt) (eErr : LwipErr) (ans : Answers) : Mqtt × LwipErr :=
  if eErr ≠ .ok then (s, eErr)
  else
    ((s.enterConnect.mqttSendConnect ans).1,
      if (s.enterConnect.mqttSendConnect ans).2 then .ok else .abrt)

/-- The verdict of a CONNACK: accepted or refused; `none` for any other packet. -/
def connackVerdict (pkt : RxHeader × List UInt8) : Option Bool :=
  if charAt pkt.2 0 &&& 0xF0 = 0x20 then
    some (2 ≤ pkt.1.remLen && charAt (pkt.2.drop pkt.1.hdrLen) 1 = 0)
  else none

/-- What a CONNACK does. -/
def connack (s : Mqtt) (accepted : Bool) : Mqtt :=
  if accepted then s.setState .ready else s.dropConnection

/-- A PUBLISH body: topic and payload, when the lengths agree. -/
def publishBody (body : List UInt8) (remLen : Nat) : Option (CStr × List UInt8) :=
  let topicLen := (charAt body 0).toNat * 256 + (charAt body 1).toNat
  if 2 ≤ remLen ∧ 2 + topicLen ≤ remLen then
    some ((body.drop 2).take topicLen,
      (body.drop (2 + topicLen)).take ((remLen - 2 - topicLen) % 65536))
  else none

/-- `MQTTHandlePacket`. -/
def mqttHandlePacket (ans : Answers) (s : Mqtt) (pkt : RxHeader × List UInt8) : Mqtt :=
  match connackVerdict pkt with
  | some accepted => s.connack accepted
  | none =>
      if charAt pkt.2 0 &&& 0xF0 = 0xD0 then s.setPingWait 0#32
      else if charAt pkt.2 0 &&& 0xF0 = 0x30 then
        match publishBody (pkt.2.drop pkt.1.hdrLen) pkt.1.remLen with
        | some (topic, payload) => (ans.react topic payload).foldl (appCall ans) s
        | none => s
      else s

/-- One pass of the parse loop: hand a packet on. -/
def handOn (ans : Answers) (s : Mqtt) (pkt : RxHeader × List UInt8) : Mqtt :=
  mqttHandlePacket ans { s with handled := s.handled ++ [pkt.2] } pkt

/-- The packets a delivery completes, and what stays in the buffer. -/
def rxParse (rx : List UInt8) (segs : List (List UInt8)) :
    List (RxHeader × List UInt8) × List UInt8 :=
  Framing.parse rxHeader RxHeader.size (segs.foldl (Framing.accumulate mqttRxbufSize) rx)

/-- `MQTTRecvCB` when the peer has closed: the callbacks' argument is cleared and the pcb
is given to `tcp_close`. -/
def recvClosed (s : Mqtt) (p : Nat) : Mqtt :=
  if s.cli.psPcb = some p then ((s.movePcb p .closing).setPcb none).backOff
  else s.movePcb p .closing

/-- Compact the assembly buffer to the bytes not yet parsed. -/
def setRx (s : Mqtt) (rx : List UInt8) : Mqtt := { s with cli := { s.cli with rx := rx } }

/-- `MQTTRecvCB` with data, a chain of segments. -/
def recvData (s : Mqtt) (segs : List (List UInt8)) (ans : Answers) : Mqtt :=
  ((rxParse s.cli.rx segs).1.foldl (handOn ans) s).setRx (rxParse s.cli.rx segs).2

/-- `MQTTRecvCB`; it always returns `ERR_OK`. -/
def mqttRecvCB (s : Mqtt) (p : Nat) (buf : Option (List (List UInt8))) (eErr : LwipErr)
    (ans : Answers) : Mqtt :=
  match buf with
  | none => s.recvClosed p
  | some segs => if eErr ≠ .ok then s.recvClosed p else s.recvData segs ans

/-! ## Calls of the application -/

/-- `MQTTClientSetWill`. -/
def mqttClientSetWill (s : Mqtt) (topic : Option CStr) (msg : CStr) (retain : UInt8) : Mqtt :=
  { s with cli := { s.cli with
      will := topic.map fun t => ⟨t.take mqttStrMax, msg.take mqttStrMax, retain⟩ } }

/-- `MQTTClientStart`. -/
def mqttClientStart (s : Mqtt) (host : Option CStr) (port : BitVec 16)
    (clientID user pass : Option CStr) : Mqtt :=
  { s.detachPcb with cli := { s.detachPcb.cli with
      host := (host.getD []).take mqttStrMax
      port := if port = 0#16 then 1883#16 else port
      clientID := (clientID.getD (ascii "tm4c")).take mqttStrMax
      user := (user.getD []).take mqttStrMax
      pass := (pass.getD []).take mqttStrMax
      bEnabled := true
      eState := .idle
      reconnectMs := 0#32 } }

/-- `MQTTClientStop`. -/
def mqttClientStop (s : Mqtt) : Mqtt :=
  { s with cli := { s.cli with bEnabled := false } }.detachPcb.setState .idle

/-- Add the tick time to `ui32KeepAliveMs`. -/
def addKeepAlive (s : Mqtt) (ms : BitVec 32) : Mqtt :=
  { s with cli := { s.cli with keepAliveMs := s.cli.keepAliveMs + ms } }

/-- `MQTTSendPing`. -/
def mqttSendPing (s : Mqtt) (ans : Answers) : Mqtt := (s.mqttSendRaw mqttPingPacket ans).1

/-- The tick in READY, first part: ping at half the keep-alive time. -/
def pingIfDue (s : Mqtt) (ans : Answers) : Mqtt :=
  if mqttKeepaliveS * 1000 / 2 ≤ s.cli.keepAliveMs.toNat then
    if (s.mqttSendPing ans).cli.pingWaitMs = 0#32 then (s.mqttSendPing ans).setPingWait 1#32
    else s.mqttSendPing ans
  else s

/-- The tick in READY, second part: drop the link when a ping has gone unanswered for too
long. -/
def awaitPong (s : Mqtt) (ms : BitVec 32) : Mqtt :=
  if s.cli.pingWaitMs = 0#32 then s
  else if mqttKeepaliveS * 1000 < (s.cli.pingWaitMs + ms).toNat then
    (s.setPingWait (s.cli.pingWaitMs + ms)).dropConnection
  else s.setPingWait (s.cli.pingWaitMs + ms)

/-- The tick in READY. -/
def tickReady (s : Mqtt) (ms : BitVec 32) (ans : Answers) : Mqtt :=
  ((s.addKeepAlive ms).pingIfDue ans).awaitPong ms

/-- The connect timeout. -/
def connectTimeoutMs : Nat := 10000

/-- The tick of an attempt: `ui32KeepAliveMs` guards against one that never completes. -/
def tickConnecting (s : Mqtt) (ms : BitVec 32) : Mqtt :=
  if connectTimeoutMs < (s.cli.keepAliveMs + ms).toNat then (s.addKeepAlive ms).dropConnection
  else s.addKeepAlive ms

/-- `MQTTClientTick`. -/
def mqttClientTick (ipaddrAton : CStr → Option (BitVec 32)) (s : Mqtt) (ms : BitVec 32)
    (ans : Answers) : Mqtt :=
  match s.cli.eState with
  | .idle =>
      if s.cli.bEnabled = true ∧ s.cli.host ≠ [] then
        if s.cli.reconnectMs.toNat ≤ ms.toNat then
          (s.setReconnect 0#32).mqttTryConnect ipaddrAton ans
        else s.setReconnect (s.cli.reconnectMs - ms)
      else s
  | .ready => s.tickReady ms ans
  | .dns | .tcp | .connect => s.tickConnecting ms

end Mqtt

/-! ## Events -/

/-- An event: a call of the application, a tick, or a callback of lwIP. -/
inductive MqttEvent
  | setWill (topic : Option CStr) (msg : CStr) (retain : UInt8)
  | start (host : Option CStr) (port : BitVec 16) (clientID user pass : Option CStr)
  | stop
  | publish (topic : CStr) (payload : List UInt8) (retain : UInt8) (ans : Answers)
  | subscribe (topic : CStr) (ans : Answers)
  | tick (ms : BitVec 32) (ans : Answers)
  | dnsFound (ip : Option (BitVec 32)) (ans : Answers)
  | connected (p : Nat) (eErr : LwipErr) (ans : Answers)
  | recv (p : Nat) (buf : Option (List (List UInt8))) (eErr : LwipErr) (ans : Answers)
  | err (p : Nat)

/-- The callbacks lwIP can deliver: an answer to a lookup begun before (late, or again),
the connection of a connecting pcb, data or a close on an established one, and an error
on any pcb it has not freed yet. -/
def LwIP.CanDeliver (net : LwIP) : MqttEvent → Prop
  | .dnsFound _ _ => 0 < net.lookups
  | .connected p _ _ => net.pcb p = .connecting
  | .recv p _ _ _ => net.pcb p = .established
  | .err p => net.pcb p ≠ .free
  | _ => True

instance (net : LwIP) (e : MqttEvent) : Decidable (net.CanDeliver e) :=
  match e with
  | .dnsFound _ _ => inferInstanceAs (Decidable (0 < _))
  | .connected _ _ _ => inferInstanceAs (Decidable (_ = _))
  | .recv _ _ _ _ => inferInstanceAs (Decidable (_ = _))
  | .err _ => inferInstanceAs (Decidable (_ ≠ _))
  | .setWill _ _ _ => inferInstanceAs (Decidable True)
  | .start _ _ _ _ _ => inferInstanceAs (Decidable True)
  | .stop => inferInstanceAs (Decidable True)
  | .publish _ _ _ _ => inferInstanceAs (Decidable True)
  | .subscribe _ _ => inferInstanceAs (Decidable True)
  | .tick _ _ => inferInstanceAs (Decidable True)

namespace Mqtt

variable (ipaddrAton : CStr → Option (BitVec 32))

/-- What an event does when it occurs. -/
def perform (s : Mqtt) : MqttEvent → Mqtt
  | .setWill topic msg retain => s.mqttClientSetWill topic msg retain
  | .start host port clientID user pass => s.mqttClientStart host port clientID user pass
  | .stop => s.mqttClientStop
  | .publish topic payload retain ans => (s.mqttClientPublish topic payload retain ans).1
  | .subscribe topic ans => (s.mqttClientSubscribe topic ans).1
  | .tick ms ans => s.mqttClientTick ipaddrAton ms ans
  | .dnsFound ip ans => s.mqttDNSFoundCB ip ans
  | .connected p eErr ans => ((s.movePcb p .established).mqttConnectedCB eErr ans).1
  | .recv p buf eErr ans => s.mqttRecvCB p buf eErr ans
  | .err p => (s.movePcb p .free).mqttErrCB

/-- One event; a callback lwIP cannot deliver does not occur. -/
def step (s : Mqtt) (e : MqttEvent) : Mqtt :=
  if s.net.CanDeliver e then s.perform ipaddrAton e else s

end Mqtt

end HomeAuto
