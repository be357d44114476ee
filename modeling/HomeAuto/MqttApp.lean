import HomeAuto.HaPublish

/-!
# The MQTT application (`mqtt_app.c`, `ha_mqtt.c`, `webui.c`, `product_web.c`)

The application between the saved configuration and the MQTT client.  The web handlers
change the configuration in RAM and raise a flag; the main loop finds the flags, applies
the device counts and the shutter table, and restarts the client or the post-connect
sequence; a tick services the client and starts the sequence when a session has become
ready, and the product's poll advances it by one step.

`MqttApp.sent` is not part of the firmware: it records the calls of the client that the
sequence has made since it was last started, each with the state it was made in and with what
TCP took of it.
-/

namespace HomeAuto

/-- A call of the sequence: the device as it was then, the call, and the writes to a connection
that TCP took during it. -/
structure SentCall where
  ha : HaMqtt
  call : AppCall
  written : List (Nat × List UInt8)

/-- The MQTT side of the firmware: the product's part, the client, the connect edge, and
the two flags of the web server. -/
structure MqttApp where
  ha : HaMqtt
  cli : Mqtt
  wasConnected : Bool
  startPending : Bool
  republishPending : Bool
  sent : List SentCall

/-- The application at start-up, with the settings that have been loaded. -/
def MqttApp.boot (ha : HaMqtt) : MqttApp := ⟨ha, .init, false, false, false, []⟩

/-! ## Form fields -/

/-- `IsValidHexDigit` and `HexDigit`. -/
def hexDigit (c : UInt8) : Option Nat :=
  if 48 ≤ c ∧ c ≤ 57 then some (c.toNat - 48)
  else if 97 ≤ c ∧ c ≤ 102 then some (c.toNat - 97 + 10)
  else if 65 ≤ c ∧ c ≤ 70 then some (c.toNat - 65 + 10)
  else none

/-- `DecodeHexEscape` on the two characters after a `%`. -/
def decodeHexEscape (hi lo : UInt8) : Option UInt8 :=
  match hexDigit hi, hexDigit lo with
  | some h, some l => some (UInt8.ofNat (h * 16 + l))
  | _, _ => none

/-- The loop of `DecodeFormString`, with room for `room` characters.  An escape that is no
hex number is skipped, and one that is cut off ends the string. -/
def decodeLoop : CStr → Nat → List UInt8
  | [], _ => []
  | _ :: _, 0 => []
  | c :: cs, room + 1 =>
      if c = 43 then 32 :: decodeLoop cs room
      else if c = 37 then
        match cs with
        | hi :: lo :: rest =>
            match decodeHexEscape hi lo with
            | some b => b :: decodeLoop rest room
            | none => decodeLoop rest (room + 1)
        | _ => []
      else c :: decodeLoop cs room

/-- `DecodeFormString` into a buffer of `size` bytes, read back as a C string. -/
def decodeFormString (encoded : CStr) (size : Nat) : CStr :=
  (decodeLoop encoded (size - 1)).takeWhile fun c => c ≠ 0

/-- `GetStringParam` over the old contents of the buffer. -/
def getStringParam (name : String) (params : CgiParams) (size : Nat) (old : CStr) : CStr :=
  match findCGIParameter (ascii name) params with
  | some value => decodeFormString value size
  | none => old

/-- `CFG_HOST_LEN`, `CFG_CLIENTID_LEN`, `CFG_USER_LEN`, `CFG_PASS_LEN`, `CFG_TOPIC_LEN`. -/
def cfgHostLen : Nat := 64
def cfgClientIDLen : Nat := 32
def cfgUserLen : Nat := 32
def cfgPassLen : Nat := 32
def cfgTopicLen : Nat := 48

/-- The port that a form asks for. -/
def portOf (ui32Port : BitVec 32) : BitVec 16 :=
  if ui32Port ≠ 0#32 ∧ ui32Port.toNat ≤ 65535 then BitVec.ofNat 16 ui32Port.toNat else 1883#16

namespace MqttConfig

/-- The configuration that `MQTTConfigCGIHandler` leaves: the host is cleared first, a
password is replaced by a non-empty one only, and the other absent fields are kept. -/
def mqttConfigCGIHandler (c : MqttConfig) (params : CgiParams) : MqttConfig where
  host := getStringParam "host" params cfgHostLen []
  clientID := getStringParam "client" params cfgClientIDLen c.clientID
  user := getStringParam "user" params cfgUserLen c.user
  topicBase := getStringParam "topic" params cfgTopicLen c.topicBase
  pass :=
    match findCGIParameter (ascii "pass") params with
    | some value => if charAt value 0 ≠ 0 then decodeFormString value cfgPassLen else c.pass
    | none => c.pass
  port :=
    match findCGIParameter (ascii "port") params with
    | some value => portOf (ustrtoul value 10)
    | none => c.port
  useAuth := (findCGIParameter (ascii "auth") params).isSome

end MqttConfig

namespace HaMqtt

/-- `ConfigSetDinDevices` and `ConfigSetRelayDevices` on the packed count byte. -/
def configSetDinDevices (io devices : Nat) : Nat :=
  (io &&& 0xF0) ||| (if 15 < devices then 2 else devices)
def configSetRelayDevices (io devices : Nat) : Nat :=
  (io &&& 0x0F) ||| ((if 15 < devices then 2 else devices) <<< 4)

/-- `ConfigSetInputPushbutton`. -/
def configSetInputPushbutton (types : Nat → BitVec 8) (i : Nat) (push : Bool) :
    Nat → BitVec 8 :=
  if cfgMaxInputs ≤ i then types
  else
    Function.update types (i / 8)
      (if push then types (i / 8) ||| (1#8 <<< (i % 8))
        else types (i / 8) &&& ~~~(1#8 <<< (i % 8)))

/-- `HexNibble`. -/
def hexNibble (c : UInt8) : BitVec 8 := BitVec.ofNat 8 ((hexDigit c).getD 0)

/-- One byte of the `types` parameter, and the loop over them. -/
def setTypeByte (types : Nat → BitVec 8) (iByte : Nat) (val : BitVec 8) : Nat → BitVec 8 :=
  (List.range 8).foldl
    (fun t iBit => configSetInputPushbutton t (iByte * 8 + iBit) ((val &&& (1#8 <<< iBit)) != 0#8))
    types

def typesLoop : CStr → Nat → (Nat → BitVec 8) → Nat → BitVec 8
  | hi :: lo :: cs, iByte, types =>
      if iByte < 15 then
        typesLoop cs (iByte + 1) (setTypeByte types iByte ((hexNibble hi <<< 4) ||| hexNibble lo))
      else types
  | _, _, types => types

/-- The packed counts after the `din` parameter, and after the `relay` parameter. -/
def setDinParam (palStrToUl : StrToUl) (io : Nat) (params : CgiParams) : Nat :=
  match findCGIParameter (ascii "din") params with
  | some value => configSetDinDevices io ((palStrToUl value 10).toNat % 256)
  | none => io
def setRelayParam (palStrToUl : StrToUl) (io : Nat) (params : CgiParams) : Nat :=
  match findCGIParameter (ascii "relay") params with
  | some value => configSetRelayDevices io ((palStrToUl value 10).toNat % 256)
  | none => io

/-- The counts and input types that `IOConfigCGIHandler` leaves.  Its binding table is not
part of this state. -/
def ioConfigCGIHandler (a : HaMqtt) (params : CgiParams) : HaMqtt :=
  { a with
    hub := { a.hub with
      ioDevices := setRelayParam ustrtoul (setDinParam ustrtoul a.hub.ioDevices params) params }
    inputType :=
      match findCGIParameter (ascii "types") params with
      | some value => typesLoop value 0 a.inputType
      | none => a.inputType }

/-- `MQTTAppBuildTopics`. -/
def mqttAppBuildTopics (a : HaMqtt) (base : CStr) : HaMqtt :=
  { a with
    hub := { a.hub with baseTopic := base.take (cfgTopicLen - 1) }
    topicStatus := palSnprintf (cfgTopicLen + 16) "%s/status" [.str base] }

end HaMqtt

/-- A call of the application, with whether it returned 0. -/
def Mqtt.appCallTaken (ans : Answers) (s : Mqtt) : AppCall → Mqtt × Bool
  | .publish topic payload retain => s.mqttClientPublish topic payload retain ans
  | .subscribe topic => s.mqttClientSubscribe topic ans

namespace MqttApp

variable (ipaddrAton : CStr → Option (BitVec 32))

/-- `MQTTClientIsReady`. -/
def ready (s : MqttApp) : Bool := s.cli.cli.eState = .ready

/-- `ConfigHasBroker`. -/
def configHasBroker (s : MqttApp) : Bool := s.ha.cfg.host ≠ []

/-- `MQTTAppStart`. -/
def mqttAppStart (s : MqttApp) : MqttApp :=
  if s.configHasBroker = false then s
  else
    { s with
      ha := s.ha.mqttAppBuildTopics s.ha.cfg.topicBase
      cli := (s.cli.mqttClientSetWill
          (some (s.ha.mqttAppBuildTopics s.ha.cfg.topicBase).topicStatus)
          (ascii "offline") 1).mqttClientStart
        (some s.ha.cfg.host) s.ha.cfg.port (some s.ha.cfg.clientID)
        (some (if s.ha.cfg.useAuth then s.ha.cfg.user else []))
        (some (if s.ha.cfg.useAuth then s.ha.cfg.pass else []))
      wasConnected := false }

/-- `MQTTAppStop`. -/
def mqttAppStop (s : MqttApp) : MqttApp :=
  { s with cli := s.cli.mqttClientStop, wasConnected := false }

/-- `product_on_connect`, and a new record of the sequence. -/
def onConnect (s : MqttApp) (chain : Nat → BitVec 8) (loc : BitVec 8) : MqttApp :=
  { s with ha := s.ha.productOnConnect chain loc, sent := [] }

/-- The connect edge of `MQTTAppTick`, after the client's tick. -/
def connectEdge (s : MqttApp) (chain : Nat → BitVec 8) (loc : BitVec 8) : MqttApp :=
  { (if s.ready = true ∧ s.wasConnected = false then s.onConnect chain loc else s) with
    wasConnected := s.ready }

/-- The client's tick. -/
def clientTick (s : MqttApp) (ms : BitVec 32) (ans : Answers) : MqttApp :=
  { s with cli := s.cli.mqttClientTick ipaddrAton ms ans }

/-- `MQTTAppTick`. -/
def mqttAppTick (s : MqttApp) (ms : BitVec 32) (ans : Answers) (chain : Nat → BitVec 8)
    (loc : BitVec 8) : MqttApp :=
  (s.clientTick ipaddrAton ms ans).connectEdge chain loc

/-- `MQTTAppRepublish`, and a new record of the sequence. -/
def mqttAppRepublish (s : MqttApp) (chain : Nat → BitVec 8) (loc : BitVec 8) : MqttApp :=
  if s.ready = false then s
  else
    { s with
      ha := { s.ha with inSnap := s.ha.ioInputReadAll chain loc, pubStep := 1 }
      sent := [] }

/-- One item of a step. -/
def issueItem (ans : Answers) (s : MqttApp) (item : PubItem) : MqttApp :=
  { s with
    cli := (s.cli.appCallTaken ans (s.ha.itemCall item)).1
    sent := s.sent ++ [⟨s.ha, s.ha.itemCall item,
      (s.cli.appCallTaken ans (s.ha.itemCall item)).1.net.writes.drop s.cli.net.writes.length⟩] }

/-- The items of a step, one after the other. -/
def issueStep (s : MqttApp) (step : Nat) (ans : Answers) : MqttApp :=
  (s.ha.mqttAppPostConnect step).foldl (issueItem ans) s

/-- Assign `g_iPubStep`. -/
def setPubStep (s : MqttApp) (step : Nat) : MqttApp :=
  { s with ha := { s.ha with pubStep := step } }

/-- `MQTTAppPubServiceTick`. -/
def mqttAppPubServiceTick (s : MqttApp) (ans : Answers) : MqttApp :=
  if s.ready = false then s.setPubStep 0
  else if 0 < s.ha.pubStep ∧ s.ha.pubStep ≤ s.ha.pubMax then
    (s.issueStep s.ha.pubStep ans).setPubStep (s.ha.pubStep + 1)
  else s

/-- The main loop, when it finds `g_bStartMQTT`. -/
def applyPass (s : MqttApp) : MqttApp :=
  if s.startPending = false then s
  else
    { s with
      startPending := false
      ha := { s.ha with
        dinDevices := if 15 < s.ha.configGetDinDevices then 15 else s.ha.configGetDinDevices
        hub := s.ha.hub.applyPending } }.mqttAppStart

/-- The main loop, when it finds `g_bRepublishMQTT`. -/
def republishPass (s : MqttApp) (chain : Nat → BitVec 8) (loc : BitVec 8) : MqttApp :=
  if s.republishPending = false then s
  else { s with republishPending := false }.mqttAppRepublish chain loc

end MqttApp

/-! ## Events -/

/-- What comes to the client from outside the application: the callbacks of lwIP, and the
publications which the product makes on its own. -/
def MqttEvent.isOutside : MqttEvent → Bool
  | .publish _ _ _ _ | .dnsFound _ _ | .connected _ _ _ | .recv _ _ _ _ | .err _ => true
  | .setWill _ _ _ | .start _ _ _ _ _ | .stop | .subscribe _ _ | .tick _ _ => false

/-- The web handlers, the passes of the main loop, the product's events, and what reaches
the client from outside.  `outputConfig` is the record and the shutter names that
`OutputConfigCGIHandler` has built. -/
inductive AppEvent
  | mqttConfig (params : CgiParams)
  | ioConfig (params : CgiParams)
  | outputConfig (cfg : OutputConfig) (names : Nat → CStr)
  | requestApply
  | applyPass
  | republishPass (chain : Nat → BitVec 8) (loc : BitVec 8)
  | product (e : HubEvent)
  | pubService (ans : Answers)
  | tick (ms : BitVec 32) (ans : Answers) (chain : Nat → BitVec 8) (loc : BitVec 8)
  | stop
  | outside (e : MqttEvent)

namespace MqttApp

variable (ipaddrAton : CStr → Option (BitVec 32)) (palStrToUl : StrToUl)

/-- One event. -/
def step (s : MqttApp) : AppEvent → MqttApp
  | .mqttConfig params =>
      { s with
        ha := { s.ha with cfg := s.ha.cfg.mqttConfigCGIHandler params }, startPending := true }
  | .ioConfig params =>
      { s with
        ha := s.ha.ioConfigCGIHandler params, startPending := true, republishPending := true }
  | .outputConfig cfg names =>
      { s with
        ha := { s.ha with
          hub := { s.ha.hub with outCfg := cfg }.outputCtrlReload, shName := names }
        republishPending := true }
  | .requestApply => { s with startPending := true }
  | .applyPass => s.applyPass
  | .republishPass chain loc => s.republishPass chain loc
  | .product e => { s with ha := { s.ha with hub := s.ha.hub.step palStrToUl e } }
  | .pubService ans => s.mqttAppPubServiceTick ans
  | .tick ms ans chain loc => s.mqttAppTick ipaddrAton ms ans chain loc
  | .stop => s.mqttAppStop
  | .outside e => if e.isOutside then { s with cli := s.cli.step ipaddrAton e } else s

end MqttApp

end HomeAuto
