import HomeAuto.OutputCtrl
import HomeAuto.CStrings

/-!
# Inbound MQTT messages (`ha_mqtt.c`)

A message on a subscribed topic is matched against the three command topics in
turn, relay set, cover set, relay pulse; the first one that matches decides.  The
three parsers differ only in the words around the number, so they are instances of
one parser.
-/

namespace HomeAuto

/-- The topic parser `<base><mid><n><suf>`.  The number is accumulated in an `int`;
on both targets the accumulation wraps. -/
def parseIndexedTopic (base mid suf topic : CStr) : Option Int :=
  if topic.length < base.length + mid.length + 1 + suf.length then none
  else if topic.take base.length ≠ base then none
  else if (topic.drop base.length).take mid.length ≠ mid then none
  else
    let rest := topic.drop (base.length + mid.length)
    let digits := rest.takeWhile isDecDigit
    let tail := rest.dropWhile isDecDigit
    if digits = [] then none
    else if tail ≠ suf then none
    else some (digits.foldl
      (fun n c => n * 10#32 + BitVec.ofNat 32 (decDigit c)) 0#32).toInt

/-- `MQTTAppParseRelaySet`: `<base>/relay/<n>/set`. -/
def mqttAppParseRelaySet (base topic : CStr) : Option Int :=
  parseIndexedTopic base (ascii "/relay/") (ascii "/set") topic

/-- `MQTTAppParseCoverSet`: `<base>/cover/<n>/set`. -/
def mqttAppParseCoverSet (base topic : CStr) : Option Int :=
  parseIndexedTopic base (ascii "/cover/") (ascii "/set") topic

/-- `MQTTAppParseRelayPulse`: `<base>/relay/<n>/pulse`. -/
def mqttAppParseRelayPulse (base topic : CStr) : Option Int :=
  parseIndexedTopic base (ascii "/relay/") (ascii "/pulse") topic

/-- The command a relay payload asks for: ON when it starts with `ON`. -/
def relayPayloadCmd (payload : List UInt8) : OutCmd :=
  if 2 ≤ payload.length ∧ charAt payload 0 = 79 ∧ charAt payload 1 = 78 then .on else .off

/-- The command a cover payload asks for, by its first byte. -/
def coverPayloadCmd (payload : List UInt8) : Option ShCmd :=
  if payload.length = 0 then none
  else if charAt payload 0 = 79 then some .open
  else if charAt payload 0 = 67 then some .close
  else if charAt payload 0 = 83 then some .stop
  else none

/-- The longest pulse either entry point accepts, one hour. -/
def pulseMaxMs : Nat := 3600000

/-- The duration of a pulse: zero stands for the default of one second. -/
def pulseDuration (ui32Ms : BitVec 32) : Nat :=
  if ui32Ms.toNat = 0 then 1000 else ui32Ms.toNat

/-- The payload as copied into `acNum`: 11 bytes at most, read up to a NUL. -/
def pulsePayload (payload : List UInt8) : CStr :=
  (payload.take 11).takeWhile fun c => c ≠ 0

namespace Hub

variable (palStrToUl : StrToUl)

/-- `(uint16_t)iRelay >= (uint16_t)ConfigGetRelayDevices() * 8`. -/
def relayOutOfRange (h : Hub) (iRelay : Int) : Prop :=
  h.configGetRelayDevices * 8 ≤ toU16 iRelay

instance (h : Hub) (iRelay : Int) : Decidable (h.relayOutOfRange iRelay) :=
  inferInstanceAs (Decidable (_ ≤ _))

/-- `product_on_mqtt`. -/
def productOnMqtt (h : Hub) (topic : CStr) (payload : List UInt8) : Hub :=
  match mqttAppParseRelaySet h.baseTopic topic with
  | some iRelay =>
      if h.relayOutOfRange iRelay then h
      else h.outputCtrlCommand iRelay (relayPayloadCmd payload)
  | none =>
  match mqttAppParseCoverSet h.baseTopic topic with
  | some iShutter =>
      match coverPayloadCmd payload with
      | none => h
      | some cmd => h.outputCtrlShutter iShutter cmd
  | none =>
  match mqttAppParseRelayPulse h.baseTopic topic with
  | some iRelay =>
      if h.relayOutOfRange iRelay then h
      else if h.outCfg.outputCtrlIsShutterMember iRelay then h
      else
        let ms := pulseDuration (palStrToUl (pulsePayload payload) 10)
        if pulseMaxMs < ms then h else h.relayPulseStart iRelay ms
  | none => h

end Hub

end HomeAuto
