import HomeAuto.FullStop
import HomeAuto.MqttClient

/-!
# Outbound MQTT messages (`ha_mqtt.c`)

The retained states and the Home Assistant discovery messages, and the post-connect
sequence that issues them.  A step of the sequence is a number; `mqttAppPostConnect` says
which items a number stands for, and `PubItem.call` which call of the MQTT client each item
is.

Every number printed is a count or an index, so the formatter prints natural numbers.
-/

namespace HomeAuto

/-! ## `PalSnprintf` -/

/-- An argument of a format string. -/
inductive FmtArg
  | str (s : CStr)
  | num (n : Nat)

/-- `%d`, and `%02d`. -/
def fmtDecimal (n : Nat) : CStr := ascii (toString n)
def fmtDecimal2 (n : Nat) : CStr := List.replicate (2 - (fmtDecimal n).length) 48 ++ fmtDecimal n

/-- The text of a format string, for the conversions the product uses. -/
def palFormat : List Char → List FmtArg → CStr
  | '%' :: 's' :: cs, .str s :: args => s ++ palFormat cs args
  | '%' :: 'd' :: cs, .num n :: args => fmtDecimal n ++ palFormat cs args
  | '%' :: '0' :: '2' :: 'd' :: cs, .num n :: args => fmtDecimal2 n ++ palFormat cs args
  | c :: cs, args => UInt8.ofNat c.toNat :: palFormat cs args
  | [], _ => []

/-- `PalSnprintf` into a buffer of `size` bytes, one of them for the NUL. -/
def palSnprintf (size : Nat) (format : String) (args : List FmtArg) : CStr :=
  (palFormat format.toList args).take (size - 1)

example : palSnprintf 16 "In%02d/%s" [.num 7, .str (ascii "x")] = ascii "In07/x" := by decide

/-! ## State -/

/-- The test of a bit. -/
theorem and_bit_ne_zero (x : BitVec 8) {m : Nat} (hm : m < 8) :
    ((x &&& (1#8 <<< m)) != 0#8) = x.getLsbD m := by
  rw [← BitVec.twoPow_eq, BitVec.and_twoPow]
  cases hbit : x.getLsbD m with
  | false => rfl
  | true =>
      rw [if_pos rfl, bne_iff_ne]
      intro hzero
      have hget := congrArg (fun v : BitVec 8 => v.getLsbD m) hzero
      simp [hm] at hget

/-- `CFG_MAX_INPUTS`. -/
def cfgMaxInputs : Nat := 120

/-- `DIN_MAX_BYTES`, and `IO_MAX_BYTES`. -/
def dinMaxBytes : Nat := 15
def ioMaxBytes : Nat := dinMaxBytes + 1

/-- The broker part of `tMQTTConfig`; the packed device counts are in `Hub`. -/
structure MqttConfig where
  port : BitVec 16
  useAuth : Bool
  host : CStr
  clientID : CStr
  user : CStr
  pass : CStr
  topicBase : CStr

/-- The state behind the outbound messages: the hub, the saved settings, the input chain
with its last snapshot, and the sequencer.  `localInputs` and `hasTempSensor` are constants
of the platform, and the base topic is the hub's. -/
structure HaMqtt where
  hub : Hub
  cfg : MqttConfig
  devId : CStr
  topicStatus : CStr
  shName : Nat → CStr
  inputType : Nat → BitVec 8
  dinDevices : Nat
  localInputs : Nat
  hasTempSensor : Bool
  inSnap : Nat → BitVec 8
  pubStep : Nat
  pubMax : Nat

namespace HaMqtt

variable (a : HaMqtt)

/-- `ConfigGetDinDevices`: the low nibble of the packed count byte. -/
def configGetDinDevices : Nat := a.hub.ioDevices &&& 0x0F

/-- The number of relays, as every step of the sequence computes it. -/
def relays : Nat := a.hub.configGetRelayDevices * 8

/-- The test for local inputs after the inputs of the chain. -/
def HasLocalInputs : Prop :=
  0 < a.localInputs ∧ a.configGetDinDevices < dinMaxBytes ∧
    a.configGetDinDevices * 8 + a.localInputs ≤ cfgMaxInputs

instance : Decidable a.HasLocalInputs := inferInstanceAs (Decidable (_ ∧ _))

/-- `IOInputCount`. -/
def ioInputCount : Nat :=
  if a.HasLocalInputs then a.configGetDinDevices * 8 + a.localInputs
  else a.configGetDinDevices * 8

/-- `IOInputReadAll`, of the bytes the chain shifts out and of the local inputs. -/
def ioInputReadAll (chain : Nat → BitVec 8) (loc : BitVec 8) : Nat → BitVec 8 := fun k =>
  if a.HasLocalInputs ∧ k = a.configGetDinDevices then
    loc &&& BitVec.ofNat 8 (2 ^ a.localInputs - 1)
  else if a.dinDevices ≤ ioMaxBytes ∧ k < a.dinDevices then chain k
  else 0#8

/-- `ConfigInputIsPushbutton`. -/
def configInputIsPushbutton (i : Nat) : Bool :=
  if cfgMaxInputs ≤ i then false
  else (a.inputType (i / 8) &&& (1#8 <<< (i % 8))) != 0#8

/-- `OutputCtrlShutterValid`. -/
def outputCtrlShutterValid (i : Nat) : Bool :=
  if cfgMaxShutters ≤ i then false else (a.hub.sh i).valid

end HaMqtt

/-! ## The messages -/

/-- `"ON"` and `"OFF"`. -/
def levelStr (on : Bool) : CStr := if on then ascii "ON" else ascii "OFF"

/-- The strings of the cover states. -/
def CoverState.str : CoverState → CStr
  | .opening => ascii "opening"
  | .closing => ascii "closing"
  | .open => ascii "open"
  | .closed => ascii "closed"
  | .stopped => ascii "stopped"

/-- What the post-connect sequence issues. -/
inductive PubItem
  | status
  | relayDiscovery (relay : Nat)
  | relayState (relay : Nat)
  | relaySetSub
  | relayPulseSub
  | inputStale (input : Nat)
  | inputDiscovery (input : Nat)
  | inputState (input : Nat)
  | coverDiscovery (shutter : Nat)
  | coverState (shutter : Nat)
  | coverSub
  | tempDiscovery
  deriving DecidableEq

namespace HaMqtt

variable (a : HaMqtt)

/-- The topic in `g_pcDiscTopic`, and the payload in `g_pcDiscPayload`. -/
def discTopic (format : String) (args : List FmtArg) : CStr := palSnprintf 96 format args
def discPayload (format : String) (args : List FmtArg) : CStr := palSnprintf 512 format args

/-- The topic in `g_pcScratchTopic`. -/
def scratchTopic (format : String) (args : List FmtArg) : CStr := palSnprintf 80 format args

/-- `MQTTAppPublishRelayState`. -/
def relayStateCall (relay : Nat) : AppCall :=
  .publish (scratchTopic "%s/relay/%d/state" [.str a.hub.baseTopic, .num relay])
    (levelStr (a.hub.chain.relayChainGet relay)) 1

/-- `MQTTAppPublishRelayDiscovery`: a member of a shutter is no switch. -/
def relayDiscoveryCall (relay : Nat) : AppCall :=
  .publish
    (discTopic "homeassistant/switch/%s/relay%d/config" [.str a.devId, .num relay])
    (if a.hub.outCfg.outputCtrlIsShutterMember relay then []
      else discPayload
        ("\x7b\"~\":\"%s\",\"name\":\"Out%02d\",\"uniq_id\":\"%s_relay%d\"," ++
          "\"cmd_t\":\"~/relay/%d/set\",\"stat_t\":\"~/relay/%d/state\"," ++
          "\"pl_on\":\"ON\",\"pl_off\":\"OFF\",\"avty_t\":\"~/status\"," ++
          "\"dev\":\x7b\"ids\":[\"%s\"],\"name\":\"SaKaHub\"," ++
          "\"mdl\":\"%s\",\"mf\":\"TomArts\"\x7d\x7d")
        [.str a.hub.baseTopic, .num (relay + 1), .str a.devId, .num relay, .num relay,
          .num relay, .str a.devId, .str a.cfg.clientID])
    1

/-- The component an input is published as, and the one whose old message is cleared. -/
def activeComp (input : Nat) : CStr :=
  if a.configInputIsPushbutton input then ascii "event" else ascii "binary_sensor"
def staleComp (input : Nat) : CStr :=
  if a.configInputIsPushbutton input then ascii "binary_sensor" else ascii "event"

/-- `MQTTAppPublishInputDiscovery`, its first message. -/
def inputStaleCall (input : Nat) : AppCall :=
  .publish
    (discTopic "homeassistant/%s/%s/input%d/config"
      [.str (a.staleComp input), .str a.devId, .num input])
    [] 1

/-- `MQTTAppPublishInputDiscovery`, its second message. -/
def inputDiscoveryCall (input : Nat) : AppCall :=
  .publish
    (discTopic "homeassistant/%s/%s/input%d/config"
      [.str (a.activeComp input), .str a.devId, .num input])
    (if a.configInputIsPushbutton input then
      discPayload
        ("\x7b\"~\":\"%s\",\"name\":\"In%02d\",\"uniq_id\":\"%s_input%d\"," ++
          "\"stat_t\":\"~/input/%d/event\"," ++
          "\"event_types\":[\"single\",\"double\"]," ++
          "\"avty_t\":\"~/status\",\"dev\":\x7b\"ids\":[\"%s\"]," ++
          "\"name\":\"SaKaHub\",\"mdl\":\"%s\"," ++
          "\"mf\":\"TomArts\"\x7d\x7d")
        [.str a.hub.baseTopic, .num (input + 1), .str a.devId, .num input, .num input,
          .str a.devId, .str a.cfg.clientID]
    else
      discPayload
        ("\x7b\"~\":\"%s\",\"name\":\"In%02d\",\"uniq_id\":\"%s_input%d\"," ++
          "\"stat_t\":\"~/input/%d/state\",\"pl_on\":\"ON\",\"pl_off\":" ++
          "\"OFF\",\"avty_t\":\"~/status\",\"dev\":\x7b\"ids\":[\"%s\"]," ++
          "\"name\":\"SaKaHub\",\"mdl\":\"%s\"," ++
          "\"mf\":\"TomArts\"\x7d\x7d")
        [.str a.hub.baseTopic, .num (input + 1), .str a.devId, .num input, .num input,
          .str a.devId, .str a.cfg.clientID])
    1

/-- `MQTTAppPublishInput`, of the level in the snapshot. -/
def inputStateCall (input : Nat) : AppCall :=
  .publish (scratchTopic "%s/input/%d/state" [.str a.hub.baseTopic, .num input])
    (levelStr ((a.inSnap (input / 8) &&& (1#8 <<< (input &&& 7))) != 0#8)) 1

/-- The friendly name of a cover. -/
def coverName (shutter : Nat) : CStr :=
  if a.shName shutter ≠ [] then palSnprintf (cfgNameLen + 8) "%s" [.str (a.shName shutter)]
  else palSnprintf (cfgNameLen + 8) "Shutter%02d" [.num (shutter + 1)]

/-- `MQTTAppPublishCoverDiscovery`: an empty slot clears its message. -/
def coverDiscoveryCall (shutter : Nat) : AppCall :=
  .publish
    (discTopic "homeassistant/cover/%s/cover%d/config" [.str a.devId, .num shutter])
    (if a.outputCtrlShutterValid shutter then
      discPayload
        ("\x7b\"~\":\"%s\",\"name\":\"%s\",\"uniq_id\":\"%s_cover%d\"," ++
          "\"cmd_t\":\"~/cover/%d/set\",\"stat_t\":\"~/cover/%d/state\"," ++
          "\"pl_open\":\"OPEN\",\"pl_cls\":\"CLOSE\",\"pl_stop\":\"STOP\"," ++
          "\"stat_open\":\"open\",\"stat_clsd\":\"closed\"," ++
          "\"stat_opening\":\"opening\",\"stat_closing\":\"closing\"," ++
          "\"dev_cla\":\"shutter\",\"avty_t\":\"~/status\"," ++
          "\"dev\":\x7b\"ids\":[\"%s\"],\"name\":\"SaKaHub\"," ++
          "\"mdl\":\"%s\",\"mf\":\"TomArts\"\x7d\x7d")
        [.str a.hub.baseTopic, .str (a.coverName shutter), .str a.devId, .num shutter,
          .num shutter, .num shutter, .str a.devId, .str a.cfg.clientID]
    else [])
    1

/-- `MQTTAppPublishCoverState`. -/
def coverStateCall (shutter : Nat) : AppCall :=
  .publish (scratchTopic "%s/cover/%d/state" [.str a.hub.baseTopic, .num shutter])
    (a.hub.outputCtrlCoverState shutter).str 1

/-- `MQTTAppPublishTempDiscovery`. -/
def tempDiscoveryCall : AppCall :=
  .publish (discTopic "homeassistant/sensor/%s/temp/config" [.str a.devId])
    (discPayload
      ("\x7b\"~\":\"%s\",\"name\":\"Temperature\",\"uniq_id\":\"%s_temp\"," ++
        "\"stat_t\":\"~/temperature/state\",\"dev_cla\":\"temperature\"," ++
        "\"unit_of_meas\":\"\xC2\xB0" ++ "C\",\"stat_cla\":\"measurement\"," ++
        "\"avty_t\":\"~/status\",\"dev\":\x7b\"ids\":[\"%s\"]," ++
        "\"name\":\"SaKaHub\",\"mdl\":\"%s\",\"mf\":\"TomArts\"\x7d\x7d")
      [.str a.hub.baseTopic, .str a.devId, .str a.devId, .str a.cfg.clientID])
    1

/-- The call of the MQTT client that an item is. -/
def itemCall : PubItem → AppCall
  | .status => .publish a.topicStatus (ascii "online") 1
  | .relayDiscovery relay => a.relayDiscoveryCall relay
  | .relayState relay => a.relayStateCall relay
  | .relaySetSub => .subscribe (scratchTopic "%s/relay/+/set" [.str a.hub.baseTopic])
  | .relayPulseSub => .subscribe (scratchTopic "%s/relay/+/pulse" [.str a.hub.baseTopic])
  | .inputStale input => a.inputStaleCall input
  | .inputDiscovery input => a.inputDiscoveryCall input
  | .inputState input => a.inputStateCall input
  | .coverDiscovery shutter => a.coverDiscoveryCall shutter
  | .coverState shutter => a.coverStateCall shutter
  | .coverSub => .subscribe (scratchTopic "%s/cover/+/set" [.str a.hub.baseTopic])
  | .tempDiscovery => a.tempDiscoveryCall

/-! ## The sequence -/

/-- The step that subscribes to the relay commands, after which the inputs begin. -/
def subStep : Nat := 2 + 2 * a.relays

/-- The step after which the covers begin. -/
def coverBase : Nat := a.subStep + 2 * a.ioInputCount

/-- The step that subscribes to the cover commands. -/
def coverSubStep : Nat := a.coverBase + 2 * cfgMaxShutters + 1

/-- `MQTTAppPostConnect`: the items of a step, from 1 on. -/
def mqttAppPostConnect (step : Nat) : List PubItem :=
  if step = 1 then [.status]
  else if step ≤ 1 + a.relays then [.relayDiscovery (step - 2)]
  else if step ≤ 1 + 2 * a.relays then
    if a.hub.outCfg.outputCtrlIsShutterMember ((step - (2 + a.relays) : Nat) : Int) then []
    else [.relayState (step - (2 + a.relays))]
  else if step = a.subStep then
    if 0 < a.relays then [.relaySetSub, .relayPulseSub] else []
  else if step ≤ a.subStep + a.ioInputCount then
    [.inputStale (step - a.subStep - 1), .inputDiscovery (step - a.subStep - 1)]
  else if step ≤ a.subStep + 2 * a.ioInputCount then
    if a.configInputIsPushbutton (step - a.subStep - a.ioInputCount - 1) then []
    else [.inputState (step - a.subStep - a.ioInputCount - 1)]
  else if step ≤ a.coverBase + cfgMaxShutters then [.coverDiscovery (step - a.coverBase - 1)]
  else if step ≤ a.coverBase + 2 * cfgMaxShutters then
    if a.outputCtrlShutterValid (step - a.coverBase - cfgMaxShutters - 1) then
      [.coverState (step - a.coverBase - cfgMaxShutters - 1)]
    else []
  else if step = a.coverSubStep then [.coverSub]
  else if a.hasTempSensor = true ∧ step = a.coverSubStep + 1 then [.tempDiscovery]
  else []

/-- The bound that `product_on_connect` computes. -/
def lastStep : Nat :=
  2 + 2 * a.relays + 2 * a.ioInputCount + 2 * cfgMaxShutters + 1 +
    (if a.hasTempSensor then 1 else 0)

/-- `product_on_connect`. -/
def productOnConnect (chain : Nat → BitVec 8) (loc : BitVec 8) : HaMqtt :=
  { a with pubStep := 1, pubMax := a.lastStep, inSnap := a.ioInputReadAll chain loc }

end HaMqtt

end HomeAuto
