import HomeAuto.BindTable
import HomeAuto.RoomRecord

/-!
# The records of the configuration (`config.h`, `config.c`, `product_config_store.c`)

The records as they lie in RAM and in storage, apart from the output record and the room
record: the broker settings, the time server, the input types, the binding table and the
channel names.  Each starts with a magic word and ends with the CRC of what comes before;
a `RecordFormat` says so once for all of them.
-/

namespace HomeAuto

/-- A half word in memory. -/
def halfLayout : Layout (BitVec 16) where
  size := 2
  put w := [UInt8.ofBitVec (w.extractLsb' 0 8), UInt8.ofBitVec (w.extractLsb' 8 8)]
  get bs := (bs.getD 1 0).toBitVec ++ (bs.getD 0 0).toBitVec
  length_put _ := rfl
  get_put w rest := by
    change w.extractLsb' 8 8 ++ w.extractLsb' 0 8 = w
    rw [BitVec.extractLsb'_append_extractLsb'_eq_extractLsb' (by rfl)]
    exact BitVec.extractLsb'_eq_self

/-- A text field of `n` bytes. -/
abbrev textField (n : Nat) : Layout (Fin n → UInt8) := Layout.array n .byte

/-- `memset` to zero and `strcpy`. -/
def textOf (n : Nat) (s : String) : Fin n → UInt8 := fun j => (ascii s).getD j 0

/-! ## The broker settings -/

/-- `CFG_MAGIC`, `CFG_DIN_MAX_DEVICES`, `CFG_DIN_DEFAULT_DEVICES`, `CFG_RELAY_MAX_DEVICES`,
`CFG_RELAY_DEFAULT_DEVICES`. -/
def cfgMagic : BitVec 32 := 0x4D515431#32
def cfgDinMaxDevices : UInt8 := 15
def cfgDinDefaultDevices : UInt8 := 2
def cfgRelayMaxDevices : UInt8 := 15
def cfgRelayDefaultDevices : UInt8 := 2

/-- `tMQTTConfig`. -/
structure MqttRecord where
  magic : BitVec 32
  port : BitVec 16
  useAuth : UInt8
  ioDevices : UInt8
  host : Fin cfgHostLen → UInt8
  clientID : Fin cfgClientIDLen → UInt8
  user : Fin cfgUserLen → UInt8
  pass : Fin cfgPassLen → UInt8
  topicBase : Fin cfgTopicLen → UInt8
  crc : BitVec 32

/-- How `tMQTTConfig` lies in memory. -/
def mqttRecordLayout : Layout MqttRecord :=
  (wordLayout.pair <| halfLayout.pair <| Layout.byte.pair <| Layout.byte.pair <|
    (textField cfgHostLen).pair <| (textField cfgClientIDLen).pair <|
    (textField cfgUserLen).pair <| (textField cfgPassLen).pair <|
    (textField cfgTopicLen).pair wordLayout).via
    (fun r => (r.magic, r.port, r.useAuth, r.ioDevices, r.host, r.clientID, r.user, r.pass,
      r.topicBase, r.crc))
    (fun (magic, port, useAuth, ioDevices, host, clientID, user, pass, topicBase, crc) =>
      ⟨magic, port, useAuth, ioDevices, host, clientID, user, pass, topicBase, crc⟩)
    (fun _ => rfl)

namespace MqttRecord

/-- `ConfigSetDefaults`. -/
def configSetDefaults : MqttRecord where
  magic := cfgMagic
  port := 1883
  useAuth := 0
  ioDevices := (cfgRelayDefaultDevices <<< 4) ||| cfgDinDefaultDevices
  host _ := 0
  clientID := textOf _ "tm4c1294"
  user _ := 0
  pass _ := 0
  topicBase := textOf _ "tm4c1294"
  crc := 0

/-- `ConfigSetDinDevices`. -/
def configSetDinDevices (r : MqttRecord) (devices : UInt8) : MqttRecord :=
  { r with
    ioDevices := (r.ioDevices &&& (0xF0 : UInt8)) |||
      (if cfgDinMaxDevices < devices then cfgDinDefaultDevices else devices) }

/-- `ConfigSetRelayDevices`. -/
def configSetRelayDevices (r : MqttRecord) (devices : UInt8) : MqttRecord :=
  { r with
    ioDevices := (r.ioDevices &&& (0x0F : UInt8)) |||
      ((if cfgRelayMaxDevices < devices then cfgRelayDefaultDevices else devices) <<< 4) }

/-- The clamping of the packed device counts in `ConfigInit`. -/
def clampDevices (r : MqttRecord) : MqttRecord :=
  let r := r.configSetDinDevices (r.ioDevices &&& 0x0F)
  r.configSetRelayDevices ((r.ioDevices >>> 4) &&& 0x0F)

/-- The record that `ConfigSave` stores. -/
def stamped (r : MqttRecord) : MqttRecord :=
  { r with
    magic := cfgMagic
    crc := recordCrc mqttRecordLayout { r with magic := cfgMagic } }

end MqttRecord

/-! ## The time server -/

/-- `CFG_NTP_MAGIC`, `CFG_NTP_SERVER_LEN`. -/
def cfgNtpMagic : BitVec 32 := 0x4E545043#32
def cfgNtpServerLen : Nat := 32

/-- `tNTPConfig`. -/
structure NtpRecord where
  magic : BitVec 32
  server : Fin cfgNtpServerLen → UInt8
  tzOffset : UInt8
  rsvd : Fin 3 → UInt8
  crc : BitVec 32

/-- How `tNTPConfig` lies in memory. -/
def ntpRecordLayout : Layout NtpRecord :=
  (wordLayout.pair <| (textField cfgNtpServerLen).pair <| Layout.byte.pair <|
    (textField 3).pair wordLayout).via
    (fun r => (r.magic, r.server, r.tzOffset, r.rsvd, r.crc))
    (fun (magic, server, tzOffset, rsvd, crc) => ⟨magic, server, tzOffset, rsvd, crc⟩)
    (fun _ => rfl)

namespace NtpRecord

/-- The defaults of `ConfigInit`. -/
def defaults : NtpRecord where
  magic := cfgNtpMagic
  server := textOf _ "pool.ntp.org"
  tzOffset := 0
  rsvd _ := 0
  crc := 0

/-- The record that `ConfigNtpSave` stores. -/
def stamped (r : NtpRecord) : NtpRecord :=
  { r with
    magic := cfgNtpMagic
    crc := recordCrc ntpRecordLayout { r with magic := cfgNtpMagic } }

end NtpRecord

/-! ## The input types -/

/-- `CFG_IO_MAGIC`. -/
def cfgIoMagic : BitVec 32 := 0x494F5354#32

/-- `tIOSettings`: bit `i % 8` of byte `i / 8` is set for a pushbutton. -/
structure IoSettings where
  magic : BitVec 32
  inputType : Fin 15 → UInt8
  rsvd : UInt8
  crc : BitVec 32

/-- How `tIOSettings` lies in memory. -/
def ioSettingsLayout : Layout IoSettings :=
  (wordLayout.pair <| (textField 15).pair <| Layout.byte.pair wordLayout).via
    (fun r => (r.magic, r.inputType, r.rsvd, r.crc))
    (fun (magic, inputType, rsvd, crc) => ⟨magic, inputType, rsvd, crc⟩)
    (fun _ => rfl)

namespace IoSettings

/-- Every input a switch. -/
def switches : IoSettings where
  magic := cfgIoMagic
  inputType _ := 0
  rsvd := 0
  crc := 0

/-- `ConfigSetInputPushbutton`. -/
def configSetInputPushbutton (r : IoSettings) (iInput : Nat) (pushbutton : Bool) :
    IoSettings :=
  if h : iInput < cfgMaxInputs then
    let byte : Fin 15 := ⟨iInput / 8, Nat.div_lt_of_lt_mul h⟩
    let bit : UInt8 := 1 <<< UInt8.ofNat (iInput % 8)
    { r with
      inputType := Function.update r.inputType byte
        (if pushbutton then r.inputType byte ||| bit else r.inputType byte &&& ~~~bit) }
  else r

/-- The defaults of `product_config_load`: the local inputs, which follow those of the
chain, are pushbuttons. -/
def defaults (dinDevices localInputs : Nat) : IoSettings :=
  (List.range localInputs).foldl
    (fun r i => r.configSetInputPushbutton (dinDevices * 8 + i) true) switches

/-- The record that `ConfigIOSave` stores. -/
def stamped (r : IoSettings) : IoSettings :=
  { r with
    magic := cfgIoMagic
    crc := recordCrc ioSettingsLayout { r with magic := cfgIoMagic } }

end IoSettings

/-! ## The bindings -/

/-- `CFG_IO_BINDINGS_MAGIC`. -/
def cfgIoBindingsMagic : BitVec 32 := 0x42494E44#32

/-- `tIOBindings`: slot `k` of input `i` has the index `i * CFG_BIND_SLOTS + k`. -/
structure BindRecord where
  magic : BitVec 32
  trigAct : Fin (cfgMaxInputs * cfgBindSlots) → UInt8
  output : Fin (cfgMaxInputs * cfgBindSlots) → UInt8
  crc : BitVec 32

/-- How `tIOBindings` lies in memory. -/
def bindRecordLayout : Layout BindRecord :=
  (wordLayout.pair <| (textField (cfgMaxInputs * cfgBindSlots)).pair <|
    (textField (cfgMaxInputs * cfgBindSlots)).pair wordLayout).via
    (fun r => (r.magic, r.trigAct, r.output, r.crc))
    (fun (magic, trigAct, output, crc) => ⟨magic, trigAct, output, crc⟩)
    (fun _ => rfl)

namespace BindRecord

/-- The defaults of `product_config_load`. -/
def defaults : BindRecord where
  magic := cfgIoBindingsMagic
  trigAct _ := bindTrigChange
  output _ := bindOutputNoneByte
  crc := 0

/-- The record that `ConfigBindingSave` stores. -/
def stamped (r : BindRecord) : BindRecord :=
  { r with
    magic := cfgIoBindingsMagic
    crc := recordCrc bindRecordLayout { r with magic := cfgIoBindingsMagic } }

/-- The table that the accessors read. -/
def table (r : BindRecord) : BindTable := fun i k =>
  have h : i.val * cfgBindSlots + k.val < cfgMaxInputs * cfgBindSlots := by
    have hi := i.isLt
    have hk := k.isLt
    unfold cfgMaxInputs at hi ⊢
    unfold cfgBindSlots at hk ⊢
    omega
  ⟨r.trigAct ⟨_, h⟩, r.output ⟨_, h⟩⟩

end BindRecord

/-! ## The channel names -/

/-- `CFG_IO_NAMES_MAGIC`, `CFG_NAMES_MAX_INPUTS`, `CFG_NAMES_MAX_OUTPUTS`. -/
def cfgIoNamesMagic : BitVec 32 := 0x4E4D4553#32
def cfgNamesMaxInputs : Nat := 64
def cfgNamesMaxOutputs : Nat := 64

/-- `tIONames`. -/
@[ext] structure NamesRecord where
  magic : BitVec 32
  inputNames : Fin cfgNamesMaxInputs → Fin cfgNameLen → UInt8
  outputNames : Fin cfgNamesMaxOutputs → Fin cfgNameLen → UInt8
  crc : BitVec 32

/-- How `tIONames` lies in memory. -/
def namesRecordLayout : Layout NamesRecord :=
  (wordLayout.pair <| (Layout.array cfgNamesMaxInputs (textField cfgNameLen)).pair <|
    (Layout.array cfgNamesMaxOutputs (textField cfgNameLen)).pair wordLayout).via
    (fun r => (r.magic, r.inputNames, r.outputNames, r.crc))
    (fun (magic, inputNames, outputNames, crc) => ⟨magic, inputNames, outputNames, crc⟩)
    (fun _ => rfl)

namespace NamesRecord

/-- The defaults of `product_config_load`: no names. -/
def defaults : NamesRecord where
  magic := cfgIoNamesMagic
  inputNames _ _ := 0
  outputNames _ _ := 0
  crc := 0

/-- The record that `ConfigNamesSave` stores. -/
def stamped (r : NamesRecord) : NamesRecord :=
  { r with
    magic := cfgIoNamesMagic
    crc := recordCrc namesRecordLayout { r with magic := cfgIoNamesMagic } }

end NamesRecord

example : mqttRecordLayout.size = 220 ∧ ntpRecordLayout.size = 44 ∧
    ioSettingsLayout.size = 24 ∧ bindRecordLayout.size = 968 ∧
    namesRecordLayout.size = 1544 := by decide

end HomeAuto
