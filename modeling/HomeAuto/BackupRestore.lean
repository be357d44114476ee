import HomeAuto.BackupPage

/-!
# Restoring a backup (`CfgRestoreCGIHandler` in `webui.c`)

The requests fill a buffer of 2048 bytes, and with the last one the text in it is searched for
the keys, one after the other.  A key that is not found leaves its setting as it is.

Sent by `doRestore`, a text arrives as the low bytes of its UTF-16 units.
-/

namespace HomeAuto

/-! ## The JSON reader -/

variable (ul : DecimalReader)

/-- `SKIP_WS`. -/
def skipWs (p : CStr) : CStr := p.dropWhile fun c => c = 32 || c = 9 || c = 13 || c = 10

/-- The text after `"key":` and blanks. -/
def findKey (json key : CStr) : Option CStr :=
  (QuotedText.find (QuotedText.keyed 34 58 key) json).map fun p =>
    skipWs (p.drop (QuotedText.keyed 34 58 key).length)

/-- `CfgJsonGetStr`, for a buffer of `room + 1` bytes. -/
def cfgJsonGetStr (json key : CStr) (room : Nat) : Option CStr :=
  match findKey json key with
  | some (34 :: p) => some ((p.takeWhile (· ≠ 34)).take room)
  | _ => none

/-- `CfgJsonGetInt`; the cast of the negated value wraps. -/
def cfgJsonGetInt (json key : CStr) : Int :=
  match findKey json key with
  | none => -1
  | some (45 :: p) => (-(ul.palStrToUl p 10)).toInt
  | some p => (ul.palStrToUl p 10).toInt

/-! ## The settings -/

/-- A string setting. -/
def restoreStr (json key : CStr) {room : Nat} (old : FieldStr room) : FieldStr room :=
  match cfgJsonGetStr json key room with
  | some v => .strncpy room v
  | none => old

/-- `ConfigSetDinDevices` and `ConfigSetRelayDevices`, of one nibble. -/
def setDevices (ui8Devices : Nat) : Fin 16 :=
  if h : ui8Devices < 16 then ⟨ui8Devices, h⟩ else 2

/-- A device count. -/
def restoreDevices (json key : CStr) (old : Fin 16) : Fin 16 :=
  if 0 ≤ cfgJsonGetInt ul json key then setDevices ((cfgJsonGetInt ul json key).toNat % 256)
  else old

/-- The slot that the restore makes of 12 bits. -/
def restoreSlot (v : Nat) : BindSlot :=
  ⟨UInt8.ofNat (v &&& 0x1F),
    if v &&& 7 = 0 then bindOutputNoneByte else UInt8.ofNat ((v >>> 5) &&& 0x7F)⟩

/-- The two loops over the digits of the bindings, as one over the slots. -/
def restoreBindsLoop : (left k : Nat) → CStr → BindTable → BindTable
  | left + 1, k, a :: b :: c :: p, t =>
      restoreBindsLoop left (k + 1) p (t.configBindingSet (k / cfgBindSlots) (k % cfgBindSlots)
        (restoreSlot (((webHexNibble a).toNat <<< 8) ||| ((webHexNibble b).toNat <<< 4) |||
          (webHexNibble c).toNat)))
  | _, _, _, t => t

/-- The slots that the loop stores are as the pages store them. -/
theorem stored_restoreBindsLoop {left k : Nat} (hk : k + left ≤ cfgMaxInputs * cfgBindSlots)
    (p : CStr) {t : BindTable} (ht : ∀ i j, (t i j).Stored) (i : Fin cfgMaxInputs)
    (j : Fin cfgBindSlots) : (restoreBindsLoop left k p t i j).Stored := by
  fun_induction restoreBindsLoop left k p t with
  | case1 left k a b c p t ih =>
      apply ih (by omega)
      intro i j
      rw [BindTable.configBindingSet_apply _ _ (by omega)]
      split
      · apply BindSlot.stored_checked
        have hle (v : Nat) : v &&& 0x1F ≤ 31 := Nat.and_le_right
        unfold restoreSlot
        dsimp only
        rw [UInt8.toNat_ofNat']
        have hv := hle (((webHexNibble a).toNat <<< 8) ||| ((webHexNibble b).toNat <<< 4) |||
          (webHexNibble c).toNat)
        omega
      · exact ht i j
  | case2 => exact ht i j

/-- The bindings, of up to 16 inputs. -/
def restoreBinds (json : CStr) (din : Fin 16) (old : { t : BindTable // ∀ i k, (t i k).Stored }) :
    { t : BindTable // ∀ i k, (t i k).Stored } :=
  match cfgJsonGetStr json (ascii "binds") 255 with
  | some p =>
      ⟨restoreBindsLoop (min (din.val * 8) 16 * cfgBindSlots) 0 p old.1,
        stored_restoreBindsLoop (by unfold cfgMaxInputs cfgBindSlots; omega) p old.2⟩
  | none => old

/-- One channel name: the first 11 bytes of its block, without blanks at the end; an empty one
is skipped, and a block that is not whole ends the loop. -/
def restoreName (packed : CStr) (names : Nat → FieldStr (cfgNameLen - 1)) (i : Nat) :
    Nat → FieldStr (cfgNameLen - 1) :=
  let acName := trimEnd ((packed.drop (i * cfgNameLen)).take (cfgNameLen - 1))
  if (i + 1) * cfgNameLen ≤ packed.length ∧ acName ≠ [] then
    Function.update names i (.strncpy _ acName)
  else names

/-- The channel names, from a buffer of 256 bytes. -/
def restoreNames (json key : CStr) (count : Nat) (old : Nat → FieldStr (cfgNameLen - 1)) :
    Nat → FieldStr (cfgNameLen - 1) :=
  match cfgJsonGetStr json key 255 with
  | some packed => (List.range count).foldl (restoreName packed) old
  | none => old

namespace BackupSettings

/-- The settings after the last chunk, when `json` is the text in the buffer. -/
def restoredFrom (json : CStr) (s : BackupSettings) : BackupSettings :=
  let din := restoreDevices ul json (ascii "din") s.din
  let relay := restoreDevices ul json (ascii "relay") s.relay
  { host := restoreStr json (ascii "host") s.host
    client := restoreStr json (ascii "client") s.client
    user := restoreStr json (ascii "user") s.user
    pass := restoreStr json (ascii "pass") s.pass
    topic := restoreStr json (ascii "topic") s.topic
    port :=
      if h : 0 < cfgJsonGetInt ul json (ascii "port") ∧
          cfgJsonGetInt ul json (ascii "port") ≤ 65535 then
        ⟨(cfgJsonGetInt ul json (ascii "port")).toNat, by omega⟩
      else s.port
    useAuth :=
      if 0 ≤ cfgJsonGetInt ul json (ascii "auth") then
        decide (cfgJsonGetInt ul json (ascii "auth") ≠ 0)
      else s.useAuth
    din := din
    relay := relay
    ntpServer := restoreStr json (ascii "ntp") s.ntpServer
    tz :=
      if h : -12 ≤ cfgJsonGetInt ul json (ascii "tz") ∧ cfgJsonGetInt ul json (ascii "tz") ≤ 14 then
        ⟨cfgJsonGetInt ul json (ascii "tz"), h⟩
      else s.tz
    inputType :=
      match cfgJsonGetStr json (ascii "types") 63 with
      | some p => HaMqtt.typesLoop p 0 s.inputType
      | none => s.inputType
    binds := restoreBinds json din s.binds
    inName := restoreNames json (ascii "innames") (min (din * 8) cfgNamesMaxInputs) s.inName
    outName :=
      restoreNames json (ascii "outnames") (min (relay * 8) cfgNamesMaxOutputs) s.outName }

end BackupSettings

/-! ## The requests -/

/-- The device: its settings, and `g_acCfgRestoreBuf` with what is in it. -/
structure RestoreState where
  settings : BackupSettings
  buf : List UInt8

/-- `CFG_RESTORE_BUF_SIZE`. -/
def cfgRestoreBufSize : Nat := 2048

/-- The bytes of pairs of hexadecimal digits. -/
def hexPairs : CStr → List UInt8
  | hi :: lo :: cs => ((webHexNibble hi <<< 4) ||| webHexNibble lo) :: hexPairs cs
  | _ => []

namespace RestoreState

/-- The buffer after a chunk. -/
def received (r : RestoreState) (seq data : CStr) : List UInt8 :=
  let buf := if ul.palStrToUl seq 10 = 0#32 then [] else r.buf
  buf ++ (hexPairs data).take (cfgRestoreBufSize - 1 - buf.length)

/-- `CfgRestoreCGIHandler`. -/
def cfgRestoreCGIHandler (r : RestoreState) (params : CgiParams) : RestoreState :=
  match findCGIParameter (ascii "seq") params, findCGIParameter (ascii "data") params with
  | some seq, some data =>
      let buf := r.received ul seq data
      if (findCGIParameter (ascii "last") params).any fun v => charAt v 0 = 49 then
        ⟨r.settings.restoredFrom ul (buf.takeWhile (· ≠ 0)), buf⟩
      else { r with buf := buf }
  | _, _ => r

end RestoreState

/-- The backup of one device, restored on another. -/
def restoreBackup (browser : Browser) (localInputs : Nat) (s : BackupSettings)
    (d : RestoreState) : BackupSettings :=
  ((doRestore (buildJson (browser.value (s.tags localInputs)))).foldl
    (RestoreState.cfgRestoreCGIHandler ul) d).settings

end HomeAuto
