import HomeAuto.ConfigRecords
import HomeAuto.Lib.WordWrites
import HomeAuto.OutputStore

/-!
# Loading the configuration (`config.c`, `product_config_store.c`)

`ConfigInit` and `product_config_load` over the whole store: each record is read from its
place and checked.  The broker settings, the time server, the input types and the bindings
fall back to defaults in RAM only, the names, the outputs and the rooms are saved as well,
and the outputs may be upgraded from older firmware.
-/

namespace HomeAuto

/-! ## Records with a magic word and a CRC -/

/-- A layout whose last field is a word. -/
structure LastWord {α : Type} (L : Layout α) where
  front : α → List UInt8
  last : α → BitVec 32
  put_eq : ∀ a, L.put a = front a ++ wordBytes (last a)

namespace LastWord

variable {α β : Type} {L : Layout α} {M : Layout β}

/-- A word. -/
def word : LastWord wordLayout := ⟨fun _ => [], id, fun _ => rfl⟩

/-- A field in front. -/
def pair (L : Layout α) (c : LastWord M) : LastWord (L.pair M) where
  front p := L.put p.1 ++ c.front p.2
  last p := c.last p.2
  put_eq p := by
    rw [List.append_assoc, ← c.put_eq]
    rfl

/-- A record as the nest of its fields. -/
def via (c : LastWord L) (fields : β → α) (record : α → β)
    (h : ∀ b, record (fields b) = b) : LastWord (L.via fields record h) :=
  ⟨fun b => c.front (fields b), fun b => c.last (fields b), fun b => c.put_eq (fields b)⟩

theorem front_via (c : LastWord L) (fields : β → α) (record : α → β)
    (h : ∀ b, record (fields b) = b) (b : β) :
    (c.via fields record h).front b = c.front (fields b) := rfl

theorem front_pair {c : LastWord M} {a a' : α} {b b' : β} (h : a = a')
    (hrest : c.front b = c.front b') : (pair L c).front (a, b) = (pair L c).front (a', b') := by
  change L.put a ++ c.front b = L.put a' ++ c.front b'
  rw [h, hrest]

theorem front_word (v w : BitVec 32) : word.front v = word.front w := rfl

/-- The CRC of a record covers what stands before its last word. -/
theorem recordCrc_eq (c : LastWord L) (a : α) : recordCrc L a = configCRC32 (c.front a) := by
  have hlen := L.length_put a
  rw [c.put_eq, List.length_append] at hlen
  have hword : (wordBytes (c.last a)).length = 4 := rfl
  rw [recordCrc, c.put_eq, List.take_left' (by omega)]

end LastWord

/-- A record at its place in the store: a magic word, some fields, and the CRC.  A save
marks the record with its magic word, and stamps it with the CRC. -/
structure RecordFormat (α : Type) where
  layout : Layout α
  addr : Nat
  marker : BitVec 32
  magic : α → BitVec 32
  closed : LastWord layout
  marked : α → α
  stamped : α → α
  magic_get : ∀ bs, magic (layout.get bs) = wordLayout.get bs
  put_magic : ∀ a, (layout.put a).take 4 = wordBytes (magic a)
  magic_stamped : ∀ a, magic (stamped a) = marker
  front_stamped : ∀ a, closed.front (stamped a) = closed.front (marked a)
  crc_stamped : ∀ a, closed.last (stamped a) = recordCrc layout (marked a)
  aligned : 4 ∣ layout.size

namespace RecordFormat

variable {α : Type} (F : RecordFormat α)

/-- The record at its place. -/
def read (m : ByteStore.Bytes) : α := F.layout.get (ByteStore.read m F.addr F.layout.size)

/-- The check on a record that was read: its magic word, and its CRC. -/
def Valid (a : α) : Prop := F.magic a = F.marker ∧ F.closed.last a = recordCrc F.layout a

instance (a : α) : Decidable (F.Valid a) := inferInstanceAs (Decidable (_ ∧ _))

/-- The words that a save writes. -/
def saveWords (a : α) : List ByteStore.WordWrite :=
  ByteStore.words 4 F.addr (F.layout.put (F.stamped a))

/-- A save: the record is stamped and written. -/
def save (m : ByteStore.Bytes) (a : α) : ByteStore.Bytes × α :=
  (ByteStore.write m F.addr (F.layout.put (F.stamped a)), F.stamped a)

/-- A record that does not check is replaced in RAM. -/
def loadOr (m : ByteStore.Bytes) (dflt : α) : α :=
  if F.Valid (F.read m) then F.read m else dflt

/-- A record that does not check is replaced in RAM and in the store. -/
def loadOrSave (m : ByteStore.Bytes) (dflt : α) : ByteStore.Bytes × α :=
  if F.Valid (F.read m) then (m, F.read m) else F.save m dflt

/-- The record in RAM that has not been loaded. -/
def cleared : α := F.layout.get []

/-- A record checks once its CRC is that of its other bytes. -/
theorem valid_of_front {F : RecordFormat α} {a b : α} (hmagic : F.magic a = F.marker)
    (hfront : F.closed.front a = F.closed.front b)
    (hcrc : F.closed.last a = recordCrc F.layout b) : F.Valid a := by
  refine ⟨hmagic, ?_⟩
  rw [hcrc, F.closed.recordCrc_eq, F.closed.recordCrc_eq, hfront]

theorem valid_stamped (a : α) : F.Valid (F.stamped a) :=
  valid_of_front (F.magic_stamped a) (F.front_stamped a) (F.crc_stamped a)

/-- A saved record is read back. -/
theorem read_save (m : ByteStore.Bytes) (a : α) : F.read (F.save m a).1 = F.stamped a := by
  rw [read, save, ← F.layout.length_put (F.stamped a), ByteStore.read_write,
    F.layout.get_put_self]

/-- What a load leaves in RAM is in the store, and checks. -/
theorem read_loadOrSave (m : ByteStore.Bytes) (dflt : α) :
    F.read (F.loadOrSave m dflt).1 = (F.loadOrSave m dflt).2 ∧
      F.Valid (F.loadOrSave m dflt).2 := by
  unfold loadOrSave
  split
  · rename_i h
    exact ⟨rfl, h⟩
  · exact ⟨F.read_save m dflt, F.valid_stamped dflt⟩

/-- A save writes all its words. -/
theorem program_saveWords (m : ByteStore.Bytes) (a : α) :
    ByteStore.program m (F.saveWords a) = (F.save m a).1 := by
  apply ByteStore.program_words
  rw [F.layout.length_put]
  exact F.aligned

/-- Only the bytes at its place matter for a record. -/
theorem read_congr {m m' : ByteStore.Bytes}
    (h : ByteStore.read m F.addr F.layout.size = ByteStore.read m' F.addr F.layout.size) :
    F.read m = F.read m' := by
  rw [read, read, h]

end RecordFormat

/-! ## The places -/

/-- `CFG_EEPROM_ADDR`, `CFG_IO_EEPROM_ADDR`, `CFG_IO_BINDINGS_ADDR`, `CFG_NTP_EEPROM_ADDR`,
`CFG_IO_NAMES_ADDR`, `CFG_ROOMCFG_ADDR`. -/
def cfgEepromAddr : Nat := 0
def cfgIoEepromAddr : Nat := 256
def cfgIoBindingsAddr : Nat := 280
def cfgNtpEepromAddr : Nat := 1260
def cfgIoNamesAddr : Nat := 1304
def cfgRoomcfgAddr : Nat := 4096

open LastWord

/-- The broker settings. -/
def mqttFormat : RecordFormat MqttRecord where
  layout := mqttRecordLayout
  addr := cfgEepromAddr
  marker := cfgMagic
  magic := MqttRecord.magic
  closed := LastWord.via (.pair _ <| .pair _ <| .pair _ <| .pair _ <| .pair _ <| .pair _ <|
    .pair _ <| .pair _ <| .pair _ .word) _ _ _
  marked r := { r with magic := cfgMagic }
  stamped := MqttRecord.stamped
  magic_get _ := rfl
  put_magic _ := rfl
  magic_stamped _ := rfl
  front_stamped _ := by
    rw [front_via, front_via]
    exact front_pair rfl <| front_pair rfl <| front_pair rfl <| front_pair rfl <|
      front_pair rfl <| front_pair rfl <| front_pair rfl <| front_pair rfl <|
        front_pair rfl <| front_word _ _
  crc_stamped r := by
    change r.stamped.crc = _
    rw [MqttRecord.stamped]
  aligned := by decide

/-- The time server. -/
def ntpFormat : RecordFormat NtpRecord where
  layout := ntpRecordLayout
  addr := cfgNtpEepromAddr
  marker := cfgNtpMagic
  magic := NtpRecord.magic
  closed := LastWord.via (.pair _ <| .pair _ <| .pair _ <| .pair _ .word) _ _ _
  marked r := { r with magic := cfgNtpMagic }
  stamped := NtpRecord.stamped
  magic_get _ := rfl
  put_magic _ := rfl
  magic_stamped _ := rfl
  front_stamped _ := by
    rw [front_via, front_via]
    exact front_pair rfl <| front_pair rfl <| front_pair rfl <| front_pair rfl <| front_word _ _
  crc_stamped r := by
    change r.stamped.crc = _
    rw [NtpRecord.stamped]
  aligned := by decide

/-- The input types. -/
def ioFormat : RecordFormat IoSettings where
  layout := ioSettingsLayout
  addr := cfgIoEepromAddr
  marker := cfgIoMagic
  magic := IoSettings.magic
  closed := LastWord.via (.pair _ <| .pair _ <| .pair _ .word) _ _ _
  marked r := { r with magic := cfgIoMagic }
  stamped := IoSettings.stamped
  magic_get _ := rfl
  put_magic _ := rfl
  magic_stamped _ := rfl
  front_stamped _ := by
    rw [front_via, front_via]
    exact front_pair rfl <| front_pair rfl <| front_pair rfl <| front_word _ _
  crc_stamped r := by
    change r.stamped.crc = _
    rw [IoSettings.stamped]
  aligned := by decide

/-- The bindings. -/
def bindFormat : RecordFormat BindRecord where
  layout := bindRecordLayout
  addr := cfgIoBindingsAddr
  marker := cfgIoBindingsMagic
  magic := BindRecord.magic
  closed := LastWord.via (.pair _ <| .pair _ <| .pair _ .word) _ _ _
  marked r := { r with magic := cfgIoBindingsMagic }
  stamped := BindRecord.stamped
  magic_get _ := rfl
  put_magic _ := rfl
  magic_stamped _ := rfl
  front_stamped _ := by
    rw [front_via, front_via]
    exact front_pair rfl <| front_pair rfl <| front_pair rfl <| front_word _ _
  crc_stamped r := by
    change r.stamped.crc = _
    rw [BindRecord.stamped]
  aligned := by decide

/-- The channel names. -/
def namesFormat : RecordFormat NamesRecord where
  layout := namesRecordLayout
  addr := cfgIoNamesAddr
  marker := cfgIoNamesMagic
  magic := NamesRecord.magic
  closed := LastWord.via (.pair _ <| .pair _ <| .pair _ .word) _ _ _
  marked r := { r with magic := cfgIoNamesMagic }
  stamped := NamesRecord.stamped
  magic_get _ := rfl
  put_magic _ := rfl
  magic_stamped _ := rfl
  front_stamped _ := by
    rw [front_via, front_via]
    exact front_pair rfl <| front_pair rfl <| front_pair rfl <| front_word _ _
  crc_stamped r := by
    change r.stamped.crc = _
    rw [NamesRecord.stamped]
  aligned := by decide

/-- The outputs. -/
def outputFormat : RecordFormat OutputRecord where
  layout := outputRecordLayout
  addr := cfgOutcfgAddr
  marker := cfgOutcfgMagic
  magic := OutputRecord.magic
  closed := LastWord.via (.pair _ <| .pair _ <| .pair _ <| .pair _ <| .pair _ <| .pair _ <|
    .pair _ .word) _ _ _
  marked r := { r.configShutterDedup.table with magic := cfgOutcfgMagic }
  stamped := OutputRecord.stamped
  magic_get _ := rfl
  put_magic _ := rfl
  magic_stamped r := by rw [OutputRecord.stamped]
  front_stamped r := by
    rw [front_via, front_via, OutputRecord.stamped]
    exact front_pair rfl <| front_pair rfl <| front_pair rfl <| front_pair rfl <|
      front_pair rfl <| front_pair rfl <| front_pair rfl <| front_word _ _
  crc_stamped r := by
    change r.stamped.crc = _
    rw [OutputRecord.stamped]
  aligned := by decide

/-- The rooms. -/
def roomFormat : RecordFormat RoomRecord where
  layout := roomRecordLayout
  addr := cfgRoomcfgAddr
  marker := cfgRoomcfgMagic
  magic := RoomRecord.magic
  closed := LastWord.via (.pair _ <| .pair _ <| .pair _ <| .pair _ .word) _ _ _
  marked r := { r with magic := cfgRoomcfgMagic }
  stamped := RoomRecord.stamped
  magic_get _ := rfl
  put_magic _ := rfl
  magic_stamped _ := rfl
  front_stamped _ := by
    rw [front_via, front_via]
    exact front_pair rfl <| front_pair rfl <| front_pair rfl <| front_pair rfl <| front_word _ _
  crc_stamped r := by
    change r.stamped.crc = _
    rw [RoomRecord.stamped]
  aligned := by decide

/-! ## The boot -/

/-- The records in RAM. -/
structure Config where
  mqtt : MqttRecord
  ntp : NtpRecord
  io : IoSettings
  bindings : BindRecord
  names : NamesRecord
  output : OutputRecord
  rooms : RoomRecord

/-- `WebPlatformLocalInputCount` of the TM4C1294. -/
def webPlatformLocalInputCount : Nat := 0

namespace Config

/-- The RAM before anything has been loaded. -/
def cleared : Config where
  mqtt := mqttFormat.cleared
  ntp := ntpFormat.cleared
  io := ioFormat.cleared
  bindings := bindFormat.cleared
  names := namesFormat.cleared
  output := outputFormat.cleared
  rooms := roomFormat.cleared

/-- `product_config_load`: what it leaves in the store and in RAM. -/
def productConfigLoad (m : ByteStore.Bytes) (c : Config) : ByteStore.Bytes × Config :=
  let names := namesFormat.loadOrSave m .defaults
  let output := OutputStore.productConfigLoad ⟨names.1, c.output⟩ none
  let rooms := roomFormat.loadOrSave output.eeprom .configRoomSetDefaults
  (rooms.1, { c with
    io := ioFormat.loadOr m
      (.defaults (c.mqtt.ioDevices &&& (0x0F : UInt8)).toNat webPlatformLocalInputCount)
    bindings := bindFormat.loadOr m .defaults
    names := names.2
    output := output.out
    rooms := rooms.2 })

/-- `ConfigInit`, with the result of `PalStorageInit`. -/
def configInit (initOk : Bool) (m : ByteStore.Bytes) : ByteStore.Bytes × Config :=
  if initOk then
    productConfigLoad m { cleared with
      mqtt := (mqttFormat.loadOr m .configSetDefaults).clampDevices
      ntp := ntpFormat.loadOr m .defaults }
  else (m, { cleared with mqtt := .configSetDefaults })

end Config

/-! ## What a boot takes from the store -/

/-- The records. -/
inductive ConfigRecord
  | mqtt | ntp | io | bindings | names | output | rooms
  deriving DecidableEq

namespace ConfigRecord

/-- The type of a record. -/
abbrev Value : ConfigRecord → Type
  | mqtt => MqttRecord
  | ntp => NtpRecord
  | io => IoSettings
  | bindings => BindRecord
  | names => NamesRecord
  | output => OutputRecord
  | rooms => RoomRecord

/-- The format of a record. -/
def format : (r : ConfigRecord) → RecordFormat r.Value
  | mqtt => mqttFormat
  | ntp => ntpFormat
  | io => ioFormat
  | bindings => bindFormat
  | names => namesFormat
  | output => outputFormat
  | rooms => roomFormat

/-- The defaults of a record, as a boot leaves them. -/
def defaults : (r : ConfigRecord) → r.Value
  | mqtt => .configSetDefaults
  | ntp => .defaults
  | io => .switches
  | bindings => .defaults
  | names => NamesRecord.defaults.stamped
  | output => OutputRecord.configOutputSetDefaults.stamped
  | rooms => RoomRecord.configRoomSetDefaults.stamped

/-- What the store holds of a record of older firmware. -/
def migrated (m : ByteStore.Bytes) : (r : ConfigRecord) → Option r.Value
  | output => if (storedRecordV1 m).Valid then
      some (OutputRecord.ofV1 (storedRecordV1 m)).stamped else none
  | _ => none

/-- What a boot takes from the store. -/
def taken (r : ConfigRecord) (m : ByteStore.Bytes) : Option r.Value :=
  if r.format.Valid (r.format.read m) then some (r.format.read m) else r.migrated m

/-- What a boot makes of the store. -/
def load (r : ConfigRecord) (m : ByteStore.Bytes) : r.Value := (r.taken m).getD r.defaults

end ConfigRecord

/-- A record in RAM. -/
def Config.get (c : Config) : (r : ConfigRecord) → r.Value
  | .mqtt => c.mqtt
  | .ntp => c.ntp
  | .io => c.io
  | .bindings => c.bindings
  | .names => c.names
  | .output => c.output
  | .rooms => c.rooms

/-- The byte of the device counts, clamped nibble by nibble. -/
theorem clampNibbles (b : UInt8) :
    let din := (b &&& (0xF0 : UInt8)) |||
      (if cfgDinMaxDevices < b &&& (0x0F : UInt8) then cfgDinDefaultDevices
        else b &&& (0x0F : UInt8))
    (din &&& (0x0F : UInt8)) |||
      ((if cfgRelayMaxDevices < (din >>> 4) &&& (0x0F : UInt8) then cfgRelayDefaultDevices
        else (din >>> 4) &&& (0x0F : UInt8)) <<< 4) = b := by
  cases b with
  | ofBitVec b =>
      cases b with
      | ofFin b =>
          revert b
          decide +kernel

/-- A nibble is never past the maximum of 15 devices. -/
theorem MqttRecord.clampDevices_self (r : MqttRecord) : r.clampDevices = r := by
  have hbyte := clampNibbles r.ioDevices
  unfold clampDevices configSetRelayDevices configSetDinDevices
  dsimp only at hbyte ⊢
  rw [hbyte]

namespace ConfigRecord

/-- The records do not overlap. -/
theorem disjoint {r r' : ConfigRecord} (h : r ≠ r') :
    r.format.addr + r.format.layout.size ≤ r'.format.addr ∨
      r'.format.addr + r'.format.layout.size ≤ r.format.addr := by
  cases r <;> cases r' <;> first | exact absurd rfl h | decide

/-- The bytes of a record are the same in two stores. -/
def SameBytes (r : ConfigRecord) (m m' : ByteStore.Bytes) : Prop :=
  ByteStore.read m r.format.addr r.format.layout.size =
    ByteStore.read m' r.format.addr r.format.layout.size

theorem storedRecordV1_congr {m m' : ByteStore.Bytes} (h : output.SameBytes m m') :
    storedRecordV1 m = storedRecordV1 m' := by
  have hsplit (m : ByteStore.Bytes) :
      ByteStore.read m cfgOutcfgAddr outputRecordV1Layout.size =
        (ByteStore.read m cfgOutcfgAddr outputRecordLayout.size).take
          outputRecordV1Layout.size := by
    have hadd := ByteStore.read_add m cfgOutcfgAddr outputRecordV1Layout.size
      (outputRecordLayout.size - outputRecordV1Layout.size)
    rw [Nat.add_sub_cancel' (by decide)] at hadd
    rw [hadd, List.take_left' (ByteStore.length_read _ _ _)]
  have hbytes : ByteStore.read m cfgOutcfgAddr outputRecordLayout.size =
      ByteStore.read m' cfgOutcfgAddr outputRecordLayout.size := h
  rw [storedRecordV1, storedRecordV1, hsplit, hsplit, hbytes]

theorem taken_congr {r : ConfigRecord} {m m' : ByteStore.Bytes} (h : r.SameBytes m m') :
    r.taken m = r.taken m' := by
  have hread : r.format.read m = r.format.read m' := r.format.read_congr h
  have hmigrated : r.migrated m = r.migrated m' := by
    cases r with
    | output =>
        unfold migrated
        rw [storedRecordV1_congr h]
    | _ => rfl
  rw [taken, taken, hread, hmigrated]

theorem load_congr {r : ConfigRecord} {m m' : ByteStore.Bytes} (h : r.SameBytes m m') :
    r.load m = r.load m' := by
  rw [load, load, taken_congr h]

/-- A record saved leaves the others. -/
theorem sameBytes_save {r r' : ConfigRecord} (h : r ≠ r') (m : ByteStore.Bytes) (a : r.Value) :
    r'.SameBytes (r.format.save m a).1 m := by
  apply ByteStore.read_write_of_disjoint
  rw [r.format.layout.length_put]
  exact disjoint h

/-- What `product_config_load` does with the outputs. -/
theorem productConfigLoad_output (m : ByteStore.Bytes) (r : OutputRecord) :
    (OutputStore.productConfigLoad ⟨m, r⟩ none).out = output.load m ∧
      ((OutputStore.productConfigLoad ⟨m, r⟩ none).eeprom = m ∨
        ∃ a, (OutputStore.productConfigLoad ⟨m, r⟩ none).eeprom = (outputFormat.save m a).1) := by
  by_cases hnew : (storedRecord m).Valid
  · have hload : OutputStore.productConfigLoad ⟨m, r⟩ none = ⟨m, storedRecord m⟩ := if_pos hnew
    have htaken : output.taken m = some (storedRecord m) := if_pos hnew
    rw [hload, load, htaken]
    exact ⟨rfl, .inl rfl⟩
  · have htaken : output.taken m = output.migrated m := if_neg hnew
    by_cases hold : (storedRecordV1 m).Valid
    · have hload : OutputStore.productConfigLoad ⟨m, r⟩ none =
          ⟨(outputFormat.save m (.ofV1 (storedRecordV1 m))).1,
            (OutputRecord.ofV1 (storedRecordV1 m)).stamped⟩ := by
        simp only [OutputStore.productConfigLoad, hnew, if_false,
          OutputStore.configOutputMigrateV1, hold, if_true]
        rfl
      have hmigrated : output.migrated m = some (OutputRecord.ofV1 (storedRecordV1 m)).stamped :=
        if_pos hold
      rw [hload, load, htaken, hmigrated]
      exact ⟨rfl, .inr ⟨_, rfl⟩⟩
    · have hload : OutputStore.productConfigLoad ⟨m, r⟩ none =
          ⟨(outputFormat.save m .configOutputSetDefaults).1,
            OutputRecord.configOutputSetDefaults.stamped⟩ := by
        simp only [OutputStore.productConfigLoad, hnew, if_false,
          OutputStore.configOutputMigrateV1, hold]
        rfl
      have hmigrated : output.migrated m = none := if_neg hold
      rw [hload, load, htaken, hmigrated]
      exact ⟨rfl, .inr ⟨_, rfl⟩⟩

/-- What a boot makes of a record that older firmware cannot have left. -/
theorem load_eq {r : ConfigRecord} {m : ByteStore.Bytes} (h : r.migrated m = none) :
    r.load m = r.format.loadOr m r.defaults := by
  unfold load taken RecordFormat.loadOr
  split
  · rfl
  · rw [h]
    rfl

/-- A record whose defaults are saved. -/
theorem loadOrSave_eq {α : Type} (F : RecordFormat α) (m : ByteStore.Bytes) (dflt : α) :
    (F.loadOrSave m dflt).2 = F.loadOr m (F.stamped dflt) ∧
      ((F.loadOrSave m dflt).1 = m ∨ ∃ a, (F.loadOrSave m dflt).1 = (F.save m a).1) := by
  unfold RecordFormat.loadOrSave RecordFormat.loadOr
  split
  · exact ⟨rfl, .inl rfl⟩
  · exact ⟨rfl, .inr ⟨dflt, rfl⟩⟩

/-- What is left of the other records when one may have been saved. -/
theorem sameBytes_of_saved {r r' : ConfigRecord} (h : r ≠ r') {m m' : ByteStore.Bytes}
    (hm : m' = m ∨ ∃ a, m' = (r.format.save m a).1) : r'.SameBytes m' m := by
  rcases hm with rfl | ⟨a, rfl⟩
  · rfl
  · exact sameBytes_save h m a

/-- **What a boot loads**: each record from its own place. -/
theorem get_configInit (r : ConfigRecord) (m : ByteStore.Bytes) :
    (Config.configInit true m).2.get r = r.load m := by
  obtain ⟨hnames, hm1⟩ := loadOrSave_eq namesFormat m .defaults
  obtain ⟨hout, hm2⟩ := productConfigLoad_output (namesFormat.loadOrSave m .defaults).1
    Config.cleared.output
  obtain ⟨hrooms, -⟩ := loadOrSave_eq roomFormat (OutputStore.productConfigLoad
    ⟨(namesFormat.loadOrSave m .defaults).1, Config.cleared.output⟩ none).eeprom
    .configRoomSetDefaults
  have hafterNames (r : ConfigRecord) (h : names ≠ r) := sameBytes_of_saved (r := names) h hm1
  have hafterOutput (r : ConfigRecord) (h : output ≠ r) := sameBytes_of_saved (r := output) h hm2
  cases r with
  | mqtt =>
      rw [load_eq rfl]
      exact MqttRecord.clampDevices_self _
  | ntp =>
      rw [load_eq rfl]
      rfl
  | io =>
      rw [load_eq rfl]
      rfl
  | bindings =>
      rw [load_eq rfl]
      rfl
  | names =>
      rw [load_eq rfl]
      exact hnames
  | output =>
      rw [← load_congr (hafterNames output (by decide))]
      exact hout
  | rooms =>
      rw [← load_congr (hafterNames rooms (by decide)),
        ← load_congr (hafterOutput rooms (by decide)), load_eq rfl]
      exact hrooms

end ConfigRecord

end HomeAuto
