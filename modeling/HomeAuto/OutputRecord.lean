import HomeAuto.ConfigCrc
import HomeAuto.OutputConfig

/-!
# The output record in memory (`product_config_store.c`)

`tOutputConfig` with all its fields as it lies in RAM and in storage, the record of older
firmware it may have to be upgraded from, its defaults and the editing of its shutter
table.  `outCfg` is the record as the output controller sees it.
-/

namespace HomeAuto

/-- `CFG_OUTCFG_MAGIC`, `CFG_OUTCFG_V1_SHUTTERS`. -/
def cfgOutcfgMagic : BitVec 32 := 0x4F555443#32
def cfgOutcfgV1Shutters : Nat := 16

/-- `SHUTTER_NONE` as it is stored. -/
def shutterNoneByte : UInt8 := 0xFF

/-- `tOutputConfig`. -/
structure OutputRecord where
  magic : BitVec 32
  mode : Fin cfgMaxOutputs → UInt8
  timedMs : Fin cfgMaxOutputs → BitVec 32
  shUp : Fin cfgMaxShutters → UInt8
  shDown : Fin cfgMaxShutters → UInt8
  shTravelMs : Fin cfgMaxShutters → BitVec 32
  shName : Fin cfgMaxShutters → Fin cfgNameLen → UInt8
  crc : BitVec 32

/-- `tOutputConfigV1`: half as many shutters, and no names. -/
structure OutputRecordV1 where
  magic : BitVec 32
  mode : Fin cfgMaxOutputs → UInt8
  timedMs : Fin cfgMaxOutputs → BitVec 32
  shUp : Fin cfgOutcfgV1Shutters → UInt8
  shDown : Fin cfgOutcfgV1Shutters → UInt8
  shTravelMs : Fin cfgOutcfgV1Shutters → BitVec 32
  crc : BitVec 32

/-- How `tOutputConfig` lies in memory. -/
def outputRecordLayout : Layout OutputRecord :=
  (wordLayout.pair <| (Layout.array cfgMaxOutputs .byte).pair <|
    (Layout.array cfgMaxOutputs wordLayout).pair <|
    (Layout.array cfgMaxShutters .byte).pair <| (Layout.array cfgMaxShutters .byte).pair <|
    (Layout.array cfgMaxShutters wordLayout).pair <|
    (Layout.array cfgMaxShutters (Layout.array cfgNameLen .byte)).pair wordLayout).via
    (fun r => (r.magic, r.mode, r.timedMs, r.shUp, r.shDown, r.shTravelMs, r.shName, r.crc))
    (fun (magic, mode, timedMs, shUp, shDown, shTravelMs, shName, crc) =>
      ⟨magic, mode, timedMs, shUp, shDown, shTravelMs, shName, crc⟩)
    (fun _ => rfl)

/-- How `tOutputConfigV1` lies in memory. -/
def outputRecordV1Layout : Layout OutputRecordV1 :=
  (wordLayout.pair <| (Layout.array cfgMaxOutputs .byte).pair <|
    (Layout.array cfgMaxOutputs wordLayout).pair <|
    (Layout.array cfgOutcfgV1Shutters .byte).pair <|
    (Layout.array cfgOutcfgV1Shutters .byte).pair <|
    (Layout.array cfgOutcfgV1Shutters wordLayout).pair wordLayout).via
    (fun r => (r.magic, r.mode, r.timedMs, r.shUp, r.shDown, r.shTravelMs, r.crc))
    (fun (magic, mode, timedMs, shUp, shDown, shTravelMs, crc) =>
      ⟨magic, mode, timedMs, shUp, shDown, shTravelMs, crc⟩)
    (fun _ => rfl)

example : outputRecordLayout.size = 1184 ∧ outputRecordV1Layout.size = 704 := by decide

/-- The CRC of everything before the CRC field, which is the last one. -/
def recordCrc {α : Type} (L : Layout α) (r : α) : BitVec 32 :=
  configCRC32 ((L.put r).take (L.size - 4))

/-- The check on a record that was read. -/
def OutputRecord.Valid (r : OutputRecord) : Prop :=
  r.magic = cfgOutcfgMagic ∧ r.crc = recordCrc outputRecordLayout r

/-- The check on a record of older firmware. -/
def OutputRecordV1.Valid (r : OutputRecordV1) : Prop :=
  r.magic = cfgOutcfgMagic ∧ r.crc = recordCrc outputRecordV1Layout r

instance (r : OutputRecord) : Decidable r.Valid := inferInstanceAs (Decidable (_ ∧ _))

instance (r : OutputRecordV1) : Decidable r.Valid := inferInstanceAs (Decidable (_ ∧ _))

namespace OutputRecord

/-- All bytes zero, as the record is before anything has been loaded. -/
def zero : OutputRecord where
  magic := 0
  mode _ := 0
  timedMs _ := 0
  shUp _ := 0
  shDown _ := 0
  shTravelMs _ := 0
  shName _ _ := 0
  crc := 0

/-- `ConfigOutputSetDefaults`. -/
def configOutputSetDefaults : OutputRecord where
  magic := cfgOutcfgMagic
  mode _ := 0
  timedMs _ := 1000
  shUp _ := shutterNoneByte
  shDown _ := shutterNoneByte
  shTravelMs _ := 20000
  shName _ _ := 0
  crc := 0

/-- The record as the accessors of the output controller read it. -/
def outCfg (r : OutputRecord) : OutputConfig where
  mode i := if h : i < cfgMaxOutputs then (r.mode ⟨i, h⟩).toNat else 0
  timedMs i := if h : i < cfgMaxOutputs then (r.timedMs ⟨i, h⟩).toNat else 0
  shUp i := if h : i < cfgMaxShutters then (r.shUp ⟨i, h⟩).toNat else 0
  shDown i := if h : i < cfgMaxShutters then (r.shDown ⟨i, h⟩).toNat else 0
  shTravelMs i := if h : i < cfgMaxShutters then (r.shTravelMs ⟨i, h⟩).toNat else 0

/-- Store a pair in a slot. -/
def putPair (r : OutputRecord) (i : Fin cfgMaxShutters) (up down : UInt8) : OutputRecord :=
  { r with shUp := Function.update r.shUp i up, shDown := Function.update r.shDown i down }

/-- Mark a slot as empty. -/
def emptySlot (r : OutputRecord) (i : Fin cfgMaxShutters) : OutputRecord :=
  r.putPair i shutterNoneByte shutterNoneByte

/-- The travel time that `ConfigShutterSet` stores. -/
def clampTravel (travelMs : BitVec 32) : BitVec 32 :=
  if travelMs < 1#32 then 1#32 else if 3600000#32 < travelMs then 3600000#32 else travelMs

/-- `ConfigShutterSet`. -/
def configShutterSet (r : OutputRecord) (iSlot : Int) (up down : UInt8)
    (travelMs : BitVec 32) : OutputRecord :=
  if h : 0 ≤ iSlot ∧ iSlot.toNat < cfgMaxShutters then
    if up = down ∨ cfgMaxOutputs ≤ up.toNat ∨ cfgMaxOutputs ≤ down.toNat then
      r.emptySlot ⟨iSlot.toNat, h.2⟩
    else
      { r.putPair ⟨iSlot.toNat, h.2⟩ up down with
        shTravelMs := Function.update r.shTravelMs ⟨iSlot.toNat, h.2⟩ (clampTravel travelMs) }
  else r

/-- `ConfigShutterClear`. -/
def configShutterClear (r : OutputRecord) (iSlot : Int) : OutputRecord :=
  if h : 0 ≤ iSlot ∧ iSlot.toNat < cfgMaxShutters then
    { r.emptySlot ⟨iSlot.toNat, h.2⟩ with
      shName := Function.update r.shName ⟨iSlot.toNat, h.2⟩ fun _ => 0 }
  else r

/-- The locals of `ConfigShutterDedup`: the record, `bUsed` and `iCleared`. -/
structure Dedup where
  table : OutputRecord
  used : Nat → Bool
  cleared : Nat

/-- The loop body of `ConfigShutterDedup`. -/
def dedupSlot (d : Dedup) (i : Fin cfgMaxShutters) : Dedup :=
  if cfgMaxOutputs ≤ (d.table.shUp i).toNat ∨ cfgMaxOutputs ≤ (d.table.shDown i).toNat then d
  else if d.used (d.table.shUp i).toNat || d.used (d.table.shDown i).toNat then
    { d with table := d.table.emptySlot i, cleared := d.cleared + 1 }
  else
    { d with
      used := Function.update (Function.update d.used (d.table.shUp i).toNat true)
        (d.table.shDown i).toNat true }

/-- `ConfigShutterDedup`. -/
def configShutterDedup (r : OutputRecord) : Dedup :=
  (List.finRange cfgMaxShutters).foldl dedupSlot ⟨r, fun _ => false, 0⟩

/-- The record that `ConfigOutputSave` stores: de-duplicated and stamped. -/
def stamped (r : OutputRecord) : OutputRecord :=
  { r.configShutterDedup.table with
    magic := cfgOutcfgMagic
    crc := recordCrc outputRecordLayout { r.configShutterDedup.table with magic := cfgOutcfgMagic } }

/-- The record that `ConfigOutputMigrateV1` builds from an older one. -/
def ofV1 (v : OutputRecordV1) : OutputRecord :=
  { configOutputSetDefaults with
    mode := v.mode
    timedMs := v.timedMs
    shUp i := if h : i.val < cfgOutcfgV1Shutters then v.shUp ⟨i, h⟩ else shutterNoneByte
    shDown i := if h : i.val < cfgOutcfgV1Shutters then v.shDown ⟨i, h⟩ else shutterNoneByte
    shTravelMs i := if h : i.val < cfgOutcfgV1Shutters then v.shTravelMs ⟨i, h⟩ else 20000 }

/-! ## The shutter table -/

theorem configShutterGet_outCfg (r : OutputRecord) (i : Fin cfgMaxShutters) :
    r.outCfg.configShutterGet i =
      if r.shUp i = shutterNoneByte then none
      else some ⟨(r.shUp i).toNat, (r.shDown i).toNat, (r.shTravelMs i).toNat⟩ := by
  have hnone : (r.shUp i).toNat = shutterNone ↔ r.shUp i = shutterNoneByte :=
    ⟨fun h => UInt8.toNat_inj.mp h, fun h => h ▸ rfl⟩
  have hlt : ¬cfgMaxShutters ≤ i.val := by omega
  simp only [OutputConfig.configShutterGet, outCfg, hlt, if_false, i.isLt, dite_true, hnone]

theorem configShutterGet_outCfg_of_le (r : OutputRecord) {i : Nat} (h : cfgMaxShutters ≤ i) :
    r.outCfg.configShutterGet i = none := if_pos h

end OutputRecord

/-- Both relays of a slot are outputs. -/
def ShutterSlot.InRange (s : ShutterSlot) : Prop := s.up < cfgMaxOutputs ∧ s.down < cfgMaxOutputs

/-- A slot that can be driven: two different outputs, and a travel time in
`1 .. 3600000` ms. -/
structure ShutterSlot.Proper (s : ShutterSlot) : Prop where
  up_lt : s.up < cfgMaxOutputs
  down_lt : s.down < cfgMaxOutputs
  up_ne_down : s.up ≠ s.down
  travel_pos : 1 ≤ s.travelMs
  travel_le : s.travelMs ≤ 3600000

/-- Two slots use a common relay. -/
def ShutterSlot.Shares (s t : ShutterSlot) : Prop :=
  s.up = t.up ∨ s.up = t.down ∨ s.down = t.up ∨ s.down = t.down

namespace OutputConfig

/-- A live shutter table: well formed, and every travel time in `1 .. 3600000` ms. -/
structure ProperTable (cfg : OutputConfig) : Prop extends WellFormed cfg where
  travel : ∀ i slot, cfg.configShutterGet i = some slot →
    1 ≤ slot.travelMs ∧ slot.travelMs ≤ 3600000

theorem properTable_iff {cfg : OutputConfig} :
    cfg.ProperTable ↔ (∀ i s, cfg.configShutterGet i = some s → s.Proper) ∧
      ∀ i j s t, cfg.configShutterGet i = some s → cfg.configShutterGet j = some t →
        i ≠ j → ¬s.Shares t := by
  constructor
  · intro h
    refine ⟨fun i s hs => ?_, fun i j s t hs ht hij => ?_⟩
    · obtain ⟨hpos, hle⟩ := h.travel i s hs
      exact ⟨h.up_lt i s hs, h.down_lt i s hs, h.up_ne_down i s hs, hpos, hle⟩
    · have hne := h.disjoint i j s t hs ht hij
      unfold ShutterSlot.Shares
      omega
  · rintro ⟨hproper, hshares⟩
    refine ⟨⟨fun i s hs => (hproper i s hs).up_lt, fun i s hs => (hproper i s hs).down_lt,
      fun i s hs => (hproper i s hs).up_ne_down, fun i j s t hs ht hij => ?_⟩,
      fun i s hs => ⟨(hproper i s hs).travel_pos, (hproper i s hs).travel_le⟩⟩
    have hne := hshares i j s t hs ht hij
    unfold ShutterSlot.Shares at hne
    omega

end OutputConfig

end HomeAuto
