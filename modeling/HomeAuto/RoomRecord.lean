import HomeAuto.WebText

/-!
# The room record (`product_config_store.c`)

`tRoomConfig` as it lies in RAM and in storage: the names of the rooms, and the room of
each output and of each shutter slot.
-/

namespace HomeAuto

/-- `CFG_MAX_ROOMS`, `ROOM_NONE`, `CFG_ROOMCFG_MAGIC`. -/
def cfgMaxRooms : Nat := 16
def roomNone : UInt8 := 0xFF
def cfgRoomcfgMagic : BitVec 32 := 0x4D4F4F52#32

/-- `tRoomConfig`. -/
structure RoomRecord where
  magic : BitVec 32
  roomName : Fin cfgMaxRooms → Fin cfgNameLen → UInt8
  outRoom : Fin cfgMaxOutputs → UInt8
  shRoom : Fin cfgMaxShutters → UInt8
  crc : BitVec 32

/-- How `tRoomConfig` lies in memory. -/
def roomRecordLayout : Layout RoomRecord :=
  (wordLayout.pair <| (Layout.array cfgMaxRooms (Layout.array cfgNameLen .byte)).pair <|
    (Layout.array cfgMaxOutputs .byte).pair <|
    (Layout.array cfgMaxShutters .byte).pair wordLayout).via
    (fun r => (r.magic, r.roomName, r.outRoom, r.shRoom, r.crc))
    (fun (magic, roomName, outRoom, shRoom, crc) => ⟨magic, roomName, outRoom, shRoom, crc⟩)
    (fun _ => rfl)

example : roomRecordLayout.size = 352 := by decide

namespace RoomRecord

/-- `ConfigRoomSetDefaults`. -/
def configRoomSetDefaults : RoomRecord where
  magic := cfgRoomcfgMagic
  roomName _ _ := 0
  outRoom _ := roomNone
  shRoom _ := roomNone
  crc := 0

/-- `ConfigOutRoom`. -/
def configOutRoom (r : RoomRecord) (iOut : Nat) : UInt8 :=
  if h : iOut < cfgMaxOutputs then r.outRoom ⟨iOut, h⟩ else roomNone

/-- The room of a request: a number past the last room is none. -/
def roomOf (v : BitVec 32) : UInt8 :=
  if v.toNat < cfgMaxRooms then UInt8.ofNat v.toNat else roomNone

/-- `ConfigRoomNameSet`. -/
def configRoomNameSet (r : RoomRecord) (iRoom : Nat) (name : List UInt8) : RoomRecord :=
  if h : iRoom < cfgMaxRooms then
    { r with roomName := Function.update r.roomName ⟨iRoom, h⟩ (nameField name) }
  else r

/-- `ConfigOutRoomSet`. -/
def configOutRoomSet (r : RoomRecord) (iOut : Nat) (room : UInt8) : RoomRecord :=
  if h : iOut < cfgMaxOutputs then
    { r with
      outRoom := Function.update r.outRoom ⟨iOut, h⟩
        (if room.toNat < cfgMaxRooms then room else roomNone) }
  else r

/-- `ConfigShRoomSet`. -/
def configShRoomSet (r : RoomRecord) (iShutter : Nat) (room : UInt8) : RoomRecord :=
  if h : iShutter < cfgMaxShutters then
    { r with
      shRoom := Function.update r.shRoom ⟨iShutter, h⟩
        (if room.toNat < cfgMaxRooms then room else roomNone) }
  else r

/-- The record that `ConfigRoomSave` stores. -/
def stamped (r : RoomRecord) : RoomRecord :=
  { r with
    magic := cfgRoomcfgMagic
    crc := recordCrc roomRecordLayout { r with magic := cfgRoomcfgMagic } }

end RoomRecord

end HomeAuto
