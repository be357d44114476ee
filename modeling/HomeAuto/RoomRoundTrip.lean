import HomeAuto.PageLoad
import HomeAuto.ShutterSave

/-!
# The rooms across an unedited save

`RMNAMES`, `OUTROOMS` and `SHROOMS` into the page, and `/roomcfg.cgi` back into the
record.  The page cuts the names out of the list, offers named rooms only, and sends the rooms
of the shutters by their position in its table.
-/

namespace HomeAuto

/-! ## The rooms -/

/-- What a save is to leave of the rooms: the names, the room of every output and the room
of every defined shutter. -/
structure RoomsKept (r : OutputRecord) (old new : RoomRecord) : Prop where
  names : new.roomName = old.roomName
  outRoom : new.outRoom = old.outRoom
  shRoom : ∀ i : Fin cfgMaxShutters, (r.outCfg.configShutterGet i).isSome →
    new.shRoom i = old.shRoom i

/-- What a row shows for a room: none if the selects do not offer it. -/
def ShownNames.shownRoom (names : ShownNames) (v : UInt8) : UInt8 :=
  if v.toNat < cfgMaxRooms ∧ names.offered v.toNat then v else roomNone

theorem ShownNames.shownRoom_eq_self {names : ShownNames} {v : UInt8}
    (h : names.shownRoom v = v) : v = roomNone ∨ v.toNat < cfgMaxRooms := by
  unfold ShownNames.shownRoom at h
  split at h
  · rename_i hv
    exact .inr hv.1
  · exact .inl h.symm

/-- The parameters of the room query. -/
theorem IoPage.findCGIParameter_roomCfgQuery (p : IoPage) :
    findCGIParameter (ascii "rooms") p.roomCfgQuery = some ([59].intercalate
        ((List.range cfgMaxRooms).map fun i => queryName (p.roomNames i).val)) ∧
      findCGIParameter (ascii "outr") p.roomCfgQuery = some ([44].intercalate
        (((List.range (p.relay * 8)).map fun i => roomArg (p.outRoom i)).map fmtDecimal)) ∧
      findCGIParameter (ascii "shr") p.roomCfgQuery = some ([44].intercalate
        ((p.validShutters.map fun s => roomArg s.room).map fmtDecimal)) := ⟨rfl, rfl, rfl⟩

namespace WebState

/-- The slots whose shutters the page sends, in its order. -/
def sentSlots (s : WebState) (names : ShownNames) : List (Fin cfgMaxShutters) :=
  ((definedSlots s.panel.out).filter fun p =>
    (s.shownShutter names p).Valid s.panel.hub.configGetRelayDevices).map Prod.fst

/-- The output is a relay of a shutter. -/
def IsMember (s : WebState) (i : Nat) : Prop :=
  ∃ p ∈ definedSlots s.panel.out, p.2.up = i ∨ p.2.down = i

instance (s : WebState) (i : Nat) : Decidable (s.IsMember i) :=
  inferInstanceAs (Decidable (∃ p ∈ definedSlots s.panel.out, p.2.up = i ∨ p.2.down = i))

/-- The fields of the rooms hold their names; the row of an output shows the room of the
output; and at the position of a defined slot the page sends nothing, or a shutter whose row
shows the room of the slot. -/
structure RoomsSafe (s : WebState) (names : ShownNames) : Prop where
  stands : ∀ q : Fin cfgMaxRooms, Stands (names.room q) (s.rooms.roomName q)
  outRoom : ∀ i : Fin cfgMaxOutputs, i.val < s.panel.hub.configGetRelayDevices * 8 →
    names.shownRoom (s.rooms.outRoom i) = s.rooms.outRoom i ∨
      (s.IsMember i ∧ (s.rooms.outRoom i).toNat < cfgMaxRooms)
  shRoom : ∀ i j : Fin cfgMaxShutters, (s.panel.out.outCfg.configShutterGet i).isSome →
    (s.sentSlots names)[i.val]? = some j →
      names.shownRoom (s.rooms.shRoom j) = s.rooms.shRoom i

theorem shMemberOf_iff (s : WebState) (i : Nat) :
    s.pageTags.shMemberOf i = true ↔ s.IsMember i := by
  unfold PageTags.shMemberOf IsMember
  rw [loaded_pageTags, List.any_map, List.any_eq_true]
  simp

/-- A room number that goes through the queries. -/
theorem roomByte_roomIndex (v : UInt8) : roomByte (roomIndex v.toNat) = v ↔
    v = roomNone ∨ v.toNat < cfgMaxRooms := by
  unfold roomIndex
  by_cases hv : v.toNat < cfgMaxRooms
  · rw [dif_pos hv]
    exact iff_of_true (UInt8.ofNat_toNat) (.inr hv)
  · rw [dif_neg hv]
    exact ⟨fun h => .inl h.symm, fun h => (h.resolve_right hv).symm⟩

/-- A room that goes through a select. -/
theorem roomByte_roomSelect (names : ShownNames) (v : UInt8) :
    roomByte (names.roomSelect v.toNat) = names.shownRoom v := by
  unfold ShownNames.roomSelect ShownNames.shownRoom roomIndex
  split <;> split <;> simp_all [roomByte]

variable (s : WebState) (names : ShownNames) (form : List (CStr × CStr))

/-- The shutters that the page sends. -/
theorem validShutters_loadPage : (s.loadPage names form).validShutters =
    ((definedSlots s.panel.out).filter fun p =>
      (s.shownShutter names p).Valid s.panel.hub.configGetRelayDevices).map
        (s.shownShutter names) := by
  rw [IoPage.validShutters, loadPage_sh, List.filter_map, loadPage_relay]
  rfl

/-- The names of the rooms after the save. -/
theorem roomName_unedited (q : Fin cfgMaxRooms) :
    (s.rooms.roomCfgCGIHandler (s.loadPage names form).roomCfgQuery).roomName q =
      returnedName (names.room q) := by
  have hrooms := (s.loadPage names form).findCGIParameter_roomCfgQuery.1
  have hsep : ∀ n ∈ (List.range cfgMaxRooms).map fun i =>
      queryName ((s.loadPage names form).roomNames i).val, (59 : UInt8) ∉ n := by
    intro n hn
    obtain ⟨i, _, rfl⟩ := List.mem_map.mp hn
    exact not_mem_escaped escapes_queryByte (by decide) _
  have hget : ((List.range cfgMaxRooms).map fun i =>
      queryName ((s.loadPage names form).roomNames i).val)[q.val]? =
      some (queryName (sentText (names.room q)).val) := by
    rw [List.getElem?_map, List.getElem?_range q.isLt]
    rfl
  rw [s.rooms.roomName_roomCfgCGIHandler hrooms hsep, RoomRecord.listedName, hget,
    Option.elim_some, returnedName]

/-- The rooms of the outputs after the save. -/
theorem outRoom_unedited (i : Fin cfgMaxOutputs) :
    (s.rooms.roomCfgCGIHandler (s.loadPage names form).roomCfgQuery).outRoom i =
      if i.val < s.panel.hub.configGetRelayDevices * 8 then
        roomByte ((s.loadPage names form).outRoom i)
      else s.rooms.outRoom i := by
  have houtr := (s.loadPage names form).findCGIParameter_roomCfgQuery.2.1
  rw [loadPage_relay] at houtr
  have hdev := configGetRelayDevices_le s.panel.hub
  rw [s.rooms.outRoom_roomCfgCGIHandler houtr (by
    rw [List.length_map, List.length_range]
    unfold cfgMaxOutputs
    omega), List.getElem?_map]
  by_cases hi : i.val < s.panel.hub.configGetRelayDevices * 8
  · rw [List.getElem?_range hi, if_pos hi]
    exact storedRoom_roomArg _
  · rw [List.getElem?_eq_none (by rw [List.length_range]; omega), if_neg hi]
    rfl

/-- The rooms of the shutter slots after the save. -/
theorem shRoom_unedited (i : Fin cfgMaxShutters) :
    (s.rooms.roomCfgCGIHandler (s.loadPage names form).roomCfgQuery).shRoom i =
      ((s.sentSlots names)[i.val]?).elim (s.rooms.shRoom i) fun j =>
        roomByte (names.roomSelect (s.rooms.shRoom j).toNat) := by
  have hshr := (s.loadPage names form).findCGIParameter_roomCfgQuery.2.2
  have hlen : ((s.loadPage names form).validShutters.map fun x => roomArg x.room).length ≤
      cfgMaxShutters := by
    rw [List.length_map, validShutters_loadPage, List.length_map]
    exact (List.length_filter_le _ _).trans (length_definedSlots_le _)
  rw [s.rooms.shRoom_roomCfgCGIHandler hshr hlen, validShutters_loadPage, sentSlots,
    List.map_map, List.getElem?_map, List.getElem?_map]
  cases ((definedSlots s.panel.out).filter fun p =>
      (s.shownShutter names p).Valid s.panel.hub.configGetRelayDevices)[i.val]? with
  | none => rfl
  | some p => exact storedRoom_roomArg _

/-- **The request for the rooms leaves them as they were exactly if the page can show
them.** -/
theorem roomsKept_iff : RoomsKept s.panel.out s.rooms
    (s.rooms.roomCfgCGIHandler (s.loadPage names form).roomCfgQuery) ↔ s.RoomsSafe names := by
  have hname (q : Fin cfgMaxRooms) :
      (s.rooms.roomCfgCGIHandler (s.loadPage names form).roomCfgQuery).roomName q =
        s.rooms.roomName q ↔ Stands (names.room q) (s.rooms.roomName q) := by
    rw [roomName_unedited]
    exact returnedName_eq_iff
  have hout (i : Fin cfgMaxOutputs) (hi : i.val < s.panel.hub.configGetRelayDevices * 8) :
      (s.rooms.roomCfgCGIHandler (s.loadPage names form).roomCfgQuery).outRoom i =
        s.rooms.outRoom i ↔ names.shownRoom (s.rooms.outRoom i) = s.rooms.outRoom i ∨
          (s.IsMember i ∧ (s.rooms.outRoom i).toNat < cfgMaxRooms) := by
    have hget : s.rooms.configOutRoom i = s.rooms.outRoom i := dif_pos i.isLt
    rw [outRoom_unedited, if_pos hi, loadPage_outRoom s names form hi, hget, ← shMemberOf_iff]
    by_cases hmem : s.pageTags.shMemberOf i = true
    · rw [if_pos hmem, roomByte_roomIndex]
      constructor
      · intro h
        rcases h with hnone | hlt
        · exact .inl (by rw [hnone]; rfl)
        · exact .inr ⟨hmem, hlt⟩
      · intro h
        rcases h with hshown | ⟨_, hlt⟩
        · exact ShownNames.shownRoom_eq_self hshown
        · exact .inr hlt
    · rw [if_neg hmem, roomByte_roomSelect]
      exact ⟨.inl, fun h => h.resolve_right fun hand => hmem hand.1⟩
  constructor
  · intro h
    refine ⟨fun q => (hname q).mp (congrFun h.names q),
      fun i hi => (hout i hi).mp (congrFun h.outRoom i), ?_⟩
    intro i j hdef hj
    have hkept := h.shRoom i hdef
    rw [shRoom_unedited, hj] at hkept
    rw [← roomByte_roomSelect]
    exact hkept
  · intro h
    refine ⟨funext fun q => (hname q).mpr (h.stands q), funext fun i => ?_, fun i hdef => ?_⟩
    · by_cases hi : i.val < s.panel.hub.configGetRelayDevices * 8
      · exact (hout i hi).mpr (h.outRoom i hi)
      · rw [outRoom_unedited, if_neg hi]
    · rw [shRoom_unedited]
      cases hj : (s.sentSlots names)[i.val]? with
      | none => rfl
      | some j => exact (roomByte_roomSelect names _).trans (h.shRoom i j hdef hj)

end WebState

end HomeAuto
