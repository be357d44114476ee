import HomeAuto.IoPage
import HomeAuto.ShutterLists

/-!
# Shutters across one save of the page

`doSaveNamesAndSubmit` sends the shutters to `/outcfg.cgi`, their rooms by position to
`/roomcfg.cgi`, and only then the device counts.  The handler of the first request filters
the shutters by the relay count that the device has at that time, and the save drops those
that share a relay, so names and rooms stay with their shutters only if every shutter is
stored.
-/

namespace HomeAuto

/-! ## What the page sends, as the device reads it -/

/-- No `&` stands in the query for the output settings. -/
theorem outCfgQuery_params (p : IoPage) :
    extractUriParameters (queryText p.outCfgQuery) = p.outCfgQuery := by
  have hdigits (n : Nat) : (38 : UInt8) ∉ fmtDecimal n := not_mem_fmtDecimal (by decide) n
  have hname (name : List Char) : (38 : UInt8) ∉ queryName name :=
    not_mem_escaped escapes_queryByte (by decide) (utf8 name)
  have hnames : ∀ n ∈ [ascii "modes", ascii "tmo", ascii "sh"], 38 ∉ n ∧ 61 ∉ n := by decide
  refine extractUriParameters_queryText (by simp [IoPage.outCfgQuery]) hnames fun v hv => ?_
  simp only [IoPage.outCfgQuery, List.map_cons, List.map_nil, List.mem_cons, List.not_mem_nil,
    or_false] at hv
  rcases hv with rfl | rfl | rfl
  · intro h
    obtain ⟨i, _, hi⟩ := List.mem_map.mp h
    split at hi <;> cases hi
  · refine Delimited.not_mem_intercalate (by decide) fun l hl => ?_
    obtain ⟨i, _, rfl⟩ := List.mem_map.mp hl
    exact hdigits _
  · refine Delimited.not_mem_intercalate (by decide) fun l hl => ?_
    obtain ⟨x, hx, rfl⟩ := List.mem_map.mp hl
    obtain ⟨s, _, rfl⟩ := List.mem_map.mp hx
    simp [SentShutter.text, PageShutter.sent, hdigits, hname]

/-- No `&` stands in the query for the rooms. -/
theorem roomCfgQuery_params (p : IoPage) :
    extractUriParameters (queryText p.roomCfgQuery) = p.roomCfgQuery := by
  have hdigits (n : Nat) : (38 : UInt8) ∉ fmtDecimal n := not_mem_fmtDecimal (by decide) n
  have hname (name : List Char) : (38 : UInt8) ∉ queryName name :=
    not_mem_escaped escapes_queryByte (by decide) (utf8 name)
  have hnames : ∀ n ∈ [ascii "rooms", ascii "outr", ascii "shr"], 38 ∉ n ∧ 61 ∉ n := by decide
  refine extractUriParameters_queryText (by simp [IoPage.roomCfgQuery]) hnames fun v hv => ?_
  simp only [IoPage.roomCfgQuery, List.map_cons, List.map_nil, List.mem_cons, List.not_mem_nil,
    or_false] at hv
  rcases hv with rfl | rfl | rfl
  · refine Delimited.not_mem_intercalate (by decide) fun l hl => ?_
    obtain ⟨i, _, rfl⟩ := List.mem_map.mp hl
    exact hname _
  · refine Delimited.not_mem_intercalate (by decide) fun l hl => ?_
    obtain ⟨i, _, rfl⟩ := List.mem_map.mp hl
    exact hdigits _
  · refine Delimited.not_mem_intercalate (by decide) fun l hl => ?_
    obtain ⟨i, _, rfl⟩ := List.mem_map.mp hl
    exact hdigits _

/-- The entries that the device accepts of the page's list. -/
theorem submitted_outCfgQuery (relays : Nat) (p : IoPage) :
    submitted relays p.outCfgQuery =
      (((p.validShutters.map PageShutter.sent).map SentShutter.entry).filter
        (·.Accepted relays)).take cfgMaxShutters := by
  have hsh : findCGIParameter (ascii "sh") p.outCfgQuery = some ([59].intercalate
      ((p.validShutters.map PageShutter.sent).map SentShutter.text)) := rfl
  unfold submitted
  rw [hsh]
  refine acceptedEntries_text relays cfgMaxShutters fun x hx => ?_
  obtain ⟨s, _, rfl⟩ := List.mem_map.mp hx
  exact not_mem_escaped escapes_queryByte (by decide) _

/-- A shutter of the page whose relays are on the chain and whose travel time is in range
is read as it is. -/
theorem slot_sent_entry {s : PageShutter} (hup : s.up < cfgMaxOutputs)
    (hdown : s.down < cfgMaxOutputs) (hpos : 1 ≤ s.travel) (hle : s.travel ≤ 3600000) :
    s.sent.entry.slot = ⟨s.up, s.down, s.travel⟩ := by
  unfold cfgMaxOutputs at hup hdown
  have hjs : jsOr s.travel 20000 = s.travel := if_neg (by omega)
  have hne : BitVec.ofNat 32 s.travel ≠ 0#32 := by
    intro h
    have := congrArg BitVec.toNat h
    rw [BitVec.toNat_ofNat, BitVec.toNat_ofNat] at this
    omega
  have hclamp : OutputRecord.clampTravel (BitVec.ofNat 32 s.travel) =
      BitVec.ofNat 32 s.travel := by
    unfold OutputRecord.clampTravel
    rw [if_neg, if_neg]
    · rw [BitVec.lt_def, BitVec.toNat_ofNat, BitVec.toNat_ofNat]
      omega
    · rw [BitVec.lt_def, BitVec.toNat_ofNat, BitVec.toNat_ofNat]
      omega
  simp only [ShutterEntry.slot, SentShutter.entry, PageShutter.sent, hjs,
    OutputRecord.orDefault, if_neg hne, hclamp, BitVec.toNat_ofNat]
  congr 1 <;> omega

/-! ## Stored shutters -/

/-- The room of a shutter as the record holds it. -/
def roomByte (q : Option (Fin cfgMaxRooms)) : UInt8 :=
  match q with
  | some q => UInt8.ofNat q.val
  | none => roomNone

/-- The room that the page sends is stored as it is. -/
theorem storedRoom_roomArg (q : Option (Fin cfgMaxRooms)) :
    RoomRecord.storedRoom (BitVec.ofNat 32 (roomArg q)) = roomByte q := by
  cases q with
  | none => decide
  | some q =>
      revert q
      decide

/-- The slot holds the shutter: its relay pair, travel time, name and room. -/
structure StoredAt (s : WebState) (i : Fin cfgMaxShutters) (x : PageShutter) : Prop where
  slot : s.panel.out.outCfg.configShutterGet i = some ⟨x.up, x.down, x.travel⟩
  name : fieldString (s.panel.out.shName i) = utf8 x.name.val
  room : s.rooms.shRoom i = roomByte x.room

/-- Every shutter of the list has a slot of its own that holds it. -/
def AllStored (s : WebState) (sh : List PageShutter) : Prop :=
  ∃ f : Fin sh.length → Fin cfgMaxShutters, Function.Injective f ∧
    ∀ n, StoredAt s (f n) (sh.get n)

/-- A page after an edit: every shutter is valid for the relay count on the page, and there
are at most 32. -/
structure EditedPage extends IoPage where
  sh_valid : ∀ s ∈ sh, s.Valid relay
  sh_le : sh.length ≤ cfgMaxShutters

/-- The save stores every shutter of the page, whatever the records held before. -/
def LeavesShutters (palStrToUl : StrToUl) (hub : Hub) (p : EditedPage) : Prop :=
  ∀ out rooms, AllStored (WebState.savePage palStrToUl ⟨⟨hub, out⟩, rooms⟩ p.toIoPage) p.sh

/-- Both requests reach the device; every relay is on the chain that the device has before
the save, and belongs to one shutter; travel times are in range, and names have at most 11
bytes and no NUL. -/
structure KeepsShutters (hub : Hub) (p : EditedPage) : Prop where
  outFits : RequestFits (ascii "/outcfg.cgi") p.outCfgQuery
  roomFits : RequestFits (ascii "/roomcfg.cgi") p.roomCfgQuery
  onChain : ∀ s ∈ p.sh, s.up < hub.chain.relayChainCount ∧ s.down < hub.chain.relayChainCount
  travel : ∀ s ∈ p.sh, 1 ≤ s.travel ∧ s.travel ≤ 3600000
  name : ∀ s ∈ p.sh, (utf8 s.name.val).length ≤ cfgNameLen - 1 ∧ 0 ∉ utf8 s.name.val
  disjoint : ∀ i j : Fin p.sh.length, i < j →
    ¬ShutterSlot.Shares ⟨(p.sh.get i).up, (p.sh.get i).down, (p.sh.get i).travel⟩
      ⟨(p.sh.get j).up, (p.sh.get j).down, (p.sh.get j).travel⟩

theorem EditedPage.validShutters_eq (p : EditedPage) : p.validShutters = p.sh :=
  List.filter_eq_self.mpr fun s hs => decide_eq_true (p.sh_valid s hs)

namespace OutputRecord

/-- De-duplication leaves everything but the pairs. -/
theorem frame_configShutterDedup (r : OutputRecord) :
    r.configShutterDedup.table.mode = r.mode ∧ r.configShutterDedup.table.timedMs = r.timedMs ∧
      r.configShutterDedup.table.shName = r.shName := by
  have hslot (d : Dedup) (i : Fin cfgMaxShutters) : (dedupSlot d i).table.mode = d.table.mode ∧
      (dedupSlot d i).table.timedMs = d.table.timedMs ∧
      (dedupSlot d i).table.shName = d.table.shName := by
    unfold dedupSlot
    split
    · exact ⟨rfl, rfl, rfl⟩
    · split <;> exact ⟨rfl, rfl, rfl⟩
  have hloop (is : List (Fin cfgMaxShutters)) (d : Dedup) :
      (is.foldl dedupSlot d).table.mode = d.table.mode ∧
        (is.foldl dedupSlot d).table.timedMs = d.table.timedMs ∧
        (is.foldl dedupSlot d).table.shName = d.table.shName := by
    induction is generalizing d with
    | nil => exact ⟨rfl, rfl, rfl⟩
    | cons i is ih =>
        obtain ⟨hmode, htimed, hname⟩ := ih (dedupSlot d i)
        obtain ⟨hmode', htimed', hname'⟩ := hslot d i
        exact ⟨hmode.trans hmode', htimed.trans htimed', hname.trans hname'⟩
  unfold configShutterDedup
  exact hloop _ _

/-- So does a save. -/
theorem frame_stamped (r : OutputRecord) : r.stamped.mode = r.mode ∧
    r.stamped.timedMs = r.timedMs ∧ r.stamped.shName = r.shName := by
  obtain ⟨hmode, htimed, hname⟩ := r.frame_configShutterDedup
  refine ⟨?_, ?_, ?_⟩
  · rw [stamped, hmode]
  · rw [stamped, htimed]
  · rw [stamped, hname]

end OutputRecord

namespace OutPanel

/-- A slot that is defined after the request holds the entry of its number. -/
theorem entry_of_save (s : OutPanel) (params : CgiParams) {i : Fin cfgMaxShutters}
    {slot : ShutterSlot}
    (h : (s.outCfgCGIHandler params).out.outCfg.configShutterGet i = some slot) :
    ∃ e, (submitted s.hub.chain.relayChainCount params)[i.val]? = some e ∧ e.slot = slot ∧
      (s.outCfgCGIHandler params).out.shName i = nameField e.name ∧
      Kept (s.asked params) i := by
  obtain ⟨hasked, hkept⟩ := (s.configShutterGet_save params i slot).mp h
  obtain ⟨e, he, hslot⟩ := Option.map_eq_some_iff.mp hasked
  have hfields := s.out.outCfgEdit_slot (s.hub.chain.relayChainCount_le) params i
  rw [he] at hfields
  have hname : (s.outCfgCGIHandler params).out.shName i = nameField e.name := by
    rw [out_outCfgCGIHandler, (OutputRecord.frame_stamped _).2.2]
    simp only [OutputRecord.slotFields, OutputRecord.entryFields, Prod.mk.injEq] at hfields
    exact hfields.2.2.2
  exact ⟨e, he, hslot, hname, hkept⟩

end OutPanel

namespace WebState

variable (palStrToUl : StrToUl) (s : WebState) (p : IoPage)

/-- The first request changes the output record only, -/
theorem fetchOutCfg_out : (s.fetchOutCfg p).panel.out =
    if RequestFits (ascii "/outcfg.cgi") p.outCfgQuery then
      (s.panel.outCfgCGIHandler p.outCfgQuery).out
    else s.panel.out := by
  rw [fetchOutCfg, fetch, outCfgQuery_params]
  split <;> rfl

theorem fetchOutCfg_rooms : (s.fetchOutCfg p).rooms = s.rooms := by
  unfold fetchOutCfg fetch
  split <;> rfl

/-- and the second one the room record. -/
theorem fetchRoomCfg_rooms : (s.fetchRoomCfg p).rooms =
    if RequestFits (ascii "/roomcfg.cgi") p.roomCfgQuery then
      s.rooms.roomCfgCGIHandler p.roomCfgQuery
    else s.rooms := by
  rw [fetchRoomCfg, fetch, roomCfgQuery_params]
  split <;> rfl

theorem fetchRoomCfg_panel : (s.fetchRoomCfg p).panel = s.panel := by
  unfold fetchRoomCfg fetch
  split <;> rfl

/-- What the save leaves in the output record. -/
theorem savePage_out : (s.savePage palStrToUl p).panel.out =
    if RequestFits (ascii "/outcfg.cgi") p.outCfgQuery then
      (s.panel.outCfgCGIHandler p.outCfgQuery).out
    else s.panel.out := by
  rw [savePage, (submitForm_out palStrToUl _ p).1, fetchRoomCfg_panel, fetchOutCfg_out]

/-- What the save leaves in the room record. -/
theorem savePage_rooms : (s.savePage palStrToUl p).rooms =
    if RequestFits (ascii "/roomcfg.cgi") p.roomCfgQuery then
      s.rooms.roomCfgCGIHandler p.roomCfgQuery
    else s.rooms := by
  rw [savePage, (submitForm_out palStrToUl _ p).2, fetchRoomCfg_rooms, fetchOutCfg_rooms]

end WebState

/-! ## What the condition gives -/

namespace KeepsShutters

variable {hub : Hub} {p : EditedPage}

/-- Every shutter of the page is accepted, as it is. -/
theorem submitted_get (h : KeepsShutters hub p) (n : Fin p.sh.length) :
    (submitted hub.chain.relayChainCount p.outCfgQuery)[n.val]? =
      some (p.sh.get n).sent.entry := by
  have hcount := hub.chain.relayChainCount_le
  have hacc : ∀ e ∈ (p.sh.map PageShutter.sent).map SentShutter.entry,
      e.Accepted hub.chain.relayChainCount := by
    intro e he
    obtain ⟨x, hx, rfl⟩ := List.mem_map.mp he
    obtain ⟨s, hs, rfl⟩ := List.mem_map.mp hx
    obtain ⟨hup, hdown⟩ := h.onChain s hs
    have hne := (p.sh_valid s hs).1
    have hupNat : (BitVec.ofNat 32 s.up).toNat = s.up := by
      rw [BitVec.toNat_ofNat]
      omega
    have hdownNat : (BitVec.ofNat 32 s.down).toNat = s.down := by
      rw [BitVec.toNat_ofNat]
      omega
    refine ⟨fun heq => hne ?_, ?_, ?_⟩
    · rw [← hupNat, ← hdownNat]
      exact congrArg BitVec.toNat heq
    · exact hupNat.symm ▸ hup
    · exact hdownNat.symm ▸ hdown
  have hfilter := List.filter_eq_self.mpr fun e he => decide_eq_true (hacc e he)
  rw [submitted_outCfgQuery, p.validShutters_eq, hfilter, List.take_of_length_le (by
    rw [List.length_map, List.length_map]
    exact p.sh_le), List.getElem?_map, List.getElem?_map, List.getElem?_eq_getElem n.isLt]
  rfl

theorem asked_get (h : KeepsShutters hub p) (n : Fin p.sh.length) :
    slotsOf (submitted hub.chain.relayChainCount p.outCfgQuery) n =
      some ⟨(p.sh.get n).up, (p.sh.get n).down, (p.sh.get n).travel⟩ := by
  have hmem := List.get_mem p.sh n
  have hcount : hub.chain.relayChainCount ≤ cfgMaxOutputs := hub.chain.relayChainCount_le
  obtain ⟨hup, hdown⟩ := h.onChain _ hmem
  obtain ⟨hpos, hle⟩ := h.travel _ hmem
  rw [slotsOf, h.submitted_get n, Option.map_some,
    slot_sent_entry (hup.trans_le hcount) (hdown.trans_le hcount) hpos hle]

/-- No shutter collides with one before it, so all are kept. -/
theorem kept (h : KeepsShutters hub p) (n : Fin p.sh.length) :
    Kept (slotsOf (submitted hub.chain.relayChainCount p.outCfgQuery)) n := by
  have hmem := List.get_mem p.sh n
  have hcount : hub.chain.relayChainCount ≤ cfgMaxOutputs := hub.chain.relayChainCount_le
  obtain ⟨hup, hdown⟩ := h.onChain _ hmem
  refine (kept_iff (h.asked_get n)).mpr
    ⟨⟨hup.trans_le hcount, hdown.trans_le hcount⟩, fun j hj _ t ht => ?_⟩
  have hjget := h.asked_get ⟨j, hj.trans n.isLt⟩
  rw [ht, Option.some.injEq] at hjget
  intro hshares
  rw [hjget] at hshares
  exact h.disjoint ⟨j, hj.trans n.isLt⟩ n hj hshares.symm

/-- Shutter `n` is stored in slot `n`. -/
theorem storedAt (h : KeepsShutters hub p) (palStrToUl : StrToUl) (out : OutputRecord)
    (rooms : RoomRecord) (n : Fin p.sh.length) :
    StoredAt (WebState.savePage palStrToUl ⟨⟨hub, out⟩, rooms⟩ p.toIoPage)
      (n.castLE p.sh_le) (p.sh.get n) where
  slot := by
    rw [WebState.savePage_out, if_pos h.outFits]
    exact (OutPanel.configShutterGet_save ⟨hub, out⟩ _ _ _).mpr ⟨h.asked_get n, h.kept n⟩
  name := by
    have hget := (OutPanel.configShutterGet_save ⟨hub, out⟩ _ _ _).mpr ⟨h.asked_get n, h.kept n⟩
    obtain ⟨e, he, _, hname, _⟩ :=
      OutPanel.entry_of_save ⟨hub, out⟩ p.outCfgQuery (i := n.castLE p.sh_le) hget
    change (submitted hub.chain.relayChainCount p.outCfgQuery)[n.val]? = some e at he
    rw [h.submitted_get n, Option.some.injEq] at he
    rw [WebState.savePage_out, if_pos h.outFits, hname, ← he]
    change fieldString (nameField (urlDecodeParam (cfgNameLen - 1)
      ((queryName (p.sh.get n).name.val).take (3 * cfgNameLen - 1)))) = _
    rw [urlDecodeParam_queryName]
    exact (fieldString_eq_iff _).mpr (h.name _ (List.get_mem p.sh n))
  room := by
    have hshr : findCGIParameter (ascii "shr") p.roomCfgQuery =
        some ([44].intercalate ((p.sh.map fun s => roomArg s.room).map fmtDecimal)) := by
      rw [← p.validShutters_eq]
      rfl
    have hget := rooms.shRoom_roomCfgCGIHandler hshr (by
      rw [List.length_map]
      exact p.sh_le) (n.castLE p.sh_le)
    have hentry : (p.sh.map fun s => roomArg s.room)[(n.castLE p.sh_le).val]? =
        some (roomArg (p.sh.get n).room) := by
      rw [List.getElem?_map, List.getElem?_eq_getElem (by exact n.isLt)]
      rfl
    rw [hentry] at hget
    rw [WebState.savePage_rooms, if_pos h.roomFits, hget]
    exact storedRoom_roomArg _

end KeepsShutters

/-! ## Saves that leave the shutters -/

namespace LeavesShutters

variable {palStrToUl : StrToUl} {hub : Hub} {p : EditedPage}

/-- Without the first request nothing is stored. -/
theorem outFits (h : LeavesShutters palStrToUl hub p) (hne : p.sh ≠ []) :
    RequestFits (ascii "/outcfg.cgi") p.outCfgQuery := by
  by_contra hfits
  have hpos := List.length_pos_iff.mpr hne
  obtain ⟨f, _, hstored⟩ := h .configOutputSetDefaults .configRoomSetDefaults
  have hslot := (hstored ⟨0, hpos⟩).slot
  rw [WebState.savePage_out, if_neg hfits, OutputRecord.configShutterGet_defaults] at hslot
  cases hslot

/-- Without the second request the rooms are the old ones, which may be any. -/
theorem roomFits (h : LeavesShutters palStrToUl hub p) (hne : p.sh ≠ []) :
    RequestFits (ascii "/roomcfg.cgi") p.roomCfgQuery := by
  by_contra hfits
  have hpos := List.length_pos_iff.mpr hne
  have hroom (v : UInt8) : v = roomByte (p.sh.get ⟨0, hpos⟩).room := by
    obtain ⟨f, _, hstored⟩ := h .configOutputSetDefaults
      { RoomRecord.configRoomSetDefaults with shRoom := fun _ => v }
    have hroom := (hstored ⟨0, hpos⟩).room
    rwa [WebState.savePage_rooms, if_neg hfits] at hroom
  exact absurd ((hroom 0).trans (hroom 1).symm) (by decide)

/-- Every shutter is one that the device accepted, and kept. -/
theorem entry (h : LeavesShutters palStrToUl hub p) (hne : p.sh ≠ []) :
    ∃ f : Fin p.sh.length → Fin cfgMaxShutters, Function.Injective f ∧
      ∀ n, ∃ e : ShutterEntry,
      e.Accepted hub.chain.relayChainCount ∧
      e.slot = ⟨(p.sh.get n).up, (p.sh.get n).down, (p.sh.get n).travel⟩ ∧
      fieldString (nameField e.name) = utf8 (p.sh.get n).name.val ∧
      slotsOf (submitted hub.chain.relayChainCount p.outCfgQuery) (f n) =
        some ⟨(p.sh.get n).up, (p.sh.get n).down, (p.sh.get n).travel⟩ ∧
      Kept (slotsOf (submitted hub.chain.relayChainCount p.outCfgQuery)) (f n) := by
  obtain ⟨f, hinj, hstored⟩ := h .configOutputSetDefaults .configRoomSetDefaults
  refine ⟨f, hinj, fun n => ?_⟩
  have hslot := (hstored n).slot
  have hname := (hstored n).name
  rw [WebState.savePage_out, if_pos (h.outFits hne)] at hslot hname
  obtain ⟨e, he, heslot, hfield, hkept⟩ := OutPanel.entry_of_save _ _ hslot
  rw [hfield] at hname
  refine ⟨e, accepted_of_mem_submitted (List.mem_of_getElem? he), heslot, hname, ?_, hkept⟩
  exact ((OutPanel.configShutterGet_save _ _ _ _).mp hslot).1

theorem keeps (h : LeavesShutters palStrToUl hub p) (hne : p.sh ≠ []) : KeepsShutters hub p := by
  obtain ⟨f, hinj, hentry⟩ := h.entry hne
  have hof (s : PageShutter) (hs : s ∈ p.sh) : ∃ n, p.sh.get n = s := List.mem_iff_get.mp hs
  refine ⟨h.outFits hne, h.roomFits hne, fun s hs => ?_, fun s hs => ?_, fun s hs => ?_,
    fun i j hij => ?_⟩
  · obtain ⟨n, rfl⟩ := hof s hs
    obtain ⟨e, ⟨_, hup, hdown⟩, hslot, _⟩ := hentry n
    have hupEq : e.up.toNat = (p.sh.get n).up := congrArg ShutterSlot.up hslot
    have hdownEq : e.down.toNat = (p.sh.get n).down := congrArg ShutterSlot.down hslot
    exact ⟨hupEq ▸ hup, hdownEq ▸ hdown⟩
  · obtain ⟨n, rfl⟩ := hof s hs
    obtain ⟨e, _, hslot, _⟩ := hentry n
    have hbounds := OutputRecord.clampTravel_bounds (OutputRecord.orDefault e.travel 20000#32)
    have htravel := congrArg ShutterSlot.travelMs hslot
    dsimp only [ShutterEntry.slot] at htravel
    rwa [htravel] at hbounds
  · obtain ⟨n, rfl⟩ := hof s hs
    obtain ⟨e, _, _, hname, _⟩ := hentry n
    rw [← hname, fieldString_nameField]
    refine ⟨List.length_take_le _ _, fun h0 => ?_⟩
    have hne0 := List.mem_takeWhile_imp (p := fun b => decide (b ≠ 0)) (List.mem_of_mem_take h0)
    simp at hne0
  · obtain ⟨e, _, _, _, hi, hki⟩ := hentry i
    obtain ⟨e', _, _, _, hj, hkj⟩ := hentry j
    refine hki.not_shares hkj hi hj fun heq => ?_
    exact absurd (hinj (Fin.ext heq)) (ne_of_lt hij)

end LeavesShutters

/-- **The save leaves every shutter with its pair, travel time, name and room exactly when
every shutter is stored**: both requests arrive, the relays are on the chain of before the
save and each in one shutter, travel times are in range and names fit. -/
theorem leavesShutters_iff (palStrToUl : StrToUl) (hub : Hub) (p : EditedPage) :
    LeavesShutters palStrToUl hub p ↔ p.sh = [] ∨ KeepsShutters hub p := by
  constructor
  · intro h
    by_cases hne : p.sh = []
    · exact .inl hne
    · exact .inr (h.keeps hne)
  · intro h out rooms
    rcases h with hnil | hkeeps
    · exact ⟨fun n => absurd n.isLt (by simp [hnil]), fun n => absurd n.isLt (by simp [hnil]),
        fun n => absurd n.isLt (by simp [hnil])⟩
    · exact ⟨fun n => n.castLE p.sh_le, fun a b hab => Fin.castLE_injective p.sh_le hab,
        hkeeps.storedAt palStrToUl out rooms⟩

/-! ## Relays that are new in the same edit -/

/-- The relay count is raised from one device to two, and a shutter is put on the new
relays. -/
def newRelayPage : EditedPage where
  relay := 2
  om _ := false
  ot _ := 1000
  sh := [⟨8, 9, 20000, ⟨[], by decide⟩, some ⟨0, by decide⟩⟩]
  roomNames _ := ⟨[], by decide⟩
  outRoom _ := none
  form := []
  sh_valid := by decide
  sh_le := by decide

/-- The device still has one relay device when it reads the shutters, and stores none. -/
theorem new_relay_shutter_lost : ¬LeavesShutters ustrtoul plainPanel.hub newRelayPage := by
  intro h
  have hkeeps := h.keeps (List.cons_ne_nil _ _)
  exact absurd (hkeeps.onChain _ List.mem_cons_self).1 (by decide)

end HomeAuto
