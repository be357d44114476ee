import HomeAuto.OutCfgRequest
import HomeAuto.OutputTags
import HomeAuto.ProductWeb
import HomeAuto.OutputStore

/-!
# List positions and slot numbers

The tags list the defined shutter slots one after the other, and the pages take the
position in the list for the number of the slot: `cover(n)` requests `/cover.cgi?sh=n`.
The two agree as long as the defined slots are the first ones.  `OutCfgCGIHandler` fills
the slots from the first on, but the save then empties those that share a relay with an
earlier one and leaves the hole, so the two agree exactly when what it drops stands at the
end.
-/

namespace HomeAuto

/-! ## The control page -/

/-- What the script of `control.shtml` makes of the lists, byte by byte; `none` is
`NaN`. -/
structure ControlPage where
  sh : List (Option Nat × Option Nat)
  shName : Nat → CStr
  sr : List (Option Nat)

/-- The relays of one piece of the shutter list. -/
def pagePair (seg : CStr) : Option (Option Nat × Option Nat) :=
  match seg.splitOn 58 with
  | up :: down :: _ :: _ => some (parseInt up, parseInt down)
  | _ => none

/-- `SH`, the text that `shName` trims, and `SR`. -/
def controlPage (shut shNames shr : CStr) : ControlPage where
  sh := (shut.splitOn 59).filterMap pagePair
  shName n := (shNames.drop (n * cfgNameLen)).take cfgNameLen
  sr := (shr.splitOn 44).map parseInt

/-- The page as the device renders it. -/
def renderedPage (r : OutputRecord) (rooms : RoomRecord) : ControlPage :=
  controlPage (ssiShutters r) (ssiShNames r) (ssiShRooms r rooms)

theorem pagePair_shutterText (s : ShutterSlot) :
    pagePair (shutterText s) = some (some s.up, some s.down) := by
  unfold pagePair
  rw [splitOn_shutterText]
  dsimp only
  rw [parseInt_fmtDecimal, parseInt_fmtDecimal]

/-- **The shutter list of the page** is the list of the defined slots. -/
theorem renderedPage_sh (r : OutputRecord) (rooms : RoomRecord) :
    (renderedPage r rooms).sh =
      (definedSlots r).map fun p => (some p.2.up, some p.2.down) :=
  filterMap_ssiShutters rfl pagePair_shutterText r

/-- The name blocks of the page are those of the defined slots. -/
theorem renderedPage_shName (r : OutputRecord) (rooms : RoomRecord) {n : Nat}
    {p : Fin cfgMaxShutters × ShutterSlot} (h : (definedSlots r)[n]? = some p) :
    (renderedPage r rooms).shName n = nameBlock (r.shName p.1) := by
  obtain ⟨hn, hp⟩ := List.getElem?_eq_some_iff.mp h
  have hw : ∀ b ∈ (definedSlots r).map (fun p => nameBlock (r.shName p.1)),
      b.length = cfgNameLen := by
    intro b hb
    obtain ⟨q, _, rfl⟩ := List.mem_map.mp hb
    exact length_nameBlock _
  have hblock := Delimited.block_flatten hw (n := n) (by rw [List.length_map]; exact hn)
  rw [List.getElem_map, hp] at hblock
  rw [← hblock]
  exact congrArg (fun t => (List.drop (n * cfgNameLen) t).take cfgNameLen) (ssiShNames_eq r)

/-- The room list of the page is that of the defined slots. -/
theorem renderedPage_sr (r : OutputRecord) (rooms : RoomRecord) {n : Nat}
    {p : Fin cfgMaxShutters × ShutterSlot} (h : (definedSlots r)[n]? = some p) :
    (renderedPage r rooms).sr[n]? = some (some (rooms.shRoom p.1).toNat) := by
  have hne : (definedSlots r).map (fun p => fmtDecimal (rooms.shRoom p.1).toNat) ≠ [] := by
    intro hnil
    rw [List.map_eq_nil_iff] at hnil
    rw [hnil] at h
    cases h
  have hsep : ∀ e ∈ (definedSlots r).map (fun p => fmtDecimal (rooms.shRoom p.1).toNat),
      (44 : UInt8) ∉ e := by
    intro e he
    obtain ⟨q, _, rfl⟩ := List.mem_map.mp he
    exact not_mem_fmtDecimal (by decide) _
  have hsplit := Delimited.splitOn_separated hsep hne
  unfold renderedPage controlPage
  dsimp only
  rw [ssiShRooms_eq, hsplit, List.map_map, List.getElem?_map, h, Option.map_some]
  exact congrArg some (parseInt_fmtDecimal _)

/-- Where no empty slot comes before a defined one, position `i` of the lists is slot
`i`. -/
theorem getElem?_definedSlots {r : OutputRecord} {k : Nat}
    (hk : ∀ i, (r.outCfg.configShutterGet i).isSome ↔ i < k) {i : Fin cfgMaxShutters}
    {slot : ShutterSlot} (hi : r.outCfg.configShutterGet i = some slot) :
    (definedSlots r)[i.val]? = some (i, slot) := by
  have hbind (n : Nat) : ((List.finRange cfgMaxShutters)[n]?.bind fun i : Fin cfgMaxShutters =>
      (r.outCfg.configShutterGet i).map fun s => (i, s)).isSome ↔ n < cfgMaxShutters ∧ n < k := by
    by_cases hn : n < cfgMaxShutters
    · rw [List.getElem?_eq_getElem (by simpa using hn), Option.bind_some, Option.isSome_map, hk]
      simp [hn]
    · rw [List.getElem?_eq_none (by simpa using hn)]
      simp [hn]
  have hself : (List.finRange cfgMaxShutters)[i.val]? = some i := by
    rw [List.getElem?_eq_getElem (by simp)]
    simp
  have hlist := Delimited.getElem?_filterMap_of_prefix (fun a b hab hb => by
    rw [hbind] at hb ⊢
    omega) i.val
  rw [hself, Option.bind_some, hi, Option.map_some] at hlist
  exact hlist

/-! ## The slots after a save -/

/-- The table that a list of entries asks for. -/
def slotsOf (es : List ShutterEntry) (i : Nat) : Option ShutterSlot := es[i]?.map ShutterEntry.slot

namespace OutputRecord

/-- Before the save the table is the one the request asks for. -/
theorem configShutterGet_outCfgEdit (r : OutputRecord) {relays : Nat}
    (hrelays : relays ≤ cfgMaxOutputs) (params : CgiParams) :
    (r.outCfgEdit relays params).outCfg.configShutterGet = slotsOf (submitted relays params) := by
  funext i
  have hlen := length_submitted_le relays params
  unfold slotsOf
  by_cases hi : i < cfgMaxShutters
  · have hslot := r.outCfgEdit_slot hrelays params ⟨i, hi⟩
    have hget := (r.outCfgEdit relays params).configShutterGet_outCfg ⟨i, hi⟩
    dsimp only at hslot hget
    rw [hget]
    cases he : (submitted relays params)[i]? with
    | none =>
        rw [he] at hslot
        rw [if_pos hslot.1]
        rfl
    | some e =>
        rw [he] at hslot
        simp only [slotFields, entryFields, Prod.mk.injEq] at hslot
        obtain ⟨hup, hdown, htravel, _⟩ := hslot
        have hacc := accepted_of_mem_submitted (List.mem_of_getElem? he)
        obtain ⟨hupNat, hdownNat⟩ := toNat_relays hrelays hacc
        have hne : UInt8.ofNat e.up.toNat ≠ shutterNoneByte := by
          intro h
          have hval := congrArg UInt8.toNat h
          rw [hupNat, show shutterNoneByte.toNat = 255 from rfl] at hval
          have hlt := hacc.2.1
          unfold cfgMaxOutputs at hrelays
          omega
        rw [hup, hdown, htravel, if_neg hne, hupNat, hdownNat]
        rfl
  · rw [configShutterGet_outCfg_of_le _ (Nat.not_lt.mp hi), List.getElem?_eq_none (by omega)]
    rfl

end OutputRecord

/-- Every slot asked for pairs two outputs. -/
theorem inRange_slotsOf {relays : Nat} (hrelays : relays ≤ cfgMaxOutputs) {params : CgiParams}
    {i : Nat} {s : ShutterSlot} (h : slotsOf (submitted relays params) i = some s) :
    s.InRange := by
  obtain ⟨e, he, rfl⟩ := Option.map_eq_some_iff.mp h
  obtain ⟨_, hup, hdown⟩ := accepted_of_mem_submitted (List.mem_of_getElem? he)
  exact ⟨hup.trans_le hrelays, hdown.trans_le hrelays⟩

namespace OutPanel

/-- The slots that a request on this hub asks for. -/
def asked (s : OutPanel) (params : CgiParams) : Nat → Option ShutterSlot :=
  slotsOf (submitted s.hub.chain.relayChainCount params)

theorem out_outCfgCGIHandler (s : OutPanel) (params : CgiParams) :
    (s.outCfgCGIHandler params).out =
      (s.out.outCfgEdit s.hub.chain.relayChainCount params).stamped := rfl

theorem hub_outCfgCGIHandler (s : OutPanel) (params : CgiParams) :
    (s.outCfgCGIHandler params).hub =
      s.hub.reloadWith (s.outCfgCGIHandler params).out.outCfg := by
  simp only [OutPanel.outCfgCGIHandler]

/-- **The table after the save**: what was asked for and is kept. -/
theorem configShutterGet_save (s : OutPanel) (params : CgiParams) (i : Nat) (slot : ShutterSlot) :
    (s.outCfgCGIHandler params).out.outCfg.configShutterGet i = some slot ↔
      s.asked params i = some slot ∧ Kept (s.asked params) i := by
  have hrelays : s.hub.chain.relayChainCount ≤ cfgMaxOutputs := s.hub.chain.relayChainCount_le
  have hget := s.out.configShutterGet_outCfgEdit hrelays params
  have hdedup := (s.out.outCfgEdit s.hub.chain.relayChainCount params).configShutterGet_dedup i
  rw [hget] at hdedup
  rw [out_outCfgCGIHandler, OutputRecord.stamped, OutputRecord.outCfg_stamp]
  unfold asked
  rcases hdedup with ⟨t, ht, hin, hnot, hnone⟩ | ⟨hkept, hsame⟩
  · rw [hnone]
    constructor
    · nofun
    · exact fun h => absurd h.2 hnot
  · rw [hsame]
    exact ⟨fun h => ⟨h, hkept slot h (inRange_slotsOf hrelays h)⟩, And.left⟩

theorem isSome_save (s : OutPanel) (params : CgiParams) (i : Nat) :
    ((s.outCfgCGIHandler params).out.outCfg.configShutterGet i).isSome ↔
      Kept (s.asked params) i := by
  rw [Option.isSome_iff_exists]
  constructor
  · intro ⟨slot, hslot⟩
    exact ((s.configShutterGet_save params i slot).mp hslot).2
  · intro hkept
    have hdef := hkept
    rw [Kept] at hdef
    obtain ⟨slot, hslot, _⟩ := hdef
    exact ⟨slot, (s.configShutterGet_save params i slot).mpr ⟨hslot, hkept⟩⟩

end OutPanel

/-! ## Position and slot -/

/-- Position `i` of every list is about slot `i`, which `/cover.cgi` and the cover topic of
that number act upon. -/
structure DescribesSlot (s : OutPanel) (rooms : RoomRecord) (i : Fin cfgMaxShutters)
    (slot : ShutterSlot) : Prop where
  entry : (renderedPage s.out rooms).sh[i.val]? = some (some slot.up, some slot.down)
  name : (renderedPage s.out rooms).shName i = nameBlock (s.out.shName i)
  room : (renderedPage s.out rooms).sr[i.val]? = some (some (rooms.shRoom i).toNat)
  drives : (s.hub.sh i).valid = true ∧ (s.hub.sh i).up = slot.up ∧ (s.hub.sh i).down = slot.down
  web : ∀ palStrToUl, ReadsDecimals palStrToUl → ∀ value cmd, coverCmd value = some cmd →
    s.hub.coverCGIHandler palStrToUl [(ascii "sh", fmtDecimal i), (ascii "cmd", value)] =
      s.hub.outputCtrlShutter i.val cmd
  mqtt : ∀ base, mqttAppParseCoverSet base
    (base ++ (ascii "/cover/" ++ (fmtDecimal i ++ ascii "/set"))) = some (i.val : Int)

/-- The defined slots are the first `k`, and position and slot number agree for each. -/
def PositionIsSlot (s : OutPanel) (rooms : RoomRecord) : Prop :=
  ∃ k, (∀ i, (s.out.outCfg.configShutterGet i).isSome ↔ i < k) ∧
    ∀ (i : Fin cfgMaxShutters) slot, i.val < k → s.out.outCfg.configShutterGet i = some slot →
      DescribesSlot s rooms i slot

/-- The entries that collide with a kept one all come after the last kept one. -/
def CollisionsLast (get : Nat → Option ShutterSlot) : Prop :=
  ∀ i j, i < j → Kept get j → Kept get i

theorem CollisionsLast.exists_bound {get : Nat → Option ShutterSlot} (h : CollisionsLast get)
    (hend : ∃ n, ¬Kept get n) : ∃ k, ∀ i, Kept get i ↔ i < k := by
  classical
  refine ⟨Nat.find hend, fun i => ?_⟩
  constructor
  · intro hi
    by_contra hle
    refine Nat.find_spec hend ?_
    rcases Nat.lt_or_eq_of_le (Nat.not_lt.mp hle) with hlt | heq
    · exact h _ i hlt hi
    · rw [heq]
      exact hi
  · exact fun hi => not_not.mp (Nat.find_min hend hi)

theorem OutPanel.not_kept_asked (s : OutPanel) (params : CgiParams) :
    ¬Kept (s.asked params) cfgMaxShutters := by
  have hlen := length_submitted_le s.hub.chain.relayChainCount params
  refine not_kept_of_none ?_
  unfold OutPanel.asked slotsOf
  rw [List.getElem?_eq_none hlen]
  rfl

theorem coverCGIHandler_position (h : Hub) {palStrToUl : StrToUl}
    (hread : ReadsDecimals palStrToUl) (i : Fin cfgMaxShutters) {value : CStr} {cmd : ShCmd}
    (hcmd : coverCmd value = some cmd) :
    h.coverCGIHandler palStrToUl [(ascii "sh", fmtDecimal i), (ascii "cmd", value)] =
      h.outputCtrlShutter i.val cmd := by
  have hsh : findCGIParameter (ascii "sh") [(ascii "sh", fmtDecimal i), (ascii "cmd", value)] =
      some (fmtDecimal i) := rfl
  have hcmdParam : findCGIParameter (ascii "cmd")
      [(ascii "sh", fmtDecimal i), (ascii "cmd", value)] = some value := rfl
  have hi : i.val < 32 := i.isLt
  have hval : (palStrToUl (fmtDecimal i) 10).toInt = (i.val : Int) := by
    rw [hread i.val (by omega)]
    exact parsedInt_of_lt (by omega)
  unfold Hub.coverCGIHandler
  rw [hsh, hcmdParam]
  dsimp only
  rw [hcmd, hval]

theorem mqttAppParseCoverSet_position (base : CStr) (i : Fin cfgMaxShutters) :
    mqttAppParseCoverSet base (base ++ (ascii "/cover/" ++ (fmtDecimal i ++ ascii "/set"))) =
      some (i.val : Int) := by
  have hi : i.val < 32 := i.isLt
  rw [mqttAppParseCoverSet_eq_some_iff]
  refine ⟨i.val, ⟨fmtDecimal i, isNumeral_fmtDecimal _, numeralValue_fmtDecimal _, rfl⟩, ?_⟩
  exact (parsedInt_of_lt (by omega)).symm

/-- After a reload the runtime of a defined slot drives the slot's relays. -/
theorem reload_drives (h : Hub) (cfg : OutputConfig) {i : Nat} (hi : i < cfgMaxShutters)
    {slot : ShutterSlot} (hslot : cfg.configShutterGet i = some slot) :
    ((h.reloadWith cfg).sh i).valid = true ∧ ((h.reloadWith cfg).sh i).up = slot.up ∧
      ((h.reloadWith cfg).sh i).down = slot.down := by
  rw [Hub.reloadWith, Hub.sh_outputCtrlReload _ hi, OutputConfig.reloadRt, hslot]
  exact ⟨rfl, rfl, rfl⟩

/-- In a table without holes before a defined slot, position and slot number agree. -/
theorem describesSlot_of_prefix {s : OutPanel} (rooms : RoomRecord) {k : Nat}
    (hk : ∀ i, (s.out.outCfg.configShutterGet i).isSome ↔ i < k) {i : Fin cfgMaxShutters}
    {slot : ShutterSlot} (hi : s.out.outCfg.configShutterGet i = some slot)
    (hdrives : (s.hub.sh i).valid = true ∧ (s.hub.sh i).up = slot.up ∧
      (s.hub.sh i).down = slot.down) : DescribesSlot s rooms i slot where
  entry := by
    rw [renderedPage_sh, List.getElem?_map, getElem?_definedSlots hk hi]
    rfl
  name := renderedPage_shName _ rooms (getElem?_definedSlots hk hi)
  room := renderedPage_sr _ rooms (getElem?_definedSlots hk hi)
  drives := hdrives
  web := fun _ hread _ _ hcmd => coverCGIHandler_position _ hread i hcmd
  mqtt := fun base => mqttAppParseCoverSet_position base i

theorem OutPanel.drives_save (s : OutPanel) (params : CgiParams) {i : Fin cfgMaxShutters}
    {slot : ShutterSlot}
    (hi : (s.outCfgCGIHandler params).out.outCfg.configShutterGet i = some slot) :
    ((s.outCfgCGIHandler params).hub.sh i).valid = true ∧
      ((s.outCfgCGIHandler params).hub.sh i).up = slot.up ∧
      ((s.outCfgCGIHandler params).hub.sh i).down = slot.down := by
  rw [hub_outCfgCGIHandler]
  exact reload_drives s.hub _ i.isLt hi

/-- **Position and slot number agree after a save exactly when what the de-duplication
drops stands at the end.** -/
theorem positionIsSlot_iff (s : OutPanel) (rooms : RoomRecord) (params : CgiParams) :
    PositionIsSlot (s.outCfgCGIHandler params) rooms ↔ CollisionsLast (s.asked params) := by
  constructor
  · intro ⟨k, hk, _⟩ i j hij hj
    have hjk := (hk j).mp ((s.isSome_save params j).mpr hj)
    exact (s.isSome_save params i).mp ((hk i).mpr (by omega))
  · intro hlast
    obtain ⟨k, hk⟩ := hlast.exists_bound ⟨cfgMaxShutters, s.not_kept_asked params⟩
    have hsome (i : Nat) :
        ((s.outCfgCGIHandler params).out.outCfg.configShutterGet i).isSome ↔ i < k :=
      (s.isSome_save params i).trans (hk i)
    exact ⟨k, hsome, fun i slot _ hi =>
      describesSlot_of_prefix rooms hsome hi (s.drives_save params hi)⟩

/-! ## A collision in the middle -/

/-- Three shutters, the second of which uses a relay of the first. -/
def chainedShutters : List SentShutter := [⟨0, 1, 9000, []⟩, ⟨1, 2, 9000, []⟩, ⟨2, 3, 9000, []⟩]

/-- The request that submits them. -/
def chainedRequest : CgiParams :=
  [(ascii "sh", [59].intercalate (chainedShutters.map SentShutter.text))]

/-- A hub with one relay device and nothing configured. -/
def plainPanel : OutPanel where
  hub := {
    chain := RelayChain.relayChainSetDevices 1
    ioDevices := 0x11
    outCfg := OutputRecord.configOutputSetDefaults.outCfg
    baseTopic := []
    sh := fun _ => .zero
    pulseMs := fun _ => 0
    published := [] }
  out := .configOutputSetDefaults

theorem asked_chained : plainPanel.asked chainedRequest =
    slotsOf (chainedShutters.map SentShutter.entry) := by
  have henc : ∀ x ∈ chainedShutters, 59 ∉ x.enc := by decide
  have hread := acceptedEntries_text 8 cfgMaxShutters henc
  have hall : ((chainedShutters.map SentShutter.entry).filter (·.Accepted 8)).take
      cfgMaxShutters = chainedShutters.map SentShutter.entry := by decide
  rw [hall] at hread
  exact congrArg slotsOf hread

/-- The first and the third shutter are kept, the second is dropped. -/
theorem chained_collides : ¬CollisionsLast (plainPanel.asked chainedRequest) := by
  rw [asked_chained]
  have h₀ : slotsOf (chainedShutters.map SentShutter.entry) 0 = some ⟨0, 1, 9000⟩ := by decide
  have h₁ : slotsOf (chainedShutters.map SentShutter.entry) 1 = some ⟨1, 2, 9000⟩ := by decide
  have h₂ : slotsOf (chainedShutters.map SentShutter.entry) 2 = some ⟨2, 3, 9000⟩ := by decide
  have hk₀ : Kept (slotsOf (chainedShutters.map SentShutter.entry)) 0 :=
    (kept_iff h₀).mpr ⟨⟨by decide, by decide⟩, fun j hj => absurd hj (Nat.not_lt_zero j)⟩
  have hk₁ : ¬Kept (slotsOf (chainedShutters.map SentShutter.entry)) 1 := by
    intro hk
    exact ((kept_iff h₁).mp hk).2 0 (by decide) hk₀ _ h₀ (.inr (.inl rfl))
  have hk₂ : Kept (slotsOf (chainedShutters.map SentShutter.entry)) 2 := by
    refine (kept_iff h₂).mpr ⟨⟨by decide, by decide⟩, fun j hj hkj t ht => ?_⟩
    have hj0 : j = 0 := by
      by_contra hne
      have hj1 : j = 1 := by omega
      exact hk₁ (hj1 ▸ hkj)
    subst hj0
    rw [h₀, Option.some.injEq] at ht
    subst ht
    unfold ShutterSlot.Shares
    decide
  exact fun hlast => hk₁ (hlast 1 2 (by decide) hk₂)

/-- After the save slots 0 and 2 are defined and slot 1 is not: position 1 of the lists is
slot 2. -/
theorem position_not_slot : ¬PositionIsSlot (plainPanel.outCfgCGIHandler chainedRequest)
    .configRoomSetDefaults := by
  intro ⟨k, hk, _⟩
  refine chained_collides fun i j hij hj => ?_
  have hjk := (hk j).mp ((plainPanel.isSome_save chainedRequest j).mpr hj)
  exact (plainPanel.isSome_save chainedRequest i).mp ((hk i).mpr (by omega))

end HomeAuto
