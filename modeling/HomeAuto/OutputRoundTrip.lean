import HomeAuto.RoomRoundTrip

/-!
# The output settings across an unedited save

The tags of the output record into the page, and `/outcfg.cgi` back into the record.  The
page has rows for every output and sends them all, but `OUTMODES` and `OUTTMO` list the
first 16 only: the others come back as "Standard" with one second.
-/

namespace HomeAuto

/-- What a save is to leave of the output record: the modes and durations, the shutter
table, and the names of the defined shutters. -/
structure OutputsKept (old new : OutputRecord) : Prop where
  mode : new.mode = old.mode
  timedMs : new.timedMs = old.timedMs
  slots : new.outCfg.configShutterGet = old.outCfg.configShutterGet
  names : ∀ i : Fin cfgMaxShutters, (old.outCfg.configShutterGet i).isSome →
    new.shName i = old.shName i

/-- No empty slot comes before a defined one. -/
def NoHole (get : Nat → Option ShutterSlot) : Prop :=
  ∀ i j, i < j → (get j).isSome → (get i).isSome

namespace WebState

/-- Both relays of a slot have rows on the page and are on the chain, and they differ. -/
structure OnPage (s : WebState) (slot : ShutterSlot) : Prop where
  ne : slot.up ≠ slot.down
  up_lt : slot.up < s.panel.hub.configGetRelayDevices * 8
  down_lt : slot.down < s.panel.hub.configGetRelayDevices * 8
  up_chain : slot.up < s.panel.hub.chain.relayChainCount
  down_chain : slot.down < s.panel.hub.chain.relayChainCount

/-- Past output 16 every mode is "Standard" and every duration a second; the shutter table
is proper and has no hole, its relays are on the page, and the fields hold the names. -/
structure OutputsSafe (s : WebState) (names : ShownNames) : Prop where
  mode : ∀ i : Fin cfgMaxOutputs, i.val < s.panel.hub.configGetRelayDevices * 8 →
    s.panel.out.mode i = 0 ∨ (i.val < 16 ∧ s.panel.out.mode i = 1)
  timedMs : ∀ i : Fin cfgMaxOutputs, i.val < s.panel.hub.configGetRelayDevices * 8 →
    (s.panel.out.timedMs i).toNat = 1000 ∨ (i.val < 16 ∧ 1 ≤ (s.panel.out.timedMs i).toNat ∧
      (s.panel.out.timedMs i).toNat ≤ 3600000)
  proper : s.panel.out.outCfg.ProperTable
  noHole : NoHole s.panel.out.outCfg.configShutterGet
  onPage : ∀ i slot, s.panel.out.outCfg.configShutterGet i = some slot → s.OnPage slot
  stands : ∀ i : Fin cfgMaxShutters, (s.panel.out.outCfg.configShutterGet i).isSome →
    Stands (names.shutter i) (s.panel.out.shName i)

end WebState

/-- The parameters of the output query. -/
theorem IoPage.findCGIParameter_outCfgQuery (p : IoPage) :
    findCGIParameter (ascii "modes") p.outCfgQuery =
        some ((List.range (p.relay * 8)).map fun i => if p.om i then 49 else 48) ∧
      findCGIParameter (ascii "tmo") p.outCfgQuery = some ([44].intercalate
        (((List.range (p.relay * 8)).map fun i => jsOr (p.ot i) 1000).map fmtDecimal)) ∧
      findCGIParameter (ascii "sh") p.outCfgQuery = some ([59].intercalate
        ((p.validShutters.map PageShutter.sent).map SentShutter.text)) := by
  refine ⟨rfl, ?_, rfl⟩
  rw [List.map_map]
  rfl

namespace OutputRecord

theorem configOutMode_outCfg (r : OutputRecord) (i : Fin cfgMaxOutputs) :
    r.outCfg.configOutMode i = (r.mode i).toNat := by
  have hi := i.isLt
  rw [OutputConfig.configOutMode, if_neg (by omega)]
  exact dif_pos i.isLt

theorem configOutTimedMs_outCfg (r : OutputRecord) (i : Fin cfgMaxOutputs) :
    r.outCfg.configOutTimedMs i = (r.timedMs i).toNat := by
  have hi := i.isLt
  rw [OutputConfig.configOutTimedMs, if_neg (by omega)]
  exact dif_pos i.isLt

end OutputRecord

/-! ## Positions in the list of defined slots -/

theorem finRange_bind_get (r : OutputRecord) (i : Fin cfgMaxShutters) :
    ((List.finRange cfgMaxShutters)[i.val]?.bind fun i : Fin cfgMaxShutters =>
      (r.outCfg.configShutterGet i).map fun s => (i, s)) =
      (r.outCfg.configShutterGet i).map fun s => (i, s) := by
  rw [List.getElem?_eq_getElem (by simp), Option.bind_some]
  simp only [List.getElem_finRange, Fin.cast_mk, Fin.eta]

theorem isSome_finRange_bind (r : OutputRecord) (n : Nat) :
    ((List.finRange cfgMaxShutters)[n]?.bind fun i : Fin cfgMaxShutters =>
      (r.outCfg.configShutterGet i).map fun s => (i, s)).isSome =
      (r.outCfg.configShutterGet n).isSome := by
  by_cases hn : n < cfgMaxShutters
  · rw [finRange_bind_get r ⟨n, hn⟩, Option.isSome_map]
  · rw [List.getElem?_eq_none (by simpa using hn),
      r.configShutterGet_outCfg_of_le (Nat.not_lt.mp hn)]
    rfl

/-- Without holes the list has every slot at its own position. -/
theorem NoHole.getElem?_definedSlots {r : OutputRecord} (h : NoHole r.outCfg.configShutterGet)
    (i : Fin cfgMaxShutters) :
    (definedSlots r)[i.val]? = (r.outCfg.configShutterGet i).map fun s => (i, s) := by
  rw [← finRange_bind_get r i]
  refine Delimited.getElem?_filterMap_of_prefix (fun a b hab hb => ?_) i.val
  rw [isSome_finRange_bind] at hb ⊢
  exact h a b hab hb

/-- A list that is longer than the number of any defined slot leaves no hole. -/
theorem noHole_of_lt_length {r : OutputRecord}
    (h : ∀ n, (r.outCfg.configShutterGet n).isSome → n < (definedSlots r).length) :
    NoHole r.outCfg.configShutterGet := by
  intro i j hij hj
  rw [← isSome_finRange_bind] at hj ⊢
  refine Delimited.prefix_of_lt_length (fun n hn => h n ?_) hij hj
  rwa [isSome_finRange_bind] at hn

/-! ## What the page sends -/

namespace WebState

variable (s : WebState) (names : ShownNames) (form : List (CStr × CStr))

/-- The entry that the device reads for a defined slot. -/
def sentEntry (p : Fin cfgMaxShutters × ShutterSlot) : ShutterEntry :=
  (s.shownShutter names p).sent.entry

theorem submitted_loadPage : submitted s.panel.hub.chain.relayChainCount
    (s.loadPage names form).outCfgQuery =
      ((((definedSlots s.panel.out).filter fun p =>
        (s.shownShutter names p).Valid s.panel.hub.configGetRelayDevices).map
          (s.sentEntry names)).filter
            (·.Accepted s.panel.hub.chain.relayChainCount)).take cfgMaxShutters := by
  rw [submitted_outCfgQuery, validShutters_loadPage, List.map_map, List.map_map]
  rfl

/-- A slot on the page is shown as it is. -/
theorem OnPage.shown {s : WebState} {names : ShownNames} {p : Fin cfgMaxShutters × ShutterSlot}
    (h : s.OnPage p.2) :
    (s.shownShutter names p).up = p.2.up ∧ (s.shownShutter names p).down = p.2.down :=
  ⟨if_pos h.up_lt, if_pos h.down_lt⟩

/-- If every slot is on the page, the device accepts all of them. -/
theorem submitted_of_onPage
    (h : ∀ i slot, s.panel.out.outCfg.configShutterGet i = some slot → s.OnPage slot) :
    submitted s.panel.hub.chain.relayChainCount (s.loadPage names form).outCfgQuery =
      (definedSlots s.panel.out).map (s.sentEntry names) := by
  have hcount : s.panel.hub.chain.relayChainCount ≤ 120 := s.panel.hub.chain.relayChainCount_le
  have hon : ∀ p ∈ definedSlots s.panel.out, s.OnPage p.2 := fun p hp =>
    h p.1 p.2 (get_of_mem_definedSlots hp)
  have hvalid : (definedSlots s.panel.out).filter (fun p =>
      (s.shownShutter names p).Valid s.panel.hub.configGetRelayDevices) =
        definedSlots s.panel.out := by
    refine List.filter_eq_self.mpr fun p hp => decide_eq_true ?_
    obtain ⟨hup, hdown⟩ := (hon p hp).shown
    refine ⟨?_, ?_, ?_⟩
    · rw [hup, hdown]
      exact (hon p hp).ne
    · rw [hup]
      exact (hon p hp).up_lt
    · rw [hdown]
      exact (hon p hp).down_lt
  have hacc : ((definedSlots s.panel.out).map (s.sentEntry names)).filter
      (·.Accepted s.panel.hub.chain.relayChainCount) =
      (definedSlots s.panel.out).map (s.sentEntry names) := by
    refine List.filter_eq_self.mpr fun e he => decide_eq_true ?_
    obtain ⟨p, hp, rfl⟩ := List.mem_map.mp he
    obtain ⟨hup, hdown⟩ := (hon p hp).shown
    have hupc := (hon p hp).up_chain
    have hdownc := (hon p hp).down_chain
    have hupNat : (s.sentEntry names p).up.toNat = p.2.up := by
      change (BitVec.ofNat 32 (s.shownShutter names p).up).toNat = p.2.up
      rw [hup, BitVec.toNat_ofNat]
      omega
    have hdownNat : (s.sentEntry names p).down.toNat = p.2.down := by
      change (BitVec.ofNat 32 (s.shownShutter names p).down).toNat = p.2.down
      rw [hdown, BitVec.toNat_ofNat]
      omega
    refine ⟨fun heq => (hon p hp).ne ?_, ?_, ?_⟩
    · rw [← hupNat, ← hdownNat, heq]
    · rw [hupNat]
      exact hupc
    · rw [hdownNat]
      exact hdownc
  have hlen := length_definedSlots_le s.panel.out
  rw [submitted_loadPage, hvalid, hacc,
    List.take_of_length_le (by rw [List.length_map]; exact hlen)]

/-- What is stored for a slot on the page. -/
theorem slot_sentEntry {p : Fin cfgMaxShutters × ShutterSlot} (hon : s.OnPage p.2)
    (hproper : p.2.Proper) : (s.sentEntry names p).slot = p.2 := by
  obtain ⟨hup, hdown⟩ := hon.shown
  have htravel : (s.shownShutter names p).travel = p.2.travelMs := if_neg (by
    have := hproper.travel_pos
    omega)
  have hslot := slot_sent_entry (s := s.shownShutter names p) (by rw [hup]; exact hproper.up_lt)
    (by rw [hdown]; exact hproper.down_lt) (by rw [htravel]; exact hproper.travel_pos)
    (by rw [htravel]; exact hproper.travel_le)
  rw [hup, hdown, htravel] at hslot
  exact hslot

/-- What is stored for a name is what comes back of it. -/
theorem name_sentEntry (p : Fin cfgMaxShutters × ShutterSlot) :
    nameField (s.sentEntry names p).name = returnedName (names.shutter (s.place p.1)) := rfl

/-! ## What the record holds after the request -/

/-- The record after `/outcfg.cgi` with the query of an unedited page. -/
def uneditedOut : OutputRecord := (s.panel.outCfgCGIHandler (s.loadPage names form).outCfgQuery).out

/-- Of the first 16 outputs the modes come back as "Timed" or not, of the others as
"Standard". -/
theorem mode_uneditedOut (i : Fin cfgMaxOutputs) : (s.uneditedOut names form).mode i =
    if i.val < s.panel.hub.configGetRelayDevices * 8 then
      if i.val < 16 ∧ s.panel.out.mode i = 1 then 1 else 0
    else s.panel.out.mode i := by
  have hmodes := (s.loadPage names form).findCGIParameter_outCfgQuery.1
  have hmode : s.panel.out.outCfg.configOutMode i = outModeTimed ↔ s.panel.out.mode i = 1 := by
    rw [s.panel.out.configOutMode_outCfg, ← UInt8.toNat_inj]
    rfl
  rw [loadPage_relay] at hmodes
  rw [uneditedOut, OutPanel.out_outCfgCGIHandler, (OutputRecord.frame_stamped _).1,
    OutputRecord.mode_outCfgEdit _ _ hmodes, List.getElem?_map]
  by_cases hi : i.val < s.panel.hub.configGetRelayDevices * 8
  · have hom := s.loadPage_om names form hi
    rw [hmode] at hom
    rw [List.getElem?_range hi, if_pos hi, Option.map_some, Option.elim_some]
    by_cases htimed : i.val < 16 ∧ s.panel.out.mode i = 1
    · rw [if_pos (hom.mpr htimed), if_pos htimed]
      rfl
    · rw [if_neg (fun h => htimed (hom.mp h)), if_neg htimed]
      rfl
  · rw [List.getElem?_eq_none (by rw [List.length_range]; omega), if_neg hi]
    rfl

/-- Of the first 16 outputs the durations come back, of the others a second. -/
theorem timedMs_uneditedOut (i : Fin cfgMaxOutputs) : (s.uneditedOut names form).timedMs i =
    if i.val < s.panel.hub.configGetRelayDevices * 8 then
      OutputRecord.clampTravel (BitVec.ofNat 32
        (if i.val < 16 then jsOr (s.panel.out.timedMs i).toNat 1000 else 1000))
    else s.panel.out.timedMs i := by
  have htmo := (s.loadPage names form).findCGIParameter_outCfgQuery.2.1
  have hdev := configGetRelayDevices_le s.panel.hub
  rw [loadPage_relay] at htmo
  rw [uneditedOut, OutPanel.out_outCfgCGIHandler, (OutputRecord.frame_stamped _).2.1,
    OutputRecord.timedMs_outCfgEdit _ _ htmo (by
      rw [List.length_map, List.length_range]
      unfold cfgMaxOutputs
      omega), List.getElem?_map]
  by_cases hi : i.val < s.panel.hub.configGetRelayDevices * 8
  · have hot := s.loadPage_ot names form hi
    rw [s.panel.out.configOutTimedMs_outCfg] at hot
    rw [List.getElem?_range hi, if_pos hi, Option.map_some, Option.elim_some, hot]
    have hne : BitVec.ofNat 32
        (if i.val < 16 then jsOr (s.panel.out.timedMs i).toNat 1000 else 1000) ≠ 0#32 := by
      intro h
      have hval := congrArg BitVec.toNat h
      have hlt := (s.panel.out.timedMs i).isLt
      rw [BitVec.toNat_ofNat, BitVec.toNat_ofNat] at hval
      unfold jsOr at hval
      split at hval
      · split at hval <;> omega
      · omega
    rw [OutputRecord.orDefault, if_neg hne]
  · rw [List.getElem?_eq_none (by rw [List.length_range]; omega), if_neg hi]
    rfl

/-- If every slot is on the page, and the table is proper and has no hole, the table comes
back. -/
theorem slots_uneditedOut (hproper : s.panel.out.outCfg.ProperTable)
    (hhole : NoHole s.panel.out.outCfg.configShutterGet)
    (hon : ∀ i slot, s.panel.out.outCfg.configShutterGet i = some slot → s.OnPage slot) :
    (s.uneditedOut names form).outCfg.configShutterGet = s.panel.out.outCfg.configShutterGet := by
  obtain ⟨hslots, hshares⟩ := OutputConfig.properTable_iff.mp hproper
  have hasked : s.panel.asked (s.loadPage names form).outCfgQuery =
      s.panel.out.outCfg.configShutterGet := by
    funext n
    have hlen := length_definedSlots_le s.panel.out
    unfold OutPanel.asked slotsOf
    rw [s.submitted_of_onPage names form hon, List.getElem?_map, Option.map_map]
    by_cases hn : n < cfgMaxShutters
    · have hlist := hhole.getElem?_definedSlots ⟨n, hn⟩
      dsimp only at hlist
      rw [hlist, Option.map_map]
      cases hget : s.panel.out.outCfg.configShutterGet n with
      | none => rfl
      | some slot =>
          exact congrArg some (s.slot_sentEntry names (p := (⟨n, hn⟩, slot)) (hon _ _ hget)
            (hslots _ _ hget))
    · rw [List.getElem?_eq_none (by omega),
        s.panel.out.configShutterGet_outCfg_of_le (Nat.not_lt.mp hn)]
      rfl
  funext n
  refine Option.ext fun slot => ?_
  rw [uneditedOut, OutPanel.configShutterGet_save, hasked]
  refine ⟨And.left, fun hget => ⟨hget, (kept_iff hget).mpr ⟨?_, fun j hj _ t ht => ?_⟩⟩⟩
  · exact ⟨(hslots n slot hget).up_lt, (hslots n slot hget).down_lt⟩
  · exact hshares n j slot t hget ht (ne_of_gt hj)

/-- A defined slot that comes back was sent from a row with the slot's relays, and its name
is the one of its row. -/
theorem sent_of_slots
    (h : (s.uneditedOut names form).outCfg.configShutterGet = s.panel.out.outCfg.configShutterGet)
    {i : Nat} {slot : ShutterSlot} (hget : s.panel.out.outCfg.configShutterGet i = some slot) :
    s.OnPage slot ∧ slot.Proper ∧ i < (definedSlots s.panel.out).length ∧
      s.panel.asked (s.loadPage names form).outCfgQuery i = some slot ∧
      Kept (s.panel.asked (s.loadPage names form).outCfgQuery) i := by
  have hcount : s.panel.hub.chain.relayChainCount ≤ 120 := s.panel.hub.chain.relayChainCount_le
  have hdev := configGetRelayDevices_le s.panel.hub
  rw [← h] at hget
  obtain ⟨hasked, hkept⟩ := (s.panel.configShutterGet_save _ i slot).mp hget
  obtain ⟨e, he, hslot⟩ := Option.map_eq_some_iff.mp hasked
  have hacc := accepted_of_mem_submitted (List.mem_of_getElem? he)
  have hlen := (List.getElem?_eq_some_iff.mp he).1
  rw [submitted_loadPage] at he hlen
  have hmem := List.mem_of_mem_filter (List.mem_of_mem_take (List.mem_of_getElem? he))
  obtain ⟨p, hp, rfl⟩ := List.mem_map.mp hmem
  have hvalid : (s.shownShutter names p).Valid s.panel.hub.configGetRelayDevices :=
    of_decide_eq_true (List.mem_filter.mp hp).2
  obtain ⟨hne, hup, hdown⟩ := hvalid
  have hupNat : slot.up = (s.shownShutter names p).up := by
    rw [← hslot]
    change (BitVec.ofNat 32 (s.shownShutter names p).up).toNat = _
    rw [BitVec.toNat_ofNat]
    omega
  have hdownNat : slot.down = (s.shownShutter names p).down := by
    rw [← hslot]
    change (BitVec.ofNat 32 (s.shownShutter names p).down).toNat = _
    rw [BitVec.toNat_ofNat]
    omega
  have hupc : slot.up < s.panel.hub.chain.relayChainCount := by
    rw [← hslot]
    exact hacc.2.1
  have hdownc : slot.down < s.panel.hub.chain.relayChainCount := by
    rw [← hslot]
    exact hacc.2.2
  have hpair : slot.up ≠ slot.down := by
    rw [hupNat, hdownNat]
    exact hne
  have hbounds := OutputRecord.clampTravel_bounds
    (OutputRecord.orDefault (s.sentEntry names p).travel 20000#32)
  refine ⟨⟨hpair, hupNat ▸ hup, hdownNat ▸ hdown, hupc, hdownc⟩,
    ⟨hupc.trans_le hcount, hdownc.trans_le hcount, hpair, ?_, ?_⟩, ?_, hasked, hkept⟩
  · rw [← hslot]
    exact hbounds.1
  · rw [← hslot]
    exact hbounds.2
  · refine hlen.trans_le ((List.length_take_le' _ _).trans ((List.length_filter_le _ _).trans ?_))
    rw [List.length_map]
    exact List.length_filter_le _ _

/-- The name of a slot that comes back is the one its row showed. -/
theorem shName_uneditedOut
    (h : (s.uneditedOut names form).outCfg.configShutterGet = s.panel.out.outCfg.configShutterGet)
    (hhole : NoHole s.panel.out.outCfg.configShutterGet)
    (hon : ∀ i slot, s.panel.out.outCfg.configShutterGet i = some slot → s.OnPage slot)
    {i : Fin cfgMaxShutters} (hdef : (s.panel.out.outCfg.configShutterGet i).isSome) :
    (s.uneditedOut names form).shName i = returnedName (names.shutter i) := by
  obtain ⟨slot, hget⟩ := Option.isSome_iff_exists.mp hdef
  have hnew := hget
  rw [← h] at hnew
  obtain ⟨e, he, _, hname, _⟩ := s.panel.entry_of_save _ hnew
  rw [s.submitted_of_onPage names form hon, List.getElem?_map, hhole.getElem?_definedSlots i, hget,
    Option.map_some, Option.map_some, Option.some.injEq] at he
  rw [uneditedOut, hname, ← he]
  have hplace : s.place i = i := by
    refine s.place_eq (p := (i, slot)) ?_
    rw [hhole.getElem?_definedSlots i, hget]
    rfl
  have hsent := s.name_sentEntry names (i, slot)
  rwa [hplace] at hsent

/-- A mode comes back as it was if it is "Standard", or "Timed" on one of the first 16
outputs. -/
theorem mode_kept_iff {i : Fin cfgMaxOutputs}
    (hi : i.val < s.panel.hub.configGetRelayDevices * 8) :
    (s.uneditedOut names form).mode i = s.panel.out.mode i ↔
      s.panel.out.mode i = 0 ∨ (i.val < 16 ∧ s.panel.out.mode i = 1) := by
  rw [mode_uneditedOut, if_pos hi]
  by_cases htimed : i.val < 16 ∧ s.panel.out.mode i = 1
  · rw [if_pos htimed]
    exact iff_of_true htimed.2.symm (.inr htimed)
  · rw [if_neg htimed]
    exact ⟨fun h => .inl h.symm, fun h => (h.resolve_right htimed).symm⟩

/-- A duration comes back as it was if it is a second, or in range on one of the first 16
outputs. -/
theorem timedMs_kept_iff {i : Fin cfgMaxOutputs}
    (hi : i.val < s.panel.hub.configGetRelayDevices * 8) :
    (s.uneditedOut names form).timedMs i = s.panel.out.timedMs i ↔
      (s.panel.out.timedMs i).toNat = 1000 ∨ (i.val < 16 ∧
        1 ≤ (s.panel.out.timedMs i).toNat ∧ (s.panel.out.timedMs i).toNat ≤ 3600000) := by
  have hlt := (s.panel.out.timedMs i).isLt
  have hclamp (v : Nat) (hv : v < 2 ^ 32) :
      (OutputRecord.clampTravel (BitVec.ofNat 32 v)).toNat = min (max v 1) 3600000 := by
    unfold OutputRecord.clampTravel
    have hval : (BitVec.ofNat 32 v).toNat = v := by
      rw [BitVec.toNat_ofNat, Nat.mod_eq_of_lt hv]
    simp only [BitVec.lt_def, hval, BitVec.toNat_ofNat]
    split
    · have : v < 1 := by assumption
      rw [BitVec.toNat_ofNat]
      omega
    · split
      · rw [BitVec.toNat_ofNat]
        omega
      · rw [hval]
        omega
  rw [timedMs_uneditedOut, if_pos hi, ← BitVec.toNat_inj]
  unfold jsOr
  by_cases hlow : i.val < 16
  · rw [if_pos hlow]
    split
    · rw [hclamp _ (by decide)]
      omega
    · rw [hclamp _ hlt]
      omega
  · rw [if_neg hlow, hclamp _ (by decide)]
    omega

/-- **The request for the outputs leaves them as they were exactly if the page can show
them.** -/
theorem outputsKept_iff :
    OutputsKept s.panel.out (s.uneditedOut names form) ↔ s.OutputsSafe names := by
  constructor
  · intro h
    have hsent (i : Nat) (slot : ShutterSlot)
        (hget : s.panel.out.outCfg.configShutterGet i = some slot) :=
      s.sent_of_slots names form h.slots hget
    have hhole : NoHole s.panel.out.outCfg.configShutterGet := by
      refine noHole_of_lt_length fun n hn => ?_
      obtain ⟨slot, hget⟩ := Option.isSome_iff_exists.mp hn
      exact (hsent n slot hget).2.2.1
    have hon := fun i slot hget => (hsent i slot hget).1
    refine ⟨fun i hi => ?_, fun i hi => ?_, ?_, hhole, hon, fun i hdef => ?_⟩
    · exact (s.mode_kept_iff names form hi).mp (congrFun h.mode i)
    · exact (s.timedMs_kept_iff names form hi).mp (congrFun h.timedMs i)
    · refine OutputConfig.properTable_iff.mpr ⟨fun i slot hget => (hsent i slot hget).2.1, ?_⟩
      intro i j slot t hget ht hij
      obtain ⟨_, _, _, hasked, hkept⟩ := hsent i slot hget
      obtain ⟨_, _, _, hasked', hkept'⟩ := hsent j t ht
      exact hkept.not_shares hkept' hasked hasked' hij
    · have hname := h.names i hdef
      rw [s.shName_uneditedOut names form h.slots hhole hon hdef] at hname
      exact returnedName_eq_iff.mp hname
  · intro h
    have hslots := s.slots_uneditedOut names form h.proper h.noHole h.onPage
    refine ⟨funext fun i => ?_, funext fun i => ?_, hslots, fun i hdef => ?_⟩
    · by_cases hi : i.val < s.panel.hub.configGetRelayDevices * 8
      · exact (s.mode_kept_iff names form hi).mpr (h.mode i hi)
      · rw [mode_uneditedOut, if_neg hi]
    · by_cases hi : i.val < s.panel.hub.configGetRelayDevices * 8
      · exact (s.timedMs_kept_iff names form hi).mpr (h.timedMs i hi)
      · rw [timedMs_uneditedOut, if_neg hi]
    · rw [s.shName_uneditedOut names form hslots h.noHole h.onPage hdef]
      exact returnedName_eq_iff.mpr (h.stands i hdef)

end WebState

/-! ## The unedited save -/

/-- What a save is to leave: the settings of the outputs, and the rooms. -/
structure SettingsKept (old new : WebState) : Prop where
  outputs : OutputsKept old.panel.out new.panel.out
  rooms : RoomsKept old.panel.out old.rooms new.rooms

namespace WebState

/-- The browser shows these names, and the request for the outputs reaches its handler. -/
structure SendsOutputs (s : WebState) (reader : PageReader) (names : ShownNames)
    (form : List (CStr × CStr)) : Prop where
  shown : s.shownNames reader = some names
  encodes : (s.loadPage names form).ShuttersEncode names
  fits : RequestFits (ascii "/outcfg.cgi") (s.loadPage names form).outCfgQuery

/-- And the request for the rooms. -/
structure SendsRooms (s : WebState) (reader : PageReader) (names : ShownNames)
    (form : List (CStr × CStr)) : Prop where
  shown : s.shownNames reader = some names
  encodes : names.RoomsEncode
  fits : RequestFits (ascii "/roomcfg.cgi") (s.loadPage names form).roomCfgQuery

/-- What a request can change, if it is sent, the page can show. -/
structure SaveSafe (s : WebState) (reader : PageReader) (form : List (CStr × CStr)) : Prop where
  outputs : ∀ names, s.SendsOutputs reader names form → s.OutputsSafe names
  rooms : ∀ names, s.SendsRooms reader names form → s.RoomsSafe names

variable (reader : PageReader) (palStrToUl : StrToUl) (s : WebState) (form : List (CStr × CStr))

section Saved

variable {reader s} {names : ShownNames}

theorem saveUnedited_of_none (h : s.shownNames reader = none) :
    s.saveUnedited reader palStrToUl form = s.submitFields palStrToUl form := by
  rw [saveUnedited, h]

/-- What the save leaves in the output record. -/
theorem saveUnedited_out (h : s.shownNames reader = some names) :
    (s.saveUnedited reader palStrToUl form).panel.out =
      if (s.loadPage names form).ShuttersEncode names ∧
          RequestFits (ascii "/outcfg.cgi") (s.loadPage names form).outCfgQuery then
        s.uneditedOut names form
      else s.panel.out := by
  have hroom (t : WebState) : (if names.RoomsEncode then t.fetchRoomCfg (s.loadPage names form)
      else t).panel = t.panel := by
    split
    · exact fetchRoomCfg_panel t _
    · rfl
  rw [saveUnedited, h]
  dsimp only
  rw [(submitForm_out palStrToUl _ _).1, hroom, ite_and]
  split
  · exact fetchOutCfg_out s _
  · rfl

/-- What the save leaves in the room record. -/
theorem saveUnedited_rooms (h : s.shownNames reader = some names) :
    (s.saveUnedited reader palStrToUl form).rooms =
      if names.RoomsEncode ∧
          RequestFits (ascii "/roomcfg.cgi") (s.loadPage names form).roomCfgQuery then
        s.rooms.roomCfgCGIHandler (s.loadPage names form).roomCfgQuery
      else s.rooms := by
  have hout : (if (s.loadPage names form).ShuttersEncode names then
      s.fetchOutCfg (s.loadPage names form) else s).rooms = s.rooms := by
    split
    · exact fetchOutCfg_rooms s _
    · rfl
  rw [saveUnedited, h]
  dsimp only
  rw [(submitForm_out palStrToUl _ _).2, ite_and]
  split
  · rw [fetchRoomCfg_rooms, hout]
  · exact hout

end Saved

/-- The outputs come through exactly if those that are sent can be shown, -/
theorem outputsKept_saveUnedited_iff :
    OutputsKept s.panel.out (s.saveUnedited reader palStrToUl form).panel.out ↔
      ∀ names, s.SendsOutputs reader names form → s.OutputsSafe names := by
  have hsame : OutputsKept s.panel.out s.panel.out := ⟨rfl, rfl, rfl, fun _ _ => rfl⟩
  cases hshown : s.shownNames reader with
  | none =>
      rw [saveUnedited_of_none palStrToUl form hshown, (submitFields_out palStrToUl s form).1]
      exact iff_of_true hsame fun names h => by cases hshown.symm.trans h.shown
  | some names =>
      rw [saveUnedited_out palStrToUl form hshown]
      split
      · rename_i hsent
        rw [s.outputsKept_iff names form]
        refine ⟨fun h names' h' => ?_, fun h => h names ⟨hshown, hsent.1, hsent.2⟩⟩
        cases hshown.symm.trans h'.shown
        exact h
      · rename_i hsent
        refine iff_of_true hsame fun names' h' => ?_
        cases hshown.symm.trans h'.shown
        exact absurd ⟨h'.encodes, h'.fits⟩ hsent

/-- and so do the rooms. -/
theorem roomsKept_saveUnedited_iff :
    RoomsKept s.panel.out s.rooms (s.saveUnedited reader palStrToUl form).rooms ↔
      ∀ names, s.SendsRooms reader names form → s.RoomsSafe names := by
  have hsame : RoomsKept s.panel.out s.rooms s.rooms := ⟨rfl, rfl, fun _ _ => rfl⟩
  cases hshown : s.shownNames reader with
  | none =>
      rw [saveUnedited_of_none palStrToUl form hshown, (submitFields_out palStrToUl s form).2]
      exact iff_of_true hsame fun names h => by cases hshown.symm.trans h.shown
  | some names =>
      rw [saveUnedited_rooms palStrToUl form hshown]
      split
      · rename_i hsent
        rw [s.roomsKept_iff names form]
        refine ⟨fun h names' h' => ?_, fun h => h names ⟨hshown, hsent.1, hsent.2⟩⟩
        cases hshown.symm.trans h'.shown
        exact h
      · rename_i hsent
        refine iff_of_true hsame fun names' h' => ?_
        cases hshown.symm.trans h'.shown
        exact absurd ⟨h'.encodes, h'.fits⟩ hsent

/-- **An unedited save leaves every setting exactly if the page can show what it sends.** -/
theorem unedited_save_keeps :
    SettingsKept s (s.saveUnedited reader palStrToUl form) ↔ s.SaveSafe reader form := by
  have hout := s.outputsKept_saveUnedited_iff reader palStrToUl form
  have hrooms := s.roomsKept_saveUnedited_iff reader palStrToUl form
  exact ⟨fun h => ⟨hout.mp h.outputs, hrooms.mp h.rooms⟩,
    fun h => ⟨hout.mpr h.outputs, hrooms.mpr h.rooms⟩⟩

end WebState

/-! ## The seventeenth output -/

/-- Three relay devices, output 17 (number 16) "Timed" with five seconds, and nothing else
configured. -/
def timedSeventeenth : WebState where
  panel := {
    hub := { plainPanel.hub with
      chain := RelayChain.relayChainSetDevices 3
      ioDevices := 0x31 }
    out := (OutputRecord.configOutputSetDefaults.configSetOutMode 16 1).configSetOutTimedMs 16
      5000#32 }
  rooms := .configRoomSetDefaults

/-- It has no shutter on its page. -/
theorem sh_timedSeventeenth (names : ShownNames) :
    (timedSeventeenth.loadPage names []).sh = [] := by
  rw [WebState.loadPage_sh, List.map_eq_nil_iff]
  exact List.length_eq_zero_iff.mp (by decide +kernel)

/-- A browser that runs the script, and shows nothing of lists with unusual bytes. -/
def plainReader : PageReader where
  runs _ _ := true
  others _ _ := ⟨fun _ => [], fun _ => [], fun _ => false⟩

/-- The save turns it into "Standard". -/
theorem timed_seventeenth_lost : ¬SettingsKept timedSeventeenth
    (timedSeventeenth.saveUnedited plainReader ustrtoul []) := by
  intro h
  obtain ⟨names, hshown⟩ : ∃ names, timedSeventeenth.shownNames plainReader = some names :=
    ⟨_, rfl⟩
  have hfits : RequestFits (ascii "/outcfg.cgi")
      (timedSeventeenth.loadPage names []).outCfgQuery := by
    have hquery : (timedSeventeenth.loadPage names []).outCfgQuery =
        (timedSeventeenth.loadPage (plainReader.others [] []) []).outCfgQuery := by
      unfold IoPage.outCfgQuery IoPage.validShutters
      rw [sh_timedSeventeenth, sh_timedSeventeenth]
      rfl
    rw [hquery]
    decide +kernel
  have hencodes : (timedSeventeenth.loadPage names []).ShuttersEncode names := by
    intro n hn
    rw [sh_timedSeventeenth] at hn
    exact absurd hn (Nat.not_lt_zero n)
  have hmode := congrFun h.outputs.mode ⟨16, by decide⟩
  rw [WebState.saveUnedited_out ustrtoul [] hshown, if_pos ⟨hencodes, hfits⟩] at hmode
  change (timedSeventeenth.uneditedOut names []).mode ⟨16, by decide⟩ = 1 at hmode
  rw [WebState.mode_uneditedOut, if_pos (by decide), if_neg (by decide)] at hmode
  cases hmode

end HomeAuto
