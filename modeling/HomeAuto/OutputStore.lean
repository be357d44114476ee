import HomeAuto.Lib.ByteStore
import HomeAuto.Lib.Runs
import HomeAuto.ShutterDedup

/-!
# The output record over boots and saves

`ConfigInit` reads the stored record, upgrades one of older firmware or falls back to the
defaults; the settings page edits the record in RAM and saves it.  A write may fail and
leave anything behind, the power may be cut at any time.

The live shutter table is proper after every boot and every save, as long as the store
comes up at every boot and what is migrated can be mended: a boot without a store leaves
the record all zero, which reads as 32 shutters with relay 0 in both directions, and the
migration copies a bad slot of an older record as it is.
-/

namespace HomeAuto

/-- `CFG_OUTCFG_ADDR`. -/
def cfgOutcfgAddr : Nat := 2848

/-- The bytes in the store, and `g_sOutCfg`. -/
structure OutputStore where
  eeprom : ByteStore.Bytes
  out : OutputRecord

/-- The record read from the store. -/
def storedRecord (m : ByteStore.Bytes) : OutputRecord :=
  outputRecordLayout.get (ByteStore.read m cfgOutcfgAddr outputRecordLayout.size)

/-- The same place, read as a record of older firmware. -/
def storedRecordV1 (m : ByteStore.Bytes) : OutputRecordV1 :=
  outputRecordV1Layout.get (ByteStore.read m cfgOutcfgAddr outputRecordV1Layout.size)

namespace OutputStore

/-- `ConfigOutputSave`; `fault` is what a write that fails leaves in the store. -/
def configOutputSave (s : OutputStore) (fault : Option ByteStore.Bytes) : OutputStore × Bool :=
  match fault with
  | none => ({
      eeprom := ByteStore.write s.eeprom cfgOutcfgAddr (outputRecordLayout.put s.out.stamped)
      out := s.out.stamped }, true)
  | some left => ({ eeprom := left, out := s.out.stamped }, false)

/-- `ConfigOutputMigrateV1`. -/
def configOutputMigrateV1 (s : OutputStore) (fault : Option ByteStore.Bytes) :
    OutputStore × Bool :=
  if (storedRecordV1 s.eeprom).Valid then
    (({ s with out := .ofV1 (storedRecordV1 s.eeprom) }.configOutputSave fault).1, true)
  else (s, false)

/-- What `product_config_load` does with the output record. -/
def productConfigLoad (s : OutputStore) (fault : Option ByteStore.Bytes) : OutputStore :=
  if (storedRecord s.eeprom).Valid then { s with out := storedRecord s.eeprom }
  else
    match { s with out := storedRecord s.eeprom }.configOutputMigrateV1 fault with
    | (s, true) => s
    | (s, false) => ({ s with out := .configOutputSetDefaults }.configOutputSave fault).1

/-- `ConfigInit`: without a store the product's records are not loaded at all. -/
def configInit (s : OutputStore) (initOk : Bool) (fault : Option ByteStore.Bytes) :
    OutputStore :=
  if initOk then s.productConfigLoad fault else s

end OutputStore

/-- What happens to the record: a boot, with the result of `PalStorageInit`, the edits of
the shutter table, and a save. -/
inductive StoreEvent
  | boot (initOk : Bool) (fault : Option ByteStore.Bytes)
  | shutterSet (iSlot : Int) (up down : UInt8) (travelMs : BitVec 32)
  | shutterClear (iSlot : Int)
  | save (fault : Option ByteStore.Bytes)

/-- What the write of an event leaves behind if it fails. -/
def StoreEvent.fault : StoreEvent → Option ByteStore.Bytes
  | boot _ fault => fault
  | save fault => fault
  | _ => none

namespace OutputStore

/-- One event.  A boot starts from cleared RAM. -/
def step (s : OutputStore) : StoreEvent → OutputStore
  | .boot initOk fault => { s with out := .zero }.configInit initOk fault
  | .shutterSet iSlot up down travelMs =>
      { s with out := s.out.configShutterSet iSlot up down travelMs }
  | .shutterClear iSlot => { s with out := s.out.configShutterClear iSlot }
  | .save fault => (s.configOutputSave fault).1

/-- The table is proper right after a boot and right after a save. -/
def Settled (s : OutputStore) : StoreEvent → Prop
  | .boot initOk fault => (s.step (.boot initOk fault)).out.outCfg.ProperTable
  | .save fault => (s.step (.save fault)).out.outCfg.ProperTable
  | _ => True

/-- A write that fails does not leave a valid record the firmware never stored. -/
def FaultKnown (s : OutputStore) (e : StoreEvent) : Prop :=
  ∀ left, e.fault = some left → (storedRecord left).Valid →
    storedRecord left = storedRecord s.eeprom ∨ storedRecord left = (s.step e).out

end OutputStore

/-- The shutter slots of an older record. -/
def OutputRecordV1.configShutterGet (v : OutputRecordV1) (i : Nat) : Option ShutterSlot :=
  if h : i < cfgOutcfgV1Shutters then
    if v.shUp ⟨i, h⟩ = shutterNoneByte then none
    else some ⟨(v.shUp ⟨i, h⟩).toNat, (v.shDown ⟨i, h⟩).toNat, (v.shTravelMs ⟨i, h⟩).toNat⟩
  else none

/-- A boot that finds its store, and nothing to migrate that cannot be mended. -/
def OutputStore.SoundBoot (s : OutputStore) : StoreEvent → Prop
  | .boot initOk _ => initOk = true ∧
      (¬(storedRecord s.eeprom).Valid → (storedRecordV1 s.eeprom).Valid →
        Mendable (storedRecordV1 s.eeprom).configShutterGet)
  | _ => True

/-! ## Edits -/

namespace OutputRecord

/-- Every defined slot can be driven. -/
def SlotsProper (r : OutputRecord) : Prop :=
  ∀ i s, r.outCfg.configShutterGet i = some s → s.Proper

theorem SlotsProper.mendable {r : OutputRecord} (h : r.SlotsProper) :
    Mendable r.outCfg.configShutterGet :=
  fun i s hs => ⟨⟨(h i s hs).up_lt, (h i s hs).down_lt⟩, fun _ => h i s hs⟩

theorem slotsProper_of_properTable {r : OutputRecord} (h : r.outCfg.ProperTable) :
    r.SlotsProper := (OutputConfig.properTable_iff.mp h).1

/-- Changing one slot. -/
theorem SlotsProper.change {r r' : OutputRecord} (h : r.SlotsProper) (k : Fin cfgMaxShutters)
    (hother : ∀ i, i ≠ k → r'.shUp i = r.shUp i ∧ r'.shDown i = r.shDown i ∧
      r'.shTravelMs i = r.shTravelMs i)
    (hself : ∀ s, r'.outCfg.configShutterGet k = some s → s.Proper) : r'.SlotsProper := by
  intro i s hs
  have hi : i < cfgMaxShutters := OutputConfig.configShutterGet_lt hs
  by_cases hik : (⟨i, hi⟩ : Fin cfgMaxShutters) = k
  · rw [← hik] at hself
    exact hself s hs
  · obtain ⟨hup, hdown, htravel⟩ := hother ⟨i, hi⟩ hik
    refine h i s ?_
    rw [← hs]
    have hnew := r'.configShutterGet_outCfg ⟨i, hi⟩
    have hold := r.configShutterGet_outCfg ⟨i, hi⟩
    rw [hup, hdown, htravel] at hnew
    exact hold.trans hnew.symm

theorem clampTravel_bounds (travelMs : BitVec 32) :
    1 ≤ (clampTravel travelMs).toNat ∧ (clampTravel travelMs).toNat ≤ 3600000 := by
  unfold clampTravel
  split
  · decide
  · rename_i hlo
    split
    · decide
    · rename_i hhi
      rw [BitVec.lt_def] at hlo hhi
      simp only [BitVec.toNat_ofNat] at hlo hhi
      omega

theorem SlotsProper.emptySlot {r r' : OutputRecord} (h : r.SlotsProper)
    (k : Fin cfgMaxShutters) (hup : r'.shUp = (r.emptySlot k).shUp)
    (hdown : r'.shDown = (r.emptySlot k).shDown) (htravel : r'.shTravelMs = r.shTravelMs) :
    r'.SlotsProper := by
  refine h.change k (fun i hi => ?_) fun s hs => ?_
  · simp [hup, hdown, htravel, OutputRecord.emptySlot, putPair, hi]
  · rw [configShutterGet_outCfg, hup] at hs
    simp [OutputRecord.emptySlot, putPair] at hs

theorem SlotsProper.configShutterSet {r : OutputRecord} (h : r.SlotsProper) (iSlot : Int)
    (up down : UInt8) (travelMs : BitVec 32) :
    (r.configShutterSet iSlot up down travelMs).SlotsProper := by
  unfold OutputRecord.configShutterSet
  split
  · rename_i hslot
    split
    · exact h.emptySlot ⟨iSlot.toNat, hslot.2⟩ rfl rfl rfl
    · rename_i hpair
      rw [not_or, not_or, Nat.not_le, Nat.not_le] at hpair
      refine h.change ⟨iSlot.toNat, hslot.2⟩ (fun i hi => ?_) fun s hs => ?_
      · simp [putPair, hi]
      · rw [configShutterGet_outCfg] at hs
        split at hs
        · cases hs
        · cases hs
          obtain ⟨hpos, hle⟩ := clampTravel_bounds travelMs
          refine ⟨?_, ?_, ?_, ?_, ?_⟩
          · simpa [putPair] using hpair.2.1
          · simpa [putPair] using hpair.2.2
          · simpa [putPair, UInt8.toNat_inj] using hpair.1
          · simpa using hpos
          · simpa using hle
  · exact h

theorem SlotsProper.configShutterClear {r : OutputRecord} (h : r.SlotsProper) (iSlot : Int) :
    (r.configShutterClear iSlot).SlotsProper := by
  unfold OutputRecord.configShutterClear
  split
  · rename_i hslot
    exact h.emptySlot ⟨iSlot.toNat, hslot.2⟩ rfl rfl rfl
  · exact h

/-- The stamps are no part of the table. -/
theorem outCfg_stamp (r : OutputRecord) (magic crc : BitVec 32) :
    { r with magic := magic, crc := crc }.outCfg = r.outCfg := rfl

/-- **A save makes the table proper exactly when it was mendable.** -/
theorem properTable_stamped_iff (r : OutputRecord) :
    r.stamped.outCfg.ProperTable ↔ Mendable r.outCfg.configShutterGet := by
  rw [stamped, outCfg_stamp]
  exact r.properTable_dedup_iff

/-! ## Boots -/

theorem not_properTable_zero : ¬zero.outCfg.ProperTable := by
  intro h
  have hslot := zero.configShutterGet_outCfg ⟨0, by decide⟩
  rw [if_neg (by decide)] at hslot
  exact h.up_ne_down 0 _ hslot rfl

theorem configShutterGet_defaults (i : Nat) :
    configOutputSetDefaults.outCfg.configShutterGet i = none := by
  by_cases hi : i < cfgMaxShutters
  · have hempty : configOutputSetDefaults.shUp ⟨i, hi⟩ = shutterNoneByte := rfl
    have hnone := configOutputSetDefaults.configShutterGet_outCfg ⟨i, hi⟩
    rwa [if_pos hempty] at hnone
  · exact configShutterGet_outCfg_of_le _ (Nat.not_lt.mp hi)

theorem slotsProper_defaults : configOutputSetDefaults.SlotsProper := by
  intro i s hs
  rw [configShutterGet_defaults] at hs
  cases hs

/-- Migration takes the slots over as they are. -/
theorem configShutterGet_ofV1 (v : OutputRecordV1) :
    (ofV1 v).outCfg.configShutterGet = v.configShutterGet := by
  funext i
  unfold OutputRecordV1.configShutterGet
  by_cases hi : i < cfgMaxShutters
  · have hnew := (ofV1 v).configShutterGet_outCfg ⟨i, hi⟩
    rw [hnew]
    by_cases hv : i < cfgOutcfgV1Shutters
    · simp only [ofV1, hv, dite_true]
    · simp only [ofV1, hv, dite_false, if_true]
  · have hv : ¬i < cfgOutcfgV1Shutters := by
      unfold cfgOutcfgV1Shutters
      unfold cfgMaxShutters at hi
      omega
    rw [configShutterGet_outCfg_of_le _ (Nat.not_lt.mp hi), dif_neg hv]

end OutputRecord

/-- A saved record is read back. -/
theorem storedRecord_write (m : ByteStore.Bytes) (r : OutputRecord) :
    storedRecord (ByteStore.write m cfgOutcfgAddr (outputRecordLayout.put r)) = r := by
  rw [storedRecord, ← outputRecordLayout.length_put r, ByteStore.read_write,
    outputRecordLayout.get_put_self]

namespace OutputStore

/-- What a save leaves in the store. -/
theorem configOutputSave_cases (s : OutputStore) (fault : Option ByteStore.Bytes) :
    (s.configOutputSave fault).1.out = s.out.stamped ∧
      (fault = some (s.configOutputSave fault).1.eeprom ∨
        storedRecord (s.configOutputSave fault).1.eeprom = s.out.stamped) := by
  cases fault with
  | none => exact ⟨rfl, .inr (storedRecord_write _ _)⟩
  | some left => exact ⟨rfl, .inl rfl⟩

/-- What a boot with a store does: keep a valid record, or save what it makes of an older
one or of the defaults. -/
theorem boot_cases (s : OutputStore) (fault : Option ByteStore.Bytes) :
    (storedRecord s.eeprom).Valid ∧
        s.step (.boot true fault) = ⟨s.eeprom, storedRecord s.eeprom⟩ ∨
      ¬(storedRecord s.eeprom).Valid ∧ ∃ r,
        s.step (.boot true fault) = (configOutputSave ⟨s.eeprom, r⟩ fault).1 ∧
        ((storedRecordV1 s.eeprom).Valid ∧ r = .ofV1 (storedRecordV1 s.eeprom) ∨
          ¬(storedRecordV1 s.eeprom).Valid ∧ r = .configOutputSetDefaults) := by
  by_cases hnew : (storedRecord s.eeprom).Valid
  · refine .inl ⟨hnew, ?_⟩
    simp [step, configInit, productConfigLoad, hnew]
  · by_cases hold : (storedRecordV1 s.eeprom).Valid
    · refine .inr ⟨hnew, _, ?_, .inl ⟨hold, rfl⟩⟩
      simp [step, configInit, productConfigLoad, hnew, configOutputMigrateV1, hold]
    · refine .inr ⟨hnew, _, ?_, .inr ⟨hold, rfl⟩⟩
      simp [step, configInit, productConfigLoad, hnew, configOutputMigrateV1, hold]

/-- A valid record in the store has a proper table. -/
def StoreProper (s : OutputStore) : Prop :=
  (storedRecord s.eeprom).Valid → (storedRecord s.eeprom).outCfg.ProperTable

/-- **A boot leaves a proper table exactly when it is sound.** -/
theorem settled_boot_iff {s : OutputStore} (h : s.StoreProper) (initOk : Bool)
    (fault : Option ByteStore.Bytes) :
    s.Settled (.boot initOk fault) ↔ s.SoundBoot (.boot initOk fault) := by
  cases initOk with
  | false => exact iff_of_false OutputRecord.not_properTable_zero (by simp [SoundBoot])
  | true =>
      change (s.step (.boot true fault)).out.outCfg.ProperTable ↔ true = true ∧
        (¬(storedRecord s.eeprom).Valid → (storedRecordV1 s.eeprom).Valid →
          Mendable (storedRecordV1 s.eeprom).configShutterGet)
      rcases s.boot_cases fault with ⟨hnew, hstep⟩ | ⟨hnew, r, hstep, hr⟩
      · rw [hstep]
        exact iff_of_true (h hnew) ⟨rfl, fun hnot => absurd hnew hnot⟩
      · rw [hstep, (configOutputSave_cases _ fault).1, OutputRecord.properTable_stamped_iff]
        rcases hr with ⟨hold, rfl⟩ | ⟨hold, rfl⟩
        · rw [OutputRecord.configShutterGet_ofV1]
          simp [hnew, hold]
        · exact iff_of_true OutputRecord.slotsProper_defaults.mendable
            ⟨rfl, fun _ hv => absurd hv hold⟩

/-- What the store holds after a step is what it held, what a fault left, or the record
in RAM. -/
theorem storedRecord_step (s : OutputStore) (e : StoreEvent) :
    storedRecord (s.step e).eeprom = storedRecord s.eeprom ∨
      e.fault = some (s.step e).eeprom ∨
      storedRecord (s.step e).eeprom = (s.step e).out := by
  cases e with
  | boot initOk fault =>
      cases initOk with
      | false => exact .inl rfl
      | true =>
          rcases s.boot_cases fault with ⟨_, hstep⟩ | ⟨_, r, hstep, _⟩
          · rw [hstep]
            exact .inl rfl
          · obtain ⟨hout, hleft⟩ := configOutputSave_cases ⟨s.eeprom, r⟩ fault
            rw [hstep, hout]
            exact .inr hleft
  | shutterSet iSlot up down travelMs => exact .inl rfl
  | shutterClear iSlot => exact .inl rfl
  | save fault =>
      obtain ⟨hout, hleft⟩ := s.configOutputSave_cases fault
      rw [step, hout]
      exact .inr hleft

/-- A settled step keeps the store proper. -/
theorem StoreProper.step {s : OutputStore} (h : s.StoreProper) {e : StoreEvent}
    (hsettled : s.Settled e) (hfault : s.FaultKnown e) : (s.step e).StoreProper := by
  intro hvalid
  have hram (hram : storedRecord (s.step e).eeprom = (s.step e).out)
      (hsame : storedRecord (s.step e).eeprom ≠ storedRecord s.eeprom) :
      (storedRecord (s.step e).eeprom).outCfg.ProperTable := by
    cases e with
    | boot initOk fault =>
        rw [hram]
        exact hsettled
    | save fault =>
        rw [hram]
        exact hsettled
    | shutterSet iSlot up down travelMs => exact absurd rfl hsame
    | shutterClear iSlot => exact absurd rfl hsame
  by_cases hsame : storedRecord (s.step e).eeprom = storedRecord s.eeprom
  · rw [hsame] at hvalid ⊢
    exact h hvalid
  · rcases s.storedRecord_step e with heq | hleft | heq
    · exact absurd heq hsame
    · rcases hfault _ hleft hvalid with heq | heq
      · exact absurd heq hsame
      · exact hram heq hsame
    · exact hram heq hsame

/-- In RAM and in the store, slots can be driven. -/
def Sound (s : OutputStore) : Prop := s.StoreProper ∧ s.out.SlotsProper

theorem Sound.step {s : OutputStore} (h : s.Sound) {e : StoreEvent} (hsettled : s.Settled e)
    (hfault : s.FaultKnown e) : (s.step e).Sound := by
  refine ⟨h.1.step hsettled hfault, ?_⟩
  cases e with
  | boot initOk fault => exact OutputRecord.slotsProper_of_properTable hsettled
  | shutterSet iSlot up down travelMs => exact h.2.configShutterSet iSlot up down travelMs
  | shutterClear iSlot => exact h.2.configShutterClear iSlot
  | save fault => exact OutputRecord.slotsProper_of_properTable hsettled

theorem Sound.settled_iff {s : OutputStore} (h : s.Sound) (e : StoreEvent) :
    s.Settled e ↔ s.SoundBoot e := by
  cases e with
  | boot initOk fault => exact settled_boot_iff h.1 initOk fault
  | shutterSet iSlot up down travelMs => exact Iff.rfl
  | shutterClear iSlot => exact Iff.rfl
  | save fault =>
      refine iff_of_true ?_ trivial
      change (s.configOutputSave fault).1.out.outCfg.ProperTable
      rw [(s.configOutputSave_cases fault).1, OutputRecord.properTable_stamped_iff]
      exact h.2.mendable

/-- **The live table.**  From a store without a valid record on, over any boots, edits and
saves, the table is proper after every boot and every save exactly when every boot is
sound. -/
theorem settled_iff_soundBoots {m : ByteStore.Bytes} (hm : ¬(storedRecord m).Valid)
    (r : OutputRecord) (initOk : Bool) (fault : Option ByteStore.Bytes) (es : List StoreEvent)
    (hfaults : Runs.EveryStep step FaultKnown ⟨m, r⟩ (.boot initOk fault :: es)) :
    Runs.EveryStep step Settled ⟨m, r⟩ (.boot initOk fault :: es) ↔
      Runs.EveryStep step SoundBoot ⟨m, r⟩ (.boot initOk fault :: es) := by
  have hstore : StoreProper ⟨m, r⟩ := fun hvalid => absurd hvalid hm
  have hboot := settled_boot_iff hstore initOk fault
  rw [Runs.everyStep_cons] at hfaults ⊢
  rw [Runs.everyStep_cons, hboot]
  refine and_congr_right fun hsound => ?_
  have hsettled := hboot.mpr hsound
  have hfirst : (step ⟨m, r⟩ (.boot initOk fault)).Sound :=
    ⟨hstore.step hsettled hfaults.1, OutputRecord.slotsProper_of_properTable hsettled⟩
  have hrun : Runs.EveryStep step (fun s e => s.Settled e ∧ s.FaultKnown e)
        (step ⟨m, r⟩ (.boot initOk fault)) es ↔
      Runs.EveryStep step (fun s e => s.SoundBoot e ∧ s.FaultKnown e)
        (step ⟨m, r⟩ (.boot initOk fault)) es := Runs.everyStep_congr (I := Sound)
    (fun s e hs hok => hs.step hok.1 hok.2)
    (fun s e hs => and_congr_left fun _ => hs.settled_iff e) hfirst es
  rw [Runs.everyStep_and, Runs.everyStep_and] at hrun
  constructor
  · intro h
    exact (hrun.mp ⟨h, hfaults.2⟩).1
  · intro h
    exact (hrun.mpr ⟨h, hfaults.2⟩).1

/-- A blank store, two shutters that share relay 4, and a save. -/
theorem blank_store_settled :
    Runs.EveryStep step Settled ⟨fun _ => 0xFF, .zero⟩
      [.boot true none, .shutterSet 0 3 4 20000#32, .shutterSet 1 4 5 0#32, .save none] := by
  refine (settled_iff_soundBoots (by decide +kernel) _ _ _ _ ?_).mpr ?_
  · exact ⟨nofun, nofun, nofun, nofun, trivial⟩
  · refine ⟨⟨rfl, fun _ hv => ?_⟩, trivial, trivial, trivial, trivial⟩
    exact absurd hv (by decide +kernel)

/-- A boot whose store does not come up: every slot reads as a shutter on relay 0. -/
theorem failed_store_not_settled :
    ¬Runs.EveryStep step Settled ⟨fun _ => 0xFF, .zero⟩ [.boot false none] := by
  rintro ⟨hsettled, _⟩
  exact OutputRecord.not_properTable_zero hsettled

end OutputStore

end HomeAuto
