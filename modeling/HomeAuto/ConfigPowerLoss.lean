import HomeAuto.ConfigSaves

/-!
# Losing power during a save of the configuration

A save of one record is cut after any number of its words.  The next boot finds every other
record as it was.  Of the record itself it finds the old value, the new one or the defaults
— unless the magic word, which is written first, completes a record that an earlier factory
reset had invalidated: then the settings from before the reset are back.
-/

namespace HomeAuto

namespace ConfigRecord

/-- The store with the magic word of a record in place. -/
def marked (r : ConfigRecord) (m : ByteStore.Bytes) : ByteStore.Bytes :=
  ByteStore.write m r.format.addr (wordBytes r.format.marker)

/-- A whole record whose magic word is gone, and which is neither the defaults nor `v`. -/
def Stale (r : ConfigRecord) (m : ByteStore.Bytes) (v : r.Value) : Prop :=
  r.taken m = none ∧ ∃ w, r.taken (r.marked m) = some w ∧ w ≠ r.defaults ∧ w ≠ v

end ConfigRecord

namespace Device

variable (d : Device) (s : ConfigSave)

/-- A boot after `k` words of a save: the saved records have their old value, the new one
or their defaults, and the others have the value they had. -/
def Isolated (k : Nat) : Prop :=
  ∀ r, match s.newValue d.config r with
    | some v =>
        (Config.configInit true (d.cut s k)).2.get r =
            (Config.configInit true d.eeprom).2.get r ∨
          (Config.configInit true (d.cut s k)).2.get r = v ∨
          (Config.configInit true (d.cut s k)).2.get r = r.defaults
    | none =>
        (Config.configInit true (d.cut s k)).2.get r = (Config.configInit true d.eeprom).2.get r

/-- No torn record has the right CRC by accident.  What checks although the save is not
complete is the new record or the one that was there; and what checks as a record of older
firmware is the one that was there, too. -/
structure NoCollision (r : ConfigRecord) (v : r.Value) : Prop where
  torn : ∀ k < (s.writes d.config).length, r.format.read (d.cut s k) ≠ v →
    r.format.read (d.cut s k) ≠ r.format.read (r.marked d.eeprom) →
    r.format.closed.last (r.format.read (d.cut s k)) ≠
      recordCrc r.format.layout (r.format.read (d.cut s k))
  older : ∀ k < (s.writes d.config).length, ∀ w,
    ¬r.format.Valid (r.format.read (d.cut s k)) → r.migrated (d.cut s k) = some w →
    ¬r.format.Valid (r.format.read (r.marked d.eeprom)) ∧
      r.migrated (r.marked d.eeprom) = some w

/-- The save marks a record that the store still holds without its magic word. -/
def Resurrects : Prop :=
  ∃ r v, s.stores d.config r = some v ∧ r.Stale d.eeprom v

end Device

/-! ## What a save writes -/

namespace ConfigRecord

variable {r : ConfigRecord} {m : ByteStore.Bytes}

theorem taken_of_valid (h : r.format.Valid (r.format.read m)) :
    r.taken m = some (r.format.read m) := if_pos h

theorem taken_of_not_valid (h : ¬r.format.Valid (r.format.read m)) :
    r.taken m = r.migrated m := if_neg h

theorem size_le (r : ConfigRecord) : 4 ≤ r.format.layout.size := by
  cases r <;> decide

theorem marker_ne_zero (r : ConfigRecord) : r.format.marker ≠ 0 := by
  cases r <;> decide

/-- The magic word of an older record stands in the same place. -/
theorem read_of_migrated {w : r.Value} (h : r.migrated m = some w) :
    ByteStore.read m r.format.addr 4 = wordBytes r.format.marker := by
  cases r with
  | output =>
      by_cases hv : (storedRecordV1 m).Valid
      · exact read_eq_wordBytes (n := outputRecordV1Layout.size) (by decide) hv.1
      · have hnone : output.migrated m = none := if_neg hv
        rw [hnone] at h
        cases h
  | _ => cases h

/-- What a boot takes has its magic word. -/
theorem read_of_taken {w : r.Value} (h : r.taken m = some w) :
    ByteStore.read m r.format.addr 4 = wordBytes r.format.marker := by
  by_cases hv : r.format.Valid (r.format.read m)
  · apply read_eq_wordBytes r.size_le
    rw [← r.format.magic_get]
    exact hv.1
  · rw [taken_of_not_valid hv] at h
    exact read_of_migrated h

/-- A magic word in place is not changed. -/
theorem marked_of_taken {w : r.Value} (h : r.taken m = some w) : r.marked m = m := by
  rw [marked, ← read_of_taken h, ByteStore.write_read_self]

/-- Without its magic word, a record is not taken. -/
theorem taken_of_wiped (h : ByteStore.read m r.format.addr 4 = wordBytes 0) :
    r.taken m = none := by
  cases htaken : r.taken m with
  | none => rfl
  | some w =>
      have hmarker := read_of_taken htaken
      rw [h] at hmarker
      have hzero : wordLayout.get (wordBytes r.format.marker) = wordLayout.get (wordBytes 0) :=
        congrArg wordLayout.get hmarker.symm
      have hself (w : BitVec 32) : wordLayout.get (wordBytes w) = w := wordLayout.get_put_self w
      rw [hself, hself] at hzero
      exact absurd hzero r.marker_ne_zero

end ConfigRecord

/-- What a save stores, case by case. -/
inductive ConfigSave.Stores (c : Config) : ConfigSave → (r : ConfigRecord) → r.Value → Prop
  | whole (r : ConfigRecord) (a : r.Value) : Stores c (.whole r a) r (r.format.stamped a)
  | name (bInput : Bool) (iIdx : Int) (pcName : CStr)
      (h : (c.names.configNameSet bInput iIdx pcName).2 ≠ []) :
      Stores c (.name bInput iIdx pcName) .names (c.names.configNameSet bInput iIdx pcName).1

theorem ConfigSave.stores_whole (c : Config) (r r' : ConfigRecord) (a : r.Value) :
    (ConfigSave.whole r a).stores c r' =
      if h : r = r' then some (h ▸ r.format.stamped a) else none := rfl

theorem ConfigSave.stores_names (c : Config) (bInput : Bool) (iIdx : Int) (pcName : CStr) :
    (ConfigSave.name bInput iIdx pcName).stores c .names =
      if (c.names.configNameSet bInput iIdx pcName).2 = [] then none
      else some (c.names.configNameSet bInput iIdx pcName).1 := rfl

theorem ConfigSave.Stores.of_eq {c : Config} {s : ConfigSave} {r : ConfigRecord} {v : r.Value}
    (h : s.stores c r = some v) : ConfigSave.Stores c s r v := by
  cases s with
  | whole r' a =>
      rw [ConfigSave.stores_whole] at h
      split at h
      · rename_i hr
        subst hr
        cases h
        exact .whole r' a
      · cases h
  | name bInput iIdx pcName =>
      cases r with
      | names =>
          rw [ConfigSave.stores_names] at h
          split at h
          · cases h
          · rename_i hw
            cases h
            exact .name bInput iIdx pcName hw
      | _ => cases h
  | factoryReset => cases h

namespace Device

variable {d : Device} {s : ConfigSave} {r : ConfigRecord} {v : r.Value}

/-- The words of a single name start with the magic word. -/
theorem configNameSet_head (d : Device) {bInput : Bool} {iIdx : Int} {pcName : CStr}
    (h : (d.config.names.configNameSet bInput iIdx pcName).2 ≠ []) :
    (d.config.names.configNameSet bInput iIdx pcName).2.take 1 =
      [(cfgIoNamesAddr, wordBytes cfgIoNamesMagic)] := by
  rcases d.names_kept.configNameSet_cases bInput iIdx pcName with
    heq | ⟨r', addr, heq, -, -, hkept⟩
  · rw [heq] at h
    exact absurd rfl h
  · rw [heq, ← hkept.magic]
    rfl

/-- The first word of a save is the magic word. -/
theorem cut_one (h : ConfigSave.Stores d.config s r v) : d.cut s 1 = r.marked d.eeprom := by
  cases h with
  | whole r a =>
      have hlen : 1 ≤ (r.format.layout.put (r.format.stamped a)).length / 4 := by
        rw [r.format.layout.length_put]
        exact Nat.div_pos r.size_le (by decide)
      have htake := ByteStore.program_take_words d.eeprom 4 r.format.addr _ 1 hlen
      rw [Nat.mul_one, r.format.put_magic, r.format.magic_stamped] at htake
      exact htake
  | name bInput iIdx pcName hw =>
      rw [cut, ConfigSave.writes, configNameSet_head d hw]
      rfl

/-- All the words of a save leave the record it stores. -/
theorem taken_complete (h : ConfigSave.Stores d.config s r v) {k : Nat}
    (hk : (s.writes d.config).length ≤ k) : r.taken (d.cut s k) = some v := by
  rw [cut, List.take_of_length_le hk]
  cases h with
  | whole r a =>
      have hread := r.format.read_save d.eeprom a
      rw [ConfigSave.writes, RecordFormat.program_saveWords, ConfigRecord.taken_of_valid, hread]
      rw [hread]
      exact r.format.valid_stamped a
  | name bInput iIdx pcName hw =>
      obtain ⟨hread, hvalid⟩ := NamesRecord.read_configNameSet d.names_kept hw
      rw [← hread] at hvalid
      exact (ConfigRecord.taken_of_valid (r := .names) hvalid).trans (congrArg some hread)

/-- Records that are not saved keep their bytes. -/
theorem sameBytes_cut (hs : s ≠ .factoryReset) (h : s.stores d.config r = none) (k : Nat) :
    r.SameBytes (d.cut s k) d.eeprom := by
  apply ByteStore.read_program_of_outside
  apply ByteStore.Outside.take
  cases s with
  | whole r' a =>
      apply ConfigSave.outside_saveWords
      intro hr
      rw [ConfigSave.stores_whole, dif_pos hr] at h
      cases h
  | name bInput iIdx pcName =>
      rcases d.names_kept.configNameSet_cases bInput iIdx pcName with
        heq | ⟨r', addr, heq, hlo, hhi, -⟩
      · rw [ConfigSave.writes, heq]
        exact fun _ hx => absurd hx List.not_mem_nil
      · by_cases hr : r = .names
        · subst hr
          rw [ConfigSave.stores_names, heq] at h
          cases h
        · rw [ConfigSave.writes, heq]
          exact r'.outside_nameWritten hlo hhi _ (ConfigRecord.disjoint hr).symm
  | factoryReset => exact absurd rfl hs

/-- Zero words over the magic word, and words elsewhere: the record is unchanged, or its
magic word is gone. -/
theorem sameBytes_or_wiped {ws : List ByteStore.WordWrite}
    (hws : ∀ x ∈ ws, x = (r.format.addr, wordBytes 0) ∨
      (x.1 + x.2.length ≤ r.format.addr ∨ r.format.addr + r.format.layout.size ≤ x.1))
    (m : ByteStore.Bytes) : r.SameBytes (ByteStore.program m ws) m ∨
      ByteStore.read (ByteStore.program m ws) r.format.addr 4 = wordBytes 0 := by
  induction ws generalizing m with
  | nil => exact .inl rfl
  | cons x ws ih =>
      have hrest := ih (fun y hy => hws y (List.mem_cons_of_mem _ hy))
        (ByteStore.write m x.1 x.2)
      rcases hrest with hsame | hwiped
      · rcases hws x List.mem_cons_self with rfl | hx
        · apply Or.inr
          have hword := ByteStore.read_write m r.format.addr (wordBytes 0)
          exact (ByteStore.read_prefix hsame r.size_le).trans hword
        · exact .inl (hsame.trans (ByteStore.read_write_of_disjoint hx))
      · exact .inr hwiped

theorem factoryReset_words (r : ConfigRecord) :
    ∀ x ∈ configFactoryReset, x = (r.format.addr, wordBytes 0) ∨
      (x.1 + x.2.length ≤ r.format.addr ∨ r.format.addr + r.format.layout.size ≤ x.1) := by
  cases r <;> decide

/-- **A factory reset cut short**: a record is untouched, or it is gone. -/
theorem cut_factoryReset (d : Device) (r : ConfigRecord) (k : Nat) :
    r.SameBytes (d.cut .factoryReset k) d.eeprom ∨ r.taken (d.cut .factoryReset k) = none := by
  rcases sameBytes_or_wiped (fun x hx => factoryReset_words r x (List.mem_of_mem_take hx))
    d.eeprom with hsame | hwiped
  · exact .inl hsame
  · exact .inr (ConfigRecord.taken_of_wiped hwiped)

/-! ## The boot after the cut -/

/-- What the next boot takes of the saved record: nothing, the new value, or what the store
holds behind the magic word. -/
theorem taken_cut (hs : ConfigSave.Stores d.config s r v) (hc : d.NoCollision s r v) (k : Nat) :
    r.taken (d.cut s k) = none ∨ r.taken (d.cut s k) = some v ∨
      r.taken (d.cut s k) = r.taken (r.marked d.eeprom) := by
  by_cases hk : k < (s.writes d.config).length
  · by_cases hvalid : r.format.Valid (r.format.read (d.cut s k))
    · have htaken := ConfigRecord.taken_of_valid hvalid
      by_cases hnew : r.format.read (d.cut s k) = v
      · exact .inr (.inl (htaken.trans (congrArg some hnew)))
      · by_cases hold : r.format.read (d.cut s k) = r.format.read (r.marked d.eeprom)
        · rw [hold] at hvalid htaken
          exact .inr (.inr (htaken.trans (ConfigRecord.taken_of_valid hvalid).symm))
        · exact absurd hvalid.2 (hc.torn k hk hnew hold)
    · have htaken := ConfigRecord.taken_of_not_valid hvalid
      cases hmigrated : r.migrated (d.cut s k) with
      | none => exact .inl (htaken.trans hmigrated)
      | some w =>
          obtain ⟨hnot, hmarked⟩ := hc.older k hk w hvalid hmigrated
          refine .inr (.inr ?_)
          rw [htaken, hmigrated, ConfigRecord.taken_of_not_valid hnot, hmarked]
  · exact .inr (.inl (taken_complete hs (Nat.not_lt.mp hk)))

/-- A cut leaves a saved record well unless the store holds a stale one. -/
theorem load_cut (hs : ConfigSave.Stores d.config s r v) (hc : d.NoCollision s r v)
    (hstale : ¬r.Stale d.eeprom v) (k : Nat) :
    r.load (d.cut s k) = r.load d.eeprom ∨ r.load (d.cut s k) = v ∨
      r.load (d.cut s k) = r.defaults := by
  unfold ConfigRecord.load
  rcases taken_cut hs hc k with hnone | hnew | hmarked
  · rw [hnone]
    exact .inr (.inr rfl)
  · rw [hnew]
    exact .inr (.inl rfl)
  · rw [hmarked]
    cases hold : r.taken d.eeprom with
    | some w =>
        rw [ConfigRecord.marked_of_taken hold, hold]
        exact .inl rfl
    | none =>
        cases hbehind : r.taken (r.marked d.eeprom) with
        | none => exact .inr (.inr rfl)
        | some w =>
            by_cases hdefault : w = r.defaults
            · exact .inr (.inr hdefault)
            · by_cases hv : w = v
              · exact .inr (.inl hv)
              · exact absurd ⟨hold, w, hbehind, hdefault, hv⟩ hstale

end Device

/-- A record that the store holds whole is not stale. -/
theorem Device.not_resurrects {d : Device} {s : ConfigSave}
    (h : ∀ r v, s.stores d.config r = some v → r.taken d.eeprom ≠ none) : ¬d.Resurrects s := by
  rintro ⟨r, v, hs, hnone, -⟩
  exact h r v hs hnone

theorem ConfigSave.newValue_of_stores {c : Config} {s : ConfigSave} {r : ConfigRecord}
    {v : r.Value} (h : s.stores c r = some v) : s.newValue c r = some v := by
  cases s with
  | factoryReset => cases h
  | _ => exact h

/-- **Power loss during a save.**  Up to a CRC collision of the torn record, every cut
leaves the saved records with their old value, the new one or their defaults and the others
as they were, exactly when the save does not mark a stale record. -/
theorem isolated_iff_not_resurrects (d : Device) (s : ConfigSave)
    (hc : ∀ r v, s.stores d.config r = some v → d.NoCollision s r v) :
    (∀ k, d.Isolated s k) ↔ ¬d.Resurrects s := by
  unfold Device.Isolated
  simp only [ConfigRecord.get_configInit]
  constructor
  · rintro h ⟨r, v, hs, hold, w, hbehind, hdefault, hv⟩
    have hr := h 1 r
    rw [ConfigSave.newValue_of_stores hs, Device.cut_one (.of_eq hs)] at hr
    simp only [ConfigRecord.load, hold, hbehind, Option.getD_some, Option.getD_none] at hr
    rcases hr with hr | hr | hr
    · exact hdefault hr
    · exact hv hr
    · exact hdefault hr
  · intro h k r
    by_cases hreset : s = .factoryReset
    · subst hreset
      rcases d.cut_factoryReset r k with hsame | hnone
      · exact .inl (ConfigRecord.load_congr hsame)
      · refine .inr (.inl ?_)
        rw [ConfigRecord.load, hnone]
        rfl
    · have hnew : s.newValue d.config r = s.stores d.config r := by
        cases s with
        | factoryReset => exact absurd rfl hreset
        | _ => rfl
      rw [hnew]
      cases hs : s.stores d.config r with
      | none => exact ConfigRecord.load_congr (Device.sameBytes_cut hreset hs k)
      | some v =>
          exact Device.load_cut (.of_eq hs) (hc r v hs) (fun hstale => h ⟨r, v, hs, hstale⟩) k

/-! ## A blank store, and one after a factory reset -/

/-- A device with a blank store. -/
def blankDevice : Device where
  eeprom _ := 0xFF
  config := { Config.cleared with
    names := { namesFormat.read (fun _ => 0xFF) with magic := cfgIoNamesMagic } }
  names_kept := ⟨rfl, rfl, rfl⟩

/-- The input types with the same byte throughout. -/
def uniformInputs (b : UInt8) : IoSettings := { IoSettings.switches with inputType := fun _ => b }

/-- A device whose inputs have been saved as pushbuttons. -/
def pushbuttonDevice : Device := blankDevice.save (.whole .io (uniformInputs 0xFF))

/-- The store once a factory reset has been done on it. -/
def resetStore : ByteStore.Bytes := (pushbuttonDevice.save .factoryReset).eeprom

/-- The device that has booted after the factory reset. -/
def resetDevice : Device := .boot resetStore

theorem stores_io {c : Config} {a : IoSettings} {r : ConfigRecord} {v : r.Value}
    (h : (ConfigSave.whole .io a).stores c r = some v) : r = .io := by
  cases ConfigSave.Stores.of_eq h with
  | whole => rfl

theorem taken_pushbuttonDevice : ConfigRecord.io.taken pushbuttonDevice.eeprom =
    some (ioFormat.stamped (uniformInputs 0xFF)) := by
  have hcut : blankDevice.cut (.whole .io (uniformInputs 0xFF))
      ((ConfigSave.whole .io (uniformInputs 0xFF)).writes blankDevice.config).length =
        pushbuttonDevice.eeprom := by
    rw [Device.cut, List.take_length]
    rfl
  rw [← hcut]
  exact Device.taken_complete (.whole .io (uniformInputs 0xFF)) (Nat.le_refl _)

/-- A record is in place already, so none is brought back. -/
theorem not_resurrects_pushbuttonDevice :
    ¬pushbuttonDevice.Resurrects (.whole .io (uniformInputs 1)) := by
  refine Device.not_resurrects fun r v hs => ?_
  cases stores_io hs
  rw [taken_pushbuttonDevice]
  exact Option.some_ne_none _

/-- Before the second word the old record is there, and from then on its CRC is wrong. -/
theorem noCollision_pushbuttonDevice (v : IoSettings) :
    pushbuttonDevice.NoCollision (.whole .io (uniformInputs 1)) .io v where
  torn k hk _ hold := by
    have hmarked := ConfigRecord.marked_of_taken taken_pushbuttonDevice
    have htorn : ∀ k < 6, 2 ≤ k → ioFormat.closed.last (ioFormat.read
          (pushbuttonDevice.cut (.whole .io (uniformInputs 1)) k)) ≠
        recordCrc ioFormat.layout (ioFormat.read
          (pushbuttonDevice.cut (.whole .io (uniformInputs 1)) k)) := by decide +kernel
    by_cases hlate : 2 ≤ k
    · exact htorn k hk hlate
    · have hearly : k = 0 ∨ k = 1 := by omega
      rcases hearly with rfl | rfl
      · rw [hmarked] at hold
        exact absurd rfl hold
      · rw [Device.cut_one (.whole .io (uniformInputs 1))] at hold
        exact absurd rfl hold
  older _ _ _ _ hmigrated := by cases hmigrated

/-- Other inputs saved over the pushbuttons: every cut leaves the old record, the new one or the
defaults. -/
theorem isolated_pushbuttonDevice :
    (∀ k, pushbuttonDevice.Isolated (.whole .io (uniformInputs 1)) k) ∧
      ConfigRecord.io.taken pushbuttonDevice.eeprom =
        some (ioFormat.stamped (uniformInputs 0xFF)) := by
  refine ⟨(isolated_iff_not_resurrects _ _ fun r v hs => ?_).mpr not_resurrects_pushbuttonDevice,
    taken_pushbuttonDevice⟩
  cases stores_io hs
  exact noCollision_pushbuttonDevice v

/-- A boot leaves the bytes of the input types alone. -/
theorem sameBytes_io_boot (m : ByteStore.Bytes) :
    ConfigRecord.io.SameBytes (Device.boot m).eeprom m := by
  obtain ⟨-, hnames⟩ := ConfigRecord.loadOrSave_eq namesFormat m .defaults
  obtain ⟨-, houtput⟩ := ConfigRecord.productConfigLoad_output
    (namesFormat.loadOrSave m .defaults).1 Config.cleared.output
  obtain ⟨-, hrooms⟩ := ConfigRecord.loadOrSave_eq roomFormat (OutputStore.productConfigLoad
    ⟨(namesFormat.loadOrSave m .defaults).1, Config.cleared.output⟩ none).eeprom
    .configRoomSetDefaults
  exact (ConfigRecord.sameBytes_of_saved (r := .rooms) (by decide) hrooms).trans
    ((ConfigRecord.sameBytes_of_saved (r := .output) (by decide) houtput).trans
      (ConfigRecord.sameBytes_of_saved (r := .names) (by decide) hnames))

/-- The pushbuttons are back after the magic word of a new record, although the defaults
and the new record have none of them. -/
theorem pushbuttons_resurrected :
    ¬∀ k, resetDevice.Isolated (.whole .io (uniformInputs 1)) k := by
  intro h
  have hstores : ConfigSave.Stores resetDevice.config (.whole .io (uniformInputs 1)) .io
      (ioFormat.stamped (uniformInputs 1)) := .whole .io (uniformInputs 1)
  have hboot : ConfigRecord.io.SameBytes resetDevice.eeprom resetStore :=
    sameBytes_io_boot resetStore
  have hsame : ConfigRecord.io.SameBytes (ConfigRecord.io.marked resetDevice.eeprom)
      (ConfigRecord.io.marked resetStore) := ByteStore.read_write_congr hboot _ _
  have hvalid : ioFormat.Valid (ioFormat.read (ConfigRecord.io.marked resetStore)) := by
    decide +kernel
  have hnot : ¬ioFormat.Valid (ioFormat.read resetStore) := by decide +kernel
  have hbyte : (ioFormat.read (ConfigRecord.io.marked resetStore)).inputType 0 = 0xFF := by
    decide +kernel
  have hgot : ConfigRecord.io.load (ConfigRecord.io.marked resetStore) =
      ioFormat.read (ConfigRecord.io.marked resetStore) := by
    rw [ConfigRecord.load, ConfigRecord.taken_of_valid (r := .io) hvalid]
    rfl
  have hold : ConfigRecord.io.load resetStore = .switches := by
    rw [ConfigRecord.load, ConfigRecord.taken_of_not_valid (r := .io) hnot]
    rfl
  have hio := h 1 .io
  simp only [ConfigRecord.get_configInit] at hio
  rw [Device.cut_one hstores, ConfigRecord.load_congr hsame, hgot,
    ConfigRecord.load_congr hboot, hold] at hio
  rcases hio with hio | hio | hio
  · rw [hio] at hbyte
    exact absurd hbyte (by decide)
  · rw [hio] at hbyte
    exact absurd hbyte (by decide)
  · rw [hio] at hbyte
    exact absurd hbyte (by decide)

end HomeAuto
