import HomeAuto.ConfigSaves
import HomeAuto.Lib.Runs

/-!
# The names in RAM and in the store

Names are written one at a time into the record that lies in the store, with a new CRC
behind them.  Over boots, factory resets, single names and whole saves, the record put
together in this way is the one in RAM, byte for byte; only a factory reset breaks it, until
the next boot or the next name that is written.  `NameBook` is what the names are for: each
channel has the name last given to it, and a boot after a factory reset has none.
-/

namespace HomeAuto

/-! ## The bytes of the record -/

theorem exact_wordLayout : wordLayout.Exact := by
  intro bs h
  have hlen : 4 ≤ bs.length := h
  change wordBytes (bytesWord (bs.getD 0 0) (bs.getD 1 0) (bs.getD 2 0) (bs.getD 3 0)) = bs.take 4
  rw [wordBytes_bytesWord]
  apply List.ext_getElem
  · simp [hlen]
  · intro i hi _
    have hi4 : i < 4 := hi
    rw [List.getElem_take]
    interval_cases i <;> exact List.getD_eq_getElem _ _ _

theorem exact_namesRecordLayout : namesRecordLayout.Exact := by
  apply Layout.Exact.via
  · exact exact_wordLayout.pair <| ((Layout.exact_byte.array _).array _).pair <|
      ((Layout.exact_byte.array _).array _).pair exact_wordLayout
  · exact fun _ => rfl

namespace NamesRecord

theorem toNat_lt_of_inRange {iIdx : Int} {names : Nat} (h : 0 ≤ iIdx ∧ iIdx.toNat < names) :
    iIdx.toNat < names := h.2

/-- `ConfigGetInputName` and `ConfigGetOutputName`. -/
def configGetName (r : NamesRecord) (bInput : Bool) (iIdx : Int) : CStr :=
  if bInput then
    if h : 0 ≤ iIdx ∧ iIdx.toNat < cfgNamesMaxInputs then
      fieldString (r.inputNames ⟨iIdx.toNat, toNat_lt_of_inRange h⟩) else []
  else
    if h : 0 ≤ iIdx ∧ iIdx.toNat < cfgNamesMaxOutputs then
      fieldString (r.outputNames ⟨iIdx.toNat, toNat_lt_of_inRange h⟩) else []

/-- An index of a channel that can have a name. -/
def InRange (bInput : Bool) (iIdx : Int) : Prop :=
  0 ≤ iIdx ∧ iIdx.toNat < if bInput then cfgNamesMaxInputs else cfgNamesMaxOutputs

instance (bInput : Bool) (iIdx : Int) : Decidable (InRange bInput iIdx) :=
  inferInstanceAs (Decidable (_ ∧ _))

end NamesRecord

/-! ## Runs -/

/-- What happens to the names. -/
inductive NamesEvent
  | boot
  | factoryReset
  | nameSet (bInput : Bool) (iIdx : Int) (pcName : CStr)
  | namesSave

namespace Device

/-- An event.  A boot starts from the store alone. -/
def namesStep (d : Device) : NamesEvent → Device
  | .boot => .boot d.eeprom
  | .factoryReset => d.save .factoryReset
  | .nameSet bInput iIdx pcName => d.save (.name bInput iIdx pcName)
  | .namesSave => d.save (.whole .names d.config.names)

/-- The record in the store checks, and is that in RAM, byte for byte. -/
structure NamesCoherent (d : Device) : Prop where
  bytes : ByteStore.read d.eeprom cfgIoNamesAddr namesRecordLayout.size =
    namesRecordLayout.put d.config.names
  valid : namesFormat.Valid d.config.names

/-- The names are coherent after the event, if it is not a factory reset and not a name
for no channel. -/
def NamesSettled (d : Device) : NamesEvent → Prop
  | .factoryReset => True
  | .nameSet bInput iIdx pcName => NamesRecord.InRange bInput iIdx ∨ d.NamesCoherent →
      (d.namesStep (.nameSet bInput iIdx pcName)).NamesCoherent
  | e => (d.namesStep e).NamesCoherent

end Device

/-- The names as they are meant: by channel, and whether a factory reset is pending. -/
structure NameBook where
  name : Bool → Int → CStr
  wiped : Bool

namespace NameBook

/-- The first 11 bytes of a string. -/
def shortened (s : CStr) : CStr := (s.takeWhile (· ≠ 0)).take (cfgNameLen - 1)

/-- What an event means for the names. -/
def step (a : NameBook) : NamesEvent → NameBook
  | .boot => if a.wiped then ⟨fun _ _ => [], false⟩ else a
  | .factoryReset => { a with wiped := true }
  | .nameSet bInput iIdx pcName =>
      if NamesRecord.InRange bInput iIdx then
        ⟨fun b i => if b = bInput ∧ i = iIdx then shortened pcName else a.name b i, false⟩
      else a
  | .namesSave => { a with wiped := false }

end NameBook

/-- A device keeps the names of a book. -/
structure Device.Keeps (d : Device) (a : NameBook) : Prop where
  names : ∀ bInput iIdx, d.config.names.configGetName bInput iIdx = a.name bInput iIdx
  coherent : a.wiped = false → d.NamesCoherent
  gone : a.wiped = true → ByteStore.read d.eeprom cfgIoNamesAddr 4 = wordBytes 0

/-! ## What an event does to the names -/

namespace NamesRecord

theorem inputNames_mk (magic crc : BitVec 32)
    (inputs : Fin cfgNamesMaxInputs → Fin cfgNameLen → UInt8)
    (outputs : Fin cfgNamesMaxOutputs → Fin cfgNameLen → UInt8) :
    (⟨magic, inputs, outputs, crc⟩ : NamesRecord).inputNames = inputs := rfl

theorem outputNames_mk (magic crc : BitVec 32)
    (inputs : Fin cfgNamesMaxInputs → Fin cfgNameLen → UInt8)
    (outputs : Fin cfgNamesMaxOutputs → Fin cfgNameLen → UInt8) :
    (⟨magic, inputs, outputs, crc⟩ : NamesRecord).outputNames = outputs := rfl

/-- The names of a record depend on its names only. -/
theorem configGetName_congr {r r' : NamesRecord} (hin : r.inputNames = r'.inputNames)
    (hout : r.outputNames = r'.outputNames) : r.configGetName = r'.configGetName := by
  funext bInput iIdx
  rw [configGetName, configGetName, hin, hout]

theorem configGetName_stamped (r : NamesRecord) :
    r.stamped.configGetName = r.configGetName := by
  rw [stamped]
  exact configGetName_congr (inputNames_mk _ _ _ _) (outputNames_mk _ _ _ _)

theorem configGetName_nameWritten (r : NamesRecord) (addr : Nat)
    (name : Fin cfgNameLen → UInt8) :
    (r.nameWritten addr name).1.configGetName = r.configGetName := by
  rw [fst_nameWritten]
  exact configGetName_congr (inputNames_mk _ _ _ _) (outputNames_mk _ _ _ _)

theorem configGetName_defaults (bInput : Bool) (iIdx : Int) :
    defaults.stamped.configGetName bInput iIdx = [] := by
  have hempty : fieldString (fun _ => 0) = [] := by decide
  rw [configGetName_stamped]
  unfold configGetName
  cases bInput with
  | true =>
      rw [if_pos rfl]
      split
      · exact hempty
      · rfl
  | false =>
      rw [if_neg Bool.false_ne_true]
      split
      · exact hempty
      · rfl

/-- A name for no channel is ignored. -/
theorem configNameSet_of_not_inRange (r : NamesRecord) {bInput : Bool} {iIdx : Int}
    (h : ¬InRange bInput iIdx) (pcName : CStr) :
    r.configNameSet bInput iIdx pcName = (r, []) := by
  unfold configNameSet
  cases bInput with
  | true => exact dif_neg h
  | false => exact dif_neg h

theorem configNameSet_input (r : NamesRecord) {iIdx : Int}
    (h : 0 ≤ iIdx ∧ iIdx.toNat < cfgNamesMaxInputs) (pcName : CStr) :
    r.configNameSet true iIdx pcName =
      nameWritten
        { r with inputNames := Function.update r.inputNames ⟨iIdx.toNat, h.2⟩ (nameField pcName) }
        (cfgIoNamesAddr + 4 + iIdx.toNat * cfgNameLen) (nameField pcName) := by
  unfold configNameSet
  rw [if_pos rfl, dif_pos h]

theorem configNameSet_output (r : NamesRecord) {iIdx : Int}
    (h : 0 ≤ iIdx ∧ iIdx.toNat < cfgNamesMaxOutputs) (pcName : CStr) :
    r.configNameSet false iIdx pcName =
      nameWritten
        { r with
          outputNames := Function.update r.outputNames ⟨iIdx.toNat, h.2⟩ (nameField pcName) }
        (cfgIoNamesAddr + 4 + cfgNamesMaxInputs * cfgNameLen + iIdx.toNat * cfgNameLen)
        (nameField pcName) := by
  unfold configNameSet
  rw [if_neg Bool.false_ne_true, dif_pos h]

theorem configNameSet_ne_nil (r : NamesRecord) {bInput : Bool} {iIdx : Int}
    (h : InRange bInput iIdx) (pcName : CStr) :
    (r.configNameSet bInput iIdx pcName).2 ≠ [] := by
  cases bInput with
  | true =>
      rw [configNameSet_input r h]
      exact List.cons_ne_nil _ _
  | false =>
      rw [configNameSet_output r h]
      exact List.cons_ne_nil _ _

/-- A cell of an array of fields overwritten, read by an index. -/
theorem fieldString_update {n : Nat} (f : Fin n → Fin cfgNameLen → UInt8) {k i : Int}
    (hk : k.toNat < n) (hk0 : 0 ≤ k) (hi : i.toNat < n) (hi0 : 0 ≤ i) (pcName : CStr) :
    fieldString (Function.update f ⟨k.toNat, hk⟩ (nameField pcName) ⟨i.toNat, hi⟩) =
      if i = k then NameBook.shortened pcName else fieldString (f ⟨i.toNat, hi⟩) := by
  by_cases hik : i = k
  · subst hik
    rw [if_pos rfl, Function.update_self]
    exact fieldString_nameField pcName
  · have hne : (⟨i.toNat, hi⟩ : Fin n) ≠ ⟨k.toNat, hk⟩ := by
      intro heq
      have hval := congrArg Fin.val heq
      dsimp only at hval
      omega
    rw [if_neg hik, Function.update_of_ne hne]

/-- A name set is that channel's, shortened, and the others are as before. -/
theorem configGetName_configNameSet (r : NamesRecord) {bInput : Bool} {iIdx : Int}
    (h : InRange bInput iIdx) (pcName : CStr) (b : Bool) (i : Int) :
    (r.configNameSet bInput iIdx pcName).1.configGetName b i =
      if b = bInput ∧ i = iIdx then NameBook.shortened pcName else r.configGetName b i := by
  cases bInput with
  | true =>
      rw [configNameSet_input r h, configGetName_nameWritten]
      unfold configGetName
      cases b with
      | true =>
          rw [if_pos rfl, if_pos rfl]
          by_cases hi : 0 ≤ i ∧ i.toNat < cfgNamesMaxInputs
          · rw [dif_pos hi, dif_pos hi, fieldString_update _ h.2 h.1 hi.2 hi.1]
            simp only [true_and]
          · have hne : i ≠ iIdx := fun heq => hi (heq ▸ h)
            rw [dif_neg hi, dif_neg hi, if_neg fun hb => hne hb.2]
      | false =>
          simp only [Bool.false_eq_true, false_and, if_false]
  | false =>
      rw [configNameSet_output r h, configGetName_nameWritten]
      unfold configGetName
      cases b with
      | true => simp only [Bool.true_eq_false, false_and, if_false, if_true]
      | false =>
          rw [if_neg Bool.false_ne_true, if_neg Bool.false_ne_true]
          by_cases hi : 0 ≤ i ∧ i.toNat < cfgNamesMaxOutputs
          · rw [dif_pos hi, dif_pos hi, fieldString_update _ h.2 h.1 hi.2 hi.1]
            simp only [true_and]
          · have hne : i ≠ iIdx := fun heq => hi (heq ▸ h)
            rw [dif_neg hi, dif_neg hi, if_neg fun hb => hne hb.2]

end NamesRecord

/-! ## One event -/

namespace Device

variable {d : Device} {a : NameBook}

/-- A record that is read back is there byte for byte. -/
theorem NamesCoherent.of_read (h : namesFormat.read d.eeprom = d.config.names)
    (hvalid : namesFormat.Valid d.config.names) : d.NamesCoherent := by
  refine ⟨?_, hvalid⟩
  have hexact := exact_namesRecordLayout
    (ByteStore.read d.eeprom cfgIoNamesAddr namesRecordLayout.size)
    (by rw [ByteStore.length_read])
  rw [← h]
  refine Eq.symm (hexact.trans (List.take_of_length_le ?_))
  rw [ByteStore.length_read]

theorem NamesCoherent.read (h : d.NamesCoherent) :
    namesFormat.read d.eeprom = d.config.names := by
  have hget := congrArg namesRecordLayout.get h.bytes
  rwa [namesRecordLayout.get_put_self] at hget

theorem namesCoherent_boot (m : ByteStore.Bytes) : (Device.boot m).NamesCoherent :=
  .of_read (NamesRecord.read_configInit m).1 (NamesRecord.read_configInit m).2

theorem namesCoherent_namesSave (d : Device) : (d.namesStep .namesSave).NamesCoherent := by
  have hread : namesFormat.read (d.namesStep .namesSave).eeprom =
      namesFormat.stamped d.config.names := by
    change namesFormat.read (ByteStore.program d.eeprom
      (namesFormat.saveWords d.config.names)) = _
    rw [RecordFormat.program_saveWords, RecordFormat.read_save]
  exact .of_read hread (namesFormat.valid_stamped d.config.names)

theorem namesCoherent_nameSet (d : Device) {bInput : Bool} {iIdx : Int}
    (h : NamesRecord.InRange bInput iIdx) (pcName : CStr) :
    (d.namesStep (.nameSet bInput iIdx pcName)).NamesCoherent := by
  obtain ⟨hread, hvalid⟩ := NamesRecord.read_configNameSet d.names_kept
    (d.config.names.configNameSet_ne_nil h pcName)
  exact .of_read hread hvalid

/-- A name for no channel changes nothing. -/
theorem namesStep_of_not_inRange (d : Device) {bInput : Bool} {iIdx : Int}
    (h : ¬NamesRecord.InRange bInput iIdx) (pcName : CStr) :
    d.namesStep (.nameSet bInput iIdx pcName) = d := by
  have hnone := d.config.names.configNameSet_of_not_inRange h pcName
  change Device.mk (ByteStore.program d.eeprom (d.config.names.configNameSet bInput iIdx pcName).2)
    { d.config with names := (d.config.names.configNameSet bInput iIdx pcName).1 } _ = d
  simp only [hnone]
  rfl

/-- What a boot makes of the names. -/
theorem names_boot (m : ByteStore.Bytes) :
    (Device.boot m).config.names = namesFormat.loadOr m NamesRecord.defaults.stamped :=
  (ConfigRecord.loadOrSave_eq namesFormat m .defaults).1

/-- Without its magic word, the record does not check. -/
theorem not_valid_of_wiped {m : ByteStore.Bytes}
    (h : ByteStore.read m cfgIoNamesAddr 4 = wordBytes 0) :
    ¬namesFormat.Valid (namesFormat.read m) := by
  intro hvalid
  have hword : (namesFormat.read m).magic = 0 :=
    (namesFormat.magic_get _).trans (get_read_of_eq (by decide) h)
  exact absurd (hword.symm.trans hvalid.1) (by decide)

/-- A factory reset takes the magic word of the names. -/
theorem read_factoryReset (d : Device) :
    ByteStore.read (d.namesStep .factoryReset).eeprom cfgIoNamesAddr 4 = wordBytes 0 := by
  have hword : (wordBytes 0).length = 4 := rfl
  change ByteStore.read (ByteStore.program d.eeprom configFactoryReset) cfgIoNamesAddr 4 = _
  simp only [configFactoryReset, List.map_cons, List.map_nil, ByteStore.program,
    List.foldl_cons, List.foldl_nil]
  rw [ByteStore.read_write_of_disjoint (.inr (by decide)),
    ByteStore.read_write_of_disjoint (.inr (by decide)), ← hword, ByteStore.read_write]

/-- **One event** keeps the names those of the book. -/
theorem Keeps.step (h : d.Keeps a) (e : NamesEvent) : (d.namesStep e).Keeps (a.step e) := by
  cases e with
  | boot =>
      have hcoherent := namesCoherent_boot d.eeprom
      cases hw : a.wiped with
      | true =>
          have hnames : (d.namesStep .boot).config.names = NamesRecord.defaults.stamped := by
            refine (names_boot d.eeprom).trans (if_neg ?_)
            exact not_valid_of_wiped (h.gone hw)
          have hbook : a.step .boot = ⟨fun _ _ => [], false⟩ := if_pos hw
          rw [hbook]
          refine ⟨fun b i => ?_, fun _ => hcoherent, nofun⟩
          rw [hnames]
          exact NamesRecord.configGetName_defaults b i
      | false =>
          have hold := h.coherent hw
          have hnames : (d.namesStep .boot).config.names = d.config.names := by
            refine (names_boot d.eeprom).trans ((if_pos ?_).trans hold.read)
            rw [hold.read]
            exact hold.valid
          have hbook : a.step .boot = a := if_neg (by rw [hw]; exact Bool.false_ne_true)
          rw [hbook]
          refine ⟨fun b i => ?_, fun _ => hcoherent, fun hwiped => ?_⟩
          · rw [hnames]
            exact h.names b i
          · rw [hw] at hwiped
            cases hwiped
  | factoryReset => exact ⟨h.names, nofun, fun _ => read_factoryReset d⟩
  | nameSet bInput iIdx pcName =>
      by_cases hrange : NamesRecord.InRange bInput iIdx
      · have hbook : a.step (.nameSet bInput iIdx pcName) = ⟨fun b i =>
            if b = bInput ∧ i = iIdx then NameBook.shortened pcName else a.name b i, false⟩ :=
          if_pos hrange
        rw [hbook]
        refine ⟨fun b i => ?_, fun _ => namesCoherent_nameSet d hrange pcName, nofun⟩
        have hset := NamesRecord.configGetName_configNameSet d.config.names hrange pcName b i
        rwa [h.names] at hset
      · have hbook : a.step (.nameSet bInput iIdx pcName) = a := if_neg hrange
        rw [hbook, namesStep_of_not_inRange d hrange]
        exact h
  | namesSave =>
      refine ⟨fun b i => ?_, fun _ => namesCoherent_namesSave d, nofun⟩
      refine (congrFun (congrFun ?_ b) i).trans (h.names b i)
      exact NamesRecord.configGetName_stamped d.config.names

/-- An event settles the names. -/
theorem namesSettled (d : Device) (e : NamesEvent) : d.NamesSettled e := by
  cases e with
  | boot => exact namesCoherent_boot d.eeprom
  | factoryReset => trivial
  | nameSet bInput iIdx pcName =>
      intro h
      by_cases hrange : NamesRecord.InRange bInput iIdx
      · exact namesCoherent_nameSet d hrange pcName
      · rw [namesStep_of_not_inRange d hrange]
        exact h.resolve_left hrange
  | namesSave => exact namesCoherent_namesSave d

/-- The book that a device starts with. -/
def book (d : Device) : NameBook := ⟨d.config.names.configGetName, false⟩

/-- **The names in RAM and in the store.**  From any store on, over any boots, factory
resets, names set and saves: the record in the store checks and is that in RAM, byte for
byte, after every boot, every save and every name for a channel; and each channel has the
name last set for it, shortened to 11 bytes, until a boot after a factory reset. -/
theorem names_coherent (m : ByteStore.Bytes) (es : List NamesEvent) :
    Runs.EveryStep namesStep NamesSettled (.boot m) es ∧
      ∀ bInput iIdx, (Runs.final namesStep (.boot m) es).config.names.configGetName bInput iIdx =
        (Runs.final NameBook.step (Device.boot m).book es).name bInput iIdx := by
  have hstart : (Device.boot m).Keeps (Device.boot m).book :=
    ⟨fun _ _ => rfl, fun _ => namesCoherent_boot m, nofun⟩
  have hrun (es : List NamesEvent) : ∀ d a, Device.Keeps d a →
      Runs.EveryStep namesStep NamesSettled d es ∧
        (Runs.final namesStep d es).Keeps (Runs.final NameBook.step a es) := by
    induction es with
    | nil => exact fun d a h => ⟨trivial, h⟩
    | cons e es ih =>
        intro d a h
        obtain ⟨hsettled, hkeeps⟩ := ih _ _ (h.step e)
        exact ⟨⟨d.namesSettled e, hsettled⟩, hkeeps⟩
  obtain ⟨hsettled, hkeeps⟩ := hrun es _ _ hstart
  exact ⟨hsettled, hkeeps.names⟩

/-- A name for input 64, which there is not, after a factory reset: the record in the store
does not check. -/
theorem name_out_of_range_not_coherent :
    ¬(Runs.final namesStep (Device.boot fun _ => 0xFF)
      [.factoryReset, .nameSet true 64 (ascii "Garage")]).NamesCoherent := by
  intro h
  have hrange : ¬NamesRecord.InRange true 64 := by decide
  change (namesStep (namesStep (Device.boot fun _ => 0xFF) .factoryReset)
    (.nameSet true 64 (ascii "Garage"))).NamesCoherent at h
  rw [namesStep_of_not_inRange _ hrange] at h
  apply not_valid_of_wiped (read_factoryReset (Device.boot fun _ => 0xFF))
  rw [h.read]
  exact h.valid

end Device

end HomeAuto
