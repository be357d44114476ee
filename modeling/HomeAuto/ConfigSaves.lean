import HomeAuto.ConfigBoot
import HomeAuto.OtaDevice

/-!
# Saving the configuration (`config.c`, `product_config_store.c`)

The words that each save programs, in order: a whole record from its magic word to its CRC,
a single name as the magic word, the name and the CRC, and a factory reset as a zero over
every magic word.  A single name fits the names already stored, because a running device
has the names of its store in RAM.
-/

namespace HomeAuto

/-! ## A single name -/

namespace NamesRecord

/-- The end of `ConfigNameSet`: the words of the magic, of the name at its address and of
the CRC. -/
def nameWritten (r : NamesRecord) (addr : Nat) (name : Fin cfgNameLen → UInt8) :
    NamesRecord × List ByteStore.WordWrite :=
  let r := { r with crc := recordCrc namesRecordLayout r }
  (r, (cfgIoNamesAddr, wordBytes r.magic) ::
    ByteStore.words 4 addr ((textField cfgNameLen).put name) ++
    [(cfgIoNamesAddr + namesRecordLayout.size - 4, wordBytes r.crc)])

/-- `ConfigNameSet`: the names in RAM, and the words written. -/
def configNameSet (r : NamesRecord) (bInput : Bool) (iIdx : Int) (pcName : CStr) :
    NamesRecord × List ByteStore.WordWrite :=
  if bInput then
    if h : 0 ≤ iIdx ∧ iIdx.toNat < cfgNamesMaxInputs then
      { r with inputNames := Function.update r.inputNames ⟨iIdx.toNat, h.2⟩ (nameField pcName) }
        |>.nameWritten (cfgIoNamesAddr + 4 + iIdx.toNat * cfgNameLen) (nameField pcName)
    else (r, [])
  else
    if h : 0 ≤ iIdx ∧ iIdx.toNat < cfgNamesMaxOutputs then
      { r with outputNames := Function.update r.outputNames ⟨iIdx.toNat, h.2⟩ (nameField pcName) }
        |>.nameWritten (cfgIoNamesAddr + 4 + cfgNamesMaxInputs * cfgNameLen +
            iIdx.toNat * cfgNameLen) (nameField pcName)
    else (r, [])

/-- The RAM has the names of the store. -/
structure Kept (m : ByteStore.Bytes) (r : NamesRecord) : Prop where
  magic : r.magic = cfgIoNamesMagic
  inputs : (namesFormat.read m).inputNames = r.inputNames
  outputs : (namesFormat.read m).outputNames = r.outputNames

end NamesRecord

/-! ## The saves -/

/-- What is saved: a record as it stands in RAM, a single name, or nothing at all. -/
inductive ConfigSave
  | whole (r : ConfigRecord) (a : r.Value)
  | name (bInput : Bool) (iIdx : Int) (pcName : CStr)
  | factoryReset

/-- The words of `ConfigFactoryReset` and `product_config_factory_reset`. -/
def configFactoryReset : List ByteStore.WordWrite :=
  [cfgEepromAddr, cfgOtaEepromAddr, cfgNtpEepromAddr, cfgIoEepromAddr, cfgIoBindingsAddr,
    cfgIoNamesAddr, cfgOutcfgAddr, cfgRoomcfgAddr].map fun addr => (addr, wordBytes 0)

/-- A record of the RAM replaced. -/
def Config.set (c : Config) : (r : ConfigRecord) → r.Value → Config
  | .mqtt, a => { c with mqtt := a }
  | .ntp, a => { c with ntp := a }
  | .io, a => { c with io := a }
  | .bindings, a => { c with bindings := a }
  | .names, a => { c with names := a }
  | .output, a => { c with output := a }
  | .rooms, a => { c with rooms := a }

namespace ConfigSave

/-- The words that a save programs, in order. -/
def writes (c : Config) : ConfigSave → List ByteStore.WordWrite
  | whole r a => r.format.saveWords a
  | name bInput iIdx pcName => (c.names.configNameSet bInput iIdx pcName).2
  | factoryReset => configFactoryReset

/-- The RAM after a save. -/
def ram (c : Config) : ConfigSave → Config
  | whole r a => c.set r (r.format.stamped a)
  | name bInput iIdx pcName => { c with names := (c.names.configNameSet bInput iIdx pcName).1 }
  | factoryReset => c

/-- The record that a save stores. -/
def stores (c : Config) : ConfigSave → (r : ConfigRecord) → Option r.Value
  | whole r a, r' => if h : r = r' then some (h ▸ r.format.stamped a) else none
  | name bInput iIdx pcName, .names =>
      if (c.names.configNameSet bInput iIdx pcName).2 = [] then none
      else some (c.names.configNameSet bInput iIdx pcName).1
  | _, _ => none

/-- The value that a save is to give a record: a factory reset gives all of them their
defaults. -/
def newValue (c : Config) : ConfigSave → (r : ConfigRecord) → Option r.Value
  | factoryReset, r => some r.defaults
  | s, r => s.stores c r

end ConfigSave

/-! ## Bytes and words -/

theorem wordBytes_bytesWord (b0 b1 b2 b3 : UInt8) :
    wordBytes (bytesWord b0 b1 b2 b3) = [b0, b1, b2, b3] := by
  have h0 : (bytesWord b0 b1 b2 b3).extractLsb' 0 8 = b0.toBitVec := by
    unfold bytesWord
    rw [BitVec.extractLsb'_append_eq_of_add_le (by decide),
      BitVec.extractLsb'_append_eq_of_add_le (by decide), BitVec.extractLsb'_append_eq_right]
  have h1 : (bytesWord b0 b1 b2 b3).extractLsb' 8 8 = b1.toBitVec := by
    unfold bytesWord
    rw [BitVec.extractLsb'_append_eq_of_add_le (by decide),
      BitVec.extractLsb'_append_eq_of_add_le (by decide), BitVec.extractLsb'_append_eq_left]
  have h2 : (bytesWord b0 b1 b2 b3).extractLsb' 16 8 = b2.toBitVec := by
    unfold bytesWord
    rw [BitVec.extractLsb'_append_eq_of_add_le (by decide), BitVec.extractLsb'_append_eq_left]
  have h3 : (bytesWord b0 b1 b2 b3).extractLsb' 24 8 = b3.toBitVec := by
    unfold bytesWord
    rw [BitVec.extractLsb'_append_eq_left]
  rw [wordBytes, h0, h1, h2, h3]

theorem get_wordLayout (bs : List UInt8) : wordLayout.get bs =
    bytesWord (bs.getD 0 0) (bs.getD 1 0) (bs.getD 2 0) (bs.getD 3 0) := rfl

/-- The word that a run of four bytes was written as. -/
theorem read_eq_wordBytes {m : ByteStore.Bytes} {addr n : Nat} {w : BitVec 32} (hn : 4 ≤ n)
    (h : wordLayout.get (ByteStore.read m addr n) = w) : ByteStore.read m addr 4 = wordBytes w := by
  have hget (i : Nat) (hi : i < 4) : (ByteStore.read m addr n).getD i 0 = m (addr + i) :=
    ByteStore.getD_read m addr (by omega) 0
  rw [← h, get_wordLayout, hget 0 (by decide), hget 1 (by decide), hget 2 (by decide),
    hget 3 (by decide), wordBytes_bytesWord]
  rfl

/-- A word that lies in a run of bytes. -/
theorem get_read_of_eq {m : ByteStore.Bytes} {addr n : Nat} {w : BitVec 32} (hn : 4 ≤ n)
    (h : ByteStore.read m addr 4 = wordBytes w) : wordLayout.get (ByteStore.read m addr n) = w := by
  have hadd := ByteStore.read_add m addr 4 (n - 4)
  rw [Nat.add_sub_cancel' hn, h] at hadd
  rw [hadd]
  exact wordLayout.get_put w _

theorem headD_drop_read (m : ByteStore.Bytes) {addr n k : Nat} (h : k < n) :
    ((ByteStore.read m addr n).drop k).headD 0 = m (addr + k) := by
  rw [ByteStore.drop_read]
  obtain ⟨left, hleft⟩ : ∃ left, n - k = left + 1 := ⟨n - k - 1, by omega⟩
  rw [hleft, ByteStore.read, List.range_succ_eq_map]
  rfl

/-- The bytes of a text field are its bytes. -/
theorem putAll_byte (n : Nat) (f : Fin n → UInt8) : Layout.byte.putAll n f = List.ofFn f := by
  induction n with
  | zero => rfl
  | succ n ih =>
      rw [Layout.putAll, ih, List.ofFn_succ]
      rfl

/-! ## The names in the store -/

namespace NamesRecord

variable (m : ByteStore.Bytes)

/-- A byte of an input name, where it is kept. -/
theorem inputNames_read (i : Fin cfgNamesMaxInputs) (j : Fin cfgNameLen) :
    (namesFormat.read m).inputNames i j = m (cfgIoNamesAddr + 4 + i * cfgNameLen + j) := by
  have hi := i.isLt
  have hj := j.isLt
  change ((((ByteStore.read m cfgIoNamesAddr 1544).drop 4).drop
    (i * cfgNameLen)).drop (j * 1)).headD 0 = _
  unfold cfgNamesMaxInputs cfgNameLen at *
  rw [List.drop_drop, List.drop_drop, headD_drop_read _ (by omega)]
  congr 1
  omega

/-- A byte of an output name: they follow those of the inputs. -/
theorem outputNames_read (i : Fin cfgNamesMaxOutputs) (j : Fin cfgNameLen) :
    (namesFormat.read m).outputNames i j =
      m (cfgIoNamesAddr + 4 + cfgNamesMaxInputs * cfgNameLen + i * cfgNameLen + j) := by
  have hi := i.isLt
  have hj := j.isLt
  change (((((ByteStore.read m cfgIoNamesAddr 1544).drop 4).drop
    (cfgNamesMaxInputs * cfgNameLen)).drop (i * cfgNameLen)).drop (j * 1)).headD 0 = _
  unfold cfgNamesMaxOutputs cfgNamesMaxInputs cfgNameLen at *
  rw [List.drop_drop, List.drop_drop, List.drop_drop, headD_drop_read _ (by omega)]
  congr 1
  omega

/-- The names are kept as long as their bytes are. -/
theorem Kept.congr {m m' : ByteStore.Bytes} {r r' : NamesRecord} (h : Kept m r)
    (hm : ∀ a, cfgIoNamesAddr + 4 ≤ a → a < cfgIoNamesAddr + 1540 → m' a = m a)
    (hmagic : r'.magic = cfgIoNamesMagic) (hin : r'.inputNames = r.inputNames)
    (hout : r'.outputNames = r.outputNames) : Kept m' r' := by
  refine ⟨hmagic, ?_, ?_⟩
  · rw [hin, ← h.inputs]
    funext i j
    have hi := i.isLt
    have hj := j.isLt
    rw [inputNames_read, inputNames_read]
    unfold cfgNamesMaxInputs cfgNameLen at *
    exact hm _ (by omega) (by omega)
  · rw [hout, ← h.outputs]
    funext i j
    have hi := i.isLt
    have hj := j.isLt
    rw [outputNames_read, outputNames_read]
    unfold cfgNamesMaxOutputs cfgNamesMaxInputs cfgNameLen at *
    exact hm _ (by omega) (by omega)

theorem fst_nameWritten (r : NamesRecord) (addr : Nat) (name : Fin cfgNameLen → UInt8) :
    (r.nameWritten addr name).1 = { r with crc := recordCrc namesRecordLayout r } := rfl

theorem valid_nameWritten {r : NamesRecord} (h : r.magic = cfgIoNamesMagic) (addr : Nat)
    (name : Fin cfgNameLen → UInt8) : namesFormat.Valid (r.nameWritten addr name).1 := by
  have hlast (r : NamesRecord) : namesFormat.closed.last r = r.crc := rfl
  have hfront : namesFormat.closed.front { r with crc := recordCrc namesRecordLayout r } =
      namesFormat.closed.front r := by
    rw [namesFormat, LastWord.front_via, LastWord.front_via]
    exact LastWord.front_pair rfl <| LastWord.front_pair rfl <| LastWord.front_pair rfl <|
      LastWord.front_word _ _
  rw [fst_nameWritten]
  apply RecordFormat.valid_of_front h hfront
  rw [hlast]
  rfl

/-- The words of a single name stay within the record. -/
theorem outside_nameWritten (r : NamesRecord) {addr a n : Nat}
    (hlo : cfgIoNamesAddr + 4 ≤ addr) (hhi : addr + cfgNameLen ≤ cfgIoNamesAddr + 1540)
    (name : Fin cfgNameLen → UInt8)
    (h : cfgIoNamesAddr + 1544 ≤ a ∨ a + n ≤ cfgIoNamesAddr) :
    ByteStore.Outside (r.nameWritten addr name).2 a n := by
  have hfirst : cfgIoNamesAddr + 4 ≤ a ∨ a + n ≤ cfgIoNamesAddr :=
    h.imp_left (Nat.le_trans (Nat.add_le_add_left (by decide) _))
  have hlast : cfgIoNamesAddr + 1540 + 4 ≤ a ∨ a + n ≤ cfgIoNamesAddr + 1540 :=
    h.imp_right (Nat.le_trans · (Nat.le_add_right _ _))
  have hput : ((textField cfgNameLen).put name).length = cfgNameLen :=
    (textField cfgNameLen).length_put name
  have hname :
      ByteStore.Outside (ByteStore.words 4 addr ((textField cfgNameLen).put name)) a n := by
    apply ByteStore.outside_words
    omega
  intro x hx
  rcases List.mem_append.mp hx with hx | hx
  · rcases List.mem_cons.mp hx with rfl | hx
    · exact hfirst
    · exact hname x hx
  · rw [List.mem_singleton.mp hx]
    exact hlast

/-- The words of a single name, as three runs of bytes. -/
theorem program_nameWritten (r : NamesRecord) (addr : Nat) (name : Fin cfgNameLen → UInt8) :
    ByteStore.program m (r.nameWritten addr name).2 =
      ByteStore.write (ByteStore.write (ByteStore.write m cfgIoNamesAddr (wordBytes r.magic))
        addr (List.ofFn name)) (cfgIoNamesAddr + 1540)
        (wordBytes (recordCrc namesRecordLayout r)) := by
  have hname : (textField cfgNameLen).put name = List.ofFn name := putAll_byte _ _
  have hdvd : 4 ∣ (List.ofFn name).length := by
    rw [List.length_ofFn]
    decide
  have hwords := ByteStore.program_words
    (ByteStore.write m cfgIoNamesAddr (wordBytes r.magic)) 4 addr (List.ofFn name) hdvd
  rw [nameWritten, hname, ByteStore.program_append, ← List.singleton_append,
    ByteStore.program_append]
  exact congrArg (fun m => ByteStore.write m (cfgIoNamesAddr + 1540)
    (wordBytes (recordCrc namesRecordLayout r))) hwords

/-- **A single name, stored.**  With all names in place, the words of one complete the
record. -/
theorem read_nameWritten {m : ByteStore.Bytes} {r : NamesRecord} {addr : Nat}
    {name : Fin cfgNameLen → UInt8} (hlo : cfgIoNamesAddr + 4 ≤ addr)
    (h : Kept (ByteStore.write m addr (List.ofFn name)) r) :
    namesFormat.read (ByteStore.program m (r.nameWritten addr name).2) =
      (r.nameWritten addr name).1 := by
  have hword (w : BitVec 32) : (wordBytes w).length = 4 := rfl
  have hlen : (List.ofFn name).length = cfgNameLen := List.length_ofFn
  -- between the two words, only the name has been written
  have hbody (a : Nat) (ha : cfgIoNamesAddr + 4 ≤ a) (ha' : a < cfgIoNamesAddr + 1540) :
      ByteStore.program m (r.nameWritten addr name).2 a =
        ByteStore.write m addr (List.ofFn name) a := by
    rw [program_nameWritten, ByteStore.write_outside (.inl ha')]
    unfold ByteStore.write
    rw [hword]
    split
    · rfl
    · rw [if_neg (by omega)]
  have hmagic : ByteStore.read (ByteStore.program m (r.nameWritten addr name).2)
      cfgIoNamesAddr 4 = wordBytes r.magic := by
    rw [program_nameWritten, ByteStore.read_write_of_disjoint (.inr (by omega)),
      ByteStore.read_write_of_disjoint (.inr hlo), ← hword r.magic, ByteStore.read_write]
  have hcrc : ByteStore.read (ByteStore.program m (r.nameWritten addr name).2)
      (cfgIoNamesAddr + 1540) 4 = wordBytes (recordCrc namesRecordLayout r) := by
    rw [program_nameWritten, ← hword (recordCrc namesRecordLayout r), ByteStore.read_write]
  rw [fst_nameWritten]
  apply NamesRecord.ext
  · exact (namesFormat.magic_get _).trans (get_read_of_eq (by decide) hmagic)
  · funext i j
    have hi := i.isLt
    have hj := j.isLt
    rw [inputNames_read]
    unfold cfgNamesMaxInputs at hi
    unfold cfgNameLen at hj ⊢
    rw [hbody _ (by omega) (by omega), ← h.inputs, inputNames_read]
    rfl
  · funext i j
    have hi := i.isLt
    have hj := j.isLt
    rw [outputNames_read]
    unfold cfgNamesMaxOutputs at hi
    unfold cfgNameLen at hj ⊢
    unfold cfgNamesMaxInputs
    rw [hbody _ (by omega) (by omega), ← h.outputs, outputNames_read]
    rfl
  · change wordLayout.get ((((ByteStore.read _ cfgIoNamesAddr 1544).drop 4).drop
      (cfgNamesMaxInputs * cfgNameLen)).drop (cfgNamesMaxOutputs * cfgNameLen)) = _
    rw [List.drop_drop, List.drop_drop, ByteStore.drop_read]
    exact get_read_of_eq (by decide) hcrc

/-- One of the blocks of a run overwritten. -/
theorem write_block {n : Nat} (base k i : Nat) (name : Fin n → UInt8) (j : Fin n) :
    ByteStore.write m (base + k * n) (List.ofFn name) (base + i * n + j) =
      if i = k then name j else m (base + i * n + j) := by
  have hj := j.isLt
  split
  · rename_i hik
    rw [hik, ByteStore.write_inside (by rwa [List.length_ofFn]), List.getElem_ofFn]
  · rename_i hik
    apply ByteStore.write_outside
    rw [List.length_ofFn]
    rcases Nat.lt_or_gt_of_ne hik with hlt | hgt
    · have hle := Nat.mul_le_mul_right n (Nat.succ_le_of_lt hlt)
      rw [Nat.succ_mul] at hle
      exact .inl (by omega)
    · have hle := Nat.mul_le_mul_right n (Nat.succ_le_of_lt hgt)
      rw [Nat.succ_mul] at hle
      exact .inr (by omega)

/-- An input name overwritten. -/
theorem Kept.writeInput {m : ByteStore.Bytes} {r : NamesRecord} (h : Kept m r)
    (k : Fin cfgNamesMaxInputs) (name : Fin cfgNameLen → UInt8) :
    Kept (ByteStore.write m (cfgIoNamesAddr + 4 + k * cfgNameLen) (List.ofFn name))
      { r with inputNames := Function.update r.inputNames k name } := by
  refine ⟨h.magic, ?_, ?_⟩
  · funext i j
    rw [inputNames_read, write_block]
    by_cases hik : i = k
    · rw [if_pos (congrArg Fin.val hik), hik]
      exact (congrFun (Function.update_self k name r.inputNames) j).symm
    · rw [if_neg (fun hv => hik (Fin.ext hv)), ← inputNames_read m, h.inputs]
      exact (congrFun (Function.update_of_ne hik name r.inputNames) j).symm
  · funext i j
    have hk := k.isLt
    have hlen : (List.ofFn name).length = 12 := List.length_ofFn
    rw [outputNames_read, ByteStore.write_outside, ← outputNames_read m, h.outputs]
    unfold cfgNamesMaxInputs cfgNameLen at *
    omega

/-- An output name overwritten. -/
theorem Kept.writeOutput {m : ByteStore.Bytes} {r : NamesRecord} (h : Kept m r)
    (k : Fin cfgNamesMaxOutputs) (name : Fin cfgNameLen → UInt8) :
    Kept (ByteStore.write m (cfgIoNamesAddr + 4 + cfgNamesMaxInputs * cfgNameLen + k * cfgNameLen)
        (List.ofFn name)) { r with outputNames := Function.update r.outputNames k name } := by
  refine ⟨h.magic, ?_, ?_⟩
  · funext i j
    have hi := i.isLt
    have hj := j.isLt
    have hlen : (List.ofFn name).length = 12 := List.length_ofFn
    rw [inputNames_read, ByteStore.write_outside, ← inputNames_read m, h.inputs]
    unfold cfgNamesMaxInputs cfgNameLen at *
    omega
  · funext i j
    rw [outputNames_read, write_block]
    by_cases hik : i = k
    · rw [if_pos (congrArg Fin.val hik), hik]
      exact (congrFun (Function.update_self k name r.outputNames) j).symm
    · rw [if_neg (fun hv => hik (Fin.ext hv)), ← outputNames_read m, h.outputs]
      exact (congrFun (Function.update_of_ne hik name r.outputNames) j).symm

/-- What `ConfigNameSet` does: nothing for an index out of range, and otherwise it writes
the name at its place. -/
theorem Kept.configNameSet_cases {m : ByteStore.Bytes} {r : NamesRecord} (h : Kept m r)
    (bInput : Bool) (iIdx : Int) (pcName : CStr) :
    r.configNameSet bInput iIdx pcName = (r, []) ∨
      ∃ r' addr, r.configNameSet bInput iIdx pcName = r'.nameWritten addr (nameField pcName) ∧
        cfgIoNamesAddr + 4 ≤ addr ∧ addr + cfgNameLen ≤ cfgIoNamesAddr + 1540 ∧
        Kept (ByteStore.write m addr (List.ofFn (nameField pcName))) r' := by
  unfold configNameSet
  cases bInput with
  | true =>
      rw [if_pos rfl]
      split
      · rename_i hi
        have hlt := hi.2
        refine .inr ⟨_, _, rfl, ?_, ?_, h.writeInput ⟨iIdx.toNat, hi.2⟩ (nameField pcName)⟩
        · omega
        · unfold cfgNamesMaxInputs at hlt
          unfold cfgNameLen
          omega
      · exact .inl rfl
  | false =>
      rw [if_neg Bool.false_ne_true]
      split
      · rename_i hi
        have hlt := hi.2
        refine .inr ⟨_, _, rfl, ?_, ?_, h.writeOutput ⟨iIdx.toNat, hi.2⟩ (nameField pcName)⟩
        · omega
        · unfold cfgNamesMaxOutputs at hlt
          unfold cfgNamesMaxInputs cfgNameLen
          omega
      · exact .inl rfl

theorem Kept.of_read {m : ByteStore.Bytes} {r : NamesRecord} (h : namesFormat.read m = r)
    (hmagic : r.magic = cfgIoNamesMagic) : Kept m r := by
  subst h
  exact ⟨hmagic, rfl, rfl⟩

/-- Words beside the names leave them. -/
theorem Kept.program {m : ByteStore.Bytes} {r : NamesRecord} (h : Kept m r)
    {ws : List ByteStore.WordWrite} (hws : ByteStore.Outside ws (cfgIoNamesAddr + 4) 1536) :
    Kept (ByteStore.program m ws) r := by
  refine h.congr (fun a hlo hhi => ?_) h.magic rfl rfl
  exact ByteStore.eq_of_read_eq (ByteStore.read_program_of_outside m hws) hlo (by omega)

/-- A single name completes the record. -/
theorem read_configNameSet {m : ByteStore.Bytes} {r : NamesRecord} (h : Kept m r)
    {bInput : Bool} {iIdx : Int} {pcName : CStr}
    (hw : (r.configNameSet bInput iIdx pcName).2 ≠ []) :
    namesFormat.read (ByteStore.program m (r.configNameSet bInput iIdx pcName).2) =
        (r.configNameSet bInput iIdx pcName).1 ∧
      namesFormat.Valid (r.configNameSet bInput iIdx pcName).1 := by
  rcases h.configNameSet_cases bInput iIdx pcName with heq | ⟨r', addr, heq, hlo, -, hkept⟩
  · rw [heq] at hw
    exact absurd rfl hw
  · rw [heq]
    exact ⟨read_nameWritten hlo hkept, valid_nameWritten hkept.magic addr _⟩

/-- After a boot, the record in the store checks and is that in RAM. -/
theorem read_configInit :
    namesFormat.read (Config.configInit true m).1 = (Config.configInit true m).2.names ∧
      namesFormat.Valid (Config.configInit true m).2.names := by
  obtain ⟨hread, hvalid⟩ := namesFormat.read_loadOrSave m .defaults
  obtain ⟨-, houtput⟩ := ConfigRecord.productConfigLoad_output
    (namesFormat.loadOrSave m .defaults).1 Config.cleared.output
  obtain ⟨-, hrooms⟩ := ConfigRecord.loadOrSave_eq roomFormat (OutputStore.productConfigLoad
    ⟨(namesFormat.loadOrSave m .defaults).1, Config.cleared.output⟩ none).eeprom
    .configRoomSetDefaults
  have hother : ConfigRecord.rooms ≠ .names := by decide
  have hsame := (ConfigRecord.sameBytes_of_saved hother hrooms).trans
    (ConfigRecord.sameBytes_of_saved (r := .output) (by decide) houtput)
  exact ⟨(namesFormat.read_congr hsame).trans hread, hvalid⟩

/-- After a boot, the RAM has the names of the store. -/
theorem kept_configInit :
    Kept (Config.configInit true m).1 (Config.configInit true m).2.names :=
  .of_read (read_configInit m).1 (read_configInit m).2.1

end NamesRecord

/-! ## A running device -/

/-- A device that has booted: its store, and its RAM with the names of the store. -/
structure Device where
  eeprom : ByteStore.Bytes
  config : Config
  names_kept : config.names.Kept eeprom

namespace ConfigSave

/-- The words of a whole record touch no other record. -/
theorem outside_saveWords {r r' : ConfigRecord} (h : r ≠ r') (a : r.Value) :
    ByteStore.Outside (r.format.saveWords a) r'.format.addr r'.format.layout.size := by
  apply ByteStore.outside_words
  rw [r.format.layout.length_put]
  exact ConfigRecord.disjoint h

theorem outside_configFactoryReset :
    ByteStore.Outside configFactoryReset (cfgIoNamesAddr + 4) 1536 := by decide

theorem names_ram (c : Config) {r : ConfigRecord} (h : r ≠ .names) (a : r.Value) :
    ((ConfigSave.whole r a).ram c).names = c.names := by
  cases r with
  | names => exact absurd rfl h
  | _ => rfl

theorem names_ram_names (c : Config) (a : NamesRecord) :
    ((ConfigSave.whole .names a).ram c).names = namesFormat.stamped a := rfl

theorem names_ram_name (c : Config) (bInput : Bool) (iIdx : Int) (pcName : CStr) :
    ((ConfigSave.name bInput iIdx pcName).ram c).names =
      (c.names.configNameSet bInput iIdx pcName).1 := rfl

/-- **The names stay those of the store**, whatever is saved. -/
theorem kept_program (d : Device) (s : ConfigSave) :
    (s.ram d.config).names.Kept (ByteStore.program d.eeprom (s.writes d.config)) := by
  cases s with
  | whole r a =>
      by_cases hr : r = .names
      · subst hr
        rw [writes, RecordFormat.program_saveWords, names_ram_names]
        exact .of_read (namesFormat.read_save d.eeprom a) (namesFormat.magic_stamped a)
      · rw [names_ram _ hr]
        apply d.names_kept.program
        exact (outside_saveWords hr a).mono (by decide) (by decide)
  | name bInput iIdx pcName =>
      rcases d.names_kept.configNameSet_cases bInput iIdx pcName with
        heq | ⟨r', addr, heq, hlo, -, hkept⟩
      · rw [names_ram_name, writes, heq]
        exact d.names_kept
      · rw [names_ram_name, writes, heq]
        exact .of_read (NamesRecord.read_nameWritten hlo hkept)
          (NamesRecord.valid_nameWritten hkept.magic addr (nameField pcName)).1
  | factoryReset =>
      apply d.names_kept.program
      exact outside_configFactoryReset

end ConfigSave

namespace Device

/-- A device after a boot. -/
def boot (m : ByteStore.Bytes) : Device :=
  ⟨(Config.configInit true m).1, (Config.configInit true m).2, NamesRecord.kept_configInit m⟩

/-- A device after a save. -/
def save (d : Device) (s : ConfigSave) : Device :=
  ⟨ByteStore.program d.eeprom (s.writes d.config), s.ram d.config, s.kept_program d⟩

/-- The store when the power is lost after `k` words of a save. -/
def cut (d : Device) (s : ConfigSave) (k : Nat) : ByteStore.Bytes :=
  ByteStore.program d.eeprom ((s.writes d.config).take k)

end Device

end HomeAuto
