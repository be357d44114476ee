import HomeAuto.BindTable
import HomeAuto.PageLoad

/-!
# The binding table on the I/O page (`iocfg.shtml`)

`buildTable` makes a row of selects for every slot, from the digits of `IOBINDS`, and
`serialize` packs what the selects show into the hidden field `binds` of the form.
-/

namespace HomeAuto

/-! ## The types of the inputs -/

/-- The two digits of a byte. -/
def hex2 (v : Nat) : CStr := [hexLower ((v >>> 4) &&& 0xF), hexLower (v &&& 0xF)]

/-- A byte of type bits. -/
def typeByte (push : Nat → Bool) (iByte : Nat) : Nat :=
  (List.range 8).foldl (fun v iBit => if push (iByte * 8 + iBit) then v ||| (1 <<< iBit) else v) 0

/-- The tag `IOTYPES`. -/
def ssiIoTypes (push : Nat → Bool) (inputs : Nat) : CStr :=
  Delimited.emit (fun pos len => decide (pos + len < tagInsertLen)) 0
    ((List.range ((inputs + 7) / 8)).map fun iByte => hex2 (typeByte push iByte))

/-! ## The page -/

/-- What the tags insert for the inputs. -/
structure InputTags where
  din : Nat
  nloc : Nat
  ioTypes : CStr
  ioBinds : CStr

/-- `substr(.)||dflt`. -/
def substrOr (s : CStr) (start len : Nat) (dflt : CStr) : CStr :=
  if (s.drop start).take len = [] then dflt else (s.drop start).take len

namespace InputTags

variable (u : InputTags)

/-- How many rows the table has. -/
def rows : Nat := u.din * 8 + u.nloc

/-- `hexByte(T,b)`. -/
def hexByte (b : Nat) : Nat := (parseHexInt (substrOr u.ioTypes (b * 2) 2 (ascii "00"))).getD 0

/-- `isPB`. -/
def isPB (i : Nat) : Bool := ((u.hexByte (i / 8)) >>> (i % 8)) &&& 1 = 1

/-- `slotV`, by the number `i*4+s` of the slot. -/
def slotV (k : Nat) : Nat := (parseHexInt (substrOr u.ioBinds (k * 3) 3 (ascii "000"))).getD 0

end InputTags

/-- The value of a select: the option that is selected, or else the first. -/
def selectValue (options : List Nat) (v : Nat) : Nat :=
  if v ∈ options then v else options.headD 0

/-- The options of a trigger select. -/
def trigOptions (pb : Bool) : List Nat := if pb then [3, 4] else [5, 1, 2]

/-- The options of `actOptsHtml`. -/
def actOptions (member : Bool) : List Nat := if member then [0, 1, 3] else [0, 1, 2]

/-- The selects of a slot. -/
structure SlotRow where
  out : Nat
  trig : Nat
  act : Nat

/-- `slotOut`. -/
def slotOut (v : Nat) : Nat := if v &&& 7 = 0 then 127 else (v >>> 5) &&& 0x7F

/-- The row that `buildTable` makes of 12 bits. -/
def slotRow (relay : Nat) (pb : Bool) (shMemberOf : Nat → Bool) (v : Nat) : SlotRow where
  out := selectValue (127 :: List.range (relay * 8)) (slotOut v)
  trig := selectValue (trigOptions pb) (v &&& 7)
  act := selectValue (actOptions (shMemberOf (slotOut v))) (if v = 0 then 2 else (v >>> 3) &&& 3)

/-- The 12 bits that `serialize` packs. -/
def SlotRow.packed (r : SlotRow) : Nat :=
  if r.out = 127 ∨ r.trig = 0 then 0
  else ((r.out &&& 0x7F) <<< 5) ||| ((r.act &&& 3) <<< 3) ||| (r.trig &&& 7)

/-- The state that the page shows and the form changes. -/
structure IoPanel where
  app : HaMqtt
  out : OutputRecord
  rooms : RoomRecord
  binds : BindTable

namespace IoPanel

variable (s : IoPanel)

/-- The outputs and rooms. -/
def web : WebState := ⟨⟨s.app.hub, s.out⟩, s.rooms⟩

/-- The tags as the device renders them. -/
def inputTags : InputTags where
  din := s.app.configGetDinDevices
  nloc := s.app.localInputs
  ioTypes := ssiIoTypes s.app.configInputIsPushbutton s.app.ioInputCount
  ioBinds := ssiIoBinds s.binds s.app.ioInputCount

/-- The row of a slot. -/
def row (k : Nat) : SlotRow :=
  slotRow s.web.pageTags.relay (s.inputTags.isPB (k / cfgBindSlots)) s.web.pageTags.shMemberOf
    (s.inputTags.slotV k)

/-- The form with what `serialize` puts into `types` and `binds`. -/
def form : List (CStr × CStr) :=
  [(ascii "types", (List.range ((s.inputTags.rows + 7) / 8)).flatMap fun b =>
     hex2 (typeByte (fun i => decide (i < s.inputTags.rows) && s.inputTags.isPB i) b)),
   (ascii "binds", (List.range (s.inputTags.rows * cfgBindSlots)).flatMap fun k =>
     hex3 (s.row k).packed),
   (ascii "din", fmtDecimal s.inputTags.din),
   (ascii "relay", fmtDecimal s.web.pageTags.relay)]

/-- `IOConfigCGIHandler`: the counts and types, and then the bindings. -/
def ioConfigCGIHandler (params : CgiParams) : IoPanel :=
  { s with
    app := s.app.ioConfigCGIHandler params
    binds := s.binds.bindsParam (s.app.ioConfigCGIHandler params).ioInputCount params }

/-- The form of the unedited page is submitted. -/
def submit : IoPanel :=
  if RequestFits (ascii "/iocfg.cgi") s.form then
    s.ioConfigCGIHandler (extractUriParameters (queryText s.form))
  else s

end IoPanel

/-! ## What is shown -/

theorem shiftRight_and_one (v j : Nat) : (v >>> j) &&& 1 = 1 ↔ v.testBit j = true := by
  rw [Nat.testBit, Nat.one_and_eq_mod_two, Nat.and_one_is_mod]
  simp

/-- A bit of a type byte. -/
theorem testBit_typeByte (push : Nat → Bool) (iByte : Nat) {j : Nat} (hj : j < 8) :
    (typeByte push iByte).testBit j = push (iByte * 8 + j) := by
  have hfold (n : Nat) : ((List.range n).foldl (fun v iBit =>
      if push (iByte * 8 + iBit) then v ||| (1 <<< iBit) else v) 0).testBit j =
      (decide (j < n) && push (iByte * 8 + j)) := by
    induction n with
    | zero => simp
    | succ n ih =>
        rw [List.range_succ, List.foldl_append, List.foldl_cons, List.foldl_nil]
        by_cases hn : j = n
        · subst hn
          split
          · rename_i hpush
            rw [Nat.testBit_or, ih, Nat.one_shiftLeft, Nat.testBit_two_pow]
            simp [hpush]
          · rename_i hpush
            rw [ih]
            simp [hpush]
        · have hlt : (j < n + 1) = (j < n) := by
            apply propext
            omega
          have hbit : (1 <<< n).testBit j = false := by
            rw [Nat.one_shiftLeft, Nat.testBit_two_pow]
            exact decide_eq_false fun h => hn h.symm
          split
          · rw [Nat.testBit_or, ih, hbit, Bool.or_false]
            simp only [hlt]
          · rw [ih]
            simp only [hlt]
  rw [typeByte, hfold 8, decide_eq_true hj, Bool.true_and]

theorem typeByte_lt (push : Nat → Bool) (iByte : Nat) : typeByte push iByte < 256 := by
  have hfold (n : Nat) (hn : n ≤ 8) : ((List.range n).foldl (fun v iBit =>
      if push (iByte * 8 + iBit) then v ||| (1 <<< iBit) else v) 0) < 2 ^ 8 := by
    induction n with
    | zero => exact Nat.two_pow_pos 8
    | succ n ih =>
        have hbit : 1 <<< n < 2 ^ 8 := by
          rw [Nat.one_shiftLeft]
          exact Nat.pow_lt_pow_right (by decide) (by omega)
        rw [List.range_succ, List.foldl_append, List.foldl_cons, List.foldl_nil]
        split
        · exact Nat.or_lt_two_pow (ih (by omega)) hbit
        · exact ih (by omega)
  exact hfold 8 (Nat.le_refl 8)

theorem parseHexInt_hex2 {v : Nat} (hv : v < 256) : parseHexInt (hex2 v) = some v := by
  have hdigits : ∀ d ∈ [(v >>> 4) &&& 0xF, v &&& 0xF], d < 16 := by
    simp [nibble_lt]
  have hread := parseHexInt_map_hexLower hdigits (List.cons_ne_nil _ _)
  refine Eq.trans hread (congrArg some ?_)
  simp only [List.foldl_cons, List.foldl_nil, nibble_eq, Nat.shiftRight_eq_div_pow]
  omega

theorem length_typeBytes (push : Nat → Bool) (bytes : Nat) :
    ((List.range bytes).map fun iByte => hex2 (typeByte push iByte)).flatten.length = bytes * 2 := by
  have hw : ∀ e ∈ (List.range bytes).map (fun iByte => hex2 (typeByte push iByte)),
      e.length = 2 := by
    intro e he
    obtain ⟨b, -, hb⟩ := List.mem_map.mp he
    rw [← hb]
    rfl
  have hlen := Delimited.length_flatten_uniform hw
  rw [List.length_map, List.length_range] at hlen
  exact hlen

/-- The tag holds the types of all inputs. -/
theorem ssiIoTypes_eq (push : Nat → Bool) {inputs : Nat} (h : inputs ≤ 120) :
    ssiIoTypes push inputs = ((List.range ((inputs + 7) / 8)).map fun iByte =>
      hex2 (typeByte push iByte)).flatten := by
  have hlen := length_typeBytes push ((inputs + 7) / 8)
  apply Delimited.emit_eq_flatten
  intro p l hle
  apply decide_eq_true
  unfold tagInsertLen
  omega

namespace IoPanel

variable (s : IoPanel)

theorem configGetDinDevices_le : s.app.configGetDinDevices ≤ 15 := Nat.and_le_right

theorem ioInputCount_le : s.app.ioInputCount ≤ cfgMaxInputs := by
  have hdin := s.configGetDinDevices_le
  unfold HaMqtt.ioInputCount
  split
  · rename_i h
    exact h.2.2
  · unfold cfgMaxInputs
    omega

/-- The table has a row for every input. -/
theorem ioInputCount_le_rows : s.app.ioInputCount ≤ s.inputTags.rows := by
  change _ ≤ s.app.configGetDinDevices * 8 + s.app.localInputs
  unfold HaMqtt.ioInputCount
  split
  · exact Nat.le_refl _
  · exact Nat.le_add_right _ _

/-- The page knows the type of every input. -/
theorem isPB_inputTags {i : Nat} (hi : i < s.app.ioInputCount) :
    s.inputTags.isPB i = s.app.configInputIsPushbutton i := by
  have hcount := s.ioInputCount_le
  unfold cfgMaxInputs at hcount
  have hw : ∀ e ∈ (List.range ((s.app.ioInputCount + 7) / 8)).map (fun iByte =>
      hex2 (typeByte s.app.configInputIsPushbutton iByte)), e.length = 2 := by
    intro e he
    obtain ⟨b, _, rfl⟩ := List.mem_map.mp he
    rfl
  have htag : s.inputTags.ioTypes = ((List.range ((s.app.ioInputCount + 7) / 8)).map fun iByte =>
      hex2 (typeByte s.app.configInputIsPushbutton iByte)).flatten := ssiIoTypes_eq _ hcount
  have hb : i / 8 < ((List.range ((s.app.ioInputCount + 7) / 8)).map fun iByte =>
      hex2 (typeByte s.app.configInputIsPushbutton iByte)).length := by
    rw [List.length_map, List.length_range]
    omega
  have hblock := Delimited.block_flatten hw hb
  rw [List.getElem_map, List.getElem_range] at hblock
  have hbyte : s.inputTags.hexByte (i / 8) = typeByte s.app.configInputIsPushbutton (i / 8) := by
    unfold InputTags.hexByte substrOr
    rw [htag, hblock, if_neg (show hex2 _ ≠ [] from List.cons_ne_nil _ _),
      parseHexInt_hex2 (typeByte_lt _ _)]
    rfl
  have hmod : i % 8 < 8 := Nat.mod_lt _ (by decide)
  have hi8 : i / 8 * 8 + i % 8 = i := by omega
  unfold InputTags.isPB
  rw [hbyte, Bool.eq_iff_iff, decide_eq_true_iff, shiftRight_and_one, testBit_typeByte _ _ hmod,
    hi8]

/-- **The page has the bits of the first 266 slots**, and nothing for the others. -/
theorem slotV_inputTags (k : Nat) : s.inputTags.slotV k =
    if k < min s.app.ioInputCount cfgMaxInputs * cfgBindSlots ∧ k < 266 then
      (s.binds.configBindingGet (k / cfgBindSlots) (k % cfgBindSlots)).bits % 4096
    else 0 := by
  have htag : s.inputTags.ioBinds = _ := ssiIoBinds_eq s.binds s.app.ioInputCount
  have hw : ∀ e ∈ ((List.range (min s.app.ioInputCount cfgMaxInputs * cfgBindSlots)).take
      266).map (fun k =>
        hex3 (s.binds.configBindingGet (k / cfgBindSlots) (k % cfgBindSlots)).bits),
      e.length = 3 := by
    intro e he
    obtain ⟨k, _, rfl⟩ := List.mem_map.mp he
    rfl
  unfold InputTags.slotV substrOr
  rw [htag]
  by_cases hk : k < min s.app.ioInputCount cfgMaxInputs * cfgBindSlots ∧ k < 266
  · rw [if_pos hk]
    have hlen : k < (((List.range (min s.app.ioInputCount cfgMaxInputs * cfgBindSlots)).take
        266).map fun k =>
          hex3 (s.binds.configBindingGet (k / cfgBindSlots) (k % cfgBindSlots)).bits).length := by
      rw [List.length_map, List.length_take, List.length_range]
      omega
    have hblock := Delimited.block_flatten hw hlen
    rw [List.getElem_map, List.getElem_take, List.getElem_range] at hblock
    rw [hblock, if_neg (show hex3 _ ≠ [] from List.cons_ne_nil _ _), parseHexInt_hex3]
    rfl
  · rw [if_neg hk]
    have hlen := Delimited.length_flatten_uniform hw
    rw [List.length_map, List.length_take, List.length_range] at hlen
    have hzero : parseHexInt (ascii "000") = some 0 := by decide
    rw [List.drop_eq_nil_of_le (by omega), List.take_nil, if_pos rfl, hzero]
    rfl

end IoPanel

end HomeAuto
