import HomeAuto.BindPage
import HomeAuto.RoomRoundTrip

/-!
# The bindings across an unedited save

`IOBINDS` into the page, `serialize` into the form, and `/iocfg.cgi` back into the table.
The insert buffer holds 266 slots, which is all of 66 inputs and half of the next one; the
page takes the slots behind them for unused, and sends them so.
-/

namespace HomeAuto

/-- What a slot does: its trigger with its action, and its output. -/
def BindSlot.effective (b : BindSlot) : Option (UInt8 × UInt8) :=
  if b.Used then some (b.trigAct &&& 0x1F, b.output) else none

/-- What a save is to leave: the effective bindings of every input. -/
def BindingsKept (old new : BindTable) : Prop :=
  ∀ i k, (new i k).effective = (old i k).effective

namespace IoPanel

/-- The page can show a slot: it is in the tag, and its selects have options for its
output, its trigger and its action. -/
structure Shown (s : IoPanel) (i : Fin cfgMaxInputs) (k : Fin cfgBindSlots) : Prop where
  inTag : i.val * cfgBindSlots + k.val < 266
  output : (s.binds i k).output.toNat < s.app.hub.configGetRelayDevices * 8
  trigger : (s.binds i k).trig ∈ trigOptions (s.app.configInputIsPushbutton i)
  action : (s.binds i k).act ≤ 1 ∨
    ((s.binds i k).act = 3 ↔ s.web.IsMember (s.binds i k).output.toNat)

end IoPanel

/-! ## One slot through its row -/

theorem selectValue_mem {options : List Nat} (h : options ≠ []) (v : Nat) :
    selectValue options v ∈ options := by
  unfold selectValue
  split
  · assumption
  · cases options with
    | nil => exact absurd rfl h
    | cons o os => exact List.mem_cons_self

theorem selectValue_eq_iff {options : List Nat} (h : options ≠ []) (v : Nat) :
    selectValue options v = v ↔ v ∈ options := by
  constructor
  · intro heq
    rw [← heq]
    exact selectValue_mem h v
  · exact fun hmem => if_pos hmem

theorem trigOptions_ne_nil (pb : Bool) : trigOptions pb ≠ [] := by cases pb <;> decide

theorem actOptions_ne_nil (member : Bool) : actOptions member ≠ [] := by cases member <;> decide

theorem trigOptions_bounds {pb : Bool} {t : Nat} (h : t ∈ trigOptions pb) : 1 ≤ t ∧ t ≤ 5 := by
  cases pb <;> simp [trigOptions] at h <;> omega

theorem actOptions_le {member : Bool} {a : Nat} (h : a ∈ actOptions member) : a ≤ 3 := by
  cases member <;> simp [actOptions] at h <;> omega

/-- The three fields of 12 bits. -/
theorem fields_of_sum {out act trig : Nat} (hout : out ≤ 127) (hact : act ≤ 3) (htrig : trig ≤ 7) :
    (out * 32 + (act * 8 + trig)) &&& 7 = trig ∧
      ((out * 32 + (act * 8 + trig)) >>> 3) &&& 3 = act ∧
      ((out * 32 + (act * 8 + trig)) >>> 5) &&& 0x7F = out ∧
      (out * 32 + (act * 8 + trig)) &&& 0x1F = act * 8 + trig := by
  have h₁ (v : Nat) : v &&& 7 = v % 8 := Nat.and_two_pow_sub_one_eq_mod v 3
  have h₂ (v : Nat) : v &&& 3 = v % 4 := Nat.and_two_pow_sub_one_eq_mod v 2
  have h₃ (v : Nat) : v &&& 0x7F = v % 128 := Nat.and_two_pow_sub_one_eq_mod v 7
  have h₄ (v : Nat) : v &&& 0x1F = v % 32 := Nat.and_two_pow_sub_one_eq_mod v 5
  rw [h₁, h₂, h₃, h₄, Nat.shiftRight_eq_div_pow, Nat.shiftRight_eq_div_pow]
  refine ⟨?_, ?_, ?_, ?_⟩ <;> omega

/-- What `serialize` packs is the sum of the fields. -/
theorem packed_eq {r : SlotRow} (hout : r.out < 127) (hact : r.act ≤ 3)
    (htrig : 1 ≤ r.trig ∧ r.trig ≤ 5) : r.packed = r.out * 32 + (r.act * 8 + r.trig) := by
  have h₁ : r.trig &&& 7 = r.trig := by
    rw [show r.trig &&& 7 = r.trig % 8 from Nat.and_two_pow_sub_one_eq_mod _ 3]
    omega
  have h₂ : r.act &&& 3 = r.act := by
    rw [show r.act &&& 3 = r.act % 4 from Nat.and_two_pow_sub_one_eq_mod _ 2]
    omega
  have h₃ : r.out &&& 0x7F = r.out := by
    rw [show r.out &&& 0x7F = r.out % 128 from Nat.and_two_pow_sub_one_eq_mod _ 7]
    omega
  have hlow : r.act <<< 3 ||| r.trig = r.act * 8 + r.trig := by
    rw [← Nat.shiftLeft_add_eq_or_of_lt (show r.trig < 2 ^ 3 by omega), Nat.shiftLeft_eq]
  have hlt : r.act * 8 + r.trig < 2 ^ 5 := by omega
  rw [SlotRow.packed, if_neg (by omega), h₁, h₂, h₃, Nat.or_assoc, hlow,
    ← Nat.shiftLeft_add_eq_or_of_lt hlt, Nat.shiftLeft_eq]

/-- The slot that comes back of a row. -/
def SlotRow.stored (r : SlotRow) : BindSlot := (BindSlot.ofBits (r.packed % 4096)).checked

theorem stored_of_none {r : SlotRow} (h : r.out = 127) : r.stored.effective = none := by
  have hpacked : r.packed = 0 := if_pos (.inl h)
  rw [SlotRow.stored, hpacked]
  decide

theorem stored_effective {r : SlotRow} (hout : r.out < cfgMaxOutputs) (hact : r.act ≤ 3)
    (htrig : 1 ≤ r.trig ∧ r.trig ≤ 5) :
    r.stored.effective = some (UInt8.ofNat (r.act * 8 + r.trig), UInt8.ofNat r.out) := by
  unfold cfgMaxOutputs at hout
  obtain ⟨h₁, _, h₃, h₄⟩ := fields_of_sum (show r.out ≤ 127 by omega) hact
    (show r.trig ≤ 7 by omega)
  have hof : BindSlot.ofBits (r.packed % 4096) =
      ⟨UInt8.ofNat (r.act * 8 + r.trig), UInt8.ofNat r.out⟩ := by
    rw [packed_eq (by omega) hact htrig, Nat.mod_eq_of_lt (by omega), BindSlot.ofBits, h₁, h₃, h₄,
      if_neg (by omega)]
  have hta : (UInt8.ofNat (r.act * 8 + r.trig)).toNat = r.act * 8 + r.trig := by
    rw [UInt8.toNat_ofNat']
    omega
  have hoNat : (UInt8.ofNat r.out).toNat = r.out := by
    rw [UInt8.toNat_ofNat']
    omega
  have hslot : BindSlot.Stored ⟨UInt8.ofNat (r.act * 8 + r.trig), UInt8.ofNat r.out⟩ := by
    refine ⟨?_, ?_, .inr ?_⟩
    · change (UInt8.ofNat (r.act * 8 + r.trig)).toNat < 32
      omega
    · rw [BindSlot.trig_eq]
      dsimp only
      omega
    · change (UInt8.ofNat r.out).toNat < cfgMaxOutputs
      rw [hoNat]
      exact hout
  have hused : BindSlot.Used ⟨UInt8.ofNat (r.act * 8 + r.trig), UInt8.ofNat r.out⟩ := by
    refine ⟨?_, fun h => ?_⟩
    · rw [BindSlot.trig_eq]
      dsimp only
      omega
    · have hval := congrArg UInt8.toNat h
      rw [show bindOutputNoneByte.toNat = 127 from rfl] at hval
      dsimp only at hval
      omega
  have hmask : UInt8.ofNat (r.act * 8 + r.trig) &&& 0x1F = UInt8.ofNat (r.act * 8 + r.trig) := by
    rw [← UInt8.toNat_inj, UInt8.toNat_and, hta]
    rw [show (r.act * 8 + r.trig) &&& UInt8.toNat 0x1F = (r.act * 8 + r.trig) % 32 from
      Nat.and_two_pow_sub_one_eq_mod _ 5]
    omega
  rw [SlotRow.stored, hof, hslot.checked_eq, BindSlot.effective, if_pos hused, hmask]

/-- A slot that is unused, or that the page does not have, comes back unused. -/
theorem stored_slotRow_zero (relay : Nat) (pb : Bool) (shMemberOf : Nat → Bool) :
    (slotRow relay pb shMemberOf 0).stored.effective = none := by
  have hout : selectValue (127 :: List.range (relay * 8)) 127 = 127 :=
    if_pos List.mem_cons_self
  exact stored_of_none hout

/-- **A used slot comes back as it was exactly if its row has options for it.** -/
theorem stored_slotRow_iff {b : BindSlot} (hb : b.Stored) (hused : b.Used) (relay : Nat)
    (pb : Bool) (shMemberOf : Nat → Bool) :
    (slotRow relay pb shMemberOf (b.bits % 4096)).stored.effective = b.effective ↔
      b.output.toNat < relay * 8 ∧ b.trig ∈ trigOptions pb ∧
        b.act ∈ actOptions (shMemberOf b.output.toNat) := by
  have hta := hb.trigAct_lt
  have hlt : b.output.toNat < 120 := by
    refine hb.output.resolve_left ?_
    exact hused.2
  have hsum : b.trigAct.toNat = b.act * 8 + b.trig := by
    rw [b.act_eq, b.trig_eq]
    omega
  have hact : b.act ≤ 3 := by
    rw [b.act_eq]
    omega
  have htrig := hb.trig_le
  have htrig0 : b.trig ≠ 0 := hused.1
  have hbits : b.bits % 4096 = b.output.toNat * 32 + (b.act * 8 + b.trig) := by
    rw [hb.bits_eq hused, hsum]
    omega
  obtain ⟨h₁, h₂, h₃, _⟩ := fields_of_sum (show b.output.toNat ≤ 127 by omega) hact
    (show b.trig ≤ 7 by omega)
  have hout : slotOut (b.bits % 4096) = b.output.toNat := by
    rw [slotOut, hbits, h₁, h₃, if_neg htrig0]
  have hv : b.bits % 4096 ≠ 0 := by
    rw [hbits]
    omega
  have hrow : slotRow relay pb shMemberOf (b.bits % 4096) =
      ⟨selectValue (127 :: List.range (relay * 8)) b.output.toNat,
        selectValue (trigOptions pb) b.trig,
        selectValue (actOptions (shMemberOf b.output.toNat)) b.act⟩ := by
    rw [slotRow, hout, if_neg hv, hbits, h₁, h₂]
  have hbeff : b.effective =
      some (UInt8.ofNat (b.act * 8 + b.trig), UInt8.ofNat b.output.toNat) := by
    have hmask : b.trigAct &&& 0x1F = b.trigAct := by
      rw [← UInt8.toNat_inj, UInt8.toNat_and]
      rw [show b.trigAct.toNat &&& UInt8.toNat 0x1F = b.trigAct.toNat % 32 from
        Nat.and_two_pow_sub_one_eq_mod _ 5]
      omega
    rw [BindSlot.effective, if_pos hused, hmask, ← hsum, UInt8.ofNat_toNat, UInt8.ofNat_toNat]
  rw [hrow]
  by_cases hrelay : b.output.toNat < relay * 8
  · have hsel : selectValue (127 :: List.range (relay * 8)) b.output.toNat = b.output.toNat :=
      if_pos (List.mem_cons_of_mem _ (List.mem_range.mpr hrelay))
    have hselTrig := trigOptions_bounds (selectValue_mem (trigOptions_ne_nil pb) b.trig)
    have hselAct := actOptions_le
      (selectValue_mem (actOptions_ne_nil (shMemberOf b.output.toNat)) b.act)
    rw [stored_effective (by rw [hsel]; exact hlt) hselAct hselTrig, hbeff, hsel,
      ← selectValue_eq_iff (trigOptions_ne_nil pb),
      ← selectValue_eq_iff (actOptions_ne_nil (shMemberOf b.output.toNat)), Option.some.injEq,
      Prod.mk.injEq]
    dsimp only
    constructor
    · intro ⟨heq, _⟩
      have hval := congrArg UInt8.toNat heq
      rw [UInt8.toNat_ofNat', UInt8.toNat_ofNat'] at hval
      omega
    · intro ⟨_, ht, ha⟩
      rw [ht, ha]
      exact ⟨rfl, rfl⟩
  · have hmem : b.output.toNat ∉ 127 :: List.range (relay * 8) := by
      rw [List.mem_cons, List.mem_range]
      omega
    have hnone : selectValue (127 :: List.range (relay * 8)) b.output.toNat = 127 := if_neg hmem
    rw [stored_of_none hnone, hbeff]
    exact iff_of_false nofun fun h => hrelay h.1

/-! ## The form -/

namespace IoPanel

variable (s : IoPanel)

theorem mem_hex_text {c : UInt8} {t : CStr} (h : c ∈ t) (ht : ∀ c ∈ t, isHexDigit c = true) :
    c ≠ 38 := by
  intro h38
  have hc := ht c h
  rw [h38] at hc
  cases hc

theorem isHexDigit_of_mem_hex3 {v : Nat} : ∀ c ∈ hex3 v, isHexDigit c = true := by
  intro c hc
  simp only [hex3, List.mem_cons, List.not_mem_nil, or_false] at hc
  rcases hc with rfl | rfl | rfl <;> exact isHexDigit_hexLower _ (nibble_lt _)

theorem isHexDigit_of_mem_hex2 {v : Nat} : ∀ c ∈ hex2 v, isHexDigit c = true := by
  intro c hc
  simp only [hex2, List.mem_cons, List.not_mem_nil, or_false] at hc
  rcases hc with rfl | rfl <;> exact isHexDigit_hexLower _ (nibble_lt _)

/-- The handler reads the form as it was sent. -/
theorem form_params : extractUriParameters (queryText s.form) = s.form := by
  have hnames : ∀ n ∈ [ascii "types", ascii "binds", ascii "din", ascii "relay"],
      38 ∉ n ∧ 61 ∉ n := by decide
  have hdigits (n : Nat) : (38 : UInt8) ∉ fmtDecimal n := not_mem_fmtDecimal (by decide) n
  refine extractUriParameters_queryText (by simp [form]) hnames fun v hv => ?_
  simp only [form, List.map_cons, List.map_nil, List.mem_cons, List.not_mem_nil, or_false] at hv
  rcases hv with rfl | rfl | rfl | rfl
  · intro h
    obtain ⟨b, _, hb⟩ := List.mem_flatMap.mp h
    exact mem_hex_text hb isHexDigit_of_mem_hex2 rfl
  · intro h
    obtain ⟨b, _, hb⟩ := List.mem_flatMap.mp h
    exact mem_hex_text hb isHexDigit_of_mem_hex3 rfl
  · exact hdigits _
  · exact hdigits _

theorem length_flatMap_const {f : Nat → CStr} {w : Nat} (h : ∀ n, (f n).length = w) (n : Nat) :
    ((List.range n).flatMap f).length = n * w := by
  have hw : ∀ e ∈ (List.range n).map f, e.length = w := by
    intro e he
    obtain ⟨k, _, rfl⟩ := List.mem_map.mp he
    exact h k
  have huniform := Delimited.length_flatten_uniform hw
  rw [List.length_map, List.length_range] at huniform
  exact huniform

/-- The form always reaches the handler: even for every input there is it has less than
2048 bytes. -/
theorem form_fits (hloc : s.app.localInputs ≤ 8) : RequestFits (ascii "/iocfg.cgi") s.form := by
  have hdin := s.configGetDinDevices_le
  have hrelay := WebState.configGetRelayDevices_le s.app.hub
  have hrows : s.inputTags.rows ≤ 128 := by
    change s.app.configGetDinDevices * 8 + s.app.localInputs ≤ 128
    omega
  have htypes := length_flatMap_const (f := fun b =>
    hex2 (typeByte (fun i => decide (i < s.inputTags.rows) && s.inputTags.isPB i) b))
    (w := 2) (fun _ => rfl) ((s.inputTags.rows + 7) / 8)
  have hbinds := length_flatMap_const (f := fun k => hex3 (s.row k).packed) (w := 3)
    (fun _ => rfl) (s.inputTags.rows * cfgBindSlots)
  have hdinLen := length_fmtDecimal_le (n := s.app.configGetDinDevices) (k := 2) (by decide)
    (by omega)
  have hrelayLen := length_fmtDecimal_le (n := s.app.hub.configGetRelayDevices) (k := 2)
    (by decide) (by omega)
  change (fmtDecimal s.inputTags.din).length ≤ 2 at hdinLen
  change (fmtDecimal s.web.pageTags.relay).length ≤ 2 at hrelayLen
  have h₁ : (ascii "GET ").length = 4 := by decide
  have h₂ : (ascii "/iocfg.cgi").length = 10 := by decide
  have h₃ : (ascii " HTTP/1.1\r\n").length = 11 := by decide
  have h₄ : (ascii "types").length = 5 := by decide
  have h₅ : (ascii "binds").length = 5 := by decide
  have h₆ : (ascii "din").length = 3 := by decide
  have h₇ : (ascii "relay").length = 5 := by decide
  unfold cfgBindSlots at hbinds
  unfold RequestFits queryText form httpdMaxReqLength
  simp only [List.map_cons, List.map_nil, List.intercalate_cons_cons, List.intercalate_singleton,
    List.length_append, List.length_cons, List.length_nil, h₁, h₂, h₃, h₄, h₅, h₆, h₇, cfgBindSlots]
  omega

/-- The counts come back as they were. -/
theorem configGetDinDevices_submit :
    (s.app.ioConfigCGIHandler s.form).configGetDinDevices = s.app.configGetDinDevices := by
  have hdin := s.configGetDinDevices_le
  have hrelay := WebState.configGetRelayDevices_le s.app.hub
  have hdinParam : findCGIParameter (ascii "din") s.form =
      some (fmtDecimal s.app.configGetDinDevices) := rfl
  have hrelayParam : findCGIParameter (ascii "relay") s.form =
      some (fmtDecimal s.app.hub.configGetRelayDevices) := rfl
  have hread (n : Nat) (hn : n ≤ 15) : (ustrtoul (fmtDecimal n) 10).toNat % 256 = n := by
    rw [readsDecimals_ustrtoul n (by omega), BitVec.toNat_ofNat]
    omega
  have hset (io r : Nat) (hr : r ≤ 15) :
      HaMqtt.configSetRelayDevices io r &&& 0x0F = io &&& 0x0F := by
    rw [HaMqtt.configSetRelayDevices, if_neg (by omega)]
    apply Nat.eq_of_testBit_eq
    intro j
    have hmask : (0x0F : Nat).testBit j = decide (j < 4) := Nat.testBit_two_pow_sub_one 4 j
    rw [Nat.testBit_and, Nat.testBit_or, Nat.testBit_and, Nat.testBit_shiftLeft, hmask]
    by_cases hj : j < 4
    · have hnot : ¬4 ≤ j := by omega
      simp [hj, hnot]
    · simp [hj]
  have hsetDin (io d : Nat) (hd : d ≤ 15) :
      HaMqtt.configSetDinDevices io d &&& 0x0F = d := by
    rw [HaMqtt.configSetDinDevices, if_neg (by omega)]
    apply Nat.eq_of_testBit_eq
    intro j
    have hmask : (0x0F : Nat).testBit j = decide (j < 4) := Nat.testBit_two_pow_sub_one 4 j
    rw [Nat.testBit_and, Nat.testBit_or, Nat.testBit_and, hmask]
    by_cases hj : j < 4
    · have hF0 : ∀ j < 4, (0xF0 : Nat).testBit j = false := by decide
      simp [hj, hF0 j hj]
    · have hdj : d.testBit j = false := by
        refine Nat.testBit_lt_two_pow (lt_of_lt_of_le (show d < 2 ^ 4 by omega) ?_)
        exact Nat.pow_le_pow_right (by decide) (by omega)
      simp [hj, hdj]
  change HaMqtt.setRelayParam ustrtoul (HaMqtt.setDinParam ustrtoul s.app.hub.ioDevices s.form)
    s.form &&& 0x0F = _
  rw [HaMqtt.setRelayParam, hrelayParam]
  dsimp only
  rw [hread _ hrelay, hset _ _ hrelay, HaMqtt.setDinParam, hdinParam]
  dsimp only
  rw [hread _ hdin, hsetDin _ _ hdin]

theorem ioInputCount_submit :
    (s.app.ioConfigCGIHandler s.form).ioInputCount = s.app.ioInputCount := by
  have hdin := s.configGetDinDevices_submit
  have hloc : (s.app.ioConfigCGIHandler s.form).HasLocalInputs ↔ s.app.HasLocalInputs := by
    unfold HaMqtt.HasLocalInputs
    rw [hdin]
    rfl
  unfold HaMqtt.ioInputCount
  by_cases h : s.app.HasLocalInputs
  · rw [if_pos (hloc.mpr h), if_pos h, hdin]
    rfl
  · rw [if_neg (fun hl => h (hloc.mp hl)), if_neg h, hdin]

/-- The slots of every input are what their rows pack; the others stay. -/
theorem binds_submit (hloc : s.app.localInputs ≤ 8) (i : Fin cfgMaxInputs)
    (k : Fin cfgBindSlots) : s.submit.binds i k =
      if i.val < s.app.ioInputCount then (s.row (i.val * cfgBindSlots + k.val)).stored
      else s.binds i k := by
  have hk : k.val < 4 := k.isLt
  have hi : i.val < 120 := i.isLt
  have hrows := s.ioInputCount_le_rows
  have hcount : s.app.ioInputCount ≤ 120 := s.ioInputCount_le
  have hmin : min s.app.ioInputCount cfgMaxInputs = s.app.ioInputCount := Nat.min_eq_left hcount
  have hparam : findCGIParameter (ascii "binds") s.form =
      some (((List.range (s.inputTags.rows * cfgBindSlots)).map fun k =>
        (s.row k).packed).map hex3).flatten := by
    rw [List.map_map]
    rfl
  rw [submit, if_pos (s.form_fits hloc), form_params]
  change s.binds.bindsParam (s.app.ioConfigCGIHandler s.form).ioInputCount s.form i k = _
  rw [ioInputCount_submit, BindTable.bindsParam, hparam]
  dsimp only
  rw [hmin, BindTable.bindsLoop_hex3 (by
    unfold cfgMaxInputs cfgBindSlots
    omega), Nat.zero_add, Nat.sub_zero]
  unfold cfgBindSlots
  by_cases hin : i.val < s.app.ioInputCount
  · rw [if_neg (by omega), if_pos hin, List.getElem?_map, List.getElem?_range (by omega)]
    rfl
  · rw [if_pos (show i.val * 4 + k.val < 0 ∨ s.app.ioInputCount * 4 ≤ i.val * 4 + k.val by omega),
      if_neg hin]

/-- The row of a slot shows the slot if the tag has it, and otherwise nothing. -/
theorem row_eq {i : Fin cfgMaxInputs} (hi : i.val < s.app.ioInputCount) (k : Fin cfgBindSlots) :
    s.row (i.val * cfgBindSlots + k.val) =
      slotRow (s.app.hub.configGetRelayDevices) (s.app.configInputIsPushbutton i)
        s.web.pageTags.shMemberOf
        (if i.val * cfgBindSlots + k.val < 266 then (s.binds i k).bits % 4096 else 0) := by
  have hk : k.val < 4 := k.isLt
  have hcount : s.app.ioInputCount ≤ 120 := s.ioInputCount_le
  have hdiv : (i.val * cfgBindSlots + k.val) / cfgBindSlots = i.val := by
    unfold cfgBindSlots
    omega
  have hmod : (i.val * cfgBindSlots + k.val) % cfgBindSlots = k.val := by
    unfold cfgBindSlots
    omega
  have hget : s.binds.configBindingGet i.val k.val = s.binds i k := dif_pos ⟨i.isLt, k.isLt⟩
  have hlt : i.val * cfgBindSlots + k.val < min s.app.ioInputCount cfgMaxInputs * cfgBindSlots := by
    rw [Nat.min_eq_left s.ioInputCount_le]
    unfold cfgBindSlots
    omega
  have hslot := s.slotV_inputTags (i.val * cfgBindSlots + k.val)
  rw [hdiv, hmod, hget] at hslot
  simp only [hlt, true_and] at hslot
  rw [row, hdiv, s.isPB_inputTags hi, hslot]
  rfl

theorem act_mem_actOptions_iff {b : BindSlot} {member : Bool} :
    b.act ∈ actOptions member ↔ b.act ≤ 1 ∨ (b.act = 3 ↔ member = true) := by
  have hact : b.act ≤ 3 := by
    rw [b.act_eq]
    omega
  cases member <;> simp [actOptions] <;> omega

/-- **An unedited save leaves the effective bindings of every input exactly if the page can
show every used slot.** -/
theorem bindings_unedited_iff (hreach : s.binds.Reachable) (hloc : s.app.localInputs ≤ 8) :
    BindingsKept s.binds s.submit.binds ↔
      ∀ i k, i.val < s.app.ioInputCount → (s.binds i k).Used → s.Shown i k := by
  refine forall_congr' fun i => forall_congr' fun k => ?_
  rw [s.binds_submit hloc]
  by_cases hi : i.val < s.app.ioInputCount
  · rw [if_pos hi, s.row_eq hi]
    by_cases hused : (s.binds i k).Used
    · by_cases htag : i.val * cfgBindSlots + k.val < 266
      · rw [if_pos htag, stored_slotRow_iff (hreach.stored i k) hused, act_mem_actOptions_iff,
          s.web.shMemberOf_iff]
        constructor
        · intro ⟨hout, htrig, hact⟩ _ _
          exact ⟨htag, hout, htrig, hact⟩
        · intro h
          obtain ⟨_, hout, htrig, hact⟩ := h hi hused
          exact ⟨hout, htrig, hact⟩
      · have hsome : (s.binds i k).effective ≠ none := by
          rw [BindSlot.effective, if_pos hused]
          nofun
        rw [if_neg htag, stored_slotRow_zero]
        exact iff_of_false (fun h => hsome h.symm) fun h => htag (h hi hused).inTag
    · have hbits : (s.binds i k).bits % 4096 = 0 := by rw [BindSlot.bits, if_neg hused]
      have hnone : (s.binds i k).effective = none := if_neg hused
      rw [hbits, ite_self, stored_slotRow_zero, hnone]
      exact iff_of_true rfl fun _ h => absurd h hused
  · rw [if_neg hi]
    exact iff_of_true rfl fun h => absurd h hi

end IoPanel

/-! ## Slot 266 -/

/-- Nine input devices and one relay device. -/
def nineDevices (binds : BindTable) : IoPanel where
  app := {
    hub := { plainPanel.hub with ioDevices := 0x19 }
    cfg := ⟨1883#16, false, [], [], [], [], []⟩
    devId := []
    topicStatus := []
    shName := fun _ => []
    inputType := fun _ => 0#8
    dinDevices := 9
    localInputs := 0
    hasTempSensor := false
    inSnap := fun _ => 0#8
    pubStep := 0
    pubMax := 0 }
  out := .configOutputSetDefaults
  rooms := .configRoomSetDefaults
  binds := binds

theorem binds_nineDevices (binds : BindTable) : (nineDevices binds).binds = binds := rfl

/-- A pushbutton with two bindings and a switch with one: a click toggles output 1 and a
double click switches output 2 off; the switch follows with output 8. -/
def usedBindings : List BindSlot :=
  [⟨0x13, 0⟩, ⟨0x04, 1⟩, .unused, .unused, ⟨0x15, 7⟩]

/-- The table after the request that stores them. -/
def usedTable : BindTable :=
  BindTable.defaults.bindsParam 72
    [(ascii "binds", ((usedBindings.map BindSlot.bits).map hex3).flatten)]

/-- The first input is a pushbutton. -/
def usedPanel : IoPanel :=
  { nineDevices usedTable with
    app := { (nineDevices usedTable).app with inputType := fun b => if b = 0 then 1#8 else 0#8 } }

/-- The slots of the table are those stored, and defaults behind them. -/
theorem usedTable_slot (i : Fin cfgMaxInputs) (k : Fin cfgBindSlots) :
    usedTable i k = (usedBindings[i.val * cfgBindSlots + k.val]?).getD
      ⟨bindTrigChange, bindOutputNoneByte⟩ := by
  have hk : k.val < 4 := k.isLt
  rw [usedTable, BindTable.bindsParam_hex3]
  generalize hn : i.val * cfgBindSlots + k.val = n
  by_cases hin : n < 5
  · rw [if_neg (by unfold cfgBindSlots cfgMaxInputs; omega)]
    interval_cases n <;> rfl
  · have hnone : usedBindings[n]? = none := List.getElem?_eq_none (Nat.not_lt.mp hin)
    have hnone' : (usedBindings.map BindSlot.bits)[n]? = none := by
      rw [List.getElem?_map, hnone]
      rfl
    rw [hnone, hnone']
    exact ite_self _

/-- The page shows every slot in use. -/
theorem shown_usedPanel (i : Fin cfgMaxInputs) (k : Fin cfgBindSlots)
    (hused : (usedPanel.binds i k).Used) : usedPanel.Shown i k := by
  have hk : k.val < 4 := k.isLt
  have hslot : usedPanel.binds i k = _ := usedTable_slot i k
  have hin : i.val * cfgBindSlots + k.val < 5 := by
    by_contra hout
    rw [hslot, List.getElem?_eq_none (Nat.not_lt.mp hout)] at hused
    exact absurd rfl hused.2
  have hinput : (i.val * cfgBindSlots + k.val) / 4 = i.val := by
    unfold cfgBindSlots
    omega
  have hall : ∀ m : Fin 5, ∀ b, b = (usedBindings[m.val]?).getD
      ⟨bindTrigChange, bindOutputNoneByte⟩ → b.Used → b.output.toNat < 8 ∧
        b.trig ∈ trigOptions (usedPanel.app.configInputIsPushbutton (m.val / 4)) ∧
        (b.act ≤ 1 ∨ (b.act = 3 ↔ usedPanel.web.IsMember b.output.toNat)) := by
    simp only [forall_eq]
    decide +kernel
  obtain ⟨hout, htrig, hact⟩ := hall ⟨_, hin⟩ _ hslot hused
  dsimp only at htrig
  rw [hinput] at htrig
  exact ⟨by omega, hout, htrig, hact⟩

/-- **Bindings in use stay.** -/
theorem bindings_unedited_used : BindingsKept usedPanel.binds usedPanel.submit.binds ∧
    (usedPanel.binds ⟨0, by decide⟩ ⟨0, by decide⟩).effective = some (0x13, 0) ∧
    (usedPanel.binds ⟨0, by decide⟩ ⟨1, by decide⟩).effective = some (0x04, 1) ∧
    (usedPanel.binds ⟨1, by decide⟩ ⟨0, by decide⟩).effective = some (0x15, 7) := by
  have hreach : usedTable.Reachable := .request _ _ _ .defaults
  have hslot (i : Fin cfgMaxInputs) (k : Fin cfgBindSlots) : usedPanel.binds i k = _ :=
    usedTable_slot i k
  refine ⟨(usedPanel.bindings_unedited_iff hreach (by decide)).mpr
    fun i k _ hused => shown_usedPanel i k hused, ?_, ?_, ?_⟩
  · rw [hslot]
    decide
  · rw [hslot]
    decide
  · rw [hslot]
    decide

/-- The third slot of input 67 (number 66) toggles output 1 on every change. -/
def lateBinding : BindSlot := ⟨0x15, 0⟩

/-- The digits of a request that stores it. -/
def lateBindingDigits : List Nat := List.replicate 266 0 ++ [lateBinding.bits]

/-- The table after the request. -/
def lateTable : BindTable :=
  BindTable.defaults.bindsParam 72 [(ascii "binds", (lateBindingDigits.map hex3).flatten)]

theorem lateTable_slot : lateTable ⟨66, by decide⟩ ⟨2, by decide⟩ = lateBinding := by
  have hget : lateBindingDigits[266]? = some lateBinding.bits := by
    rw [lateBindingDigits, List.getElem?_append_right (by rw [List.length_replicate])]
    rw [List.length_replicate, Nat.sub_self]
    rfl
  rw [lateTable, BindTable.bindsParam_hex3, if_neg (by decide)]
  change (lateBindingDigits[266]?).elim _ _ = _
  rw [hget]
  decide

/-- The save erases it. -/
theorem late_binding_erased : ¬BindingsKept (nineDevices lateTable).binds
    (nineDevices lateTable).submit.binds := by
  intro h
  have hkept := h ⟨66, by decide⟩ ⟨2, by decide⟩
  have hin : (⟨66, by decide⟩ : Fin cfgMaxInputs).val <
      (nineDevices lateTable).app.ioInputCount := by decide
  rw [IoPanel.binds_submit _ (by decide), if_pos hin, IoPanel.row_eq _ hin, if_neg (by decide),
    stored_slotRow_zero] at hkept
  rw [binds_nineDevices, lateTable_slot] at hkept
  exact absurd hkept (by decide)

end HomeAuto
