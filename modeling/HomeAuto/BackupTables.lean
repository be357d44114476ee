import HomeAuto.BackupRestore
import HomeAuto.BindRoundTrip

/-!
# The input types and bindings in a backup

Both are texts of hexadecimal digits, which every browser reads as they are.  The device reads
the types of all inputs back; of the bindings it takes those of 16 inputs, and only of as many
as the restored devices have.
-/

namespace HomeAuto

/-! ## Digits -/

theorem plainAttr_of_isHexDigit {c : UInt8} (h : isHexDigit c = true) :
    PlainAttr c ∧ c ≠ 92 ∧ c ≠ 0 := by
  simp only [isHexDigit, Bool.or_eq_true, Bool.and_eq_true, decide_eq_true_eq,
    UInt8.le_iff_toNat_le] at h
  have hne (d : UInt8) (hd : d.toNat < 48 ∨ d.toNat = 92) : c ≠ d := by
    intro heq
    subst heq
    simp only [UInt8.reduceToNat] at h
    omega
  simp only [UInt8.reduceToNat] at h
  refine ⟨⟨?_, ?_, hne 34 (by decide), hne 38 (by decide)⟩, hne 92 (by decide), hne 0 (by decide)⟩
  · rw [UInt8.le_iff_toNat_le]
    simp only [UInt8.reduceToNat]
    omega
  · rw [UInt8.le_iff_toNat_le]
    simp only [UInt8.reduceToNat]
    omega

theorem isHexDigit_ssiIoTypes (push : Nat → Bool) {inputs : Nat} (h : inputs ≤ 120) :
    ∀ c ∈ ssiIoTypes push inputs, isHexDigit c = true := by
  intro c hc
  rw [ssiIoTypes_eq push h] at hc
  obtain ⟨e, he, hin⟩ := List.mem_flatten.mp hc
  obtain ⟨b, -, hb⟩ := List.mem_map.mp he
  rw [← hb] at hin
  exact IoPanel.isHexDigit_of_mem_hex2 c hin

theorem isHexDigit_ssiIoBinds (t : BindTable) (inputs : Nat) :
    ∀ c ∈ ssiIoBinds t inputs, isHexDigit c = true := by
  intro c hc
  rw [ssiIoBinds_eq] at hc
  obtain ⟨e, he, hin⟩ := List.mem_flatten.mp hc
  obtain ⟨k, -, hk⟩ := List.mem_map.mp he
  rw [← hk] at hin
  exact IoPanel.isHexDigit_of_mem_hex3 c hin

/-! ## The types -/

/-- The type of one input, after another or the same one was set. -/
theorem isPushbutton_configSetInputPushbutton (types : Nat → BitVec 8) (i : Nat) (push : Bool)
    {j : Nat} (hj : j < cfgMaxInputs) :
    isPushbutton (HaMqtt.configSetInputPushbutton types i push) j =
      if i = j then push else isPushbutton types j := by
  have hread (t : Nat → BitVec 8) : isPushbutton t j = (t (j / 8)).getLsbD (j % 8) := by
    unfold isPushbutton
    rw [if_neg (Nat.not_le.mpr hj), and_bit_ne_zero _ (Nat.mod_lt _ (by decide))]
  have hmod (n : Nat) : n % 8 < 8 := Nat.mod_lt _ (by decide)
  rw [hread, hread]
  unfold HaMqtt.configSetInputPushbutton
  split
  · rename_i hout
    rw [if_neg (by omega)]
  · by_cases hbyte : j / 8 = i / 8
    · have hbit : (decide (i % 8 = j % 8)) = decide (i = j) := by
        apply decide_eq_decide.mpr
        constructor <;> omega
      rw [hbyte, Function.update_self, ← BitVec.twoPow_eq]
      cases push with
      | true =>
          rw [if_pos rfl, BitVec.getLsbD_or, BitVec.getLsbD_twoPow, decide_eq_true (hmod i), hbit]
          by_cases heq : i = j <;> simp [heq]
      | false =>
          rw [if_neg (by decide), BitVec.getLsbD_and, BitVec.getLsbD_not, BitVec.getLsbD_twoPow,
            decide_eq_true (hmod i), decide_eq_true (hmod j), hbit]
          by_cases heq : i = j <;> simp [heq]
    · have hne : i ≠ j := by
        intro heq
        exact hbyte (by rw [heq])
      rw [Function.update_of_ne hbyte, if_neg hne]

/-- The types of the inputs of one byte. -/
theorem isPushbutton_setTypeByte (types : Nat → BitVec 8) (iByte : Nat) (val : BitVec 8) {j : Nat}
    (hj : j < cfgMaxInputs) : isPushbutton (HaMqtt.setTypeByte types iByte val) j =
      if j / 8 = iByte then val.getLsbD (j % 8) else isPushbutton types j := by
  have hfold (n : Nat) (hn : n ≤ 8) : isPushbutton ((List.range n).foldl (fun t iBit =>
      HaMqtt.configSetInputPushbutton t (iByte * 8 + iBit)
        ((val &&& (1#8 <<< iBit)) != 0#8)) types) j =
      if iByte * 8 ≤ j ∧ j < iByte * 8 + n then val.getLsbD (j % 8)
      else isPushbutton types j := by
    induction n with
    | zero =>
        rw [if_neg (by omega)]
        rfl
    | succ n ih =>
        rw [List.range_succ, List.foldl_append, List.foldl_cons, List.foldl_nil,
          isPushbutton_configSetInputPushbutton _ _ _ hj, ih (by omega)]
        by_cases heq : iByte * 8 + n = j
        · have hmod : j % 8 = n := by omega
          rw [if_pos heq, if_pos (by omega), and_bit_ne_zero _ (by omega), hmod]
        · have hiff : (iByte * 8 ≤ j ∧ j < iByte * 8 + (n + 1)) ↔
              (iByte * 8 ≤ j ∧ j < iByte * 8 + n) := by omega
          rw [if_neg heq]
          simp only [hiff]
  have hiff : (iByte * 8 ≤ j ∧ j < iByte * 8 + 8) ↔ j / 8 = iByte := by omega
  have hall := hfold 8 (Nat.le_refl 8)
  simp only [hiff] at hall
  exact hall

/-- The device reads the digits of a byte back. -/
theorem hexNibble_hex2 (v : Nat) : (HaMqtt.hexNibble (hexLower ((v >>> 4) &&& 0xF)) <<< 4) |||
    HaMqtt.hexNibble (hexLower (v &&& 0xF)) = BitVec.ofNat 8 v := by
  have hdigit : ∀ d < 16, HaMqtt.hexNibble (hexLower d) = BitVec.ofNat 8 d := by decide
  have hhigh := nibble_lt (v >>> 4)
  have hlow := nibble_lt v
  rw [hdigit _ hhigh, hdigit _ hlow]
  apply BitVec.eq_of_toNat_eq
  have hshift : ((v >>> 4) &&& 0xF) <<< 4 < 2 ^ 8 := by
    rw [Nat.shiftLeft_eq]
    omega
  rw [BitVec.toNat_or, BitVec.toNat_shiftLeft, BitVec.toNat_ofNat, BitVec.toNat_ofNat,
    BitVec.toNat_ofNat, Nat.mod_eq_of_lt (by omega : (v >>> 4) &&& 0xF < 2 ^ 8),
    Nat.mod_eq_of_lt (by omega : v &&& 0xF < 2 ^ 8), Nat.mod_eq_of_lt hshift, nibbles_join]

/-- The loop over the digits of bytes sets the types that are in them. -/
theorem isPushbutton_typesLoop {vs : List Nat} {b : Nat} (hb : b + vs.length ≤ 15)
    (types : Nat → BitVec 8) {j : Nat} (hj : j < cfgMaxInputs) :
    isPushbutton (HaMqtt.typesLoop (vs.map hex2).flatten b types) j =
      if b ≤ j / 8 then ((vs[j / 8 - b]?).elim (isPushbutton types j) fun v => v.testBit (j % 8))
      else isPushbutton types j := by
  induction vs generalizing b types with
  | nil =>
      rw [List.getElem?_nil, Option.elim_none, ite_self]
      rfl
  | cons v vs ih =>
      rw [List.length_cons] at hb
      have hstep : HaMqtt.typesLoop ((v :: vs).map hex2).flatten b types =
          HaMqtt.typesLoop (vs.map hex2).flatten (b + 1)
            (HaMqtt.setTypeByte types b (BitVec.ofNat 8 v)) := by
        rw [← hexNibble_hex2 v]
        exact if_pos (by omega)
      rw [hstep, ih (by omega), isPushbutton_setTypeByte _ _ _ hj]
      rcases Nat.lt_trichotomy (j / 8) b with hlt | heq | hgt
      · rw [if_neg (by omega), if_neg (by omega), if_neg (by omega)]
      · rw [if_neg (by omega), if_pos heq, if_pos (by omega), heq, Nat.sub_self,
          List.getElem?_cons_zero, Option.elim_some, BitVec.getLsbD_ofNat,
          decide_eq_true (Nat.mod_lt _ (by decide)), Bool.true_and]
      · have hsub : j / 8 - b = j / 8 - (b + 1) + 1 := by omega
        have hother : ¬j / 8 = b := by omega
        rw [if_pos (Nat.succ_le_of_lt hgt), if_neg hother, if_pos (Nat.le_of_lt hgt), hsub,
          List.getElem?_cons_succ]

/-- **The types come back.** -/
theorem isPushbutton_restored (push : Nat → Bool) {inputs : Nat} (h : inputs ≤ 120)
    (types : Nat → BitVec 8) {i : Nat} (hi : i < inputs) :
    isPushbutton (HaMqtt.typesLoop (ssiIoTypes push inputs) 0 types) i = push i := by
  have hlt : i < cfgMaxInputs := Nat.lt_of_lt_of_le hi h
  have hmap : ((List.range ((inputs + 7) / 8)).map fun iByte => hex2 (typeByte push iByte)) =
      ((List.range ((inputs + 7) / 8)).map (typeByte push)).map hex2 := by
    rw [List.map_map]
    rfl
  have hbyte : ((List.range ((inputs + 7) / 8)).map (typeByte push))[i / 8]? =
      some (typeByte push (i / 8)) := by
    rw [List.getElem?_map, List.getElem?_range (by omega), Option.map_some]
  have hindex : i / 8 * 8 + i % 8 = i := by omega
  rw [ssiIoTypes_eq push h, hmap, isPushbutton_typesLoop (by simp; omega) types hlt,
    if_pos (Nat.zero_le _), Nat.sub_zero, hbyte, Option.elim_some,
    testBit_typeByte _ _ (Nat.mod_lt _ (by decide)), hindex]

/-! ## The bindings -/

/-- A slot that is used. -/
theorem stored_change : BindSlot.Stored ⟨bindTrigChange, 0⟩ :=
  ⟨by decide, by decide, .inr (by decide)⟩

/-- A slot that the tag prints is stored as `/iocfg.cgi` would store it. -/
theorem restoreSlot_bits {b : BindSlot} (hb : b.Stored) :
    restoreSlot (b.bits % 4096) = BindSlot.ofBits (b.bits % 4096) := by
  unfold restoreSlot BindSlot.ofBits
  by_cases hzero : b.bits % 4096 &&& 7 = 0
  · by_cases hused : b.Used
    · have htrig : b.bits % 4096 &&& 7 = b.trig := by
        have hmask (v : Nat) : v &&& 7 = v % 8 := Nat.and_two_pow_sub_one_eq_mod v 3
        rw [hb.bits_eq hused, hmask, b.trig_eq]
        omega
      exact absurd (htrig.symm.trans hzero) hused.1
    · have hbits : b.bits = 0 := if_neg hused
      rw [hbits]
      rfl
  · rw [if_neg hzero, if_neg hzero]

/-- The slot that comes back does what the printed one does. -/
theorem effective_ofBits {b : BindSlot} (hb : b.Stored) :
    (BindSlot.ofBits (b.bits % 4096)).checked.effective = b.effective := by
  by_cases hused : b.Used
  · have hout : b.output.toNat < cfgMaxOutputs := hb.output.resolve_left hused.2
    have htrig : b.bits % 4096 &&& 7 ≠ 0 := by
      have hmask (v : Nat) : v &&& 7 = v % 8 := Nat.and_two_pow_sub_one_eq_mod v 3
      have hne := hused.1
      rw [hb.bits_eq hused, hmask]
      rw [b.trig_eq] at hne
      omega
    have hlt := hb.trigAct_lt
    unfold cfgMaxOutputs at hout
    have hfive (v : Nat) : v &&& 0x1F = v % 32 := Nat.and_two_pow_sub_one_eq_mod v 5
    have hseven (v : Nat) : v &&& 0x7F = v % 128 := Nat.and_two_pow_sub_one_eq_mod v 7
    have hact : (b.bits % 4096) &&& 0x1F = b.trigAct.toNat := by
      rw [hb.bits_eq hused, hfive]
      omega
    have houtput : ((b.bits % 4096) >>> 5) &&& 0x7F = b.output.toNat := by
      rw [hb.bits_eq hused, hseven, Nat.shiftRight_eq_div_pow]
      omega
    have hsame : BindSlot.ofBits (b.bits % 4096) = b := by
      unfold BindSlot.ofBits
      rw [if_neg htrig, hact, houtput, UInt8.ofNat_toNat, UInt8.ofNat_toNat]
    rw [hsame, hb.checked_eq]
  · have hbits : b.bits = 0 := if_neg hused
    have hnone : b.effective = none := if_neg hused
    rw [hbits, hnone]
    decide

/-- The loop of the restore over printed slots is that of `/iocfg.cgi`. -/
theorem restoreBindsLoop_hex3 {left : Nat} {vs : List Nat}
    (hvs : ∀ v ∈ vs, restoreSlot (v % 4096) = BindSlot.ofBits (v % 4096)) (k : Nat)
    (t : BindTable) : restoreBindsLoop left k (vs.map hex3).flatten t =
      BindTable.bindsLoop left k (vs.map hex3).flatten t := by
  induction left generalizing vs k t with
  | zero => cases vs <;> rfl
  | succ left ih =>
      cases vs with
      | nil => rfl
      | cons v vs =>
          have hv := hvs v List.mem_cons_self
          rw [List.map_cons, List.flatten_cons]
          change restoreBindsLoop left (k + 1) (vs.map hex3).flatten
              (t.configBindingSet (k / cfgBindSlots) (k % cfgBindSlots) (restoreSlot _)) =
            BindTable.bindsLoop left (k + 1) (vs.map hex3).flatten
              (t.configBindingSet (k / cfgBindSlots) (k % cfgBindSlots) (.ofBits _))
          rw [nibbles_hex3, hv]
          exact ih (fun w hw => hvs w (List.mem_cons_of_mem v hw)) (k + 1) _

/-- The slots before and behind the loop are left as they are. -/
theorem restoreBindsLoop_outside {left k : Nat} (hk : k + left ≤ cfgMaxInputs * cfgBindSlots)
    (p : CStr) (t : BindTable) (i : Fin cfgMaxInputs) (j : Fin cfgBindSlots)
    (hout : i.val * cfgBindSlots + j.val < k ∨ k + left ≤ i.val * cfgBindSlots + j.val) :
    restoreBindsLoop left k p t i j = t i j := by
  fun_induction restoreBindsLoop left k p t with
  | case1 left k a b c p t ih =>
      rw [ih (by omega) (by omega), BindTable.configBindingSet_apply _ _ (by omega),
        if_neg (by omega)]
  | case2 => rfl

/-- **The bindings come back** of as many inputs as the loop takes. -/
theorem effective_restored {t : BindTable} (ht : ∀ i k, (t i k).Stored) {inputs : Nat}
    (h : inputs ≤ 16) (old : BindTable) (i : Fin cfgMaxInputs) (hi : i.val < inputs)
    (k : Fin cfgBindSlots) :
    (restoreBindsLoop (inputs * cfgBindSlots) 0 (ssiIoBinds t inputs) old i k).effective =
      (t i k).effective := by
  have hk := k.isLt
  have hmin : min inputs cfgMaxInputs = inputs := Nat.min_eq_left (by unfold cfgMaxInputs; omega)
  have htake : (List.range (inputs * cfgBindSlots)).take 266 =
      List.range (inputs * cfgBindSlots) := by
    apply List.take_of_length_le
    rw [List.length_range]
    unfold cfgBindSlots
    omega
  have hmap : ((List.range (inputs * cfgBindSlots)).map fun n =>
      hex3 (t.configBindingGet (n / cfgBindSlots) (n % cfgBindSlots)).bits) =
      ((List.range (inputs * cfgBindSlots)).map fun n =>
        (t.configBindingGet (n / cfgBindSlots) (n % cfgBindSlots)).bits).map hex3 := by
    rw [List.map_map]
    rfl
  have hstored (n : Nat) : (t.configBindingGet (n / cfgBindSlots) (n % cfgBindSlots)).Stored := by
    unfold BindTable.configBindingGet
    split
    · exact ht _ _
    · exact BindSlot.stored_unused
  have hvs : ∀ v ∈ (List.range (inputs * cfgBindSlots)).map (fun n =>
      (t.configBindingGet (n / cfgBindSlots) (n % cfgBindSlots)).bits),
      restoreSlot (v % 4096) = BindSlot.ofBits (v % 4096) := by
    intro v hv
    obtain ⟨n, -, hn⟩ := List.mem_map.mp hv
    rw [← hn]
    exact restoreSlot_bits (hstored n)
  have hindex : i.val * cfgBindSlots + k.val < inputs * cfgBindSlots := by
    unfold cfgBindSlots at hk ⊢
    omega
  have hfits : 0 + inputs * cfgBindSlots ≤ cfgMaxInputs * cfgBindSlots := by
    unfold cfgMaxInputs cfgBindSlots
    omega
  have hget : t.configBindingGet ((i.val * cfgBindSlots + k.val) / cfgBindSlots)
      ((i.val * cfgBindSlots + k.val) % cfgBindSlots) = t i k := by
    have hdiv : (i.val * cfgBindSlots + k.val) / cfgBindSlots = i.val := by
      unfold cfgBindSlots at hk ⊢
      omega
    have hmod : (i.val * cfgBindSlots + k.val) % cfgBindSlots = k.val := by
      unfold cfgBindSlots at hk ⊢
      omega
    rw [hdiv, hmod]
    exact dif_pos ⟨i.isLt, k.isLt⟩
  rw [ssiIoBinds_eq, hmin, htake, hmap, restoreBindsLoop_hex3 hvs,
    BindTable.bindsLoop_hex3 hfits, if_neg (by omega), Nat.sub_zero, List.getElem?_map,
    List.getElem?_range hindex, Option.map_some, Option.elim_some, hget]
  exact effective_ofBits (ht i k)

end HomeAuto
