import HomeAuto.MqttApp
import HomeAuto.OutputTags

/-!
# The binding table (`product_config_store.c`, `product_web.c`)

Every input has four slots, each with a trigger, an action and an output.  The tag
`IOBINDS` prints a slot as three hexadecimal digits, and `/iocfg.cgi` reads them back.
-/

namespace HomeAuto

/-- `CFG_BIND_SLOTS`, `BIND_OUTPUT_NONE` as it is stored, `BIND_TRIG_CHANGE`. -/
def cfgBindSlots : Nat := 4
def bindOutputNoneByte : UInt8 := 0x7F
def bindTrigChange : UInt8 := 5

/-- An entry of `ui8TrigAct` and one of `ui8Output`. -/
structure BindSlot where
  trigAct : UInt8
  output : UInt8
  deriving DecidableEq

/-- The arrays of `tIOBindings`, by input and slot. -/
abbrev BindTable := Fin cfgMaxInputs → Fin cfgBindSlots → BindSlot

namespace BindSlot

/-- An unused slot, as it is stored. -/
def unused : BindSlot := ⟨0, bindOutputNoneByte⟩

/-- The trigger, and the action. -/
def trig (b : BindSlot) : Nat := b.trigAct.toNat &&& 7
def act (b : BindSlot) : Nat := (b.trigAct.toNat >>> 3) &&& 3

/-- The slot has a trigger and an output. -/
def Used (b : BindSlot) : Prop := b.trig ≠ 0 ∧ b.output ≠ bindOutputNoneByte

instance (b : BindSlot) : Decidable b.Used := inferInstanceAs (Decidable (_ ∧ _))

/-- The check of `ConfigBindingSet`. -/
def checked (b : BindSlot) : BindSlot :=
  if bindTrigChange.toNat < b.trig ∨
      (b.output ≠ bindOutputNoneByte ∧ cfgMaxOutputs ≤ b.output.toNat) then unused
  else b

/-- The 12 bits of a slot: `(output << 5) | (action << 3) | trigger`. -/
def bits (b : BindSlot) : Nat :=
  if b.Used then (b.output.toNat <<< 5) ||| (b.trigAct.toNat &&& 0x1F) else 0

/-- The slot that `IOConfigCGIHandler` makes of 12 bits. -/
def ofBits (v : Nat) : BindSlot :=
  if v &&& 7 = 0 then unused else ⟨UInt8.ofNat (v &&& 0x1F), UInt8.ofNat ((v >>> 5) &&& 0x7F)⟩

end BindSlot

namespace BindTable

/-- The defaults of `product_config_load`: every slot on "On Change" without an output. -/
def defaults : BindTable := fun _ _ => ⟨bindTrigChange, bindOutputNoneByte⟩

/-- `ConfigBindingGetTrigAct` and `ConfigBindingGetOutput`. -/
def configBindingGet (t : BindTable) (iInput iSlot : Nat) : BindSlot :=
  if h : iInput < cfgMaxInputs ∧ iSlot < cfgBindSlots then t ⟨iInput, h.1⟩ ⟨iSlot, h.2⟩
  else .unused

/-- `ConfigBindingSet`. -/
def configBindingSet (t : BindTable) (iInput iSlot : Nat) (b : BindSlot) : BindTable :=
  if h : iInput < cfgMaxInputs ∧ iSlot < cfgBindSlots then
    Function.update t ⟨iInput, h.1⟩ (Function.update (t ⟨iInput, h.1⟩) ⟨iSlot, h.2⟩ b.checked)
  else t

end BindTable

/-! ## Text -/

/-- `pcHex[n]`. -/
def hexLower (n : Nat) : UInt8 := if n < 10 then UInt8.ofNat (48 + n) else UInt8.ofNat (87 + n)

/-- The three digits of 12 bits. -/
def hex3 (v : Nat) : CStr :=
  [hexLower ((v >>> 8) &&& 0xF), hexLower ((v >>> 4) &&& 0xF), hexLower (v &&& 0xF)]

/-- The tag `IOBINDS`: slots of `IOInputCount` inputs, while a slot leaves room for the
terminator. -/
def ssiIoBinds (t : BindTable) (inputs : Nat) : CStr :=
  Delimited.emit (fun pos len => decide (pos + len < tagInsertLen)) 0
    ((List.range (min inputs cfgMaxInputs * cfgBindSlots)).map fun k =>
      hex3 (t.configBindingGet (k / cfgBindSlots) (k % cfgBindSlots)).bits)

namespace BindTable

/-- The two loops over the `binds` parameter, as one over the slots `k` from `k` on: three
digits each, until the slots or the text run out. -/
def bindsLoop : (left k : Nat) → CStr → BindTable → BindTable
  | left + 1, k, a :: b :: c :: p, t =>
      bindsLoop left (k + 1) p (t.configBindingSet (k / cfgBindSlots) (k % cfgBindSlots)
        (.ofBits (((webHexNibble a).toNat <<< 8) ||| ((webHexNibble b).toNat <<< 4) |||
          (webHexNibble c).toNat)))
  | _, _, _, t => t

/-- The table that `IOConfigCGIHandler` leaves, for the input count that the parameters
before have set. -/
def bindsParam (t : BindTable) (inputs : Nat) (params : CgiParams) : BindTable :=
  match findCGIParameter (ascii "binds") params with
  | some p => bindsLoop (min inputs cfgMaxInputs * cfgBindSlots) 0 p t
  | none => t

/-- The tables that requests can make of the defaults; a stored table is read back as it
was. -/
inductive Reachable : BindTable → Prop
  | defaults : Reachable BindTable.defaults
  | request (t : BindTable) (inputs : Nat) (params : CgiParams) (h : Reachable t) :
      Reachable (t.bindsParam inputs params)

end BindTable

/-! ## Reachable tables -/

/-- A slot that `/iocfg.cgi` stores: a known trigger, no other bits than trigger and
action, and a relay or none for output. -/
structure BindSlot.Stored (b : BindSlot) : Prop where
  trigAct_lt : b.trigAct.toNat < 32
  trig_le : b.trig ≤ 5
  output : b.output = bindOutputNoneByte ∨ b.output.toNat < cfgMaxOutputs

namespace BindSlot

theorem stored_unused : unused.Stored := ⟨by decide, by decide, .inl rfl⟩

theorem stored_checked {b : BindSlot} (h : b.trigAct.toNat < 32) : b.checked.Stored := by
  unfold checked
  split
  · exact stored_unused
  · rename_i hbad
    rw [not_or] at hbad
    refine ⟨h, Nat.not_lt.mp hbad.1, ?_⟩
    by_cases hnone : b.output = bindOutputNoneByte
    · exact .inl hnone
    · exact .inr (Nat.not_le.mp fun hle => hbad.2 ⟨hnone, hle⟩)

theorem trigAct_ofBits_lt (v : Nat) : (ofBits v).trigAct.toNat < 32 := by
  unfold ofBits
  split
  · decide
  · have hle : v &&& 0x1F ≤ 31 := Nat.and_le_right
    rw [UInt8.toNat_ofNat']
    omega

/-- Storing a slot that was stored changes nothing. -/
theorem Stored.checked_eq {b : BindSlot} (h : b.Stored) : b.checked = b := by
  refine if_neg fun hbad => ?_
  rcases hbad with htrig | ⟨hne, hle⟩
  · exact absurd h.trig_le (Nat.not_le.mpr htrig)
  · exact absurd (h.output.resolve_left hne) (Nat.not_lt.mpr hle)

/-- The bits of a used slot, as a sum. -/
theorem Stored.bits_eq {b : BindSlot} (h : b.Stored) (hused : b.Used) :
    b.bits = b.output.toNat * 32 + b.trigAct.toNat := by
  have hlt := h.trigAct_lt
  have hmask : b.trigAct.toNat &&& 0x1F = b.trigAct.toNat := by
    rw [show 0x1F = 2 ^ 5 - 1 from rfl, Nat.and_two_pow_sub_one_eq_mod]
    exact Nat.mod_eq_of_lt hlt
  rw [bits, if_pos hused, hmask, ← Nat.shiftLeft_add_eq_or_of_lt hlt, Nat.shiftLeft_eq]

theorem trig_eq (b : BindSlot) : b.trig = b.trigAct.toNat % 8 := by
  rw [trig, show 7 = 2 ^ 3 - 1 from rfl, Nat.and_two_pow_sub_one_eq_mod]

theorem act_eq (b : BindSlot) : b.act = b.trigAct.toNat / 8 % 4 := by
  have hmask : (b.trigAct.toNat >>> 3) &&& 3 = (b.trigAct.toNat >>> 3) % 4 :=
    Nat.and_two_pow_sub_one_eq_mod _ 2
  rw [act, hmask, Nat.shiftRight_eq_div_pow]

end BindSlot

namespace BindTable

theorem configBindingSet_apply (t : BindTable) (j : Nat) (hj : j < cfgMaxInputs * cfgBindSlots)
    (b : BindSlot) (i : Fin cfgMaxInputs) (k : Fin cfgBindSlots) :
    t.configBindingSet (j / cfgBindSlots) (j % cfgBindSlots) b i k =
      if i.val * cfgBindSlots + k.val = j then b.checked else t i k := by
  have hk := k.isLt
  unfold cfgMaxInputs cfgBindSlots at hj
  unfold cfgBindSlots at hk
  have hin : j / cfgBindSlots < cfgMaxInputs ∧ j % cfgBindSlots < cfgBindSlots := by
    unfold cfgBindSlots cfgMaxInputs
    omega
  rw [configBindingSet, dif_pos hin]
  by_cases heq : i.val * cfgBindSlots + k.val = j
  · have hi : i = ⟨j / cfgBindSlots, hin.1⟩ := by
      refine Fin.ext ?_
      change i.val = j / cfgBindSlots
      unfold cfgBindSlots at heq ⊢
      omega
    have hs : k = ⟨j % cfgBindSlots, hin.2⟩ := by
      refine Fin.ext ?_
      change k.val = j % cfgBindSlots
      unfold cfgBindSlots at heq ⊢
      omega
    rw [if_pos heq, ← hi, ← hs, Function.update_self, Function.update_self]
  · rw [if_neg heq]
    by_cases hi : i = ⟨j / cfgBindSlots, hin.1⟩
    · have hs : k ≠ ⟨j % cfgBindSlots, hin.2⟩ := by
        intro hs
        have hival := congrArg Fin.val hi
        have hsval := congrArg Fin.val hs
        unfold cfgBindSlots at *
        dsimp only at hival hsval
        omega
      rw [← hi, Function.update_self, Function.update_of_ne hs]
    · rw [Function.update_of_ne hi]

/-- The slots of a reachable table are as `/iocfg.cgi` stores them. -/
theorem Reachable.stored {t : BindTable} (h : Reachable t) (i : Fin cfgMaxInputs)
    (k : Fin cfgBindSlots) : (t i k).Stored := by
  have hloop (left j : Nat) (p : CStr) (t : BindTable) (ht : ∀ i k, (t i k).Stored)
      (hj : j + left ≤ cfgMaxInputs * cfgBindSlots) (i : Fin cfgMaxInputs)
      (k : Fin cfgBindSlots) : (bindsLoop left j p t i k).Stored := by
    fun_induction bindsLoop left j p t with
    | case1 left j a b c p t ih =>
        refine ih (fun i k => ?_) (by omega)
        rw [configBindingSet_apply _ _ (by omega)]
        split
        · exact BindSlot.stored_checked (BindSlot.trigAct_ofBits_lt _)
        · exact ht i k
    | case2 => exact ht i k
  induction h generalizing i k with
  | defaults =>
      have hdefault : BindSlot.Stored ⟨bindTrigChange, bindOutputNoneByte⟩ :=
        ⟨by decide, by decide, .inl rfl⟩
      exact hdefault
  | request t inputs params _ ih =>
      unfold bindsParam
      cases findCGIParameter (ascii "binds") params with
      | none => exact ih i k
      | some p =>
          refine hloop _ _ _ _ ih ?_ i k
          rw [Nat.zero_add]
          exact Nat.mul_le_mul_right _ (Nat.min_le_right _ _)

end BindTable

/-! ## Digits -/

/-- The digits of `parseInt(.,16)`. -/
def isHexDigit (c : UInt8) : Bool :=
  (48 ≤ c && c ≤ 57) || (97 ≤ c && c ≤ 102) || (65 ≤ c && c ≤ 70)

/-- `parseInt(.,16)` on texts of hexadecimal digits; `none` is `NaN`. -/
def parseHexInt (s : CStr) : Option Nat :=
  if s.takeWhile isHexDigit = [] then none
  else some ((s.takeWhile isHexDigit).foldl (fun n c => n * 16 + (webHexNibble c).toNat) 0)

theorem isHexDigit_hexLower : ∀ n < 16, isHexDigit (hexLower n) = true := by decide

theorem toNat_webHexNibble_hexLower : ∀ n < 16, (webHexNibble (hexLower n)).toNat = n := by decide

theorem nibble_lt (v : Nat) : v &&& 0xF < 16 := Nat.lt_succ_of_le Nat.and_le_right

theorem nibble_eq (v : Nat) : v &&& 0xF = v % 16 := by
  rw [show 0xF = 2 ^ 4 - 1 from rfl, Nat.and_two_pow_sub_one_eq_mod]

/-- A page reads the digits that were printed. -/
theorem parseHexInt_map_hexLower {ds : List Nat} (hds : ∀ d ∈ ds, d < 16) (hne : ds ≠ []) :
    parseHexInt (ds.map hexLower) = some (ds.foldl (fun n d => n * 16 + d) 0) := by
  have hall : (ds.map hexLower).takeWhile isHexDigit = ds.map hexLower := by
    refine List.takeWhile_eq_self_iff.mpr fun c hc => ?_
    obtain ⟨d, hd, rfl⟩ := List.mem_map.mp hc
    exact isHexDigit_hexLower d (hds d hd)
  rw [parseHexInt, hall, if_neg (fun h => hne (List.map_eq_nil_iff.mp h)), List.foldl_map]
  refine congrArg some (List.foldl_ext _ _ 0 fun n d hd => ?_)
  rw [toNat_webHexNibble_hexLower d (hds d hd)]

/-- The page reads a printed slot back. -/
theorem parseHexInt_hex3 (v : Nat) : parseHexInt (hex3 v) = some (v % 4096) := by
  have hdigits : ∀ d ∈ [(v >>> 8) &&& 0xF, (v >>> 4) &&& 0xF, v &&& 0xF], d < 16 := by
    simp [nibble_lt]
  have hread := parseHexInt_map_hexLower hdigits (List.cons_ne_nil _ _)
  refine Eq.trans hread (congrArg some ?_)
  simp only [List.foldl_cons, List.foldl_nil, nibble_eq, Nat.shiftRight_eq_div_pow]
  omega

/-- The device reads a printed slot back. -/
theorem nibbles_hex3 (v : Nat) :
    ((webHexNibble (hexLower ((v >>> 8) &&& 0xF))).toNat <<< 8) |||
      ((webHexNibble (hexLower ((v >>> 4) &&& 0xF))).toNat <<< 4) |||
      (webHexNibble (hexLower (v &&& 0xF))).toNat = v % 4096 := by
  have hlow := nibble_lt v
  have hmid := nibble_lt (v >>> 4)
  rw [toNat_webHexNibble_hexLower _ (nibble_lt _), toNat_webHexNibble_hexLower _ hmid,
    toNat_webHexNibble_hexLower _ hlow, Nat.or_assoc]
  rw [← Nat.shiftLeft_add_eq_or_of_lt (show v &&& 0xF < 2 ^ 4 from hlow),
    ← Nat.shiftLeft_add_eq_or_of_lt (show (v >>> 4 &&& 0xF) <<< 4 + (v &&& 0xF) < 2 ^ 8 by
      rw [Nat.shiftLeft_eq]
      omega)]
  simp only [nibble_eq, Nat.shiftRight_eq_div_pow, Nat.shiftLeft_eq]
  omega

/-- The two digits of a byte. -/
theorem nibbles_join (v : Nat) : (((v >>> 4) &&& 0xF) <<< 4) ||| (v &&& 0xF) = v % 256 := by
  rw [← Nat.shiftLeft_add_eq_or_of_lt (show v &&& 0xF < 2 ^ 4 from nibble_lt v)]
  simp only [nibble_eq, Nat.shiftRight_eq_div_pow, Nat.shiftLeft_eq]
  omega

/-! ## What the tag holds, and what is read -/

/-- **The tag holds the first 266 slots**, however many there are. -/
theorem ssiIoBinds_eq (t : BindTable) (inputs : Nat) : ssiIoBinds t inputs =
    (((List.range (min inputs cfgMaxInputs * cfgBindSlots)).take 266).map fun k =>
      hex3 (t.configBindingGet (k / cfgBindSlots) (k % cfgBindSlots)).bits).flatten := by
  have hw : ∀ e ∈ (List.range (min inputs cfgMaxInputs * cfgBindSlots)).map (fun k =>
      hex3 (t.configBindingGet (k / cfgBindSlots) (k % cfgBindSlots)).bits), e.length = 3 := by
    intro e he
    obtain ⟨k, _, rfl⟩ := List.mem_map.mp he
    rfl
  have h : ssiIoBinds t inputs = _ := Delimited.emit_uniform (by decide : 0 < 3) hw 0
  rw [← List.map_take] at h
  exact h

namespace BindTable

/-- The loop over printed slots stores them one by one. -/
theorem bindsLoop_hex3 {left : Nat} {vs : List Nat} {j : Nat}
    (hj : j + left ≤ cfgMaxInputs * cfgBindSlots) (t : BindTable) (i : Fin cfgMaxInputs)
    (k : Fin cfgBindSlots) : bindsLoop left j (vs.map hex3).flatten t i k =
      if i.val * cfgBindSlots + k.val < j ∨ j + left ≤ i.val * cfgBindSlots + k.val then t i k
      else (vs[i.val * cfgBindSlots + k.val - j]?).elim (t i k) fun v =>
        (BindSlot.ofBits (v % 4096)).checked := by
  induction left generalizing vs j t with
  | zero =>
      have hstop (p : CStr) : bindsLoop 0 j p t = t := by
        rw [bindsLoop]
        nofun
      rw [hstop, if_pos (by omega)]
  | succ left ih =>
      cases vs with
      | nil =>
          rw [List.map_nil, List.flatten_nil, bindsLoop]
          · rw [List.getElem?_nil, Option.elim_none, ite_self]
          · nofun
      | cons v vs =>
          rw [List.map_cons, List.flatten_cons]
          change bindsLoop left (j + 1) (vs.map hex3).flatten
            (t.configBindingSet (j / cfgBindSlots) (j % cfgBindSlots) (.ofBits _)) i k = _
          rw [ih (by omega), nibbles_hex3, configBindingSet_apply _ _ (by omega)]
          generalize i.val * cfgBindSlots + k.val = n
          rcases Nat.lt_trichotomy n j with hlt | heq | hgt
          · rw [if_pos (show n < j + 1 ∨ j + 1 + left ≤ n by omega), if_neg (by omega),
              if_pos (show n < j ∨ j + (left + 1) ≤ n by omega)]
          · rw [if_pos (show n < j + 1 ∨ j + 1 + left ≤ n by omega), if_pos heq,
              if_neg (show ¬(n < j ∨ j + (left + 1) ≤ n) by omega), heq, Nat.sub_self]
            rfl
          · have hsub : n - j = n - (j + 1) + 1 := by omega
            have hne : n ≠ j := by omega
            rw [if_neg hne, hsub, List.getElem?_cons_succ]
            by_cases hend : j + (left + 1) ≤ n
            · rw [if_pos (show n < j + 1 ∨ j + 1 + left ≤ n by omega),
                if_pos (show n < j ∨ j + (left + 1) ≤ n by omega)]
            · rw [if_neg (show ¬(n < j + 1 ∨ j + 1 + left ≤ n) by omega),
                if_neg (show ¬(n < j ∨ j + (left + 1) ≤ n) by omega)]

/-- A request stores the slots it prints, in order. -/
theorem bindsParam_hex3 (t : BindTable) (inputs : Nat) (vs : List Nat) (i : Fin cfgMaxInputs)
    (k : Fin cfgBindSlots) :
    t.bindsParam inputs [(ascii "binds", (vs.map hex3).flatten)] i k =
      if min inputs cfgMaxInputs * cfgBindSlots ≤ i.val * cfgBindSlots + k.val then t i k
      else (vs[i.val * cfgBindSlots + k.val]?).elim (t i k) fun v =>
        (BindSlot.ofBits (v % 4096)).checked := by
  have hparam : findCGIParameter (ascii "binds") [(ascii "binds", (vs.map hex3).flatten)] =
      some (vs.map hex3).flatten := rfl
  have hfits : 0 + min inputs cfgMaxInputs * cfgBindSlots ≤ cfgMaxInputs * cfgBindSlots := by
    rw [Nat.zero_add]
    exact Nat.mul_le_mul_right _ (Nat.min_le_right _ _)
  have hloop : bindsLoop _ 0 (vs.map hex3).flatten t i k = _ := bindsLoop_hex3 hfits t i k
  simp only [Nat.not_lt_zero, false_or, Nat.zero_add, Nat.sub_zero] at hloop
  rw [bindsParam, hparam]
  exact hloop

end BindTable

end HomeAuto
