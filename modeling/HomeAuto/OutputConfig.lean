import Mathlib.Data.List.Basic

/-!
# The saved output record (`product_config_store.c`)

Per-output modes, timed durations and the shutter table of `tOutputConfig`, with
the accessors the output controller reads.  A shutter slot is empty when its UP
entry is `SHUTTER_NONE`; membership of a relay is found by scanning the slots in
order.
-/

namespace HomeAuto

/-- `CFG_MAX_OUTPUTS`. -/
def cfgMaxOutputs : Nat := 120

/-- `CFG_MAX_SHUTTERS`. -/
def cfgMaxShutters : Nat := 32

/-- `CFG_NAME_LEN`. -/
def cfgNameLen : Nat := 12

/-- `SHUTTER_NONE`: empty shutter slot. -/
def shutterNone : Nat := 0xFF

/-- `OUT_MODE_STANDARD` and `OUT_MODE_TIMED`. -/
def outModeStandard : Nat := 0
def outModeTimed : Nat := 1

/-- The fields of `tOutputConfig` which drive the outputs. -/
structure OutputConfig where
  mode : Nat → Nat
  timedMs : Nat → Nat
  shUp : Nat → Nat
  shDown : Nat → Nat
  shTravelMs : Nat → Nat

/-- One defined shutter slot as `ConfigShutterGet` reports it. -/
structure ShutterSlot where
  up : Nat
  down : Nat
  travelMs : Nat
  deriving DecidableEq

/-- The relay of a slot that drives a direction. -/
def ShutterSlot.relay (slot : ShutterSlot) (up : Bool) : Nat := if up then slot.up else slot.down

namespace OutputConfig

variable (cfg : OutputConfig)

/-- `ConfigOutMode`. -/
def configOutMode (iOut : Int) : Nat :=
  if iOut < 0 ∨ (cfgMaxOutputs : Int) ≤ iOut then outModeStandard
  else cfg.mode iOut.toNat

/-- `ConfigOutTimedMs`. -/
def configOutTimedMs (iOut : Int) : Nat :=
  if iOut < 0 ∨ (cfgMaxOutputs : Int) ≤ iOut then 1000
  else cfg.timedMs iOut.toNat

/-- `ConfigShutterGet`: `none` for an empty or out-of-range slot. -/
def configShutterGet (iSlot : Nat) : Option ShutterSlot :=
  if cfgMaxShutters ≤ iSlot then none
  else if cfg.shUp iSlot = shutterNone then none
  else some ⟨cfg.shUp iSlot, cfg.shDown iSlot, cfg.shTravelMs iSlot⟩

/-- The body of the slot scan in `ConfigShutterOfRelay`. -/
def slotOfRelay (iOut : Int) (i : Nat) : Option (Nat × Bool) :=
  if cfg.shUp i = shutterNone then none
  else if (cfg.shUp i : Int) = iOut then some (i, true)
  else if (cfg.shDown i : Int) = iOut then some (i, false)
  else none

/-- `ConfigShutterOfRelay`: the first slot that uses a relay, and whether the
relay is its UP member. -/
def configShutterOfRelay (iOut : Int) : Option (Nat × Bool) :=
  if iOut < 0 ∨ (cfgMaxOutputs : Int) ≤ iOut then none
  else (List.range cfgMaxShutters).findSome? (cfg.slotOfRelay iOut)

/-- `OutputCtrlIsShutterMember`. -/
def outputCtrlIsShutterMember (iOut : Int) : Bool :=
  (cfg.configShutterOfRelay iOut).isSome

/-- Two relays oppose each other when one defined slot pairs them. -/
def Opposes (a b : Nat) : Prop :=
  ∃ i slot, cfg.configShutterGet i = some slot ∧
    (a = slot.up ∧ b = slot.down ∨ a = slot.down ∧ b = slot.up)

/-- A well-formed table: the two relays of a slot differ and are outputs, and no
relay belongs to two slots. -/
structure WellFormed : Prop where
  up_lt : ∀ i slot, cfg.configShutterGet i = some slot → slot.up < cfgMaxOutputs
  down_lt : ∀ i slot, cfg.configShutterGet i = some slot → slot.down < cfgMaxOutputs
  up_ne_down : ∀ i slot, cfg.configShutterGet i = some slot → slot.up ≠ slot.down
  disjoint : ∀ i j s t, cfg.configShutterGet i = some s → cfg.configShutterGet j = some t →
    i ≠ j → s.up ≠ t.up ∧ s.up ≠ t.down ∧ s.down ≠ t.up ∧ s.down ≠ t.down

variable {cfg}

theorem configShutterGet_eq_some_iff {i : Nat} {slot : ShutterSlot} :
    cfg.configShutterGet i = some slot ↔
      i < cfgMaxShutters ∧ cfg.shUp i ≠ shutterNone ∧
        slot = ⟨cfg.shUp i, cfg.shDown i, cfg.shTravelMs i⟩ := by
  unfold configShutterGet
  by_cases hi : cfgMaxShutters ≤ i
  · simp only [hi, if_true]
    constructor
    · intro h
      cases h
    · rintro ⟨hlt, _⟩
      omega
  · by_cases hup : cfg.shUp i = shutterNone
    · simp [hi, hup]
    · simp only [hi, hup, if_false, ne_eq, not_false_eq_true, true_and, Option.some.injEq]
      constructor
      · rintro rfl
        exact ⟨by omega, rfl⟩
      · rintro ⟨_, rfl⟩
        rfl

theorem configShutterGet_lt {i : Nat} {slot : ShutterSlot}
    (h : cfg.configShutterGet i = some slot) : i < cfgMaxShutters :=
  (configShutterGet_eq_some_iff.mp h).1

theorem opposes_symm (a b : Nat) (h : cfg.Opposes a b) : cfg.Opposes b a := by
  obtain ⟨i, slot, hslot, ⟨ha, hb⟩ | ⟨ha, hb⟩⟩ := h
  · exact ⟨i, slot, hslot, Or.inr ⟨hb, ha⟩⟩
  · exact ⟨i, slot, hslot, Or.inl ⟨hb, ha⟩⟩

/-- A relay that is not found belongs to no defined slot. -/
theorem configShutterOfRelay_none {iOut : Int}
    (h : cfg.configShutterOfRelay iOut = none) (h0 : 0 ≤ iOut)
    (hlt : iOut < (cfgMaxOutputs : Int)) {i : Nat} {slot : ShutterSlot}
    (hslot : cfg.configShutterGet i = some slot) :
    (slot.up : Int) ≠ iOut ∧ (slot.down : Int) ≠ iOut := by
  obtain ⟨hi, hdef, rfl⟩ := configShutterGet_eq_some_iff.mp hslot
  unfold configShutterOfRelay at h
  rw [if_neg (by omega), List.findSome?_eq_none_iff] at h
  have hnone := h i (List.mem_range.mpr hi)
  unfold slotOfRelay at hnone
  rw [if_neg hdef] at hnone
  split at hnone
  · cases hnone
  · rename_i hup
    split at hnone
    · cases hnone
    · rename_i hdown
      exact ⟨hup, hdown⟩

end OutputConfig

end HomeAuto
