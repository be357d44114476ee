import Mathlib.Data.BitVec
import Mathlib.Tactic.IntervalCases
import Mathlib.Logic.Function.Basic

/-!
# The relay chain (`relay_chain.c`)

The driver keeps the desired state of the cascaded output devices as one byte
per device: bit `b` of byte `d` is relay `8 * d + b`.  This file embeds the
state array and its accessors.  What the rest of the firmware needs of them is
stated as the effect on `isOn`, the on/off state of each relay: switching a
relay changes that relay only, and a relay past the configured count is always
off.
-/

namespace HomeAuto

/-- `CFG_RELAY_MAX_DEVICES`: the device count is packed in one nibble. -/
def relayMaxDevices : Nat := 15

/-- The static state of `relay_chain.c`: `g_ui8Devices` and `g_pui8State`. -/
structure RelayChain where
  devices : Nat
  state : Nat → BitVec 8
  devices_le : devices ≤ relayMaxDevices

namespace RelayChain

/-- `RelayChainCount`: the number of relays currently configured. -/
def relayChainCount (c : RelayChain) : Nat := c.devices * 8

/-- The mask of a relay inside its byte. -/
def relayMask (relay : Nat) : BitVec 8 := 1#8 <<< (relay &&& 7)

/-- `RelayChainSet`: out-of-range indices are ignored. -/
def relayChainSet (c : RelayChain) (relay : Nat) (on : Bool) : RelayChain :=
  if c.relayChainCount ≤ relay then c
  else
    { c with
      state := Function.update c.state (relay >>> 3)
        (if on then c.state (relay >>> 3) ||| relayMask relay
         else c.state (relay >>> 3) &&& ~~~ relayMask relay) }

/-- `RelayChainGet`: an out-of-range relay reads as off. -/
def relayChainGet (c : RelayChain) (relay : Nat) : Bool :=
  if c.relayChainCount ≤ relay then false
  else (c.state (relay >>> 3) &&& relayMask relay) != 0#8

/-- `RelayChainSetDevices`: clamp the count and clear every relay. -/
def relayChainSetDevices (devices : Nat) : RelayChain where
  devices := if relayMaxDevices < devices then relayMaxDevices else devices
  state := fun _ => 0#8
  devices_le := by split <;> omega

/-- `RelayChainInit` sets up the pins and then leaves the same all-off state. -/
def relayChainInit (devices : Nat) : RelayChain := relayChainSetDevices devices

/-- The on/off state of every relay. -/
abbrev isOn (c : RelayChain) : Nat → Bool := c.relayChainGet

/-- Every relay is off. -/
def AllOff (c : RelayChain) : Prop := ∀ relay, c.isOn relay = false

theorem relayChainCount_le (c : RelayChain) : c.relayChainCount ≤ 120 := by
  have := c.devices_le
  simp only [relayMaxDevices] at this
  simp only [relayChainCount]
  omega

@[simp] theorem relayChainSet_count (c : RelayChain) (relay : Nat) (on : Bool) :
    (c.relayChainSet relay on).relayChainCount = c.relayChainCount := by
  unfold relayChainSet
  split <;> rfl

theorem relayChainGet_of_count_le {c : RelayChain} {relay : Nat}
    (h : c.relayChainCount ≤ relay) : c.isOn relay = false := by
  simp [isOn, relayChainGet, h]

theorem relayChainSet_of_count_le {c : RelayChain} {relay : Nat} {on : Bool}
    (h : c.relayChainCount ≤ relay) : c.relayChainSet relay on = c := by
  simp [relayChainSet, h]

/-- Two relays share byte and bit only when they are the same relay. -/
theorem relay_eq_of_byte_bit {a b : Nat} (hbyte : a >>> 3 = b >>> 3)
    (hbit : a &&& 7 = b &&& 7) : a = b := by
  have hmod (n : Nat) : n &&& 7 = n % 8 := Nat.and_two_pow_sub_one_eq_mod n 3
  rw [Nat.shiftRight_eq_div_pow, Nat.shiftRight_eq_div_pow] at hbyte
  rw [hmod, hmod] at hbit
  omega

theorem relay_bit_lt (relay : Nat) : relay &&& 7 < 8 := by
  rw [Nat.and_two_pow_sub_one_eq_mod relay 3]
  exact Nat.mod_lt _ (by decide)

/-- Testing a byte under a relay's mask reads the relay's bit. -/
theorem and_mask_ne_zero (x : BitVec 8) {k : Nat} (hk : k < 8) :
    ((x &&& (1#8 <<< k)) != 0#8) = x.getLsbD k := by
  interval_cases k <;> revert x <;> decide

/-- Setting or clearing a bit leaves the other bits of the byte alone. -/
theorem getLsbD_write (x : BitVec 8) (on : Bool) {j k : Nat} (hj : j < 8) (hk : k < 8) :
    (if on then x ||| (1#8 <<< k) else x &&& ~~~ (1#8 <<< k)).getLsbD j =
      if j = k then on else x.getLsbD j := by
  interval_cases j <;> interval_cases k <;> cases on <;> simp

theorem isOn_eq_getLsbD (c : RelayChain) (relay : Nat) :
    c.isOn relay = (decide (relay < c.relayChainCount) &&
      (c.state (relay >>> 3)).getLsbD (relay &&& 7)) := by
  unfold isOn relayChainGet relayMask
  by_cases h : c.relayChainCount ≤ relay
  · simp [h]
  · rw [if_neg h, and_mask_ne_zero _ (relay_bit_lt relay)]
    simp [Nat.lt_of_not_le h]

/-- **Effect of a switch command.**  Only the commanded relay changes, and a relay
past the count stays off. -/
theorem isOn_relayChainSet (c : RelayChain) (relay other : Nat) (on : Bool) :
    (c.relayChainSet relay on).isOn other =
      if other = relay ∧ relay < c.relayChainCount then on else c.isOn other := by
  by_cases hr : c.relayChainCount ≤ relay
  · rw [relayChainSet_of_count_le hr, if_neg (by omega)]
  · rw [isOn_eq_getLsbD, isOn_eq_getLsbD, relayChainSet_count]
    simp only [relayChainSet, if_neg hr, relayMask]
    by_cases hbyte : other >>> 3 = relay >>> 3
    · rw [hbyte, Function.update_self, getLsbD_write _ _ (relay_bit_lt _) (relay_bit_lt _)]
      by_cases hbit : other &&& 7 = relay &&& 7
      · have heq := relay_eq_of_byte_bit hbyte hbit
        subst heq
        simp [Nat.lt_of_not_le hr]
      · have hne : other ≠ relay := by
          rintro rfl
          exact hbit rfl
        simp [hbit, hne]
    · have hne : other ≠ relay := by
        rintro rfl
        exact hbyte rfl
      rw [Function.update_of_ne hbyte]
      simp [hne]

/-- Switching a relay off opens exactly that relay. -/
theorem isOn_relayChainSet_false (c : RelayChain) (relay : Nat) :
    (c.relayChainSet relay false).isOn = Function.update c.isOn relay false := by
  funext other
  rw [isOn_relayChainSet]
  by_cases h : other = relay
  · subst h
    rw [Function.update_self]
    split
    · rfl
    · rename_i hcount
      exact relayChainGet_of_count_le (by simpa using hcount)
  · rw [if_neg (by simp [h]), Function.update_of_ne h]

/-- Switching on a relay of the chain closes exactly that relay. -/
theorem isOn_relayChainSet_true {c : RelayChain} {relay : Nat}
    (h : relay < c.relayChainCount) :
    (c.relayChainSet relay true).isOn = Function.update c.isOn relay true := by
  funext other
  rw [isOn_relayChainSet]
  by_cases hne : other = relay
  · subst hne
    simp [h]
  · simp [hne]

theorem relayChainSetDevices_allOff (devices : Nat) :
    (relayChainSetDevices devices).AllOff := by
  intro relay
  simp [isOn_eq_getLsbD, relayChainSetDevices]

end RelayChain

end HomeAuto
