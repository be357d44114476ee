import HomeAuto.Lib.ShiftRegister
import HomeAuto.RelayChain

/-!
# The relay chain at its pins (`relay_chain.c`)

The chain as hardware: cascaded 8-bit shift registers that take a bit from DIN on the
rising edge of CLK, each passing its last bit on to the next, and output latches that take
over the registers on the rising edge of LATCH.  `RelayChainShift` clocks the state array
in, the farthest device and its highest bit first.
-/

namespace HomeAuto

/-- The pins that drive the chain. -/
inductive ChainPin
  | din | clk | latch
  deriving DecidableEq

/-- The chain: the shift register and the output latch of each device, and the levels of
the pins.  Device 0 is nearest to the MCU. -/
structure DrvChain where
  regs : Nat → BitVec 8
  outs : Nat → BitVec 8
  din : Bool
  clk : Bool
  latch : Bool

namespace DrvChain

/-- The bit that a device takes in: DIN, or the last bit of the device before. -/
def carry (h : DrvChain) : Nat → Bool
  | 0 => h.din
  | d + 1 => (h.regs d).getLsbD 7

/-- A rising edge of CLK. -/
def rise (h : DrvChain) : DrvChain :=
  { h with regs := fun d => (h.regs d <<< 1) ||| (BitVec.ofBool (h.carry d)).setWidth 8 }

/-- `PalGpioWrite` on a pin of the chain. -/
def palGpioWrite (h : DrvChain) : ChainPin → Bool → DrvChain
  | .din, level => { h with din := level }
  | .clk, level => { if level && !h.clk then h.rise else h with clk := level }
  | .latch, level =>
      { h with
        outs := if level && !h.latch then h.regs else h.outs
        latch := level }

/-- One bit of a byte: DIN, then CLK high and low. -/
def shiftBit (byte : BitVec 8) (h : DrvChain) (ui8Bit : BitVec 8) : DrvChain :=
  ((h.palGpioWrite .din (byte &&& ui8Bit != 0#8)).palGpioWrite .clk true).palGpioWrite .clk false

/-- The masks of the inner loop: `0x80` shifted right until it is zero. -/
def bitMasks : List (BitVec 8) := [0x80#8, 0x40#8, 0x20#8, 0x10#8, 0x08#8, 0x04#8, 0x02#8, 0x01#8]

/-- The outer loop of `RelayChainShift`, from device `devices - 1` down to 0. -/
def shiftDevices (state : Nat → BitVec 8) : Nat → DrvChain → DrvChain
  | 0, h => h
  | d + 1, h => shiftDevices state d (bitMasks.foldl (shiftBit (state d)) h)

/-- `RelayChainShift`. -/
def relayChainShift (c : RelayChain) (h : DrvChain) : DrvChain :=
  ((shiftDevices c.state c.devices h).palGpioWrite .latch true).palGpioWrite .latch false

/-- The cells of the registers in a row, and the outputs in a row: those of device `d` from
`8 * d` on. -/
def reg (h : DrvChain) (p : Nat) : Bool := (h.regs (p / 8)).getLsbD (p % 8)
def out (h : DrvChain) (p : Nat) : Bool := (h.outs (p / 8)).getLsbD (p % 8)

/-- The clock and the latch are low. -/
structure Idle (h : DrvChain) : Prop where
  clk : h.clk = false
  latch : h.latch = false

end DrvChain

/-- The bits of the state array in a row. -/
def RelayChain.bit (c : RelayChain) (p : Nat) : Bool := (c.state (p / 8)).getLsbD (p % 8)

namespace DrvChain

open ShiftRegister

/-! ## One bit -/

theorem getLsbD_rise (x : BitVec 8) (b : Bool) {k : Nat} (hk : k < 8) :
    ((x <<< 1) ||| (BitVec.ofBool b).setWidth 8).getLsbD k =
      if k = 0 then b else x.getLsbD (k - 1) := by
  interval_cases k <;> cases b <;> simp

/-- **The cascade is one long register.** -/
theorem reg_rise (h : DrvChain) : h.rise.reg = push h.reg h.din := by
  funext p
  have hlt : p % 8 < 8 := Nat.mod_lt _ (by decide)
  change ((h.regs (p / 8) <<< 1) ||| (BitVec.ofBool (h.carry (p / 8))).setWidth 8).getLsbD
    (p % 8) = _
  rw [getLsbD_rise _ _ hlt]
  cases p with
  | zero => rfl
  | succ p =>
      rw [push_succ, reg]
      by_cases hzero : (p + 1) % 8 = 0
      · have hdiv : (p + 1) / 8 = p / 8 + 1 := by omega
        have hmod : p % 8 = 7 := by omega
        rw [if_pos hzero, hdiv, hmod]
        rfl
      · have hdiv : (p + 1) / 8 = p / 8 := by omega
        have hmod : (p + 1) % 8 - 1 = p % 8 := by omega
        rw [if_neg hzero, hdiv, hmod]

/-- What a bit does: it is pushed, and the outputs stay. -/
theorem shiftBit_spec {h : DrvChain} (hidle : h.Idle) (byte mask : BitVec 8) :
    (shiftBit byte h mask).reg = push h.reg (byte &&& mask != 0#8) ∧
      (shiftBit byte h mask).outs = h.outs ∧ (shiftBit byte h mask).Idle := by
  have heq : shiftBit byte h mask =
      { ({ h with din := byte &&& mask != 0#8 } : DrvChain).rise with clk := false } := by
    simp [shiftBit, palGpioWrite, hidle.clk, rise]
  rw [heq]
  exact ⟨reg_rise _, rfl, rfl, hidle.latch⟩

/-- The masks take the bits of a byte from the highest to the lowest. -/
theorem foldl_bitMasks (byte : BitVec 8) (r : Nat → Bool) :
    bitMasks.foldl (fun r mask => push r (byte &&& mask != 0#8)) r =
      load (fun k => byte.getLsbD k) 8 r := by
  have hbit (k : Nat) (hk : k < 8) : (byte &&& (1#8 <<< k) != 0#8) = byte.getLsbD k :=
    RelayChain.and_mask_ne_zero byte hk
  simp only [load, ← hbit 7 (by decide), ← hbit 6 (by decide), ← hbit 5 (by decide),
    ← hbit 4 (by decide), ← hbit 3 (by decide), ← hbit 2 (by decide), ← hbit 1 (by decide),
    ← hbit 0 (by decide)]
  rfl

/-- What the bits of some masks do. -/
theorem foldl_shiftBit {h : DrvChain} (hidle : h.Idle) (byte : BitVec 8)
    (masks : List (BitVec 8)) :
    (masks.foldl (shiftBit byte) h).reg =
        masks.foldl (fun r mask => push r (byte &&& mask != 0#8)) h.reg ∧
      (masks.foldl (shiftBit byte) h).outs = h.outs ∧
      (masks.foldl (shiftBit byte) h).Idle := by
  induction masks generalizing h with
  | nil => exact ⟨rfl, rfl, hidle⟩
  | cons mask masks ih =>
      obtain ⟨hreg, houts, hidle'⟩ := shiftBit_spec hidle byte mask
      obtain ⟨hreg', houts', hidle''⟩ := ih hidle'
      rw [List.foldl_cons, List.foldl_cons, hreg', hreg, houts', houts]
      exact ⟨rfl, rfl, hidle''⟩

/-! ## The whole shift -/

theorem bit_add (c : RelayChain) (d : Nat) {p : Nat} (hp : p < 8) :
    c.bit (d * 8 + p) = (c.state d).getLsbD p := by
  have hdiv : (d * 8 + p) / 8 = d := by omega
  have hmod : (d * 8 + p) % 8 = p := by omega
  rw [RelayChain.bit, hdiv, hmod]

/-- The bytes of the devices below `d`. -/
theorem shiftDevices_spec (c : RelayChain) (d : Nat) {h : DrvChain} (hidle : h.Idle) :
    (shiftDevices c.state d h).reg = load c.bit (d * 8) h.reg ∧
      (shiftDevices c.state d h).outs = h.outs ∧ (shiftDevices c.state d h).Idle := by
  induction d generalizing h with
  | zero =>
      rw [Nat.zero_mul]
      exact ⟨rfl, rfl, hidle⟩
  | succ d ih =>
      obtain ⟨hreg, houts, hidle'⟩ := foldl_shiftBit hidle (c.state d) bitMasks
      obtain ⟨hreg', houts', hidle''⟩ := ih hidle'
      rw [shiftDevices, hreg', houts', hreg, houts, foldl_bitMasks, Nat.succ_mul, load_add,
        load_congr fun p hp => bit_add c d hp]
      exact ⟨rfl, rfl, hidle''⟩

/-- **The shift**: the registers take the state array in front of what they held, and the
outputs follow the registers. -/
theorem relayChainShift_spec (c : RelayChain) {h : DrvChain} (hidle : h.Idle) :
    (relayChainShift c h).reg = load c.bit c.relayChainCount h.reg ∧
      (relayChainShift c h).out = load c.bit c.relayChainCount h.reg ∧
      (relayChainShift c h).Idle := by
  obtain ⟨hreg, -, hidle'⟩ := shiftDevices_spec c c.devices hidle
  have heq : relayChainShift c h = { shiftDevices c.state c.devices h with
      outs := (shiftDevices c.state c.devices h).regs } := by
    simp [relayChainShift, palGpioWrite, hidle'.latch]
  rw [heq]
  exact ⟨hreg, hreg, hidle'.clk, hidle'.latch⟩

/-! ## Switching a relay -/

/-- `RelayChainSet` with the shift it ends in. -/
def relayChainSet (c : RelayChain) (h : DrvChain) (relay : Nat) (on : Bool) :
    RelayChain × DrvChain :=
  if c.relayChainCount ≤ relay then (c, h)
  else (c.relayChainSet relay on, relayChainShift (c.relayChainSet relay on) h)

/-- The outputs of the configured devices are those of the state array, and the pins are
idle. -/
structure Settled (c : RelayChain) (h : DrvChain) : Prop where
  idle : h.Idle
  out : ∀ p < c.relayChainCount, h.out p = c.bit p

end DrvChain

namespace RelayChain

/-- The bits of the state array are what the accessors read. -/
theorem isOn_eq_bit {c : RelayChain} {p : Nat} (hp : p < c.relayChainCount) :
    c.isOn p = c.bit p := by
  rw [isOn_eq_getLsbD, bit, Nat.shiftRight_eq_div_pow,
    Nat.and_two_pow_sub_one_eq_mod p 3, decide_eq_true hp]
  rfl

theorem bit_relayChainSet {c : RelayChain} {relay p : Nat} (on : Bool)
    (hrelay : relay < c.relayChainCount) (hp : p < c.relayChainCount) :
    (c.relayChainSet relay on).bit p = if p = relay then on else c.bit p := by
  have hcount : p < (c.relayChainSet relay on).relayChainCount := by
    rwa [relayChainSet_count]
  rw [← isOn_eq_bit hcount, isOn_relayChainSet, isOn_eq_bit hp]
  by_cases h : p = relay
  · rw [if_pos ⟨h, hrelay⟩, if_pos h]
  · rw [if_neg fun hboth => h hboth.1, if_neg h]

end RelayChain

namespace DrvChain

open ShiftRegister

theorem settled_relayChainShift (c : RelayChain) {h : DrvChain} (hidle : h.Idle) :
    Settled c (relayChainShift c h) := by
  obtain ⟨-, hout, hidle'⟩ := relayChainShift_spec c hidle
  refine ⟨hidle', fun p hp => ?_⟩
  rw [hout, load_apply, if_pos hp]

/-- **The chain follows the state array.**  Whatever the registers held, the shift leaves
every output at its bit; and from there on, switching a relay changes its output only. -/
theorem relayChain_outputs (c : RelayChain) {h : DrvChain} (hidle : h.Idle) :
    (∀ p < c.relayChainCount, (relayChainShift c h).out p = c.bit p) ∧
      ∀ h', Settled c h' → ∀ relay on p, p < c.relayChainCount →
        (relayChainSet c h' relay on).2.out p = if p = relay then on else h'.out p := by
  refine ⟨(settled_relayChainShift c hidle).out, fun h' hs relay on p hp => ?_⟩
  unfold relayChainSet
  split
  · rename_i hle
    rw [if_neg (by omega)]
  · rename_i hlt
    have hp' : p < (c.relayChainSet relay on).relayChainCount := by
      rwa [RelayChain.relayChainSet_count]
    rw [(settled_relayChainShift _ hs.idle).out p hp',
      RelayChain.bit_relayChainSet on (Nat.not_le.mp hlt) hp, hs.out p hp]

/-- A chain that is powered up with anything in its registers. -/
def poweredUp (regs outs : Nat → BitVec 8) : DrvChain := ⟨regs, outs, false, false, false⟩

/-- Two devices with relays 0, 2 and 15 on. -/
def twoDevices : RelayChain := ⟨2, fun d => if d = 0 then 0x05#8 else 0x80#8, by decide⟩

/-- Registers full of ones, shifted over, and relay 3 switched on. -/
theorem relayChain_outputs_twoDevices :
    (relayChainShift twoDevices (poweredUp (fun _ => 0xFF#8) fun _ => 0#8)).out 15 = true ∧
      (relayChainSet twoDevices (relayChainShift twoDevices
        (poweredUp (fun _ => 0xFF#8) fun _ => 0#8)) 3 true).2.out 3 = true := by
  have hidle : (poweredUp (fun _ => 0xFF#8) fun _ => 0#8).Idle := ⟨rfl, rfl⟩
  obtain ⟨hshift, hset⟩ := relayChain_outputs twoDevices hidle
  exact ⟨hshift 15 (by decide),
    hset _ (settled_relayChainShift twoDevices hidle) 3 true 3 (by decide)⟩

end DrvChain

end HomeAuto
