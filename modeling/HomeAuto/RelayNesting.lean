import HomeAuto.Lib.Interrupts
import HomeAuto.RelayHardware

/-!
# Nested calls of the relay driver (`relay_chain.c` on the TM4C1294)

The MQTT and web handlers call `RelayChainSet` in the Ethernet interrupt, the bindings and the
ticks call it in the main loop, and nothing masks the interrupt.  A call of the main loop is a
list of operations here, one for each access to the state array and each write of a pin; before
any of them, complete calls of the interrupt may run.

`nested_sets_settle_iff` says at which points this does no harm.
-/

namespace HomeAuto

/-- An operation of `RelayChainSet`. -/
inductive ChainOp
  | loadState (relay : Nat)
  | storeState (relay : Nat) (on : Bool)
  | readByte (dev : Nat)
  | writeDin (ui8Bit : BitVec 8)
  | writePin (pin : ChainPin) (level : Bool)
  deriving DecidableEq

/-- The chain in a call: the driver and the hardware, the byte that is modified, `ui8Byte`, and
the calls whose write to the state array has been made, in order. -/
structure ChainCall where
  chain : RelayChain
  hw : DrvChain
  modified : BitVec 8
  ui8Byte : BitVec 8
  writes : List (Nat × Bool)

namespace ChainCall

/-- One operation. -/
def exec (s : ChainCall) : ChainOp → ChainCall
  | .loadState relay => { s with modified := s.chain.state (relay >>> 3) }
  | .storeState relay on =>
      { s with
        chain :=
          { s.chain with
            state := Function.update s.chain.state (relay >>> 3)
              (if on then s.modified ||| RelayChain.relayMask relay
               else s.modified &&& ~~~ RelayChain.relayMask relay) }
        writes := s.writes ++ [(relay, on)] }
  | .readByte dev => { s with ui8Byte := s.chain.state dev }
  | .writeDin ui8Bit => { s with hw := s.hw.palGpioWrite .din (s.ui8Byte &&& ui8Bit != 0#8) }
  | .writePin pin level => { s with hw := s.hw.palGpioWrite pin level }

/-- A complete call of the interrupt. -/
def serve (s : ChainCall) (call : Nat × Bool) : ChainCall :=
  { s with
    chain := (DrvChain.relayChainSet s.chain s.hw call.1 call.2).1
    hw := (DrvChain.relayChainSet s.chain s.hw call.1 call.2).2
    writes := s.writes ++ [call] }

end ChainCall

/-- One bit of the inner loop of `RelayChainShift`, one device, and the devices from
`devices - 1` down. -/
def bitOps (ui8Bit : BitVec 8) : List ChainOp :=
  [.writeDin ui8Bit, .writePin .clk true, .writePin .clk false]
def byteBits : List ChainOp := DrvChain.bitMasks.flatMap bitOps
def shiftOps : Nat → List ChainOp
  | 0 => []
  | dev + 1 => .readByte dev :: byteBits ++ shiftOps dev

/-- The latch at the end. -/
def latchOps : List ChainOp := [.writePin .latch true, .writePin .latch false]

/-- `RelayChainSet`, with the shift it ends in. -/
def setOps (devices relay : Nat) (on : Bool) : List ChainOp :=
  if devices * 8 ≤ relay then []
  else [.loadState relay, .storeState relay on] ++ (shiftOps devices ++ latchOps)

/-- A call of the main loop, with the complete calls that come at each of its points. -/
def interruptedSet (c : RelayChain) (h : DrvChain) (relay : Nat) (on : Bool)
    (sched : Nat → List (Nat × Bool)) : ChainCall :=
  Interrupts.routine ChainCall.exec ChainCall.serve sched (setOps c.devices relay on)
    ⟨c, h, 0#8, 0#8, []⟩

/-- After the call the outputs are those of the state array, and the state array reflects every
call. -/
structure ChainCall.Settles (c : RelayChain) (s : ChainCall) : Prop where
  outputs : ∀ p < c.relayChainCount, s.hw.out p = s.chain.bit p
  reflects : s.chain = s.writes.foldl (fun c call => c.relayChainSet call.1 call.2) c

/-- The points at which calls do no harm: before the state byte is read, between its write and
the shift, between the last clock pulse and the latch pulse, and after it. -/
def SafePoint (devices point : Nat) : Prop :=
  devices = 0 ∨ point = 0 ∨ point = 2 ∨ point = 2 + 25 * devices ∨ 4 + 25 * devices ≤ point

/-! ## Without interrupts -/

namespace ChainCall

theorem foldl_bits (s : ChainCall) (masks : List (BitVec 8)) :
    (masks.flatMap bitOps).foldl exec s =
      { s with hw := masks.foldl (DrvChain.shiftBit s.ui8Byte) s.hw } := by
  induction masks generalizing s with
  | nil => rfl
  | cons mask masks ih =>
      rw [List.flatMap_cons, List.foldl_append, ih]
      rfl

/-- The shift, as a part of the call. -/
theorem foldl_shiftOps (s : ChainCall) (devices : Nat) :
    ∃ byte, (shiftOps devices).foldl exec s =
      { s with hw := DrvChain.shiftDevices s.chain.state devices s.hw, ui8Byte := byte } := by
  induction devices generalizing s with
  | zero => exact ⟨s.ui8Byte, rfl⟩
  | succ dev ih =>
      have hbyte : (.readByte dev :: byteBits).foldl exec s =
          { s with
            hw := DrvChain.bitMasks.foldl (DrvChain.shiftBit (s.chain.state dev)) s.hw
            ui8Byte := s.chain.state dev } := by
        rw [List.foldl_cons]
        exact foldl_bits _ _
      obtain ⟨byte, hrest⟩ := ih ((.readByte dev :: byteBits).foldl exec s)
      rw [hbyte] at hrest
      refine ⟨byte, ?_⟩
      rw [shiftOps, List.foldl_append, hbyte]
      exact hrest

theorem foldl_write (s : ChainCall) {relay : Nat} (hrelay : relay < s.chain.relayChainCount)
    (on : Bool) :
    [ChainOp.loadState relay, .storeState relay on].foldl exec s =
      { s with
        chain := s.chain.relayChainSet relay on
        modified := s.chain.state (relay >>> 3)
        writes := s.writes ++ [(relay, on)] } := by
  unfold RelayChain.relayChainSet
  rw [if_neg (by omega)]
  rfl

theorem setOps_of_le {c : RelayChain} {relay : Nat} (h : c.relayChainCount ≤ relay) (on : Bool) :
    setOps c.devices relay on = [] := if_pos h

theorem setOps_of_lt {c : RelayChain} {relay : Nat} (h : relay < c.relayChainCount) (on : Bool) :
    setOps c.devices relay on =
      [.loadState relay, .storeState relay on] ++ (shiftOps c.devices ++ latchOps) :=
  if_neg (Nat.not_le.mpr h)

theorem devices_relayChainSet (c : RelayChain) (relay : Nat) (on : Bool) :
    (c.relayChainSet relay on).devices = c.devices := by
  unfold RelayChain.relayChainSet
  split <;> rfl

/-- **A call that is not interrupted** is the call of the driver. -/
theorem foldl_setOps (s : ChainCall) (relay : Nat) (on : Bool) :
    ((setOps s.chain.devices relay on).foldl exec s).chain =
        (DrvChain.relayChainSet s.chain s.hw relay on).1 ∧
      ((setOps s.chain.devices relay on).foldl exec s).hw =
        (DrvChain.relayChainSet s.chain s.hw relay on).2 := by
  unfold DrvChain.relayChainSet
  by_cases hrange : s.chain.relayChainCount ≤ relay
  · rw [setOps_of_le hrange, if_pos hrange]
    exact ⟨rfl, rfl⟩
  · obtain ⟨byte, hshift⟩ := foldl_shiftOps
      { s with
        chain := s.chain.relayChainSet relay on
        modified := s.chain.state (relay >>> 3)
        writes := s.writes ++ [(relay, on)] } s.chain.devices
    rw [setOps_of_lt (by omega), if_neg hrange, List.foldl_append, List.foldl_append,
      foldl_write s (by omega) on, hshift]
    unfold DrvChain.relayChainShift
    rw [devices_relayChainSet]
    exact ⟨rfl, rfl⟩

/-! ## Calls at harmless points -/

/-- The state array reflects the calls so far, and the pins are idle. -/
structure Reflected (c : RelayChain) (s : ChainCall) : Prop where
  reflects : s.chain = s.writes.foldl (fun c call => c.relayChainSet call.1 call.2) c
  idle : s.hw.Idle

/-- The registers hold the state array. -/
structure Loaded (c : RelayChain) (s : ChainCall) : Prop extends Reflected c s where
  reg : ∀ p < c.relayChainCount, s.hw.reg p = s.chain.bit p

/-- The outputs follow the state array. -/
structure Latched (c : RelayChain) (s : ChainCall) : Prop extends Reflected c s where
  out : ∀ p < c.relayChainCount, s.hw.out p = s.chain.bit p

variable {c : RelayChain} {s : ChainCall}

theorem Reflected.count (h : Reflected c s) : s.chain.relayChainCount = c.relayChainCount := by
  have hcalls (calls : List (Nat × Bool)) (c : RelayChain) :
      (calls.foldl (fun c call => c.relayChainSet call.1 call.2) c).relayChainCount =
        c.relayChainCount := by
    induction calls generalizing c with
    | nil => rfl
    | cons call calls ih => rw [List.foldl_cons, ih, RelayChain.relayChainSet_count]
  rw [h.reflects, hcalls]

theorem serve_of_le {call : Nat × Bool} (h : s.chain.relayChainCount ≤ call.1) :
    s.serve call = { s with writes := s.writes ++ [call] } := by
  simp [serve, DrvChain.relayChainSet, h]

theorem serve_of_lt {call : Nat × Bool} (h : call.1 < s.chain.relayChainCount) :
    s.serve call =
      { s with
        chain := s.chain.relayChainSet call.1 call.2
        hw := DrvChain.relayChainShift (s.chain.relayChainSet call.1 call.2) s.hw
        writes := s.writes ++ [call] } := by
  simp [serve, DrvChain.relayChainSet, Nat.not_le.mpr h]

/-- A complete call, on idle pins. -/
theorem Reflected.serve (h : Reflected c s) (call : Nat × Bool) :
    Reflected c (s.serve call) := by
  rcases Nat.lt_or_ge call.1 s.chain.relayChainCount with hlt | hge
  · rw [serve_of_lt hlt]
    refine ⟨?_, (DrvChain.relayChainShift_spec _ h.idle).2.2⟩
    rw [List.foldl_append, ← h.reflects]
    rfl
  · rw [serve_of_le hge]
    refine ⟨?_, h.idle⟩
    rw [List.foldl_append, ← h.reflects]
    exact (RelayChain.relayChainSet_of_count_le hge).symm

/-- It leaves the state array in the registers, and on the outputs. -/
theorem serve_loads (h : Reflected c s) {call : Nat × Bool}
    (hlt : call.1 < s.chain.relayChainCount) {p : Nat} (hp : p < c.relayChainCount) :
    (s.serve call).hw.reg p = (s.serve call).chain.bit p ∧
      (s.serve call).hw.out p = (s.serve call).chain.bit p := by
  obtain ⟨hreg, hout, -⟩ :=
    DrvChain.relayChainShift_spec (s.chain.relayChainSet call.1 call.2) h.idle
  have hp' : p < (s.chain.relayChainSet call.1 call.2).relayChainCount := by
    rw [RelayChain.relayChainSet_count, h.count]
    exact hp
  rw [serve_of_lt hlt]
  dsimp only
  rw [hreg, hout, ShiftRegister.load_apply, if_pos hp']
  exact ⟨rfl, rfl⟩

theorem Loaded.serve (h : Loaded c s) (call : Nat × Bool) : Loaded c (s.serve call) := by
  refine ⟨h.toReflected.serve call, ?_⟩
  intro p hp
  rcases Nat.lt_or_ge call.1 s.chain.relayChainCount with hlt | hge
  · exact (serve_loads h.toReflected hlt hp).1
  · rw [serve_of_le hge]
    exact h.reg p hp

theorem Latched.serve (h : Latched c s) (call : Nat × Bool) : Latched c (s.serve call) := by
  refine ⟨h.toReflected.serve call, ?_⟩
  intro p hp
  rcases Nat.lt_or_ge call.1 s.chain.relayChainCount with hlt | hge
  · exact (serve_loads h.toReflected hlt hp).2
  · rw [serve_of_le hge]
    exact h.out p hp

/-- The write of the state byte. -/
theorem Reflected.write (h : Reflected c s) {relay : Nat} (hrelay : relay < c.relayChainCount)
    (on : Bool) :
    Reflected c ([ChainOp.loadState relay, .storeState relay on].foldl exec s) := by
  have hcount := h.count
  rw [foldl_write s (by omega)]
  refine ⟨?_, h.idle⟩
  rw [List.foldl_append, ← h.reflects]
  rfl

/-- The shift. -/
theorem Reflected.shift (h : Reflected c s) :
    Loaded c ((shiftOps c.devices).foldl exec s) := by
  obtain ⟨byte, heq⟩ := foldl_shiftOps s c.devices
  obtain ⟨hreg, -, hidle⟩ := DrvChain.shiftDevices_spec s.chain c.devices h.idle
  rw [heq]
  refine ⟨⟨h.reflects, hidle⟩, ?_⟩
  intro p hp
  dsimp only
  rw [hreg, ShiftRegister.load_apply]
  exact if_pos hp

/-- The latch pulse. -/
theorem Loaded.latch (h : Loaded c s) : Latched c (latchOps.foldl exec s) := by
  have heq : latchOps.foldl exec s = { s with hw := { s.hw with outs := s.hw.regs } } := by
    simp [latchOps, exec, DrvChain.palGpioWrite, h.idle.latch]
  rw [heq]
  exact ⟨⟨h.reflects, h.idle.clk, h.idle.latch⟩, h.reg⟩

theorem length_shiftOps (devices : Nat) : (shiftOps devices).length = 25 * devices := by
  induction devices with
  | zero => rfl
  | succ dev ih =>
      have hbits : byteBits.length = 24 := rfl
      rw [shiftOps, List.length_append, List.length_cons, hbits, ih]
      omega

end ChainCall

open Interrupts ChainCall in
/-- Calls at harmless points leave the outputs at the state array, with every call in it. -/
theorem settles_of_safe {c : RelayChain} {h : DrvChain} (hs : DrvChain.Settled c h) (relay : Nat)
    (on : Bool) {sched : Nat → List (Nat × Bool)}
    (hsafe : ∀ i, sched i ≠ [] → SafePoint c.devices i) :
    (interruptedSet c h relay on sched).Settles c := by
  have hstart : Latched c ⟨c, h, 0#8, 0#8, []⟩ := ⟨⟨rfl, hs.idle⟩, hs.out⟩
  have hnone (i : Nat) (hi : ¬SafePoint c.devices i) : sched i = [] := by
    by_contra hne
    exact hi (hsafe i hne)
  have hops : Latched c
      (upTo exec serve sched 0 (setOps c.devices relay on) ⟨c, h, 0#8, 0#8, []⟩) := by
    rcases Nat.lt_or_ge relay c.relayChainCount with hlt | hge
    · have hpos : 0 < c.devices := by
        unfold RelayChain.relayChainCount at hlt
        omega
      have hlen := length_shiftOps c.devices
      have hshiftOps : shiftOps c.devices ≠ [] := by
        rw [← List.length_pos_iff]
        omega
      rw [setOps_of_lt hlt, upTo_append, upTo_append]
      -- The write, the shift and the latch pulse, each with calls before it only.
      refine upTo_part (I := Loaded c) (by simp [latchOps]) (fun j hlo hhi => hnone j ?_)
        (fun _ call _ hk => hk.serve call) (fun _ hk => hk.latch) ?_
      · simp only [latchOps, List.length_cons, List.length_nil, hlen] at hlo hhi
        unfold SafePoint
        omega
      refine upTo_part (I := Reflected c) hshiftOps (fun j hlo hhi => hnone j ?_)
        (fun _ call _ hk => hk.serve call) (fun _ hk => hk.shift) ?_
      · simp only [List.length_cons, List.length_nil, hlen] at hlo hhi
        unfold SafePoint
        omega
      refine upTo_part (I := Reflected c) (by simp) (fun j hlo hhi => hnone j ?_)
        (fun _ call _ hk => hk.serve call) (fun _ hk => hk.write hlt on) hstart.toReflected
      simp only [List.length_cons, List.length_nil] at hlo hhi
      unfold SafePoint
      omega
    · rw [setOps_of_le hge]
      exact hstart
  have hdone : Latched c (interruptedSet c h relay on sched) :=
    served_keeps (I := Latched c) (fun _ call _ hk => hk.serve call) hops
  exact ⟨hdone.out, hdone.reflects⟩

/-! ## Calls at the other points -/

/-- All relays off, on blank hardware. -/
def allOff (chain : RelayChain) : RelayChain := { chain with state := fun _ => 0#8 }
def blankChain : DrvChain := .poweredUp (fun _ => 0#8) fun _ => 0#8

namespace ChainCall

/-- Nothing but zeros. -/
structure Blank (s : ChainCall) : Prop where
  state : ∀ d, s.chain.state d = 0#8
  modified : s.modified = 0#8
  byte : s.ui8Byte = 0#8
  din : s.hw.din = false
  reg : ∀ p, s.hw.reg p = false
  out : ∀ p, s.hw.out p = false

/-- The last relay has been switched on in an interrupt, and its device's byte is not going to be
read again: apart from the last cell the registers hold zeros, and zeros are shifted in. -/
structure Fading (devices : Nat) (s : ChainCall) : Prop where
  state : ∀ d, d + 1 < devices → s.chain.state d = 0#8
  on : s.chain.bit (devices * 8 - 1) = true
  byte : s.ui8Byte = 0#8
  din : s.hw.din = false
  latch : s.hw.latch = false
  reg : ∀ p, p + 1 < devices * 8 → s.hw.reg p = false

/-- And the last cell, too. -/
structure Dark (devices : Nat) (s : ChainCall) : Prop extends Fading devices s where
  last : s.hw.reg (devices * 8 - 1) = false

/-- The operations that are left of the shift, once the byte of the last device is read. -/
def restOps (dev : Nat) : List ChainOp := byteBits ++ shiftOps dev

/-- One of these operations, for the devices below `dev`. -/
def ChainOp.shifts (dev : Nat) : ChainOp → Prop
  | .readByte d => d < dev
  | .writeDin _ => True
  | .writePin pin _ => pin = .clk
  | _ => False

/-- An operation that brings no one in. -/
def ChainOp.clears : ChainOp → Prop
  | .storeState _ on => on = false
  | .writePin pin _ => pin ≠ .din
  | _ => True

theorem shifts_of_mem {dev : Nat} {op : ChainOp} (h : op ∈ restOps dev) :
    ChainOp.shifts dev op := by
  have hbits {dev : Nat} {op : ChainOp} (h : op ∈ byteBits) : ChainOp.shifts dev op := by
    unfold byteBits at h
    rw [List.mem_flatMap] at h
    obtain ⟨mask, -, hop⟩ := h
    simp only [bitOps, List.mem_cons, List.not_mem_nil, or_false] at hop
    rcases hop with rfl | rfl | rfl <;> trivial
  have hdevices (dev' : Nat) (hle : dev' ≤ dev) (h : op ∈ shiftOps dev') :
      ChainOp.shifts dev op := by
    induction dev' with
    | zero => exact absurd h (by simp [shiftOps])
    | succ d ih =>
        rw [shiftOps, List.mem_append, List.mem_cons] at h
        rcases h with (rfl | hbit) | hrest
        · exact hle
        · exact hbits hbit
        · exact ih (by omega) hrest
  rcases List.mem_append.mp h with hbit | hrest
  · exact hbits hbit
  · exact hdevices dev (Nat.le_refl dev) hrest

/-- The shift ends with the clock pulse of a bit. -/
theorem restOps_ends (dev : Nat) :
    ∃ ops, restOps dev = ops ++ [.writePin .clk true, .writePin .clk false] := by
  induction dev with
  | zero => exact ⟨byteBits.take 22, rfl⟩
  | succ dev ih =>
      obtain ⟨ops, hops⟩ := ih
      refine ⟨byteBits ++ .readByte dev :: ops, ?_⟩
      rw [List.append_assoc, List.cons_append, ← hops]
      rfl

theorem and_zero_bne (mask : BitVec 8) : (0#8 &&& mask != 0#8) = false := by
  rw [BitVec.zero_and]
  rfl

/-! ### One operation -/

/-- A write of CLK: a rising edge shifts DIN in, and nothing else does anything. -/
theorem reg_clk (h : DrvChain) (level : Bool) :
    (h.palGpioWrite .clk level).reg =
      if level = true ∧ h.clk = false then ShiftRegister.push h.reg h.din else h.reg := by
  by_cases hrise : level = true ∧ h.clk = false
  · rw [if_pos hrise, ← DrvChain.reg_rise]
    simp only [DrvChain.palGpioWrite, hrise.1, hrise.2]
    rfl
  · have hstay : (level && !h.clk) = false := by
      cases level <;> cases hclk : h.clk <;> simp_all
    rw [if_neg hrise]
    simp only [DrvChain.palGpioWrite, hstay]
    rfl

theorem clk_frame (h : DrvChain) (level : Bool) :
    (h.palGpioWrite .clk level).outs = h.outs ∧ (h.palGpioWrite .clk level).din = h.din ∧
      (h.palGpioWrite .clk level).latch = h.latch := by
  simp only [DrvChain.palGpioWrite]
  split <;> exact ⟨rfl, rfl, rfl⟩

/-- Zeros are shifted into zeros. -/
theorem reg_clk_false {h : DrvChain} {level : Bool} (hdin : h.din = false) {n : Nat}
    (hreg : ∀ p < n, h.reg p = false) {p : Nat} (hp : p < n) :
    (h.palGpioWrite .clk level).reg p = false := by
  rw [reg_clk]
  split
  · cases p with
    | zero => exact hdin
    | succ p => exact hreg p (by omega)
  · exact hreg p hp

variable {s : ChainCall} {dev : Nat}

theorem Blank.exec (h : Blank s) {op : ChainOp} (hop : ChainOp.clears op) :
    Blank (s.exec op) := by
  cases op with
  | loadState relay => exact ⟨h.state, h.state _, h.byte, h.din, h.reg, h.out⟩
  | storeState relay on =>
      have hoff : on = false := hop
      subst hoff
      refine ⟨?_, h.modified, h.byte, h.din, h.reg, h.out⟩
      intro d
      simp only [ChainCall.exec, Function.update_apply, h.modified]
      split
      · simp
      · exact h.state d
  | readByte d => exact ⟨h.state, h.modified, h.state d, h.din, h.reg, h.out⟩
  | writeDin mask =>
      refine ⟨h.state, h.modified, h.byte, ?_, h.reg, h.out⟩
      change (s.ui8Byte &&& mask != 0#8) = false
      rw [h.byte, and_zero_bne]
  | writePin pin level =>
      cases pin with
      | din => exact absurd rfl hop
      | clk =>
          obtain ⟨houts, hdin, -⟩ := clk_frame s.hw level
          refine ⟨h.state, h.modified, h.byte, hdin.trans h.din, ?_, ?_⟩
          · intro p
            exact reg_clk_false h.din (fun p' _ => h.reg p') (Nat.lt_succ_self p)
          · intro p
            have hout := h.out p
            unfold DrvChain.out at hout ⊢
            exact houts ▸ hout
      | latch =>
          refine ⟨h.state, h.modified, h.byte, h.din, h.reg, ?_⟩
          intro p
          simp only [ChainCall.exec, DrvChain.palGpioWrite, DrvChain.out]
          split
          · exact h.reg p
          · exact h.out p

theorem Fading.exec (h : Fading (dev + 1) s) {op : ChainOp} (hop : ChainOp.shifts dev op) :
    Fading (dev + 1) (s.exec op) := by
  cases op with
  | readByte d => exact ⟨h.state, h.on, h.state d (Nat.succ_lt_succ hop), h.din, h.latch, h.reg⟩
  | writeDin mask =>
      refine ⟨h.state, h.on, h.byte, ?_, h.latch, h.reg⟩
      change (s.ui8Byte &&& mask != 0#8) = false
      rw [h.byte, and_zero_bne]
  | writePin pin level =>
      have hpin : pin = .clk := hop
      subst hpin
      obtain ⟨-, hdin, hlatch⟩ := clk_frame s.hw level
      refine ⟨h.state, h.on, h.byte, hdin.trans h.din, hlatch.trans h.latch, ?_⟩
      intro p hp
      exact reg_clk_false h.din (n := (dev + 1) * 8 - 1) (fun p hp => h.reg p (by omega)) (by omega)
  | loadState relay => exact hop.elim
  | storeState relay on => exact hop.elim

theorem Dark.reg_all {devices : Nat} (h : Dark devices s) {p : Nat} (hp : p < devices * 8) :
    s.hw.reg p = false := by
  by_cases hlast : p = devices * 8 - 1
  · rw [hlast]
    exact h.last
  · exact h.reg p (by omega)

theorem Dark.exec (h : Dark (dev + 1) s) {op : ChainOp} (hop : ChainOp.shifts dev op) :
    Dark (dev + 1) (s.exec op) := by
  refine ⟨h.toFading.exec hop, ?_⟩
  cases op with
  | readByte d => exact h.last
  | writeDin mask => exact h.last
  | writePin pin level =>
      have hpin : pin = .clk := hop
      subst hpin
      exact reg_clk_false h.din (n := (dev + 1) * 8) (fun p hp => h.reg_all hp) (by omega)
  | loadState relay => exact hop.elim
  | storeState relay on => exact hop.elim

/-- A rising edge shifts the last cell out. -/
theorem Fading.rise (h : Fading (dev + 1) s) (hclk : s.hw.clk = false) :
    Dark (dev + 1) (s.exec (.writePin .clk true)) := by
  refine ⟨h.exec rfl, ?_⟩
  change (s.hw.palGpioWrite .clk true).reg ((dev + 1) * 8 - 1) = false
  have hlast : (dev + 1) * 8 - 1 = (dev * 8 + 6) + 1 := by omega
  rw [reg_clk, if_pos ⟨rfl, hclk⟩, hlast, ShiftRegister.push_succ]
  exact h.reg _ (by omega)

theorem Dark.foldl (h : Dark (dev + 1) s) {ops : List ChainOp}
    (hops : ∀ op ∈ ops, ChainOp.shifts dev op) : Dark (dev + 1) (ops.foldl ChainCall.exec s) :=
  Interrupts.foldl_keeps (fun _ op hop hk => hk.exec (hops op hop)) h

/-- Operations with a clock pulse in them. -/
theorem Fading.foldl (h : Fading (dev + 1) s) (hclk : s.hw.clk = false) {ops : List ChainOp}
    (hops : ∀ op ∈ ops, ChainOp.shifts dev op) (hpulse : .writePin .clk true ∈ ops) :
    Dark (dev + 1) (ops.foldl ChainCall.exec s) := by
  induction ops generalizing s with
  | nil => exact absurd hpulse (by simp)
  | cons op ops ih =>
      have hop := hops op (by simp)
      have hrest (o : ChainOp) (ho : o ∈ ops) : ChainOp.shifts dev o := hops o (by simp [ho])
      rw [List.foldl_cons]
      by_cases hnow : op = .writePin .clk true
      · rw [hnow]
        exact (h.rise hclk).foldl hrest
      · have hlater : .writePin .clk true ∈ ops := by
          rw [List.mem_cons] at hpulse
          exact hpulse.resolve_left (Ne.symm hnow)
        have hlow : (s.exec op).hw.clk = false := by
          cases op with
          | readByte d => exact hclk
          | writeDin mask => exact hclk
          | writePin pin level =>
              have hpin : pin = .clk := hop
              subst hpin
              cases level with
              | true => exact absurd rfl hnow
              | false => rfl
          | loadState relay => exact hop.elim
          | storeState relay on => exact hop.elim
        exact ih (h.exec hop) hlow hrest hlater

/-- The latch pulse then switches the last relay off. -/
theorem Dark.latched (h : Dark (dev + 1) s) :
    (latchOps.foldl ChainCall.exec s).hw.out ((dev + 1) * 8 - 1) = false ∧
      (latchOps.foldl ChainCall.exec s).chain.bit ((dev + 1) * 8 - 1) = true := by
  have heq : latchOps.foldl ChainCall.exec s =
      { s with hw := { s.hw with outs := s.hw.regs } } := by
    simp [latchOps, ChainCall.exec, DrvChain.palGpioWrite, h.latch]
  rw [heq]
  exact ⟨h.last, h.on⟩

/-! ### A complete call that switches the last relay on -/

/-- The last relay of `dev + 1` devices, and its place in the state array. -/
def lastRelay (dev : Nat) : Nat := (dev + 1) * 8 - 1

theorem lastRelay_byte (dev : Nat) : lastRelay dev >>> 3 = dev := by
  rw [lastRelay, Nat.shiftRight_eq_div_pow]
  omega

theorem lastRelay_mask (dev : Nat) : RelayChain.relayMask (lastRelay dev) = 0x80#8 := by
  have hbit : lastRelay dev &&& 7 = 7 := by
    rw [lastRelay, Nat.and_two_pow_sub_one_eq_mod _ 3]
    omega
  rw [RelayChain.relayMask, hbit]
  rfl

theorem shiftBit_frame (byte : BitVec 8) (h : DrvChain) (mask : BitVec 8) :
    (DrvChain.shiftBit byte h mask).outs = h.outs ∧
      (DrvChain.shiftBit byte h mask).latch = h.latch ∧
      (DrvChain.shiftBit byte h mask).din = (byte &&& mask != 0#8) := by
  obtain ⟨houts, hdin, hlatch⟩ := clk_frame (h.palGpioWrite .din (byte &&& mask != 0#8)) true
  obtain ⟨houts', hdin', hlatch'⟩ := clk_frame
    ((h.palGpioWrite .din (byte &&& mask != 0#8)).palGpioWrite .clk true) false
  exact ⟨houts'.trans houts, hlatch'.trans hlatch, hdin'.trans hdin⟩

theorem foldl_shiftBit_frame (byte : BitVec 8) (masks : List (BitVec 8)) (h : DrvChain) :
    (masks.foldl (DrvChain.shiftBit byte) h).outs = h.outs ∧
      (masks.foldl (DrvChain.shiftBit byte) h).latch = h.latch := by
  induction masks generalizing h with
  | nil => exact ⟨rfl, rfl⟩
  | cons mask masks ih =>
      obtain ⟨houts, hlatch, -⟩ := shiftBit_frame byte h mask
      obtain ⟨houts', hlatch'⟩ := ih (DrvChain.shiftBit byte h mask)
      exact ⟨houts'.trans houts, hlatch'.trans hlatch⟩

/-- The shift touches neither the outputs nor LATCH, whatever CLK and LATCH are. -/
theorem shiftDevices_frame (state : Nat → BitVec 8) (devices : Nat) (h : DrvChain) :
    (DrvChain.shiftDevices state devices h).outs = h.outs ∧
      (DrvChain.shiftDevices state devices h).latch = h.latch := by
  induction devices generalizing h with
  | zero => exact ⟨rfl, rfl⟩
  | succ d ih =>
      obtain ⟨houts, hlatch⟩ := foldl_shiftBit_frame (state d) DrvChain.bitMasks h
      obtain ⟨houts', hlatch'⟩ := ih (DrvChain.bitMasks.foldl (DrvChain.shiftBit (state d)) h)
      exact ⟨houts'.trans houts, hlatch'.trans hlatch⟩

/-- DIN is left at the lowest bit of the nearest device. -/
theorem din_shiftDevices (state : Nat → BitVec 8) (dev : Nat) (h : DrvChain) :
    (DrvChain.shiftDevices state (dev + 1) h).din = (state 0 &&& 1#8 != 0#8) := by
  induction dev generalizing h with
  | zero =>
      have hmasks : DrvChain.bitMasks = DrvChain.bitMasks.take 7 ++ [1#8] := rfl
      rw [DrvChain.shiftDevices, DrvChain.shiftDevices, hmasks, List.foldl_append]
      exact (shiftBit_frame _ _ _).2.2
  | succ dev ih => exact ih _

/-- The state array after the call. -/
structure LastOn (dev : Nat) (c : RelayChain) : Prop where
  devices : c.devices = dev + 1
  last : c.state dev = 0x80#8
  others : ∀ d, d ≠ dev → c.state d = 0#8

theorem LastOn.bit {dev : Nat} {c : RelayChain} (h : LastOn dev c) {p : Nat}
    (hp : p ≠ lastRelay dev) : c.bit p = false := by
  unfold RelayChain.bit
  by_cases hd : p / 8 = dev
  · have hlt : p % 8 < 7 := by
      unfold lastRelay at hp
      omega
    rw [hd, h.last]
    interval_cases p % 8 <;> rfl
  · rw [h.others _ hd]
    exact BitVec.getLsbD_zero

theorem LastOn.bit_last {dev : Nat} {c : RelayChain} (h : LastOn dev c) :
    c.bit (lastRelay dev) = true := by
  have hdiv : lastRelay dev / 8 = dev := by
    unfold lastRelay
    omega
  have hmod : lastRelay dev % 8 = 7 := by
    unfold lastRelay
    omega
  rw [RelayChain.bit, hdiv, hmod, h.last]
  rfl

theorem lastOn_serve (h : Blank s) (hdev : s.chain.devices = dev + 1) :
    LastOn dev (s.chain.relayChainSet (lastRelay dev) true) := by
  have hlt : ¬s.chain.relayChainCount ≤ lastRelay dev := by
    rw [RelayChain.relayChainCount, hdev, lastRelay]
    omega
  refine ⟨(devices_relayChainSet _ _ _).trans hdev, ?_, ?_⟩
  · rw [RelayChain.relayChainSet, if_neg hlt, lastRelay_byte, lastRelay_mask]
    dsimp only
    rw [Function.update_self, h.state]
    rfl
  · intro d hd
    rw [RelayChain.relayChainSet, if_neg hlt, lastRelay_byte]
    dsimp only
    rw [Function.update_of_ne hd]
    exact h.state d

theorem foldl_bitMasks_first {α : Type*} (f : α → BitVec 8 → α) (a : α) :
    DrvChain.bitMasks.foldl f a = (DrvChain.bitMasks.drop 1).foldl f (f a 0x80#8) := rfl

theorem serve_last (hdev : s.chain.devices = dev + 1) :
    s.serve (lastRelay dev, true) =
      { s with
        chain := s.chain.relayChainSet (lastRelay dev) true
        hw := DrvChain.relayChainShift (s.chain.relayChainSet (lastRelay dev) true) s.hw
        writes := s.writes ++ [(lastRelay dev, true)] } := by
  apply serve_of_lt
  rw [RelayChain.relayChainCount, hdev]
  unfold lastRelay
  omega

/-- After the call zeros are shifted in, and the registers hold zeros apart from the last cell,
if they hold zeros there after the call's shift. -/
theorem fading_serve (h : Blank s) (hdev : s.chain.devices = dev + 1)
    (hreg : ∀ p, p + 1 < (dev + 1) * 8 → (DrvChain.relayChainShift
      (s.chain.relayChainSet (lastRelay dev) true) s.hw).reg p = false) :
    Fading (dev + 1) (s.serve (lastRelay dev, true)) := by
  have hon := lastOn_serve h hdev
  rw [serve_last hdev]
  refine ⟨?_, hon.bit_last, h.byte, ?_, rfl, hreg⟩
  · intro d hd
    exact hon.others d (by omega)
  · have hdin := din_shiftDevices (s.chain.relayChainSet (lastRelay dev) true).state dev s.hw
    have hdevices := hon.devices
    have hzero : ((s.chain.relayChainSet (lastRelay dev) true).state 0 &&& 1#8 != 0#8) = false := by
      by_cases hfirst : dev = 0
      · have hlast := hon.last
        rw [hfirst] at hlast ⊢
        rw [hlast]
        rfl
      · rw [hon.others 0 (Ne.symm hfirst), and_zero_bne]
    change (DrvChain.shiftDevices (s.chain.relayChainSet (lastRelay dev) true).state
      (s.chain.relayChainSet (lastRelay dev) true).devices s.hw).din = false
    rw [hdevices, hdin, hzero]

/-- With CLK low the call itself does its work. -/
theorem fading_serve_low (h : Blank s) (hdev : s.chain.devices = dev + 1) (hidle : s.hw.Idle) :
    Fading (dev + 1) (s.serve (lastRelay dev, true)) := by
  have hon := lastOn_serve h hdev
  apply fading_serve h hdev
  intro p hp
  rw [(DrvChain.relayChainShift_spec _ hidle).1, ShiftRegister.load_apply]
  split
  · apply hon.bit
    unfold lastRelay
    omega
  · exact h.reg _

/-- Masks that miss the one bit of a byte push zeros. -/
theorem foldl_push_zeros {byte : BitVec 8} {masks : List (BitVec 8)}
    (hmasks : ∀ m ∈ masks, (byte &&& m != 0#8) = false) {r : Nat → Bool}
    (hr : ∀ p, r p = false) (p : Nat) :
    masks.foldl (fun r m => ShiftRegister.push r (byte &&& m != 0#8)) r p = false := by
  induction masks generalizing r with
  | nil => exact hr p
  | cons m masks ih =>
      rw [List.foldl_cons]
      apply ih fun m' hm' => hmasks m' (by simp [hm'])
      intro p
      rw [hmasks m (by simp)]
      cases p with
      | zero => rfl
      | succ p => exact hr p

/-- With CLK high its first bit, the one that is set, is not shifted in. -/
theorem dark_serve_high (h : Blank s) (hdev : s.chain.devices = dev + 1)
    (hclk : s.hw.clk = true) (hlatch : s.hw.latch = false) :
    Dark (dev + 1) (s.serve (lastRelay dev, true)) := by
  have hon := lastOn_serve h hdev
  have hreg (p : Nat) (hp : p < (dev + 1) * 8) : (DrvChain.relayChainShift
      (s.chain.relayChainSet (lastRelay dev) true) s.hw).reg p = false := by
    generalize s.chain.relayChainSet (lastRelay dev) true = c at hon ⊢
    have hfirst :
        DrvChain.shiftBit 0x80#8 s.hw 0x80#8 = { s.hw with din := true, clk := false } := by
      simp [DrvChain.shiftBit, DrvChain.palGpioWrite, hclk]
    have hidle : ({ s.hw with din := true, clk := false } : DrvChain).Idle := ⟨rfl, hlatch⟩
    obtain ⟨hbyte, -, hidle'⟩ :=
      DrvChain.foldl_shiftBit hidle 0x80#8 (DrvChain.bitMasks.drop 1)
    obtain ⟨hshift, -, -⟩ := DrvChain.shiftDevices_spec c dev hidle'
    have hsplit : DrvChain.shiftDevices c.state c.devices s.hw =
        DrvChain.shiftDevices c.state dev
          ((DrvChain.bitMasks.drop 1).foldl (DrvChain.shiftBit 0x80#8)
            { s.hw with din := true, clk := false }) := by
      rw [hon.devices, DrvChain.shiftDevices, hon.last, foldl_bitMasks_first, hfirst]
    change (DrvChain.shiftDevices c.state c.devices s.hw).reg p = false
    rw [hsplit, hshift, ShiftRegister.load_apply, hbyte]
    split
    · apply hon.bit
      unfold lastRelay
      omega
    · exact foldl_push_zeros (by decide) h.reg _
  refine ⟨fading_serve h hdev fun p hp => hreg p (by omega), ?_⟩
  rw [serve_last hdev]
  exact hreg _ (by omega)

/-- With LATCH high its latch pulse does nothing. -/
theorem out_serve_latched (h : Blank s) (hdev : s.chain.devices = dev + 1)
    (hlatch : s.hw.latch = true) :
    (s.serve (lastRelay dev, true)).hw.out (lastRelay dev) = false ∧
      (s.serve (lastRelay dev, true)).chain.bit (lastRelay dev) = true := by
  have hon := lastOn_serve h hdev
  rw [serve_last hdev]
  refine ⟨?_, hon.bit_last⟩
  generalize s.chain.relayChainSet (lastRelay dev) true = c
  obtain ⟨houts, hkept⟩ := shiftDevices_frame c.state c.devices s.hw
  have hstay : (DrvChain.relayChainShift c s.hw).outs = s.hw.outs := by
    simp [DrvChain.relayChainShift, DrvChain.palGpioWrite, hkept, hlatch, houts]
  have hout := h.out (lastRelay dev)
  unfold DrvChain.out at hout ⊢
  dsimp only
  rw [hstay]
  exact hout

/-! ### The call of the main loop -/

theorem setOps_first (dev : Nat) :
    setOps (dev + 1) 0 false =
      [.loadState 0, .storeState 0 false, .readByte dev] ++ (restOps dev ++ latchOps) := by
  unfold setOps
  rw [if_neg (by omega), shiftOps, restOps]
  simp only [List.append_assoc, List.cons_append, List.nil_append]

theorem clears_of_mem {op : ChainOp} (h : op ∈ setOps (dev + 1) 0 false) :
    ChainOp.clears op := by
  rw [setOps_first, List.mem_append, List.mem_append] at h
  rcases h with hfirst | hrest | hlatch
  · simp only [List.mem_cons, List.not_mem_nil, or_false] at hfirst
    rcases hfirst with rfl | rfl | rfl <;> trivial
  · have hshift := shifts_of_mem hrest
    cases op with
    | writePin pin level =>
        have hpin : pin = .clk := hshift
        subst hpin
        exact ChainPin.noConfusion
    | loadState relay => trivial
    | storeState relay on => exact hshift.elim
    | readByte d => trivial
    | writeDin mask => trivial
  · simp only [latchOps, List.mem_cons, List.not_mem_nil, or_false] at hlatch
    rcases hlatch with rfl | rfl <;> exact ChainPin.noConfusion

/-- The main loop's call, as it begins. -/
def start (chain : RelayChain) : ChainCall := ⟨allOff chain, blankChain, 0#8, 0#8, []⟩

variable {chain : RelayChain}

theorem blank_start (chain : RelayChain) : Blank (start chain) where
  state := fun _ => rfl
  modified := rfl
  byte := rfl
  din := rfl
  reg := fun _ => BitVec.getLsbD_zero
  out := fun _ => BitVec.getLsbD_zero

theorem blank_take (k : Nat) :
    Blank (((setOps (dev + 1) 0 false).take k).foldl ChainCall.exec (start chain)) :=
  Interrupts.foldl_keeps (fun _ _ hop hs => hs.exec (clears_of_mem (List.mem_of_mem_take hop)))
    (blank_start chain)

theorem exec_devices (s : ChainCall) (op : ChainOp) :
    (s.exec op).chain.devices = s.chain.devices := by
  cases op <;> rfl

theorem foldl_devices (ops : List ChainOp) (s : ChainCall) :
    (ops.foldl ChainCall.exec s).chain.devices = s.chain.devices := by
  induction ops generalizing s with
  | nil => rfl
  | cons op ops ih => rw [List.foldl_cons, ih, exec_devices]

/-- LATCH stays low up to the end of the shift. -/
theorem latch_low {k : Nat} (hk : k ≤ 3 + (restOps dev).length) :
    (((setOps (dev + 1) 0 false).take k).foldl ChainCall.exec (start chain)).hw.latch = false := by
  have hexec {s : ChainCall} {op : ChainOp} (hop : ∀ level, op ≠ .writePin .latch level)
      (hs : s.hw.latch = false) : (s.exec op).hw.latch = false := by
    cases op with
    | writePin pin level =>
        cases pin with
        | din => exact hs
        | clk => exact (clk_frame s.hw level).2.2.trans hs
        | latch => exact absurd rfl (hop level)
    | loadState relay => exact hs
    | storeState relay on => exact hs
    | readByte d => exact hs
    | writeDin mask => exact hs
  have hlen : k ≤ ([ChainOp.loadState 0, .storeState 0 false, .readByte dev] ++
      restOps dev).length := by
    rw [List.length_append]
    exact hk
  rw [setOps_first, ← List.append_assoc, List.take_append_of_le_length hlen]
  refine Interrupts.foldl_keeps (I := fun s : ChainCall => s.hw.latch = false)
    (fun s op hop hs => hexec ?_ hs) rfl
  intro level heq
  rw [heq] at hop
  rcases List.mem_append.mp (List.mem_of_mem_take hop) with hfirst | hrest
  · simp at hfirst
  · exact absurd (shifts_of_mem hrest) ChainPin.noConfusion

/-- An interrupt in the shift. -/
theorem dark_of_shift {k : Nat} (hdev : chain.devices = dev + 1) (hk : k < (restOps dev).length) :
    Dark (dev + 1) (((restOps dev).drop k).foldl ChainCall.exec
      ((((setOps (dev + 1) 0 false).take (3 + k)).foldl ChainCall.exec (start chain)).serve
        (lastRelay dev, true))) := by
  have hblank := @blank_take dev chain (3 + k)
  have hdevices := foldl_devices ((setOps (dev + 1) 0 false).take (3 + k)) (start chain)
  have hlatch := @latch_low dev chain (3 + k) (by omega)
  have hrest (op : ChainOp) (hop : op ∈ (restOps dev).drop k) : ChainOp.shifts dev op :=
    shifts_of_mem (List.mem_of_mem_drop hop)
  cases hclk : (((setOps (dev + 1) 0 false).take (3 + k)).foldl ChainCall.exec
      (start chain)).hw.clk with
  | true => exact (dark_serve_high hblank (hdevices.trans hdev) hclk hlatch).foldl hrest
  | false =>
      refine (fading_serve_low hblank (hdevices.trans hdev) ⟨hclk, hlatch⟩).foldl ?_ hrest ?_
      · rw [serve_last (hdevices.trans hdev)]
        exact (DrvChain.relayChainShift_spec _ ⟨hclk, hlatch⟩).2.2.clk
      · -- With CLK low there is a clock pulse to come.
        obtain ⟨ops, hops⟩ := restOps_ends dev
        rw [hops, List.length_append] at hk
        simp only [List.length_cons, List.length_nil] at hk
        rcases Nat.lt_or_ge ops.length k with hlast | hbefore
        · have hkeq : 3 + k = ([ChainOp.loadState 0, .storeState 0 false, .readByte dev] ++
              (ops ++ [ChainOp.writePin .clk true])).length := by
            simp only [List.length_append, List.length_cons, List.length_nil]
            omega
          have htake : (setOps (dev + 1) 0 false).take (3 + k) =
              ([ChainOp.loadState 0, .storeState 0 false, .readByte dev] ++ ops) ++
                [ChainOp.writePin .clk true] := by
            have hsplit : setOps (dev + 1) 0 false =
                ([ChainOp.loadState 0, .storeState 0 false, .readByte dev] ++
                  (ops ++ [ChainOp.writePin .clk true])) ++
                    (.writePin .clk false :: latchOps) := by
              rw [setOps_first, hops]
              simp only [List.append_assoc, List.cons_append, List.nil_append]
            rw [hsplit, hkeq, List.take_left, List.append_assoc]
          rw [htake, List.foldl_append] at hclk
          exact absurd hclk (by simp [ChainCall.exec, DrvChain.palGpioWrite])
        · rw [hops, List.drop_append_of_le_length hbefore]
          simp

end ChainCall

/-- One call, at one point. -/
def onlyAt (point : Nat) (call : Nat × Bool) : Nat → List (Nat × Bool) :=
  fun i => if i = point then [call] else []

theorem settled_allOff (chain : RelayChain) : DrvChain.Settled (allOff chain) blankChain where
  idle := ⟨rfl, rfl⟩
  out := fun _ _ => rfl

open Interrupts ChainCall

theorem length_setOps_first (dev : Nat) :
    (setOps (dev + 1) 0 false).length = 3 + (restOps dev).length + 2 := by
  rw [setOps_first, List.length_append, List.length_append]
  simp only [latchOps, List.length_cons, List.length_nil]
  omega

theorem length_restOps (dev : Nat) : (restOps dev).length = 24 + 25 * dev := by
  have hbits : byteBits.length = 24 := rfl
  rw [restOps, List.length_append, hbits, length_shiftOps]

variable {chain : RelayChain} {dev : Nat}

/-- The call of the main loop, with one call at one of its points. -/
theorem interruptedSet_onlyAt (hdev : chain.devices = dev + 1) {point : Nat}
    (hpoint : point < (setOps (dev + 1) 0 false).length) (call : Nat × Bool) :
    interruptedSet (allOff chain) blankChain 0 false (onlyAt point call) =
      ((setOps (dev + 1) 0 false).drop point).foldl ChainCall.exec
        ((((setOps (dev + 1) 0 false).take point).foldl ChainCall.exec (start chain)).serve
          call) := by
  have hdevices : (allOff chain).devices = dev + 1 := hdev
  have hsched (j : Nat) (hj : j ≠ point) : onlyAt point call j = [] := if_neg hj
  have hat : onlyAt point call point = [call] := if_pos rfl
  unfold interruptedSet
  rw [hdevices, routine_single hpoint hsched, hat]
  rfl

theorem relayChainCount_allOff (hdev : chain.devices = dev + 1) :
    (allOff chain).relayChainCount = (dev + 1) * 8 := congrArg (· * 8) hdev

theorem lastRelay_lt (hdev : chain.devices = dev + 1) :
    lastRelay dev < (allOff chain).relayChainCount := by
  rw [relayChainCount_allOff hdev, lastRelay]
  omega

/-- A byte that was zero when it was read. -/
theorem bit_storeState {s : ChainCall} (h : s.modified = 0#8) :
    (s.exec (.storeState 0 false)).chain.bit 1 = false := by
  have hstate : (s.exec (.storeState 0 false)).chain.state 0 = 0#8 := by
    simp [ChainCall.exec, h]
  change ((s.exec (.storeState 0 false)).chain.state 0).getLsbD 1 = false
  rw [hstate]
  rfl

/-- Between the read and the write of the state byte: the update is lost. -/
theorem not_settles_write (hdev : chain.devices = dev + 1) :
    ¬(interruptedSet (allOff chain) blankChain 0 false (onlyAt 1 (1, true))).Settles
      (allOff chain) := by
  intro h
  have hcount := relayChainCount_allOff hdev
  have hlt : 1 < (allOff chain).relayChainCount := by omega
  have hops : setOps (dev + 1) 0 false =
      .loadState 0 :: .storeState 0 false :: (shiftOps (dev + 1) ++ latchOps) := by
    unfold setOps
    rw [if_neg (by omega)]
    rfl
  obtain ⟨byte, hshift⟩ := foldl_shiftOps
    ((((start chain).exec (.loadState 0)).serve (1, true)).exec (.storeState 0 false)) (dev + 1)
  have hend : interruptedSet (allOff chain) blankChain 0 false (onlyAt 1 (1, true)) =
      latchOps.foldl ChainCall.exec ((shiftOps (dev + 1)).foldl ChainCall.exec
        ((((start chain).exec (.loadState 0)).serve (1, true)).exec (.storeState 0 false))) := by
    rw [interruptedSet_onlyAt hdev (by rw [length_setOps_first]; omega), hops]
    simp only [List.drop_succ_cons, List.drop_zero, List.take_succ_cons, List.take_zero,
      List.foldl_cons, List.foldl_nil, List.foldl_append]
  have hzero : (((start chain).exec (.loadState 0)).serve (1, true)).modified = 0#8 := rfl
  have hclear := bit_storeState hzero
  have hreflects := h.reflects
  rw [hend, hshift] at hreflects
  have hbit := congrArg (fun c => RelayChain.bit c 1) hreflects
  have hlost : RelayChain.bit (((allOff chain).relayChainSet 1 true).relayChainSet 0 false) 1 =
      true := by
    rw [RelayChain.bit_relayChainSet false (by rw [RelayChain.relayChainSet_count]; omega)
      (by rw [RelayChain.relayChainSet_count]; omega), if_neg (by decide),
      RelayChain.bit_relayChainSet true hlt hlt, if_pos rfl]
  exact absurd (hclear.symm.trans (hbit.trans hlost)) (by decide)

/-- In the shift: the last relay is switched on and stays off. -/
theorem not_settles_shift (hdev : chain.devices = dev + 1) {k : Nat}
    (hk : k < (restOps dev).length) :
    ¬(interruptedSet (allOff chain) blankChain 0 false
      (onlyAt (3 + k) (lastRelay dev, true))).Settles (allOff chain) := by
  intro h
  have hout := h.outputs (lastRelay dev) (lastRelay_lt hdev)
  have hdrop : (setOps (dev + 1) 0 false).drop (3 + k) = (restOps dev).drop k ++ latchOps := by
    rw [setOps_first, ← List.drop_drop]
    exact List.drop_append_of_le_length (Nat.le_of_lt hk)
  obtain ⟨hoff, hon⟩ := (dark_of_shift hdev hk).latched
  rw [interruptedSet_onlyAt hdev (by rw [length_setOps_first]; omega), hdrop,
    List.foldl_append] at hout
  rw [lastRelay] at hout hoff hon
  rw [hoff, hon] at hout
  exact absurd hout (by decide)

/-- In the latch pulse: the same. -/
theorem not_settles_latch (hdev : chain.devices = dev + 1) :
    ¬(interruptedSet (allOff chain) blankChain 0 false
      (onlyAt (4 + (restOps dev).length) (lastRelay dev, true))).Settles (allOff chain) := by
  intro h
  have hout := h.outputs (lastRelay dev) (lastRelay_lt hdev)
  have hsplit : setOps (dev + 1) 0 false =
      (([.loadState 0, .storeState 0 false, .readByte dev] ++ restOps dev) ++
        [ChainOp.writePin .latch true]) ++ [ChainOp.writePin .latch false] := by
    rw [setOps_first]
    simp only [latchOps, List.append_assoc, List.cons_append, List.nil_append]
  have hlen : (([ChainOp.loadState 0, .storeState 0 false, .readByte dev] ++ restOps dev) ++
      [ChainOp.writePin .latch true]).length = 4 + (restOps dev).length := by
    simp only [List.length_append, List.length_cons, List.length_nil]
    omega
  have hhigh : (((setOps (dev + 1) 0 false).take (4 + (restOps dev).length)).foldl ChainCall.exec
      (start chain)).hw.latch = true := by
    rw [hsplit, List.take_left' hlen, List.foldl_append]
    rfl
  have hdevices := foldl_devices
    ((setOps (dev + 1) 0 false).take (4 + (restOps dev).length)) (start chain)
  obtain ⟨hoff, hon⟩ := out_serve_latched (blank_take _) (hdevices.trans hdev) hhigh
  have hdrop : (setOps (dev + 1) 0 false).drop (4 + (restOps dev).length) =
      [ChainOp.writePin .latch false] := by
    rw [hsplit, List.drop_left' hlen]
  have hlow (t : ChainCall) : ([ChainOp.writePin .latch false].foldl ChainCall.exec t).hw.out =
      t.hw.out ∧ ([ChainOp.writePin .latch false].foldl ChainCall.exec t).chain = t.chain :=
    ⟨rfl, rfl⟩
  rw [interruptedSet_onlyAt hdev (by rw [length_setOps_first]; omega), hdrop, (hlow _).1,
    (hlow _).2, hoff, hon] at hout
  exact absurd hout (by decide)

/-- Two devices, and relay 0 switched off in the main loop: relay 1, switched on between the read
and the write of the state byte, is lost; relay 15, switched on in the shift, is in the state
array and not on the outputs. -/
theorem nested_set_lost :
    DrvChain.Settled (allOff (.relayChainSetDevices 2)) blankChain ∧
      ¬(interruptedSet (allOff (.relayChainSetDevices 2)) blankChain 0 false
        (onlyAt 1 (1, true))).Settles (allOff (.relayChainSetDevices 2)) ∧
      ¬(interruptedSet (allOff (.relayChainSetDevices 2)) blankChain 0 false
        (onlyAt 3 (15, true))).Settles (allOff (.relayChainSetDevices 2)) :=
  ⟨settled_allOff _, not_settles_write (show _ = 1 + 1 from rfl),
    not_settles_shift (k := 0) (show _ = 1 + 1 from rfl) (by rw [length_restOps]; omega)⟩

/-- **Where nested calls do no harm.**  Whatever the chain was, and whatever relay the call of
the main loop switches, complete calls at some points leave the outputs at the state array with
every call in it, exactly when all those points are harmless ones. -/
theorem nested_sets_settle_iff (chain : RelayChain) (allowed : Nat → Prop) :
    (∀ c h, c.devices = chain.devices → DrvChain.Settled c h → ∀ relay on sched,
        (∀ i, sched i ≠ [] → allowed i) → (interruptedSet c h relay on sched).Settles c) ↔
      ∀ i, allowed i → SafePoint chain.devices i := by
  constructor
  · intro hall i hi
    by_contra hunsafe
    have hpos : chain.devices ≠ 0 := fun hzero => hunsafe (.inl hzero)
    obtain ⟨dev, hdev⟩ := Nat.exists_eq_succ_of_ne_zero hpos
    have hsettles (call : Nat × Bool) :
        (interruptedSet (allOff chain) blankChain 0 false (onlyAt i call)).Settles
          (allOff chain) := by
      refine hall (allOff chain) blankChain rfl (settled_allOff chain) 0 false _ ?_
      intro j hj
      by_cases hji : j = i
      · rw [hji]
        exact hi
      · exact absurd (if_neg hji) hj
    have hlen := length_restOps dev
    rw [hdev] at hunsafe
    unfold SafePoint at hunsafe
    by_cases hwrite : i = 1
    · subst hwrite
      exact not_settles_write hdev (hsettles _)
    · by_cases hshift : i < 3 + (restOps dev).length
      · obtain ⟨k, hk⟩ : ∃ k, i = 3 + k := ⟨i - 3, by omega⟩
        subst hk
        exact not_settles_shift hdev (by omega) (hsettles _)
      · have hlatch : i = 4 + (restOps dev).length := by omega
        subst hlatch
        exact not_settles_latch hdev (hsettles _)
  · intro hsafe c h hdev hs relay on sched hallowed
    apply settles_of_safe hs
    intro i hi
    rw [hdev]
    exact hsafe i (hallowed i hi)

end HomeAuto
