import HomeAuto.TameSteps

/-!
# One shutter on its own

A `Motor` is what the controller is for: one shutter's runtime slot together with
the state of its two relays, indexed by direction (`true` is UP).  Its operations
say what the controller's functions do to that one shutter.

The hub refines a family of independent motors.  Whatever the controller does to a
slot advances the motor of that slot as the motor's own operation says and leaves
the motor of every other slot alone, because in a well-formed table no two slots
share a relay.
-/

namespace HomeAuto

/-- A shutter's runtime slot and relays.  `inChain` tells which of the two relays the
chain really has; the other can never be on. -/
structure Motor where
  rt : ShutterRt
  on : Bool → Bool
  inChain : Bool → Bool

namespace Motor

/-- Switch one direction's relay. -/
def setRelay (m : Motor) (d on : Bool) : Motor :=
  { m with on := Function.update m.on d (on && m.inChain d) }

/-- Assign to fields of the runtime slot. -/
def modRt (m : Motor) (f : ShutterRt → ShutterRt) : Motor := { m with rt := f m.rt }

/-- Record the announced cover state. -/
def announce (m : Motor) (s : CoverState) : Motor := m.modRt fun p => { p with pcState := some s }

/-- Both relays off. -/
def bothOff (m : Motor) : Motor := (m.setRelay true false).setRelay false false

def stop (m : Motor) : Motor :=
  (m.bothOff.modRt fun p => { p with state := .idle, timerMs := 0, interlockMs := 0 }).announce
    .stopped

def energise (m : Motor) (d : Bool) : Motor :=
  (((m.setRelay (!d) false).setRelay d true).modRt
    fun p => { p with state := movingState d, timerMs := p.travelMs }).announce (movingCover d)

def reverse (m : Motor) (d : Bool) : Motor :=
  ((m.bothOff.modRt fun p =>
      if p.state ≠ .switchDelay then
        { p with interlockMs := shutterInterlockMs, state := .switchDelay }
      else p).modRt
    fun p => { p with timerMs := 0, pendingUp := d }).announce (movingCover d)

def move (m : Motor) (d : Bool) : Motor :=
  if m.rt.state = movingState d then m.modRt fun p => { p with timerMs := p.travelMs }
  else if m.rt.state = .idle then (m.modRt fun p => { p with lastUp := d }).energise d
  else (m.modRt fun p => { p with lastUp := d }).reverse d

/-- A momentary button: stop when moving, else start. -/
def press (m : Motor) (d : Bool) : Motor := if m.rt.state ≠ .idle then m.stop else m.move d

/-- A shutter command; an undefined slot ignores it. -/
def command (m : Motor) (cmd : ShCmd) : Motor :=
  if m.rt.valid = false then m
  else
    match cmd with
    | .stop => m.stop
    | .open => m.move true
    | .close => m.move false
    | .up => m.press true
    | .down => m.press false
    | .toggle => m.press !m.rt.lastUp

def travelEnd (m : Motor) (s : CoverState) : Motor :=
  (((m.modRt fun p => { p with timerMs := 0 }).bothOff).modRt
    fun p => { p with state := .idle }).announce s

def tickMotion (m : Motor) (ms : Nat) (s : CoverState) : Motor :=
  if m.rt.timerMs = 0 then m
  else if m.rt.timerMs ≤ ms then m.travelEnd s
  else m.modRt fun p => { p with timerMs := p.timerMs - ms }

def tickDelay (m : Motor) (ms : Nat) : Motor :=
  if m.rt.interlockMs ≤ ms then
    (m.modRt fun p => { p with interlockMs := 0 }).energise m.rt.pendingUp
  else m.modRt fun p => { p with interlockMs := p.interlockMs - ms }

/-- The passage of `ms` milliseconds. -/
def tick (m : Motor) (ms : Nat) : Motor :=
  if m.rt.valid = false then m
  else
    match m.rt.state with
    | .idle => m
    | .movingUp => m.tickMotion ms .open
    | .movingDown => m.tickMotion ms .closed
    | .switchDelay => m.tickDelay ms

/-- A reload of the slot with the saved `slot`. -/
def reload (m : Motor) (slot : ShutterSlot) : Motor :=
  (if m.rt.valid = false ∨ m.rt.up ≠ slot.up ∨ m.rt.down ≠ slot.down then
      ((m.setRelay true false).setRelay false false).modRt fun p =>
        { p with state := .idle, timerMs := 0, interlockMs := 0, pcState := some .stopped }
    else m).modRt fun p =>
      { p with valid := true, up := slot.up, down := slot.down, travelMs := slot.travelMs }

theorem eq_of {m m' : Motor} (hrt : m.rt = m'.rt) (hon : m.on = m'.on)
    (hin : m.inChain = m'.inChain) : m = m' := by
  cases m
  cases m'
  simp_all

section Fields

variable (m : Motor) (d on : Bool) (f : ShutterRt → ShutterRt) (s : CoverState)

@[simp] theorem setRelay_rt : (m.setRelay d on).rt = m.rt := rfl
@[simp] theorem setRelay_inChain : (m.setRelay d on).inChain = m.inChain := rfl
@[simp] theorem modRt_rt : (m.modRt f).rt = f m.rt := rfl
@[simp] theorem modRt_on : (m.modRt f).on = m.on := rfl
@[simp] theorem modRt_inChain : (m.modRt f).inChain = m.inChain := rfl
@[simp] theorem announce_on : (m.announce s).on = m.on := rfl
@[simp] theorem announce_inChain : (m.announce s).inChain = m.inChain := rfl
@[simp] theorem announce_rt : (m.announce s).rt = { m.rt with pcState := some s } := rfl
@[simp] theorem bothOff_rt : m.bothOff.rt = m.rt := rfl
@[simp] theorem bothOff_inChain : m.bothOff.inChain = m.inChain := rfl

@[simp] theorem bothOff_on : m.bothOff.on = fun _ => false := by
  funext d
  cases d <;> rfl

theorem energise_on (e : Bool) :
    (m.energise d).on e = if e = d then m.inChain d else false := by
  cases d <;> cases e <;> rfl

end Fields

end Motor

namespace Hub

/-- The motor of a slot whose saved relay pair is `slot`. -/
def motorOf (h : Hub) (i : Nat) (slot : ShutterSlot) : Motor where
  rt := h.sh i
  on := fun d => h.chain.isOn (slot.relay d)
  inChain := fun d => decide (slot.relay d < h.chain.relayChainCount)

/-- The hub `h` has come from `h₀` by advancing the motor of slot `i` to `m`: every
motor on other relays is as it was. -/
structure Advances (h₀ h : Hub) (i : Nat) (slot : ShutterSlot) (m : Motor) : Prop where
  self : h.motorOf i slot = m
  other : ∀ j s, j ≠ i → (∀ d e, s.relay d ≠ slot.relay e) →
    h.motorOf j s = h₀.motorOf j s

theorem Advances.refl (h : Hub) (i : Nat) (slot : ShutterSlot) :
    Advances h h i slot (h.motorOf i slot) :=
  ⟨rfl, fun _ _ _ _ => rfl⟩

theorem Advances.setRelay {h₀ h : Hub} {i : Nat} {slot : ShutterSlot} {m : Motor}
    (ha : Advances h₀ h i slot m) (hne : slot.up ≠ slot.down) {relay : Nat} (d : Bool)
    (hrelay : relay = slot.relay d) (on : Bool) :
    Advances h₀ (h.setRelay relay on) i slot (m.setRelay d on) where
  self := by
    subst hrelay
    rw [← ha.self]
    unfold motorOf Motor.setRelay
    simp only [setRelay_sh, setRelay_chain, RelayChain.relayChainSet_count, Motor.mk.injEq,
      and_true, true_and]
    funext e
    have hrel : slot.relay e = slot.relay d ↔ e = d := by
      cases d <;> cases e <;> simp [ShutterSlot.relay, hne, hne.symm]
    rw [RelayChain.isOn_relayChainSet]
    simp only [hrel]
    by_cases he : e = d
    · subst he
      by_cases hcount : slot.relay e < h.chain.relayChainCount
      · simp [hcount]
      · simp [hcount, RelayChain.relayChainGet_of_count_le (Nat.le_of_not_lt hcount)]
    · simp [he]
  other := by
    intro j s hj hdisj
    subst hrelay
    rw [← ha.other j s hj hdisj]
    unfold motorOf
    simp [RelayChain.isOn_relayChainSet, hdisj]

theorem Advances.modSh {h₀ h : Hub} {i : Nat} {slot : ShutterSlot} {m : Motor}
    (ha : Advances h₀ h i slot m) (f : ShutterRt → ShutterRt) :
    Advances h₀ (h.modSh i f) i slot (m.modRt f) where
  self := by
    rw [← ha.self]
    unfold motorOf Motor.modRt
    rw [modSh_sh_self]
    rfl
  other := by
    intro j s hj hdisj
    rw [← ha.other j s hj hdisj]
    unfold motorOf
    rw [modSh_sh_of_ne _ _ _ hj]
    rfl

theorem Advances.publish {h₀ h : Hub} {i : Nat} {slot : ShutterSlot} {m : Motor}
    (ha : Advances h₀ h i slot m) (p : Publish) : Advances h₀ (h.publish p) i slot m :=
  ⟨ha.self, ha.other⟩

theorem Advances.shPublish {h₀ h : Hub} {i : Nat} {slot : ShutterSlot} {m : Motor}
    (ha : Advances h₀ h i slot m) (s : CoverState) :
    Advances h₀ (h.shPublish i s) i slot (m.announce s) :=
  (ha.modSh _).publish _

/-- The runtime slot drives the relay pair of the saved slot. -/
structure Drives (h : Hub) (i : Nat) (slot : ShutterSlot) : Prop where
  relay : ∀ d, (h.sh i).relay d = slot.relay d
  up_ne_down : slot.up ≠ slot.down

theorem Drives.up {h : Hub} {i : Nat} {slot : ShutterSlot} (hd : h.Drives i slot) :
    (h.sh i).up = slot.relay true := hd.relay true

theorem Drives.down {h : Hub} {i : Nat} {slot : ShutterSlot} (hd : h.Drives i slot) :
    (h.sh i).down = slot.relay false := hd.relay false

theorem Drives.modSh {h : Hub} {i : Nat} {slot : ShutterSlot} (hd : h.Drives i slot)
    {f : ShutterRt → ShutterRt} (hf : ∀ p, (f p).up = p.up ∧ (f p).down = p.down) :
    (h.modSh i f).Drives i slot where
  relay := by
    intro d
    rw [modSh_sh_self, ← hd.relay d, ShutterRt.relay, ShutterRt.relay, (hf _).1, (hf _).2]
  up_ne_down := hd.up_ne_down

variable {h₀ h : Hub} {i : Nat} {slot : ShutterSlot} {m : Motor}

theorem Advances.shBothOff (ha : Advances h₀ h i slot m) (hd : h.Drives i slot) :
    Advances h₀ (h.shBothOff i) i slot m.bothOff :=
  (ha.setRelay hd.up_ne_down true hd.up false).setRelay hd.up_ne_down false hd.down false

theorem Advances.shStop (ha : Advances h₀ h i slot m) (hd : h.Drives i slot) :
    Advances h₀ (h.shStop i) i slot m.stop :=
  ((ha.shBothOff hd).modSh _).shPublish _

theorem Advances.energise (ha : Advances h₀ h i slot m) (hd : h.Drives i slot) (up : Bool) :
    Advances h₀ (h.energise i up) i slot (m.energise up) :=
  (((ha.setRelay hd.up_ne_down (!up) (hd.relay !up) false).setRelay hd.up_ne_down up
    (hd.relay up) true).modSh _).shPublish _

theorem Advances.shReverse (ha : Advances h₀ h i slot m) (hd : h.Drives i slot) (up : Bool) :
    Advances h₀ (h.shReverse i up) i slot (m.reverse up) :=
  (((ha.shBothOff hd).modSh _).modSh _).shPublish _

theorem Advances.shMove (ha : Advances h₀ h i slot m) (hd : h.Drives i slot) (up : Bool) :
    Advances h₀ (h.shMove i up) i slot (m.move up) := by
  have hrt : h.sh i = m.rt := by rw [← ha.self]; rfl
  have hlast : (h.modSh i fun p => { p with lastUp := up }).Drives i slot :=
    hd.modSh fun _ => ⟨rfl, rfl⟩
  unfold Hub.shMove Motor.move
  rw [hrt]
  split
  · exact ha.modSh _
  · split
    · exact (ha.modSh _).energise hlast up
    · exact (ha.modSh _).shReverse hlast up

theorem Advances.press (ha : Advances h₀ h i slot m) (hd : h.Drives i slot) (up : Bool) :
    Advances h₀ (if (h.sh i).state ≠ .idle then h.shStop i else h.shMove i up) i slot
      (m.press up) := by
  have hrt : h.sh i = m.rt := by rw [← ha.self]; rfl
  unfold Motor.press
  rw [hrt]
  split
  · exact ha.shStop hd
  · exact ha.shMove hd up

/-- A command on a defined slot advances its motor by that command. -/
theorem Advances.shCommand (ha : Advances h₀ h i slot m) (hd : h.Drives i slot)
    (hvalid : (h.sh i).valid = true) (cmd : ShCmd) :
    Advances h₀ (h.shCommand i cmd) i slot (m.command cmd) := by
  have hrt : h.sh i = m.rt := by rw [← ha.self]; rfl
  rw [hrt] at hvalid
  unfold Motor.command
  rw [if_neg (by simp [hvalid])]
  cases cmd with
  | stop => exact ha.shStop hd
  | «open» => exact ha.shMove hd true
  | close => exact ha.shMove hd false
  | up => exact ha.press hd true
  | down => exact ha.press hd false
  | toggle =>
      have := ha.press hd !(h.sh i).lastUp
      rw [hrt] at this
      simpa only [Hub.shCommand, hrt] using this

theorem Advances.tickMotion (ha : Advances h₀ h i slot m) (hd : h.Drives i slot) (ms : Nat)
    (s : CoverState) : Advances h₀ (h.tickMotion i ms s) i slot (m.tickMotion ms s) := by
  have hrt : h.sh i = m.rt := by rw [← ha.self]; rfl
  have hzero : (h.modSh i fun p => { p with timerMs := 0 }).Drives i slot :=
    hd.modSh fun _ => ⟨rfl, rfl⟩
  unfold Hub.tickMotion Motor.tickMotion
  rw [hrt]
  split
  · exact ha
  · split
    · exact (((ha.modSh _).shBothOff hzero).modSh _).shPublish _
    · exact ha.modSh _

theorem Advances.tickDelay (ha : Advances h₀ h i slot m) (hd : h.Drives i slot) (ms : Nat) :
    Advances h₀ (h.tickDelay i ms) i slot (m.tickDelay ms) := by
  have hrt : h.sh i = m.rt := by rw [← ha.self]; rfl
  have hzero : (h.modSh i fun p => { p with interlockMs := 0 }).Drives i slot :=
    hd.modSh fun _ => ⟨rfl, rfl⟩
  unfold Hub.tickDelay Motor.tickDelay
  rw [hrt]
  split
  · exact (ha.modSh _).energise hzero _
  · exact ha.modSh _

theorem Advances.reloadStop (ha : Advances h₀ h i slot m) (hne : slot.up ≠ slot.down) :
    Advances h₀ (h.reloadStop i slot) i slot
      (if m.rt.valid = false ∨ m.rt.up ≠ slot.up ∨ m.rt.down ≠ slot.down then
        ((m.setRelay true false).setRelay false false).modRt fun p =>
          { p with state := .idle, timerMs := 0, interlockMs := 0, pcState := some .stopped }
      else m) := by
  have hrt : h.sh i = m.rt := by rw [← ha.self]; rfl
  unfold Hub.reloadStop
  rw [hrt]
  split
  · exact ((ha.setRelay hne true rfl false).setRelay hne false rfl false).modSh _
  · exact ha

/-! ## All slots at once -/

/-- The motor of a slot of the saved table. -/
def motor (h : Hub) (i : Nat) : Option Motor :=
  (h.outCfg.configShutterGet i).map (h.motorOf i)

theorem Paired.drives (hp : h.Paired) (hslot : h.outCfg.configShutterGet i = some slot)
    (hvalid : (h.sh i).valid = true) : h.Drives i slot := by
  obtain ⟨s, hs, hup, hdown⟩ := hp.agrees i (OutputConfig.configShutterGet_lt hslot) hvalid
  rw [hslot] at hs
  cases hs
  refine ⟨fun d => ?_, hp.wellFormed.up_ne_down i slot hslot⟩
  cases d
  · exact hdown
  · exact hup

/-- The relays of two slots of a well-formed table differ. -/
theorem Paired.relay_ne (hp : h.Paired) {j : Nat} {s : ShutterSlot}
    (hslot : h.outCfg.configShutterGet i = some slot)
    (hs : h.outCfg.configShutterGet j = some s) (hj : j ≠ i) (d e : Bool) :
    s.relay d ≠ slot.relay e := by
  obtain ⟨h1, h2, h3, h4⟩ := hp.wellFormed.disjoint j i s slot hs hslot hj
  cases d <;> cases e <;> assumption

/-- Advancing one slot leaves the motors of the other slots alone. -/
theorem Advances.motor_of_ne (ha : Advances h h₀ i slot m) (hp : h.Paired)
    (hcfg : h₀.outCfg = h.outCfg) (hslot : h.outCfg.configShutterGet i = some slot)
    {j : Nat} (hj : j ≠ i) : h₀.motor j = h.motor j := by
  unfold motor
  rw [hcfg]
  cases hs : h.outCfg.configShutterGet j with
  | none => rfl
  | some s => exact congrArg some (ha.other j s hj (hp.relay_ne hslot hs hj))

theorem Advances.motor_self (ha : Advances h h₀ i slot m) (hcfg : h₀.outCfg = h.outCfg)
    (hslot : h.outCfg.configShutterGet i = some slot) : h₀.motor i = some m := by
  unfold motor
  rw [hcfg, hslot]
  exact congrArg some ha.self

/-- **A shutter command advances the addressed motor** and no other. -/
theorem motor_outputCtrlShutter (hp : h.Paired) (iShutter : Int) (cmd : ShCmd) (j : Nat) :
    (h.outputCtrlShutter iShutter cmd).motor j =
      if iShutter = j then (h.motor j).map (·.command cmd) else h.motor j := by
  have hcfg := (tame_outputCtrlShutter hp iShutter cmd).outCfg
  unfold outputCtrlShutter at hcfg ⊢
  by_cases hrange : iShutter < 0 ∨ (cfgMaxShutters : Int) ≤ iShutter
  · rw [if_pos hrange]
    split
    · rename_i hj
      have hnone : h.outCfg.configShutterGet j = none := by
        rw [OutputConfig.configShutterGet, if_pos (by omega)]
      simp [motor, hnone]
    · rfl
  · rw [if_neg hrange] at hcfg ⊢
    obtain ⟨i, rfl⟩ : ∃ i : Nat, iShutter = i := ⟨iShutter.toNat, by omega⟩
    simp only [Int.toNat_natCast, Nat.cast_inj] at hcfg ⊢
    by_cases hvalid : (h.sh i).valid = false
    · rw [if_pos hvalid]
      split
      · rename_i hij
        subst hij
        unfold motor
        cases h.outCfg.configShutterGet i with
        | none => rfl
        | some slot =>
            exact congrArg some (if_pos hvalid).symm
      · rfl
    · rw [if_neg hvalid] at hcfg ⊢
      have hv : (h.sh i).valid = true := by simpa using hvalid
      obtain ⟨slot, hslot, _⟩ := hp.agrees i (by omega) hv
      have ha := (Advances.refl h i slot).shCommand (hp.drives hslot hv) hv cmd
      split
      · rename_i hij
        subst hij
        rw [ha.motor_self hcfg hslot, motor, hslot]
        rfl
      · rename_i hij
        exact ha.motor_of_ne hp hcfg hslot (Ne.symm hij)

theorem motor_of_count_le {j : Nat} (hj : cfgMaxShutters ≤ j) : h.motor j = none := by
  rw [motor, OutputConfig.configShutterGet, if_pos hj]
  rfl

/-- A loop over the slots whose pass `i` advances the motor of slot `i` by `g i`
advances every motor. -/
theorem motor_foldl_slots {f : Hub → Nat → Hub} {g : Nat → Option Motor → Option Motor}
    (hg : ∀ i, g i none = none) (htame : ∀ h i, i < cfgMaxShutters → h.Paired → Tame h (f h i))
    (hpass : ∀ h' i, h'.outCfg = h.outCfg → i < cfgMaxShutters → h'.Paired →
      (f h' i).motor i = g i (h'.motor i) ∧ ∀ j, j ≠ i → (f h' i).motor j = h'.motor j)
    (hp : h.Paired) (j : Nat) :
    ((List.range cfgMaxShutters).foldl f h).motor j = g j (h.motor j) := by
  have hloop := Loops.foldl_range_component (c := motor) (f := f) (g := g)
    (n := cfgMaxShutters) (I := fun h' => h'.outCfg = h.outCfg ∧ h'.Paired)
    (fun h' i hi hI =>
      ⟨(htame h' i hi hI.2).outCfg.trans hI.1, hI.2.tame (htame h' i hi hI.2)⟩)
    (fun h' i hi hI => (hpass h' i hI.1 hi hI.2).1)
    (fun h' i hi hI => (hpass h' i hI.1 hi hI.2).2) ⟨rfl, hp⟩
  rw [hloop.2 j]
  split
  · rfl
  · rw [motor_of_count_le (by omega), hg]

/-- An undefined slot is not valid. -/
theorem Paired.valid_eq_false (hp : h.Paired) (hi : i < cfgMaxShutters)
    (hnone : h.outCfg.configShutterGet i = none) : (h.sh i).valid = false := by
  cases hv : (h.sh i).valid with
  | false => rfl
  | true =>
      obtain ⟨slot, hslot, _⟩ := hp.agrees i hi hv
      rw [hnone] at hslot
      cases hslot

theorem Advances.tickSlot (hp : h.Paired) (hslot : h.outCfg.configShutterGet i = some slot)
    (ms : Nat) :
    Advances h (h.outputCtrlTickSlot ms i) i slot ((h.motorOf i slot).tick ms) := by
  have ha := Advances.refl h i slot
  have hrt : (h.motorOf i slot).rt = h.sh i := rfl
  unfold outputCtrlTickSlot Motor.tick
  rw [hrt]
  split
  · exact ha
  · rename_i hvalid
    have hd := hp.drives hslot (by simpa using hvalid)
    cases (h.sh i).state with
    | idle => exact ha
    | movingUp => exact ha.tickMotion hd ms _
    | movingDown => exact ha.tickMotion hd ms _
    | switchDelay => exact ha.tickDelay hd ms

/-- **A controller tick ticks every motor.** -/
theorem motor_outputCtrlTick (hp : h.Paired) (ms : Nat) (j : Nat) :
    (h.outputCtrlTick ms).motor j = (h.motor j).map (·.tick ms) := by
  refine motor_foldl_slots (g := fun _ => Option.map (·.tick ms)) (fun _ => rfl)
    (fun h i hi hp => tame_outputCtrlTickSlot hp hi ms) ?_ hp j
  intro h' i hcfg hi hp'
  have ht := tame_outputCtrlTickSlot hp' hi ms
  cases hslot : h'.outCfg.configShutterGet i with
  | some slot =>
      have ha := Advances.tickSlot hp' hslot ms
      refine ⟨?_, fun j hj => ha.motor_of_ne hp' ht.outCfg hslot hj⟩
      rw [ha.motor_self ht.outCfg hslot, motor, hslot]
      rfl
  | none =>
      have hsame : h'.outputCtrlTickSlot ms i = h' :=
        if_pos (hp'.valid_eq_false hi hslot)
      rw [hsame]
      simp [motor, hslot]

/-- What a reload does to the motor of a slot. -/
def reloadMotor (cfg : OutputConfig) (i : Nat) (m : Option Motor) : Option Motor :=
  (cfg.configShutterGet i).bind fun slot => m.map (·.reload slot)

/-- **A reload of an unchanged table reloads every motor.** -/
theorem motor_outputCtrlReload (hp : h.Paired) (j : Nat) :
    h.outputCtrlReload.motor j = reloadMotor h.outCfg j (h.motor j) := by
  refine motor_foldl_slots (g := reloadMotor h.outCfg) (fun i => by simp [reloadMotor])
    (fun h i _ _ => h.tame_outputCtrlReloadSlot i) ?_ hp j
  intro h' i hcfg hi hp'
  have ht := h'.tame_outputCtrlReloadSlot i
  cases hslot : h'.outCfg.configShutterGet i with
  | some slot =>
      have ha : Advances h' (h'.outputCtrlReloadSlot i) i slot
          ((h'.motorOf i slot).reload slot) := by
        unfold outputCtrlReloadSlot
        rw [hslot]
        exact ((Advances.refl h' i slot).reloadStop
          (hp'.wellFormed.up_ne_down i slot hslot)).modSh _
      refine ⟨?_, fun j hj => ha.motor_of_ne hp' ht.outCfg hslot hj⟩
      rw [ha.motor_self ht.outCfg hslot, reloadMotor, ← hcfg, hslot, motor, hslot]
      rfl
  | none =>
      constructor
      · simp [motor, ht.outCfg, reloadMotor, hslot]
      · intro k hk
        unfold motor outputCtrlReloadSlot
        simp only [hslot, hp'.valid_eq_false hi hslot, Bool.false_eq_true, if_false]
        unfold motorOf
        simp only [modSh_outCfg, modSh_sh_of_ne _ _ _ hk, modSh_chain]
        rfl

end Hub

end HomeAuto
