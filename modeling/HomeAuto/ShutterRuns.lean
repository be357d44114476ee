import HomeAuto.Motor
import HomeAuto.Lib.SwitchClock

/-!
# Runs of the shutters

The events that drive the shutters of a fixed table through the output controller:
shutter commands, relay commands on member relays, ticks and reloads.  Seen from one
slot, each of them is one event of that slot's motor, and a run of the hub is a run
of the motor (`motorOf_shutterStep`).

`Effect` is the inversion of a motor step: the five things an event can do to the
relays and the state of one shutter.
-/

namespace HomeAuto

/-- An event that drives the shutters. -/
inductive ShutterEvent
  | shutter (iShutter : Int) (cmd : ShCmd)
  | relay (iOut : Int) (cmd : OutCmd)
  | tick (ms : Nat)
  | reload

/-- The tick time that passes with an event. -/
def ShutterEvent.dur : ShutterEvent → Nat
  | .tick ms => ms
  | _ => 0

/-- The slot which an event addresses, and the command it gets. -/
def OutputConfig.addressed (cfg : OutputConfig) : ShutterEvent → Option (Int × ShCmd)
  | .shutter iShutter cmd => some (iShutter, cmd)
  | .relay iOut cmd =>
      (cfg.configShutterOfRelay iOut).map fun p => ((p.1 : Int), Hub.memberCommand p.2 cmd)
  | .tick _ | .reload => none

/-- One event.  Relay commands are those on member relays. -/
def Hub.shutterStep (h : Hub) : ShutterEvent → Hub
  | .shutter iShutter cmd => h.outputCtrlShutter iShutter cmd
  | .relay iOut cmd =>
      if h.outCfg.outputCtrlIsShutterMember iOut then h.outputCtrlCommand iOut cmd else h
  | .tick ms => h.outputCtrlTick ms
  | .reload => h.outputCtrlReload

/-- An event as one motor sees it. -/
inductive MotorEvent
  | nothing
  | command (cmd : ShCmd)
  | tick (ms : Nat)
  | reload (slot : ShutterSlot)

def MotorEvent.dur : MotorEvent → Nat
  | .tick ms => ms
  | _ => 0

/-- What the motor of slot `i` sees of an event. -/
def OutputConfig.motorEvent (cfg : OutputConfig) (i : Nat) (slot : ShutterSlot) :
    ShutterEvent → MotorEvent
  | .tick ms => .tick ms
  | .reload => .reload slot
  | e =>
      match cfg.addressed e with
      | some (j, cmd) => if j = i then .command cmd else .nothing
      | none => .nothing

/-- A command on a member relay, as the motors see it. -/
theorem OutputConfig.motorEvent_relay_some {cfg : OutputConfig} {iOut : Int} {p : Nat × Bool}
    (h : cfg.configShutterOfRelay iOut = some p) (i : Nat) (slot : ShutterSlot) (cmd : OutCmd) :
    cfg.motorEvent i slot (.relay iOut cmd) =
      if (p.1 : Int) = i then .command (Hub.memberCommand p.2 cmd) else .nothing := by
  simp only [motorEvent, addressed, h, Option.map_some]

/-- A command on any other relay. -/
theorem OutputConfig.motorEvent_relay_none {cfg : OutputConfig} {iOut : Int}
    (h : cfg.configShutterOfRelay iOut = none) (i : Nat) (slot : ShutterSlot) (cmd : OutCmd) :
    cfg.motorEvent i slot (.relay iOut cmd) = .nothing := by
  simp only [motorEvent, addressed, h, Option.map_none]

theorem OutputConfig.dur_motorEvent (cfg : OutputConfig) (i : Nat) (slot : ShutterSlot)
    (e : ShutterEvent) : (cfg.motorEvent i slot e).dur = e.dur := by
  cases e with
  | tick ms => rfl
  | reload => rfl
  | shutter iShutter cmd =>
      simp only [motorEvent, addressed]
      split <;> rfl
  | relay iOut cmd =>
      simp only [motorEvent]
      split
      · split <;> rfl
      · rfl

namespace Motor

def step (m : Motor) : MotorEvent → Motor
  | .nothing => m
  | .command cmd => m.command cmd
  | .tick ms => m.tick ms
  | .reload slot => m.reload slot

end Motor

namespace Hub

variable {h : Hub}

/-- A command event is the shutter command it addresses. -/
theorem shutterStep_of_addressed {e : ShutterEvent}
    (he : (∃ s cmd, e = .shutter s cmd) ∨ ∃ iOut cmd, e = .relay iOut cmd) :
    h.shutterStep e =
      match h.outCfg.addressed e with
      | some (s, cmd) => h.outputCtrlShutter s cmd
      | none => h := by
  rcases he with ⟨s, cmd, rfl⟩ | ⟨iOut, cmd, rfl⟩
  · rfl
  · unfold shutterStep OutputConfig.addressed OutputConfig.outputCtrlIsShutterMember
    cases hmember : h.outCfg.configShutterOfRelay iOut with
    | none => simp only [hmember, Option.isSome_none, Bool.false_eq_true, if_false, Option.map_none]
    | some p => simp [outputCtrlCommand, hmember]

/-- Every event of a paired hub is tame. -/
theorem tame_shutterStep (hp : h.Paired) (e : ShutterEvent) : Tame h (h.shutterStep e) := by
  cases e with
  | shutter s cmd => exact tame_outputCtrlShutter hp s cmd
  | tick ms => exact tame_outputCtrlTick hp ms
  | reload => exact h.tame_outputCtrlReload
  | relay iOut cmd =>
      rw [shutterStep_of_addressed (.inr ⟨iOut, cmd, rfl⟩)]
      split
      · exact tame_outputCtrlShutter hp _ _
      · exact .refl h

theorem motor_eq_some_iff {i : Nat} {slot : ShutterSlot} {m : Motor}
    (hslot : h.outCfg.configShutterGet i = some slot) :
    h.motor i = some m ↔ h.motorOf i slot = m := by
  simp [motor, hslot]

/-- **Simulation.**  Every event of the hub is, for the motor of each slot of the
table, the motor's own event. -/
theorem motorOf_shutterStep (hp : h.Paired) {i : Nat} {slot : ShutterSlot}
    (hslot : h.outCfg.configShutterGet i = some slot) (e : ShutterEvent) :
    (h.shutterStep e).motorOf i slot =
      (h.motorOf i slot).step (h.outCfg.motorEvent i slot e) := by
  have hm : h.motor i = some (h.motorOf i slot) := (motor_eq_some_iff hslot).mpr rfl
  have hcfg := (tame_shutterStep hp e).outCfg
  refine (motor_eq_some_iff (by rw [hcfg]; exact hslot)).mp ?_
  have hcommand (s : Int) (cmd : ShCmd) : (h.outputCtrlShutter s cmd).motor i =
      some ((h.motorOf i slot).step (if s = i then .command cmd else .nothing)) := by
    rw [motor_outputCtrlShutter hp, hm]
    split <;> rfl
  cases e with
  | shutter s cmd => exact hcommand s cmd
  | tick ms =>
      rw [shutterStep, motor_outputCtrlTick hp, hm]
      rfl
  | reload =>
      rw [shutterStep, motor_outputCtrlReload hp, reloadMotor, hslot, hm]
      rfl
  | relay iOut cmd =>
      rw [shutterStep_of_addressed (.inr ⟨iOut, cmd, rfl⟩)]
      simp only [OutputConfig.motorEvent]
      split
      · exact hcommand _ _
      · exact hm

end Hub

/-! ## What a motor step can do -/

/-- The direction a command starts in when the shutter is at rest. -/
def ShCmd.direction (lastUp : Bool) : ShCmd → Option Bool
  | .stop => none
  | .open | .up => some true
  | .close | .down => some false
  | .toggle => some !lastUp

namespace Motor

/-- The direction in which an event starts a shutter that is at rest. -/
def starts (m : Motor) : MotorEvent → Option Bool
  | .command cmd =>
      if m.rt.valid = true ∧ m.rt.state = .idle then cmd.direction m.rt.lastUp else none
  | _ => none

theorem starts_of_moving {m : Motor} (h : m.rt.state ≠ .idle) (e : MotorEvent) :
    m.starts e = none := by
  cases e with
  | command cmd => exact if_neg fun hrest => h hrest.2
  | nothing | tick | reload => rfl

/-- The relay of direction `d` on, as far as the chain has it, and the other off. -/
def Energised (m m' : Motor) (d : Bool) : Prop :=
  m'.rt.state = movingState d ∧ m'.rt.valid = true ∧
    ∀ x, m'.on x = if x = d then m.inChain d else false

/-- The outcomes of one event: nothing is switched, both relays go off for good, the
shutter starts from rest, it resumes after the switch delay, or it enters (or stays in)
the switch delay. -/
inductive Effect (m : Motor) (e : MotorEvent) (m' : Motor) : Prop
  | kept (hstarts : m.starts e = none) (hon : m'.on = m.on)
      (hstate : m'.rt.state = m.rt.state) (hvalid : m.rt.valid = true → m'.rt.valid = true)
      (hlock : m.rt.state = .switchDelay → m.rt.interlockMs ≤ m'.rt.interlockMs + e.dur)
  | stopped (hstarts : m.starts e = none) (hon : ∀ d, m'.on d = false)
      (hstate : m'.rt.state = .idle)
  | started (d : Bool) (hstarts : m.starts e = some d) (hidle : m.rt.state = .idle)
      (hdur : e.dur = 0) (hmotion : Energised m m' d)
  | resumed (d : Bool) (hstarts : m.starts e = none) (hdelay : m.rt.state = .switchDelay)
      (hlock : m.rt.interlockMs ≤ e.dur) (hmotion : Energised m m' d)
  | reversed (hstarts : m.starts e = none) (hon : ∀ d, m'.on d = false)
      (hstate : m'.rt.state = .switchDelay) (hvalid : m'.rt.valid = true)
      (hlock : m.rt.state = .switchDelay ∧ m'.rt.interlockMs = m.rt.interlockMs ∨
        m'.rt.interlockMs = shutterInterlockMs)
      (hdur : e.dur = 0)

theorem reverse_on (m : Motor) (d : Bool) : (m.reverse d).on = fun _ => false := by
  simp [reverse]

theorem reverse_rt (m : Motor) (d : Bool) :
    (m.reverse d).rt.state = .switchDelay ∧ (m.reverse d).rt.valid = m.rt.valid ∧
      (m.reverse d).rt.interlockMs =
        if m.rt.state = .switchDelay then m.rt.interlockMs else shutterInterlockMs := by
  simp only [reverse, announce_rt, modRt_rt, bothOff_rt]
  by_cases hstate : m.rt.state = .switchDelay
  · simp [hstate]
  · simp [hstate]

theorem stop_on (m : Motor) : m.stop.on = fun _ => false := by
  simp [stop]

theorem travelEnd_on (m : Motor) (s : CoverState) : (m.travelEnd s).on = fun _ => false := by
  simp [travelEnd]

theorem energised_energise {m : Motor} (hvalid : m.rt.valid = true) (d : Bool) :
    Energised m (m.energise d) d :=
  ⟨rfl, hvalid, fun e => m.energise_on d e⟩

theorem effect_stop {m : Motor} {e : MotorEvent} (hstarts : m.starts e = none) :
    Effect m e m.stop :=
  .stopped hstarts (fun d => congrFun m.stop_on d) rfl

/-- A move from rest starts the motor. -/
theorem effect_move_idle {m : Motor} {e : MotorEvent} {d : Bool}
    (hstarts : m.starts e = some d) (hvalid : m.rt.valid = true) (hidle : m.rt.state = .idle)
    (hdur : e.dur = 0) : Effect m e (m.move d) := by
  have hne : m.rt.state ≠ movingState d := by
    rw [hidle]
    cases d <;> decide
  unfold move
  rw [if_neg hne, if_pos hidle]
  obtain ⟨hstate, hv, hon⟩ :=
    energised_energise (m := m.modRt fun p => { p with lastUp := d }) hvalid d
  exact .started d hstarts hidle hdur ⟨hstate, hv, hon⟩

/-- A move of a shutter that is not at rest refreshes the travel time or reverses. -/
theorem effect_move_moving {m : Motor} {e : MotorEvent} (hstarts : m.starts e = none)
    (hvalid : m.rt.valid = true) (hmoving : m.rt.state ≠ .idle) (hdur : e.dur = 0) (d : Bool) :
    Effect m e (m.move d) := by
  unfold move
  by_cases hsame : m.rt.state = movingState d
  · rw [if_pos hsame]
    exact .kept hstarts rfl rfl id fun _ => Nat.le_add_right _ _
  · rw [if_neg hsame, if_neg hmoving]
    obtain ⟨hstate, hv, hlock⟩ := reverse_rt (m.modRt fun p => { p with lastUp := d }) d
    refine .reversed hstarts (fun x => by rw [reverse_on]) hstate (hv.trans hvalid) ?_ hdur
    by_cases hdelay : m.rt.state = .switchDelay
    · exact .inl ⟨hdelay, hlock.trans (if_pos hdelay)⟩
    · exact .inr (hlock.trans (if_neg hdelay))

/-- The outcomes of a command. -/
theorem effect_command (m : Motor) (cmd : ShCmd) :
    Effect m (.command cmd) (m.command cmd) := by
  unfold command
  by_cases hvalid : m.rt.valid = true
  · rw [if_neg (by simp [hvalid])]
    have hmove (d : Bool) (hd : cmd.direction m.rt.lastUp = some d) :
        Effect m (.command cmd) (m.move d) := by
      by_cases hidle : m.rt.state = .idle
      · exact effect_move_idle ((if_pos ⟨hvalid, hidle⟩).trans hd) hvalid hidle rfl
      · exact effect_move_moving (starts_of_moving hidle _) hvalid hidle rfl d
    have hpress (d : Bool) (hd : cmd.direction m.rt.lastUp = some d) :
        Effect m (.command cmd) (m.press d) := by
      unfold press
      split
      · rename_i hmoving
        exact effect_stop (starts_of_moving hmoving _)
      · exact hmove d hd
    cases cmd with
    | stop =>
        refine effect_stop ?_
        simp only [starts, ShCmd.direction, ite_self]
    | «open» => exact hmove true rfl
    | close => exact hmove false rfl
    | up => exact hpress true rfl
    | down => exact hpress false rfl
    | toggle => exact hpress _ rfl
  · rw [if_pos (by simpa using hvalid)]
    exact .kept (if_neg fun h => hvalid h.1) rfl rfl id fun _ => Nat.le_add_right _ _

theorem effect_tickMotion {m : Motor} (hmoving : m.rt.state ≠ .switchDelay) (ms : Nat)
    (s : CoverState) : Effect m (.tick ms) (m.tickMotion ms s) := by
  unfold tickMotion
  split
  · exact .kept rfl rfl rfl id fun _ => Nat.le_add_right _ _
  · split
    · exact .stopped rfl (fun d => by rw [travelEnd_on]) rfl
    · exact .kept rfl rfl rfl id fun hdelay => absurd hdelay hmoving

/-- The outcomes of a tick. -/
theorem effect_tick (m : Motor) (ms : Nat) : Effect m (.tick ms) (m.tick ms) := by
  unfold tick
  split
  · exact .kept rfl rfl rfl id fun _ => Nat.le_add_right _ _
  · rename_i hvalid
    have hv : m.rt.valid = true := by simpa using hvalid
    cases hstate : m.rt.state with
    | idle => exact .kept rfl rfl rfl id fun _ => Nat.le_add_right _ _
    | movingUp => exact effect_tickMotion (by simp [hstate]) ms _
    | movingDown => exact effect_tickMotion (by simp [hstate]) ms _
    | switchDelay =>
        simp only [tickDelay]
        split
        · rename_i hlock
          obtain ⟨hstate', hv', hon⟩ := energised_energise
            (m := m.modRt fun p => { p with interlockMs := 0 }) hv m.rt.pendingUp
          exact .resumed _ rfl hstate hlock ⟨hstate', hv', hon⟩
        · rename_i hlock
          refine .kept rfl rfl rfl id fun _ => ?_
          simp only [modRt_rt, MotorEvent.dur]
          omega

/-- The outcomes of a reload: an unchanged pair goes on undisturbed. -/
theorem effect_reload (m : Motor) (slot : ShutterSlot) :
    Effect m (.reload slot) (m.reload slot) := by
  unfold reload
  split
  · refine .stopped rfl (fun d => ?_) rfl
    exact congrFun m.bothOff_on d
  · exact .kept rfl rfl rfl (fun _ => rfl) fun _ => Nat.le_add_right _ _

/-- **Every step has one of the five outcomes.** -/
theorem effect_step (m : Motor) (e : MotorEvent) : Effect m e (m.step e) := by
  cases e with
  | nothing => exact .kept rfl rfl rfl id fun _ => Nat.le_add_right _ _
  | command cmd => exact m.effect_command cmd
  | tick ms => exact m.effect_tick ms
  | reload slot => exact m.effect_reload slot

end Motor

end HomeAuto
