import HomeAuto.Lib.Runs
import HomeAuto.MqttLink

/-!
# The connect timeout

One counter, `ui32KeepAliveMs`, serves the keep-alive of a session and the timeout of a
connection attempt, and nothing clears it when an attempt begins.  A clock beside the
client, set to zero by every tick that calls `MQTTTryConnect`, tells how long the
attempt has really lasted.

While every attempt begins with the counter at zero, the counter never exceeds the clock
(`timer_le_clock`), so no attempt is given up early.  An attempt that begins with
anything else on the counter can be given up early (`stale_timer_cuts_attempt`).
-/

namespace HomeAuto

namespace Mqtt

variable (ipaddrAton : CStr → Option (BitVec 32))

/-- A tick that calls `MQTTTryConnect`. -/
def BeginsAttempt (s : Mqtt) (ms : BitVec 32) : Prop :=
  s.cli.eState = .idle ∧ (s.cli.bEnabled = true ∧ s.cli.host ≠ []) ∧
    s.cli.reconnectMs.toNat ≤ ms.toNat

instance (s : Mqtt) (ms : BitVec 32) : Decidable (s.BeginsAttempt ms) :=
  inferInstanceAs (Decidable (_ ∧ _ ∧ _))

/-- An attempt is under way: looking up, connecting, or waiting for the CONNACK. -/
def attempting (st : MqttCliState) : Bool := st = .dns || st = .tcp || st = .connect

/-- A tick is never held back. -/
theorem step_tick (s : Mqtt) (ms : BitVec 32) (ans : Answers) :
    s.step ipaddrAton (.tick ms ans) = s.mqttClientTick ipaddrAton ms ans := if_pos trivial

/-! ## The counter -/

theorem keepAlive_dropConnection (s : Mqtt) :
    s.dropConnection.cli.keepAliveMs = s.cli.keepAliveMs := by
  rw [dropConnection, abortPcb]
  cases s.cli.psPcb <;> rfl

theorem keepAlive_mqttDNSFoundCB (s : Mqtt) (ip : Option (BitVec 32)) (ans : Answers) :
    (s.mqttDNSFoundCB ip ans).cli.keepAliveMs = s.cli.keepAliveMs :=
  mqttDNSFoundCB_rule (P := fun t => t.cli.keepAliveMs = s.cli.keepAliveMs) rfl (fun _ => rfl)
    (fun _ => rfl) (fun ip => keepAlive_dropConnection (s.openPcb ip)) ip

/-- Beginning an attempt leaves the counter alone. -/
theorem keepAlive_mqttTryConnect (s : Mqtt) (ans : Answers) :
    (s.mqttTryConnect ipaddrAton ans).cli.keepAliveMs = s.cli.keepAliveMs :=
  mqttTryConnect_rule (P := fun t => t.cli.keepAliveMs = s.cli.keepAliveMs) rfl
    (fun ip => keepAlive_mqttDNSFoundCB (s.setState .tcp) (some ip) ans)
    (fun ip => keepAlive_mqttDNSFoundCB s.askName (some ip) ans) rfl rfl ipaddrAton

theorem keepAlive_addKeepAlive_le (s : Mqtt) (ms : BitVec 32) :
    (s.addKeepAlive ms).cli.keepAliveMs.toNat ≤ s.cli.keepAliveMs.toNat + ms.toNat := by
  have hsum : (s.addKeepAlive ms).cli.keepAliveMs = s.cli.keepAliveMs + ms := rfl
  rw [hsum, BitVec.toNat_add]
  exact Nat.mod_le _ _

/-- A steady operation does not raise the counter. -/
theorem Steady.keepAlive_le {s s' : Mqtt} (h : Steady s s') :
    s'.cli.keepAliveMs.toNat ≤ s.cli.keepAliveMs.toNat := by
  rcases h.keepAlive with heq | hzero
  · rw [heq]
  · rw [hzero]
    exact Nat.zero_le _

theorem steady_awaitPong (s : Mqtt) (ms : BitVec 32) : Steady s (s.awaitPong ms) := by
  have hwait (w : BitVec 32) : Steady s (s.setPingWait w) :=
    ⟨rfl, .inl rfl, rfl, fun h => ⟨h, rfl⟩⟩
  unfold awaitPong
  split
  · exact .refl s
  · split
    · exact (hwait _).trans (steady_dropConnection _)
    · exact hwait _

/-- A tick that begins no attempt adds at most its time to the counter. -/
theorem keepAlive_tick_le (s : Mqtt) (ms : BitVec 32) (ans : Answers)
    (hbegin : ¬s.BeginsAttempt ms) :
    (s.mqttClientTick ipaddrAton ms ans).cli.keepAliveMs.toNat ≤
      s.cli.keepAliveMs.toNat + ms.toNat := by
  have hadd := keepAlive_addKeepAlive_le s ms
  have hconnecting : (s.tickConnecting ms).cli.keepAliveMs.toNat ≤
      s.cli.keepAliveMs.toNat + ms.toNat := by
    unfold tickConnecting
    split
    · rw [keepAlive_dropConnection]
      exact hadd
    · exact hadd
  have hping := (sendsOnly_pingIfDue (s.addKeepAlive ms) ans).toSteady.trans
    (steady_awaitPong _ ms)
  exact mqttClientTick_rule
    (P := fun t => t.cli.keepAliveMs.toNat ≤ s.cli.keepAliveMs.toNat + ms.toNat)
    (fun _ => Nat.le_add_right _ _) (fun _ => Nat.le_add_right _ _)
    (fun hidle hon hdue => absurd ⟨hidle, hon, hdue⟩ hbegin)
    (fun _ => Nat.le_trans hping.keepAlive_le hadd) (fun _ _ => hconnecting)

theorem keepAlive_tick_begin (s : Mqtt) (ms : BitVec 32) (ans : Answers)
    (hbegin : s.BeginsAttempt ms) :
    (s.mqttClientTick ipaddrAton ms ans).cli.keepAliveMs = s.cli.keepAliveMs := by
  obtain ⟨hst, hen, hms⟩ := hbegin
  unfold mqttClientTick
  rw [hst]
  dsimp only
  rw [if_pos hen, if_pos hms]
  exact keepAlive_mqttTryConnect ipaddrAton (s.setReconnect 0#32) ans

/-- Nothing but a tick raises the counter. -/
theorem keepAlive_step_le (s : Mqtt) (e : MqttEvent) (htick : ∀ ms ans, e ≠ .tick ms ans) :
    (s.step ipaddrAton e).cli.keepAliveMs.toNat ≤ s.cli.keepAliveMs.toNat := by
  unfold step
  split
  · cases e with
    | tick ms ans => exact absurd rfl (htick ms ans)
    | setWill topic msg retain => exact Nat.le_refl _
    | start host port clientID user pass =>
        simp only [perform, mqttClientStart, detachPcb]
        cases s.cli.psPcb <;> exact Nat.le_refl _
    | stop =>
        simp only [perform, mqttClientStop, detachPcb]
        cases s.cli.psPcb <;> exact Nat.le_refl _
    | publish topic payload retain ans =>
        exact (sendsOnly_mqttClientPublish s topic payload retain ans).keepAlive_le
    | subscribe topic ans => exact (sendsOnly_mqttClientSubscribe s topic ans).keepAlive_le
    | dnsFound ip ans => rw [perform, keepAlive_mqttDNSFoundCB]
    | connected p eErr ans =>
        exact (steady_mqttConnectedCB (s.movePcb p .established) eErr ans).keepAlive_le
    | recv p buf eErr ans => exact (steady_mqttRecvCB s p buf eErr ans).keepAlive_le
    | err p => exact Nat.le_refl _
  · exact Nat.le_refl _

/-! ## The clock of an attempt -/

/-- The client, and the tick time since `MQTTTryConnect` was last called. -/
structure Clocked where
  mqtt : Mqtt
  sinceMs : Nat

/-- One event, with the clock. -/
def clockedStep (c : Clocked) (e : MqttEvent) : Clocked where
  mqtt := c.mqtt.step ipaddrAton e
  sinceMs :=
    match e with
    | .tick ms _ => if c.mqtt.BeginsAttempt ms then 0 else c.sinceMs + ms.toNat
    | _ => c.sinceMs

/-- A tick that gives up an attempt does so after more than the connect timeout. -/
def TimeoutEarned (c : Clocked) (e : MqttEvent) : Prop :=
  match e with
  | .tick ms ans =>
      attempting c.mqtt.cli.eState = true →
        (c.mqtt.step ipaddrAton (.tick ms ans)).cli.eState = .idle →
        connectTimeoutMs < c.sinceMs + ms.toNat
  | _ => True

/-- An attempt begins with the counter at zero. -/
def BeginsFresh (c : Clocked) (e : MqttEvent) : Prop :=
  match e with
  | .tick ms _ => c.mqtt.BeginsAttempt ms → c.mqtt.cli.keepAliveMs = 0#32
  | _ => True

/-- The clock is an observer. -/
theorem final_clockedStep (es : List MqttEvent) (c : Clocked) :
    (Runs.final (clockedStep ipaddrAton) c es).mqtt = Runs.final (step ipaddrAton) c.mqtt es := by
  induction es generalizing c with
  | nil => rfl
  | cons e es ih => exact ih _

/-- The invariant: the counter is not ahead of the clock. -/
def TimerLeClock (c : Clocked) : Prop := c.mqtt.cli.keepAliveMs.toNat ≤ c.sinceMs

theorem timer_le_clock {c : Clocked} {e : MqttEvent} (h : TimerLeClock c)
    (hfresh : BeginsFresh c e) : TimerLeClock (clockedStep ipaddrAton c e) := by
  unfold TimerLeClock at h ⊢
  by_cases htick : ∃ ms ans, e = .tick ms ans
  · obtain ⟨ms, ans, rfl⟩ := htick
    simp only [clockedStep, step_tick]
    by_cases hbegin : c.mqtt.BeginsAttempt ms
    · rw [keepAlive_tick_begin ipaddrAton _ _ _ hbegin, hfresh hbegin]
      exact Nat.zero_le _
    · rw [if_neg hbegin]
      have := keepAlive_tick_le ipaddrAton c.mqtt ms ans hbegin
      omega
  · have hle := keepAlive_step_le ipaddrAton c.mqtt e fun ms ans heq => htick ⟨ms, ans, heq⟩
    have hclock : (clockedStep ipaddrAton c e).sinceMs = c.sinceMs := by
      cases e with
      | tick ms ans => exact absurd ⟨ms, ans, rfl⟩ htick
      | _ => rfl
    rw [hclock]
    exact Nat.le_trans hle h

theorem tick_attempting {s : Mqtt} (hatt : attempting s.cli.eState = true) (ms : BitVec 32)
    (ans : Answers) : s.mqttClientTick ipaddrAton ms ans = s.tickConnecting ms := by
  unfold mqttClientTick
  cases hst : s.cli.eState with
  | idle => simp [hst, attempting] at hatt
  | ready => simp [hst, attempting] at hatt
  | dns => rfl
  | tcp => rfl
  | connect => rfl

/-- When a tick gives up an attempt: the counter has passed the timeout. -/
theorem tick_gives_up_iff {s : Mqtt} (hatt : attempting s.cli.eState = true) (ms : BitVec 32)
    (ans : Answers) : (s.mqttClientTick ipaddrAton ms ans).cli.eState = .idle ↔
      connectTimeoutMs < (s.cli.keepAliveMs + ms).toNat := by
  rw [tick_attempting ipaddrAton hatt]
  unfold tickConnecting
  split
  · rename_i hlt
    exact iff_of_true rfl hlt
  · rename_i hle
    refine iff_of_false (fun hidle => ?_) hle
    have hsame : s.cli.eState = .idle := hidle
    simp [hsame, attempting] at hatt

theorem timeoutEarned_of_timer {c : Clocked} {e : MqttEvent} (h : TimerLeClock c) :
    TimeoutEarned ipaddrAton c e := by
  unfold TimeoutEarned
  split
  · rename_i ms ans
    intro hatt hidle
    rw [step_tick, tick_gives_up_iff ipaddrAton hatt] at hidle
    have hsum := keepAlive_addKeepAlive_le c.mqtt ms
    have hadd : (c.mqtt.addKeepAlive ms).cli.keepAliveMs = c.mqtt.cli.keepAliveMs + ms := rfl
    rw [hadd] at hsum
    unfold TimerLeClock at h
    omega
  · trivial

/-- **The full timeout.**  In every run from the initial state in which each attempt
begins with the counter at zero, no tick gives up an attempt that has lasted at most the
connect timeout. -/
theorem timeouts_earned (es : List MqttEvent)
    (hfresh : Runs.EveryStep (clockedStep ipaddrAton) BeginsFresh ⟨init, 0⟩ es) :
    Runs.EveryStep (clockedStep ipaddrAton) (TimeoutEarned ipaddrAton) ⟨init, 0⟩ es :=
  hfresh.imp (I := TimerLeClock) (fun _ _ h hok => timer_le_clock ipaddrAton h hok)
    (fun _ _ h _ => timeoutEarned_of_timer ipaddrAton h) (Nat.le_refl 0)

/-- A restart and a first attempt that is answered in time. -/
theorem first_attempt_timeout_earned :
    Runs.EveryStep (clockedStep fun _ => none) (TimeoutEarned fun _ => none) ⟨init, 0⟩
      [.start (some (ascii "broker")) 1883#16 none none none, .tick 100#32 .obliging,
        .dnsFound (some 0x0A000002#32) .obliging, .tick 9000#32 .obliging,
        .tick 1001#32 .obliging] :=
  timeouts_earned (fun _ => none) _
    ⟨trivial, fun _ => rfl, trivial, fun h => absurd h.1 (by decide +kernel),
      fun h => absurd h.1 (by decide +kernel), trivial⟩

/-- **The condition is exact for an attempt.**  An attempt under way with anything more
on the counter than on the clock can be given up after only the connect timeout or
less. -/
theorem stale_timer_cuts_attempt (c : Clocked) (hatt : attempting c.mqtt.cli.eState = true)
    (hahead : c.sinceMs < c.mqtt.cli.keepAliveMs.toNat) (hclock : c.sinceMs ≤ connectTimeoutMs)
    (hsmall : c.mqtt.cli.keepAliveMs.toNat + connectTimeoutMs < 2 ^ 32) (ans : Answers) :
    ¬TimeoutEarned ipaddrAton c
      (.tick (BitVec.ofNat 32 (connectTimeoutMs - c.sinceMs)) ans) := by
  intro hearned
  have hto : connectTimeoutMs = 10000 := rfl
  have hms : (BitVec.ofNat 32 (connectTimeoutMs - c.sinceMs)).toNat =
      connectTimeoutMs - c.sinceMs := by
    rw [BitVec.toNat_ofNat, Nat.mod_eq_of_lt (by omega)]
  have hsum : (c.mqtt.cli.keepAliveMs +
      BitVec.ofNat 32 (connectTimeoutMs - c.sinceMs)).toNat =
        c.mqtt.cli.keepAliveMs.toNat + (connectTimeoutMs - c.sinceMs) := by
    rw [BitVec.toNat_add, hms, Nat.mod_eq_of_lt (by omega)]
  have hgiven := (tick_gives_up_iff ipaddrAton hatt
    (BitVec.ofNat 32 (connectTimeoutMs - c.sinceMs)) ans).mpr (by rw [hsum]; omega)
  have hlate := hearned hatt (by rw [step_tick]; exact hgiven)
  rw [hms] at hlate
  omega

/-! ## Two attempts -/

/-- The first lookup times out; the second attempt, after the back-off, is given up one
millisecond after it began. -/
theorem second_attempt_cut_short :
    ¬Runs.EveryStep (clockedStep fun _ => none) (TimeoutEarned fun _ => none) ⟨init, 0⟩
      [.start (some (ascii "broker")) 1883#16 none none none, .tick 100#32 .obliging,
        .tick 10001#32 .obliging, .tick 5000#32 .obliging, .tick 1#32 .obliging] := by
  rintro ⟨_, _, _, _, hearned, _⟩
  have hshort := hearned (by decide +kernel) (by decide +kernel)
  exact absurd hshort (by decide +kernel)

end Mqtt

end HomeAuto
