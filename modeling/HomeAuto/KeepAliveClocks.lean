import HomeAuto.KeepAlive

/-!
# Clocks beside the keep-alive

A session begins with `MQTTConnectedCB`, and the client stays READY in it from the CONNACK
on.  `KeepAliveWatch` puts clocks beside the client, driven by the ticks.  The three bounds of the
keep-alive are invariants of the clocks against the two counters (`Clocked`), in every run
in which each PINGREQ that is due can be sent:

* while the client stays READY, no more than 30 s and a tick pass between two packets;
* it gives up a READY session only when a PINGREQ of that session is 60 s old, less a tick,
  and unanswered;
* it does not stay READY for 90 s and two ticks when the broker is silent, and so is the
  application until a PINGRESP is awaited.

The client pings only when it has nothing else to send, so the silence of the broker alone
ends no session (`keepAlive_limits`).
-/

namespace HomeAuto

open Mqtt

/-- The client with clocks: the tick time since the last packet that it sent while it stayed
READY, the tick time since each PINGREQ of the session that no PINGRESP followed, and two
clocks of the tick time in READY since the broker sent anything, one of which starts again as
well when the application sends something before a PINGRESP is awaited. -/
structure KeepAliveWatch where
  mqtt : Mqtt
  sinceSent : Option Nat
  pings : List Nat
  quiet : Nat
  silent : Nat

namespace KeepAliveWatch

variable (ipaddrAton : CStr → Option (BitVec 32))

/-- The client after `MQTTClientInit`. -/
def init : KeepAliveWatch := ⟨.init, none, [], 0, 0⟩

/-- The event sends a packet. -/
def sends (s : Mqtt) (e : MqttEvent) : Bool :=
  s.net.writes.length < (s.perform ipaddrAton e).net.writes.length

/-- The application sends something, and no PINGRESP is awaited. -/
def speaks (s : Mqtt) (e : MqttEvent) : Bool :=
  !isTick e && sends ipaddrAton s e && decide (s.cli.pingWaitMs = 0#32)

/-- One event. -/
def watch (w : KeepAliveWatch) (e : MqttEvent) : KeepAliveWatch :=
  if w.mqtt.net.CanDeliver e then
    { mqtt := w.mqtt.perform ipaddrAton e
      sinceSent :=
        if (w.mqtt.perform ipaddrAton e).cli.eState ≠ .ready then none
        else if sends ipaddrAton w.mqtt e then some 0
        else w.sinceSent.map (· + tickMs e)
      pings :=
        if beginsSession e ∨ w.mqtt.brings e then []
        else w.pings.map (· + tickMs e) ++
          (if isTick e ∧ sends ipaddrAton w.mqtt e then [0] else [])
      quiet :=
        if (w.mqtt.perform ipaddrAton e).cli.eState ≠ .ready ∨ delivered e ≠ none ∨
            speaks ipaddrAton w.mqtt e then 0
        else w.quiet + tickMs e
      silent :=
        if (w.mqtt.perform ipaddrAton e).cli.eState ≠ .ready ∨ delivered e ≠ none then 0
        else w.silent + tickMs e }
  else w

/-- What is asked of an event: a tick is no longer than `T`, and a PINGREQ that is due is
sent. -/
def Admissible (T : Nat) (w : KeepAliveWatch) (e : MqttEvent) : Prop :=
  tickMs e ≤ T ∧ w.mqtt.PingSent e

instance (T : Nat) (w : KeepAliveWatch) (e : MqttEvent) : Decidable (w.Admissible T e) :=
  inferInstanceAs (Decidable (_ ∧ _))

/-- The bounds of the keep-alive for one event. -/
structure Bounded (T : Nat) (w : KeepAliveWatch) (e : MqttEvent) : Prop where
  sending : ∀ t, w.sinceSent = some t → t + tickMs e ≤ 30000 + T
  dropping : w.mqtt.cli.eState = .ready → isTick e = true →
    (w.watch ipaddrAton e).mqtt.cli.eState ≠ .ready →
    ∃ age ∈ (w.watch ipaddrAton e).pings, 60000 ≤ age + T
  dropped : (w.watch ipaddrAton e).mqtt.cli.eState = .ready →
    (w.watch ipaddrAton e).quiet < 90000 + 2 * T

/-- **The invariant**: how the clocks stand to the counters. -/
structure Clocked (T : Nat) (w : KeepAliveWatch) : Prop where
  sinceSent : ∀ t, w.sinceSent = some t → w.mqtt.cli.eState = .ready ∧
    w.mqtt.cli.keepAliveMs.toNat = t ∧ t < 30000
  pings : w.mqtt.cli.pingWaitMs ≠ 0#32 →
    ∃ age ∈ w.pings, w.mqtt.cli.pingWaitMs.toNat ≤ 1 + T + age
  quiet : w.mqtt.cli.eState = .ready → w.quiet = 0 ∨
    (w.mqtt.cli.keepAliveMs.toNat < 30000 ∧
      (w.mqtt.cli.pingWaitMs = 0#32 → w.quiet ≤ w.mqtt.cli.keepAliveMs.toNat + T) ∧
      (w.mqtt.cli.pingWaitMs ≠ 0#32 → w.mqtt.cli.pingWaitMs.toNat ≤ 60000 ∧
        w.quiet ≤ w.mqtt.cli.pingWaitMs.toNat + 29999 + T))

variable {ipaddrAton}

theorem clocked_init (T : Nat) : init.Clocked T where
  sinceSent := nofun
  pings := fun h => absurd rfl h
  quiet := nofun

/-! ## Events other than ticks -/

/-- No time passes in an event other than a tick. -/
theorem tickMs_of_not_tick {e : MqttEvent} (h : isTick e = false) : tickMs e = 0 := by
  cases e with
  | tick ms ans => cases h
  | _ => rfl

/-- **Events other than ticks** keep the invariant. -/
theorem clocked_perform {T : Nat} {w : KeepAliveWatch} (h : w.Clocked T) {e : MqttEvent}
    (hcan : w.mqtt.net.CanDeliver e) (htick : isTick e = false) :
    (w.watch ipaddrAton e).Clocked T := by
  obtain ⟨hwait, hsends, hconnect, hready⟩ := w.mqtt.counters_perform ipaddrAton e htick
  have hms := tickMs_of_not_tick htick
  have hrunning (hst : (w.mqtt.perform ipaddrAton e).cli.eState = .ready) :
      beginsSession e = false := by
    cases hbegin : beginsSession e with
    | false => rfl
    | true => cases (hconnect hbegin).symm.trans hst
  rw [watch, if_pos hcan]
  constructor
  · -- a packet that is sent clears counter and clock
    intro t ht
    dsimp only at ht ⊢
    split at ht
    · cases ht
    · rename_i hst
      rw [not_not] at hst
      have hcounted := hsends (hrunning hst)
      split at ht
      · rename_i hsent
        rw [sends, decide_eq_true_eq] at hsent
        rw [Option.some.injEq] at ht
        rcases hcounted with ⟨hlen, _⟩ | ⟨_, hkeep⟩
        · omega
        · rw [hkeep, ← ht]
          exact ⟨hst, rfl, by omega⟩
      · rename_i hsent
        rw [sends, decide_eq_true_eq] at hsent
        rw [hms, Option.map_eq_some_iff] at ht
        obtain ⟨t', ht', rfl⟩ := ht
        obtain ⟨_, hkeep', hlt⟩ := h.sinceSent t' ht'
        rcases hcounted with ⟨_, hkeep⟩ | ⟨hlen, _⟩
        · rw [hkeep]
          exact ⟨hst, hkeep', hlt⟩
        · exact absurd hlen hsent
  · -- the wait goes on with the PINGREQs it had
    intro hne
    dsimp only at hne ⊢
    by_cases hends : beginsSession e ∨ w.mqtt.brings e
    · rw [hwait, if_pos hends] at hne
      exact absurd rfl hne
    · rw [hwait, if_neg hends] at hne ⊢
      rw [if_neg hends]
      obtain ⟨age, hage, hle⟩ := h.pings hne
      refine ⟨age + tickMs e, ?_, by omega⟩
      exact List.mem_append_left _ (List.mem_map.mpr ⟨age, hage, rfl⟩)
  · -- in a quiet event the counters stay, or a PINGRESP is awaited
    intro hst
    dsimp only at hst ⊢
    split
    · exact .inl rfl
    · rename_i hquiet
      rw [not_or, not_or, not_not, not_not] at hquiet
      obtain ⟨_, hdata, hspeaks⟩ := hquiet
      have hends : ¬(beginsSession e = true ∨ w.mqtt.brings e = true) := by
        rw [hrunning hst, brings, hdata]
        simp
      rw [if_neg hends] at hwait
      rw [hms, Nat.add_zero, hwait]
      rcases hsends (hrunning hst) with ⟨_, hkeep⟩ | ⟨hlen, hkeep⟩
      · rw [hkeep]
        exact h.quiet (hready hdata hst)
      · have hawaits : w.mqtt.cli.pingWaitMs ≠ 0#32 := by
          intro hzero
          refine hspeaks ?_
          rw [speaks, htick, sends, decide_eq_true hlen, decide_eq_true hzero]
          rfl
        rcases h.quiet (hready hdata hst) with hzero | ⟨_, _, hwaits⟩
        · exact .inl hzero
        · refine .inr ⟨?_, fun hzero => absurd hzero hawaits, hwaits⟩
          rw [hkeep]
          exact (by decide : 0 < 30000)

/-! ## Ticks -/

theorem toNat_add_of_lt {a b : BitVec 32} (h : a.toNat + b.toNat < 2 ^ 32) :
    (a + b).toNat = a.toNat + b.toNat := by
  rw [BitVec.toNat_add, Nat.mod_eq_of_lt h]

theorem toNat_add_le (a b : BitVec 32) : (a + b).toNat ≤ a.toNat + b.toNat := by
  rw [BitVec.toNat_add]
  exact Nat.mod_le _ _

/-- What a tick does to the clocks. -/
theorem watch_tick (w : KeepAliveWatch) (ms : BitVec 32) (ans : Answers) :
    (w.watch ipaddrAton (.tick ms ans)).mqtt = w.mqtt.mqttClientTick ipaddrAton ms ans ∧
      (w.watch ipaddrAton (.tick ms ans)).sinceSent =
        (if (w.mqtt.mqttClientTick ipaddrAton ms ans).cli.eState ≠ .ready then none
        else if sends ipaddrAton w.mqtt (.tick ms ans) then some 0
        else w.sinceSent.map (· + ms.toNat)) ∧
      (w.watch ipaddrAton (.tick ms ans)).pings =
        w.pings.map (· + ms.toNat) ++
          (if sends ipaddrAton w.mqtt (.tick ms ans) then [0] else []) ∧
      (w.watch ipaddrAton (.tick ms ans)).quiet =
        if (w.mqtt.mqttClientTick ipaddrAton ms ans).cli.eState ≠ .ready then 0
        else w.quiet + ms.toNat := by
  have hcan : w.mqtt.net.CanDeliver (.tick ms ans) := trivial
  rw [watch, if_pos hcan]
  refine ⟨rfl, rfl, ?_, ?_⟩
  · simp [beginsSession, brings, delivered, isTick, tickMs]
  · simp [delivered, speaks, isTick, tickMs, perform]

/-- **Ticks outside READY** keep the invariant. -/
theorem clocked_tick_idle {T : Nat} {w : KeepAliveWatch} (h : w.Clocked T) {ms : BitVec 32}
    {ans : Answers} (hready : w.mqtt.cli.eState ≠ .ready) :
    (w.watch ipaddrAton (.tick ms ans)).Clocked T := by
  obtain ⟨hwait, hstate⟩ := w.mqtt.counters_tick ipaddrAton ms ans hready
  obtain ⟨hmqtt, hsince, hpings, _⟩ := @watch_tick ipaddrAton w ms ans
  constructor
  · intro t ht
    rw [hsince, if_pos hstate] at ht
    cases ht
  · intro hne
    rw [hmqtt, hwait] at hne ⊢
    obtain ⟨age, hage, hle⟩ := h.pings hne
    refine ⟨age + ms.toNat, ?_, by omega⟩
    rw [hpings]
    exact List.mem_append_left _ (List.mem_map.mpr ⟨age, hage, rfl⟩)
  · intro hst
    rw [hmqtt] at hst
    exact absurd hst hstate

/-- The wait after a tick in READY comes with a PINGREQ of its age. -/
theorem pings_tickReady {T : Nat} {w : KeepAliveWatch} (h : w.Clocked T) {ms : BitVec 32}
    {ans : Answers} (hms : ms.toNat ≤ T) (hready : w.mqtt.cli.eState = .ready)
    (hsent : w.mqtt.PingSent (.tick ms ans)) (hne : w.mqtt.awaited ms ≠ 0#32) :
    ∃ age ∈ (w.watch ipaddrAton (.tick ms ans)).pings,
      (w.mqtt.awaited ms + ms).toNat ≤ 1 + T + age := by
  obtain ⟨_, hcount, _, _⟩ := tickReady_cases hready hsent
  obtain ⟨_, _, hpings, _⟩ := @watch_tick ipaddrAton w ms ans
  have hsum := toNat_add_le (w.mqtt.awaited ms) ms
  rw [hpings]
  by_cases hfirst : w.mqtt.PingDue ms ∧ w.mqtt.cli.pingWaitMs = 0#32
  · -- the PINGREQ of this tick begins the wait
    have hsends : sends ipaddrAton w.mqtt (.tick ms ans) = true := by
      rw [sends, decide_eq_true_eq, perform, tick_ready ipaddrAton hready, hcount,
        if_pos hfirst.1]
      omega
    have hone : (w.mqtt.awaited ms).toNat = 1 := by
      rw [awaited, if_pos hfirst]
      rfl
    refine ⟨0, ?_, by omega⟩
    rw [if_pos hsends]
    exact List.mem_append_right _ List.mem_cons_self
  · have hsame : w.mqtt.awaited ms = w.mqtt.cli.pingWaitMs := if_neg hfirst
    rw [hsame] at hne hsum ⊢
    obtain ⟨age, hage, hle⟩ := h.pings hne
    refine ⟨age + ms.toNat, ?_, by omega⟩
    exact List.mem_append_left _ (List.mem_map.mpr ⟨age, hage, rfl⟩)

theorem toNat_ne_zero {a : BitVec 32} (h : a ≠ 0#32) : a.toNat ≠ 0 := by
  intro h0
  exact h (BitVec.eq_of_toNat_eq h0)

/-- The time of silence against the counters, after a tick that stays in READY. -/
theorem quiet_tickReady {T : Nat} (hT : T + 60000 < 2 ^ 32) {w : KeepAliveWatch}
    (h : w.Clocked T) {ms : BitVec 32} (hms : ms.toNat ≤ T)
    (hready : w.mqtt.cli.eState = .ready) {keep wait : BitVec 32}
    (hkeep : keep = if w.mqtt.PingDue ms then 0#32 else w.mqtt.cli.keepAliveMs + ms)
    (hwait : wait = if w.mqtt.awaited ms = 0#32 then 0#32 else w.mqtt.awaited ms + ms)
    (hstays : w.mqtt.awaited ms = 0#32 ∨ (w.mqtt.awaited ms + ms).toNat ≤ 60000) :
    keep.toNat < 30000 ∧ (wait = 0#32 → w.quiet + ms.toNat ≤ keep.toNat + T) ∧
      (wait ≠ 0#32 → wait.toNat ≤ 60000 ∧ w.quiet + ms.toNat ≤ wait.toNat + 29999 + T) := by
  have hbelow : keep.toNat < 30000 := by
    rw [hkeep]
    split
    · decide
    · rename_i hdue
      exact Nat.lt_of_not_le hdue
  refine ⟨hbelow, ?_⟩
  have hold := h.quiet hready
  by_cases hnone : w.mqtt.awaited ms = 0#32
  · -- no PINGREQ was due and none is awaited
    have hdue : ¬w.mqtt.PingDue ms ∧ w.mqtt.cli.pingWaitMs = 0#32 := by
      unfold awaited at hnone
      split at hnone
      · cases hnone
      · rename_i hfirst
        exact ⟨fun hdue => hfirst ⟨hdue, hnone⟩, hnone⟩
    rw [if_pos hnone] at hwait
    rw [if_neg hdue.1] at hkeep
    refine ⟨fun _ => ?_, fun hne => absurd hwait hne⟩
    rcases hold with hzero | ⟨hlt, hle, _⟩
    · omega
    · have hq := hle hdue.2
      have hnowrap := toNat_add_of_lt (a := w.mqtt.cli.keepAliveMs) (b := ms) (by omega)
      rw [hkeep, hnowrap]
      omega
  · have hsmall := hstays.resolve_left hnone
    rw [if_neg hnone] at hwait
    rw [← hwait] at hsmall
    rcases hold with hzero | ⟨hlt, hle, hlate⟩
    · exact ⟨fun _ => by omega, fun _ => ⟨hsmall, by omega⟩⟩
    · have hgone : wait.toNat = (w.mqtt.awaited ms).toNat + ms.toNat ∧
          w.quiet ≤ (w.mqtt.awaited ms).toNat + 29999 + T := by
        by_cases hfirst : w.mqtt.PingDue ms ∧ w.mqtt.cli.pingWaitMs = 0#32
        · have hone : (w.mqtt.awaited ms).toNat = 1 := by
            rw [awaited, if_pos hfirst]
            rfl
          have hq := hle hfirst.2
          rw [hwait, toNat_add_of_lt (by omega)]
          exact ⟨rfl, by omega⟩
        · have hsame : w.mqtt.awaited ms = w.mqtt.cli.pingWaitMs := if_neg hfirst
          obtain ⟨hmax, hq⟩ := hlate (hsame ▸ hnone)
          rw [hwait, hsame, toNat_add_of_lt (by omega)]
          exact ⟨rfl, hq⟩
      have hpos := toNat_ne_zero hnone
      refine ⟨fun hzero => ?_, fun _ => ⟨hsmall, by omega⟩⟩
      rw [hzero] at hgone
      have hcontra : (0 : Nat) = (w.mqtt.awaited ms).toNat + ms.toNat := hgone.1
      omega

/-- **Ticks in READY** keep the invariant. -/
theorem clocked_tick_ready {T : Nat} (hT : T + 60000 < 2 ^ 32) {w : KeepAliveWatch}
    (h : w.Clocked T) {ms : BitVec 32} {ans : Answers} (hms : ms.toNat ≤ T)
    (hready : w.mqtt.cli.eState = .ready) (hsent : w.mqtt.PingSent (.tick ms ans)) :
    (w.watch ipaddrAton (.tick ms ans)).Clocked T := by
  have htick := tick_ready ipaddrAton hready ms ans
  obtain ⟨hkeep, hcount, hwait, hstate⟩ := tickReady_cases hready hsent
  obtain ⟨hmqtt, hsince, hpings, hquiet⟩ := @watch_tick ipaddrAton w ms ans
  have hsends : sends ipaddrAton w.mqtt (.tick ms ans) = decide (w.mqtt.PingDue ms) := by
    rw [sends, decide_eq_decide, perform, htick, hcount]
    split
    · rename_i hdue
      exact iff_of_true (by omega) hdue
    · rename_i hdue
      exact iff_of_false (by omega) hdue
  have hbelow : ¬w.mqtt.PingDue ms → (w.mqtt.cli.keepAliveMs + ms).toNat < 30000 := by
    intro hdue
    exact Nat.lt_of_not_le hdue
  rw [htick] at hmqtt hsince hquiet
  constructor
  · intro t ht
    rw [hmqtt, hkeep]
    rw [hsince] at ht
    split at ht
    · cases ht
    · rename_i hst
      rw [not_not] at hst
      rw [hsends] at ht
      by_cases hdue : w.mqtt.PingDue ms
      · rw [decide_eq_true hdue, if_pos rfl, Option.some.injEq] at ht
        rw [if_pos hdue, ← ht]
        exact ⟨hst, rfl, by decide⟩
      · rw [if_neg (by rwa [decide_eq_true_eq]), Option.map_eq_some_iff] at ht
        obtain ⟨t', ht', rfl⟩ := ht
        obtain ⟨_, hkeep', hlt⟩ := h.sinceSent t' ht'
        have hnowrap := toNat_add_of_lt (a := w.mqtt.cli.keepAliveMs) (b := ms) (by omega)
        have hsmall := hbelow hdue
        rw [if_neg hdue, hnowrap]
        exact ⟨hst, by omega, by omega⟩
  · intro hne
    rw [hmqtt, hwait] at hne ⊢
    split at hne
    · exact absurd rfl hne
    · rename_i hawaits
      rw [if_neg hawaits]
      exact pings_tickReady h hms hready hsent hawaits
  · intro hst
    rw [hmqtt] at hst
    rw [hmqtt, hquiet, if_neg (not_not.mpr hst)]
    exact .inr (quiet_tickReady hT h hms hready hkeep hwait (hstate.mp hst))

/-- **Every admissible event** keeps the invariant. -/
theorem clocked_watch {T : Nat} (hT : T + 60000 < 2 ^ 32) {w : KeepAliveWatch}
    (h : w.Clocked T) {e : MqttEvent} (hok : w.Admissible T e) :
    (w.watch ipaddrAton e).Clocked T := by
  by_cases hcan : w.mqtt.net.CanDeliver e
  · cases htick : isTick e with
    | false => exact clocked_perform h hcan htick
    | true =>
        cases e with
        | tick ms ans =>
            by_cases hready : w.mqtt.cli.eState = .ready
            · exact clocked_tick_ready hT h hok.1 hready hok.2
            · exact clocked_tick_idle h hready
        | _ => cases htick
  · rw [watch, if_neg hcan]
    exact h

/-- **The invariant bounds the clocks.** -/
theorem bounded_of_clocked {T : Nat} (hT : T + 60000 < 2 ^ 32) {w : KeepAliveWatch}
    (h : w.Clocked T) {e : MqttEvent} (hok : w.Admissible T e) : w.Bounded ipaddrAton T e where
  sending := by
    intro t ht
    obtain ⟨_, _, hlt⟩ := h.sinceSent t ht
    have hms := hok.1
    omega
  dropping := by
    intro hready htick hdrop
    cases e with
    | tick ms ans =>
        obtain ⟨_, _, _, hstate⟩ := tickReady_cases hready hok.2
        obtain ⟨hmqtt, _, _, _⟩ := @watch_tick ipaddrAton w ms ans
        rw [hmqtt, tick_ready ipaddrAton hready, ne_eq, hstate, not_or, Nat.not_le] at hdrop
        obtain ⟨hawaits, hlate⟩ := hdrop
        have hlate' : 60000 < (w.mqtt.awaited ms + ms).toNat := hlate
        obtain ⟨age, hage, hle⟩ := @pings_tickReady ipaddrAton T w h ms ans hok.1 hready
          hok.2 hawaits
        exact ⟨age, hage, by omega⟩
    | _ => cases htick
  dropped := by
    intro hready
    have hnext := (@clocked_watch ipaddrAton T hT w h e hok).quiet hready
    rcases hnext with hzero | ⟨hkeep, hunawaited, hawaited⟩
    · omega
    · by_cases hwait : (w.watch ipaddrAton e).mqtt.cli.pingWaitMs = 0#32
      · have hq := hunawaited hwait
        omega
      · have hq := hawaited hwait
        omega

/-- A session: the broker's address is found at once, and the CONNACK accepts. -/
def session : List MqttEvent :=
  [.start (some (ascii "10.0.0.2")) 1883#16 none none none, .tick 100#32 .obliging,
    .connected 0 .ok .obliging, .recv 0 (some [[0x20, 2, 0, 0]]) .ok .obliging]

end KeepAliveWatch

end HomeAuto
