import HomeAuto.ConfigWatch

/-!
# Following the applied configuration

A calm event keeps following the configuration; applying one, a tick that begins an attempt and
an address that arrives do so exactly when they keep to it.  `follows_iff_keepsToConfig` says
this of whole runs.
-/

namespace HomeAuto

/-! ## The record of connections -/

section Record

variable {ipaddrAton : CStr → Option (BitVec 32)} {cfg : MqttConfig}

/-- A connection follows after calls that follow, if it did before or is one of theirs. -/
theorem follows_opened {source : Option CStr} {made : List LwipCall}
    (hmade : ∀ c ∈ made, c.Follows ipaddrAton source cfg) {p : Nat} {conn : Nat → Conn}
    (h : (conn p).Follows ipaddrAton cfg ∨ ∃ ip port, LwipCall.tcpConnect p ip port ∈ made) :
    (made.foldl (opened source) conn p).Follows ipaddrAton cfg := by
  induction made generalizing conn with
  | nil =>
      rcases h with hold | ⟨ip, port, hmem⟩
      · exact hold
      · cases hmem
  | cons call made ih =>
      have hcall := hmade call List.mem_cons_self
      refine ih (fun c hc => hmade c (List.mem_cons_of_mem _ hc)) ?_
      cases call with
      | tcpConnect q ip port =>
          by_cases hpq : p = q
          · subst hpq
            refine .inl ?_
            rw [opened, Function.update_self]
            exact ⟨hcall, nofun⟩
          · rw [opened, Function.update_of_ne hpq]
            rcases h with hold | ⟨ip', port', hmem⟩
            · exact .inl hold
            · rcases List.mem_cons.mp hmem with heq | htail
              · cases heq
                exact absurd rfl hpq
              · exact .inr ⟨ip', port', htail⟩
      | dnsGetHostByName name =>
          rcases h with hold | ⟨ip', port', hmem⟩
          · exact .inl hold
          · exact .inr ⟨ip', port', (List.mem_cons.mp hmem).resolve_left nofun⟩
      | tcpNew =>
          rcases h with hold | ⟨ip', port', hmem⟩
          · exact .inl hold
          · exact .inr ⟨ip', port', (List.mem_cons.mp hmem).resolve_left nofun⟩

/-- A connection follows after writes that tell the login of the configuration. -/
theorem follows_heard {written : List (Nat × List UInt8)}
    (hwritten : ∀ w ∈ written, ∀ told, toldBy w.2 = some told → told = cfg.login.told)
    {p : Nat} {conn : Nat → Conn} (h : (conn p).Follows ipaddrAton cfg) :
    (written.foldl heard conn p).Follows ipaddrAton cfg := by
  induction written generalizing conn with
  | nil => exact h
  | cons w written ih =>
      refine ih (fun v hv => hwritten v (List.mem_cons_of_mem _ hv)) ?_
      unfold heard
      by_cases hpw : p = w.1
      · subst hpw
        rw [Function.update_self]
        refine ⟨h.peer, ?_⟩
        intro told htold
        rcases List.mem_append.mp htold with hold | hnew
        · exact h.told told hold
        · exact hwritten w List.mem_cons_self told (Option.mem_toList.mp hnew)
      · rw [Function.update_of_ne hpw]
        exact h

end Record

namespace Followed

variable {ipaddrAton : CStr → Option (BitVec 32)} {palStrToUl : StrToUl}
variable {w : Followed} {e : AppEvent} {n : Nat} {cfg : MqttConfig}

/-- An event that does not occur changes nothing. -/
theorem step_of_not_occurs (h : w.occurs (e, n) = false) :
    w.step ipaddrAton palStrToUl (e, n) = w := by
  rw [step, if_neg (by rw [h]; decide)]

theorem step_of_occurs (h : w.occurs (e, n) = true) :
    w.step ipaddrAton palStrToUl (e, n) =
      w.watch (w.app.step ipaddrAton palStrToUl e) (e, n) := by
  rw [step, if_pos h]

/-- What `applies` says of an event. -/
theorem applies_iff : w.applies e = true ↔ w.app.Applies e := by
  cases e with
  | applyPass => exact (and_iff_right rfl).symm
  | _ => exact iff_of_false nofun nofun

theorem not_applies (h : ¬w.app.Applies e) : w.applies e = false :=
  Bool.eq_false_iff.mpr (applies_iff.not.mpr h)

/-! ## Calm events -/

/-- A calm event leaves what is watched as it is, but for what it writes. -/
theorem watch_calm {app : MqttApp} (hcalm : Mqtt.Calm w.app.cli app.cli)
    (h : ¬w.app.Applies e) :
    w.watch app (e, n) =
      { w with
        app
        conn := (app.cli.net.writes.drop w.app.cli.net.writes.length).foldl heard w.conn } := by
  simp only [watch, hcalm.calls, hcalm.lookups, List.drop_length, List.map_nil, List.foldl_nil,
    not_applies h, Bool.false_eq_true, if_false, lt_self_iff_false, List.append_nil]

theorem sound_calm {app : MqttApp} (hs : w.Sound) (hfits : app.ha.cfg.Fits)
    (hcalm : Mqtt.Calm w.app.cli app.cli) (h : ¬w.app.Applies e) :
    (w.watch app (e, n)).Sound := by
  rw [watch_calm hcalm h]
  refine ⟨hfits, hcalm.stored hs.stored, ?_, ?_, ?_⟩
  · intro cfg happlied hbroker
    exact hcalm.target.trans (hs.target cfg happlied hbroker)
  · intro p hp
    change p < app.cli.net.created
    rw [hcalm.created]
    exact hs.created p (hcalm.live p hp)
  · change w.begun.length = app.cli.net.lookups
    rw [hcalm.lookups]
    exact hs.lookups

/-- A calm event keeps following. -/
theorem follows_calm {app : MqttApp} (hs : w.Sound) (hf : w.Follows ipaddrAton)
    (hcalm : Mqtt.Calm w.app.cli app.cli) (h : ¬w.app.Applies e) :
    (w.watch app (e, n)).Follows ipaddrAton := by
  rw [watch_calm hcalm h]
  intro cfg happlied
  have hfollows := hf cfg happlied
  refine ⟨?_, hfollows.made, ?_⟩
  · intro p hp
    have hlive := hcalm.live p hp
    have hbroker : cfg.host ≠ [] := fun hempty => (hfollows.quiet hempty).1 p hlive
    obtain ⟨ws, hws, htold⟩ := hcalm.writes
    refine follows_heard ?_ (hfollows.kept p hlive)
    rw [hws, List.drop_left]
    intro v hv told heq
    rw [htold hs.stored v hv told heq, hs.target cfg happlied hbroker]
    rfl
  · intro hempty
    obtain ⟨hdead, hnone⟩ := hfollows.quiet hempty
    exact ⟨fun p hp => hdead p (hcalm.live p hp), hnone⟩

/-! ## Attempts -/

/-- An attempt adds its calls. -/
theorem watch_attempt {app : MqttApp} {made : List LwipCall}
    (hatt : Mqtt.Attempts w.app.cli app.cli made) (h : ¬w.app.Applies e) :
    w.watch app (e, n) =
      { app
        applied := w.applied
        begun :=
          if w.app.cli.net.lookups < app.cli.net.lookups then w.begun ++ namesAsked made
          else w.begun
        conn := made.foldl (opened (w.source made (e, n))) w.conn
        attempts := w.attempts ++ made.map fun c => (c, w.source made (e, n)) } := by
  simp only [watch, hatt.calls, hatt.writes, List.drop_left, List.drop_length, List.foldl_nil,
    not_applies h, Bool.false_eq_true, if_false]

theorem sound_attempt {app : MqttApp} {made : List LwipCall} (hs : w.Sound)
    (hfits : app.ha.cfg.Fits) (hatt : Mqtt.Attempts w.app.cli app.cli made)
    (h : ¬w.app.Applies e)
    (hlookups : app.cli.net.lookups = w.app.cli.net.lookups ∨
      app.cli.net.lookups = w.app.cli.net.lookups + 1 ∧ (namesAsked made).length = 1) :
    (w.watch app (e, n)).Sound := by
  rw [watch_attempt hatt h]
  refine ⟨hfits, hatt.stored hs.stored, ?_, ?_, ?_⟩
  · intro cfg happlied hhost
    exact hatt.target.trans (hs.target cfg happlied hhost)
  · intro p hp
    change p < app.cli.net.created
    rcases hatt.live p hp with hlive | hnew
    · exact (hs.created p hlive).trans_le hatt.created
    · exact hnew.1
  · change (if _ then _ else _ : List CStr).length = _
    rcases hlookups with hsame | ⟨hmore, hone⟩
    · rw [hsame, if_neg (lt_irrefl _)]
      exact hs.lookups
    · rw [hmore, if_pos (Nat.lt_succ_self _), List.length_append, hone, hs.lookups]

/-- **An attempt, exactly.**  It follows when its calls are of the configuration applied, and
that has a host if there are any. -/
theorem follows_attempt_iff {app : MqttApp} {made : List LwipCall} (hf : w.Follows ipaddrAton)
    (hatt : Mqtt.Attempts w.app.cli app.cli made) (h : ¬w.app.Applies e) :
    (w.watch app (e, n)).Follows ipaddrAton ↔
      ∀ cfg, w.applied = some cfg →
        (∀ c ∈ made, c.Follows ipaddrAton (w.source made (e, n)) cfg) ∧
          (cfg.host = [] → made = []) := by
  rw [watch_attempt hatt h]
  constructor
  · intro hnext cfg happlied
    refine ⟨?_, ?_⟩
    · intro c hc
      exact (hnext cfg happlied).made (c, _)
        (List.mem_append_right _ (List.mem_map_of_mem (f := fun c => (c, _)) hc))
    · intro hempty
      have hnone := ((hnext cfg happlied).quiet hempty).2
      exact List.map_eq_nil_iff.mp (List.append_eq_nil_iff.mp hnone).2
  · intro hmade cfg happlied
    obtain ⟨hcalls, hquiet⟩ := hmade cfg happlied
    have hfollows := hf cfg happlied
    refine ⟨?_, ?_, ?_⟩
    · intro p hp
      refine follows_opened hcalls ?_
      rcases hatt.live p hp with hlive | ⟨_, hnew⟩
      · exact .inl (hfollows.kept p hlive)
      · exact .inr hnew
    · intro c hc
      rcases List.mem_append.mp hc with hold | hnew
      · exact hfollows.made c hold
      · obtain ⟨call, hcall, heq⟩ := List.mem_map.mp hnew
        rw [← heq]
        exact hcalls call hcall
    · intro hempty
      obtain ⟨hdead, hnone⟩ := hfollows.quiet hempty
      have hmadeNone := hquiet hempty
      refine ⟨?_, ?_⟩
      · intro p hp
        rcases hatt.live p hp with hlive | ⟨_, ip, port, hmem⟩
        · exact hdead p hlive
        · rw [hmadeNone] at hmem
          cases hmem
      · change w.attempts ++ made.map _ = []
        rw [hnone, hmadeNone]
        rfl

/-! ## The calls of an attempt -/

theorem namesAsked_dialCalls (c : Mqtt) (ip : BitVec 32) (ans : Answers) :
    namesAsked (c.dialCalls ip ans) = [] := by
  unfold Mqtt.dialCalls
  split <;> rfl

theorem dialCalls_ne_nil (c : Mqtt) (ip : BitVec 32) (ans : Answers) : c.dialCalls ip ans ≠ [] := by
  unfold Mqtt.dialCalls
  split <;> nofun

/-- The calls for an address follow when the pcb, if there is one, is connected to the
broker. -/
theorem follows_dialCalls_iff {c : Mqtt} {ip : BitVec 32} {ans : Answers} {source : Option CStr} :
    (∀ call ∈ c.dialCalls ip ans, call.Follows ipaddrAton source cfg) ↔
      (ans.tcpNew = true → (Peer.mk ip c.cli.port source).Follows ipaddrAton cfg) := by
  unfold Mqtt.dialCalls
  cases ans.tcpNew with
  | true =>
      simp only [if_true, List.forall_mem_cons, LwipCall.Follows, true_and, forall_const]
      exact and_iff_left nofun
  | false =>
      simp only [Bool.false_eq_true, if_false, List.forall_mem_singleton, LwipCall.Follows,
        false_imp_iff]

theorem attemptCalls_ne_nil (c : Mqtt) (ans : Answers) : c.attemptCalls ipaddrAton ans ≠ [] := by
  unfold Mqtt.attemptCalls
  split
  · exact dialCalls_ne_nil _ _ _
  · nofun

/-- An attempt of a client that uses the parameters of the configuration is one of it. -/
theorem follows_attemptCalls {c : Mqtt} (htarget : c.target = cfg.target) (ans : Answers) :
    ∀ call ∈ c.attemptCalls ipaddrAton ans,
      call.Follows ipaddrAton (namesAsked (c.attemptCalls ipaddrAton ans)).head? cfg := by
  have hhost : c.cli.host = cfg.host := congrArg Target.host htarget
  have hport : c.cli.port = cfg.tcpPort := congrArg Target.port htarget
  unfold Mqtt.attemptCalls
  cases hliteral : ipaddrAton c.cli.host with
  | some ip =>
      dsimp only
      rw [namesAsked_dialCalls, follows_dialCalls_iff]
      exact fun _ => ⟨hhost ▸ hliteral, hport⟩
  | none =>
      dsimp only
      rw [List.forall_mem_cons]
      refine ⟨hhost, ?_⟩
      cases ans.dns with
      | cached ip =>
          dsimp only
          rw [follows_dialCalls_iff]
          exact fun _ => ⟨hhost, hport⟩
      | inProgress => exact nofun
      | failed => exact nofun

/-! ## Applying -/

/-- A configuration that fits its buffers is taken over as it is. -/
theorem target_applyPass (hflag : w.app.startPending = true) (hhost : w.app.ha.cfg.host ≠ [])
    (hfits : w.app.ha.cfg.Fits) : w.app.applyPass.cli.target = w.app.ha.cfg.target := by
  obtain ⟨topic, hcli⟩ := MqttApp.cli_applyPass_some hflag hhost
  have hlen : w.app.ha.cfg.host.length < 64 := hfits.host
  have hclient : w.app.ha.cfg.clientID.length < 32 := hfits.clientID
  have huser : w.app.ha.cfg.login.user.length < 32 := by
    unfold MqttConfig.login
    dsimp only
    split
    · exact hfits.user
    · exact Nat.zero_lt_succ 31
  have hpass : w.app.ha.cfg.login.pass.length < 32 := by
    unfold MqttConfig.login
    dsimp only
    split
    · exact hfits.pass
    · exact Nat.zero_lt_succ 31
  have hmax : mqttStrMax = 63 := rfl
  rw [hcli, Mqtt.target_mqttClientStart, List.take_of_length_le (by omega),
    List.take_of_length_le (show w.app.ha.cfg.login.clientID.length ≤ mqttStrMax from
      (Nat.le_of_lt hclient).trans (by decide)),
    List.take_of_length_le (by omega), List.take_of_length_le (by omega)]
  rfl

/-- Applying makes no call and forgets those made before. -/
theorem watch_applyPass (w : Followed) (n : Nat) (hflag : w.app.startPending = true) :
    w.watch w.app.applyPass (.applyPass, n) =
      { w with app := w.app.applyPass, applied := some w.app.ha.cfg, attempts := [] } := by
  obtain ⟨hcalls, _, hlookups, hwrites⟩ := MqttApp.net_applyPass w.app
  have happlies : w.applies .applyPass = true := hflag
  simp only [watch, hcalls, hlookups, hwrites, happlies, List.drop_length, List.map_nil,
    List.foldl_nil, if_true, lt_self_iff_false, if_false, List.append_nil]

/-- Applying keeps soundness. -/
theorem sound_applyPass (hs : w.Sound) (hflag : w.app.startPending = true) :
    (w.watch w.app.applyPass (.applyPass, n)).Sound := by
  obtain ⟨_, hcreated, hlookups, _⟩ := MqttApp.net_applyPass w.app
  rw [watch_applyPass w n hflag]
  refine ⟨(cfg_applyPass w.app).symm ▸ hs.fits, MqttApp.clientStored_applyPass hs.stored, ?_, ?_, ?_⟩
  · intro cfg heq hhost
    rw [← Option.some.inj heq] at hhost ⊢
    exact target_applyPass hflag hhost hs.fits
  · intro p hp
    change p < w.app.applyPass.cli.net.created
    rw [hcreated]
    by_cases hhost : w.app.ha.cfg.host = []
    · refine hs.created p ?_
      rw [Live, MqttApp.cli_applyPass_none hhost] at hp
      exact hp
    · exact hs.created p ((MqttApp.live_applyPass hflag hhost p).mp hp).1
  · change w.begun.length = w.app.applyPass.cli.net.lookups
    rw [hlookups]
    exact hs.lookups

/-- **Applying a configuration, exactly.** -/
theorem follows_applyPass_iff (hflag : w.app.startPending = true) :
    (w.watch w.app.applyPass (.applyPass, n)).Follows ipaddrAton ↔
      w.KeepsToConfig ipaddrAton (.applyPass, n) := by
  rw [watch_applyPass w n hflag]
  simp only [KeepsToConfig, hflag, forall_const]
  by_cases hhost : w.app.ha.cfg.host = []
  · have hcli := MqttApp.cli_applyPass_none hhost
    rw [if_pos hhost]
    constructor
    · intro hf p hp
      exact ((hf _ rfl).quiet hhost).1 p (by simpa only [Live, hcli] using hp)
    · intro hdead cfg heq
      have hnone (p : Nat) : ¬(w.app.applyPass.cli.net.pcb p).live = true := by
        rw [hcli]
        exact hdead p
      exact ⟨fun p hp => absurd hp (hnone p), nofun, fun _ => ⟨hnone, rfl⟩⟩
  · have hlive (p : Nat) := MqttApp.live_applyPass hflag hhost p
    rw [if_neg hhost]
    constructor
    · intro hf p hp hheld
      exact (hf _ rfl).kept p ((hlive p).mpr ⟨hp, hheld⟩)
    · intro hown cfg heq
      have hcfg : w.app.ha.cfg = cfg := Option.some.inj heq
      refine ⟨?_, nofun, ?_⟩
      · intro p hp
        rw [← hcfg]
        exact hown p ((hlive p).mp hp).1 ((hlive p).mp hp).2
      · intro hempty
        rw [← hcfg] at hempty
        exact absurd hempty hhost

/-! ## Runs -/

/-- The kinds of event: a calm one, an application of a configuration, a tick that begins an
attempt, and an address. -/
theorem kind_of_event (s : MqttApp) (e : AppEvent) :
    (¬s.Dials e ∧ ¬s.Applies e) ∨ (e = .applyPass ∧ s.startPending = true) ∨
      (∃ ms ans chain loc, e = .tick ms ans chain loc ∧ s.cli.Retries ms) ∨
      ∃ ip ans, e = .outside (.dnsFound (some ip) ans) ∧ 0 < s.cli.net.lookups := by
  by_cases happlies : s.Applies e
  · exact .inr (.inl happlies)
  by_cases hdials : s.Dials e
  · cases e with
    | tick ms ans chain loc => exact .inr (.inr (.inl ⟨ms, ans, chain, loc, rfl, hdials⟩))
    | outside ev =>
        cases ev with
        | dnsFound ip ans =>
            cases ip with
            | none => exact hdials.elim
            | some ip => exact .inr (.inr (.inr ⟨ip, ans, rfl, hdials⟩))
        | _ => exact hdials.elim
    | _ => exact hdials.elim
  · exact .inl ⟨hdials, happlies⟩

/-- A calm event keeps to the configuration. -/
theorem keeps_of_calm (hs : w.Sound) (hdials : ¬w.app.Dials e) (happlies : ¬w.app.Applies e) :
    w.KeepsToConfig ipaddrAton (e, n) := by
  cases e with
  | applyPass => exact fun hflag => absurd ⟨rfl, hflag⟩ happlies
  | tick ms ans chain loc => exact fun _ _ _ => hdials
  | outside ev =>
      cases ev with
      | dnsFound ip ans =>
          cases ip with
          | none => trivial
          | some ip =>
              intro host hget
              have hlen : w.begun.length = 0 := hs.lookups.trans (Nat.eq_zero_of_not_pos hdials)
              rw [List.length_eq_zero_iff.mp hlen] at hget
              cases hget
      | _ => trivial
  | _ => trivial

/-- And so does one that does not occur. -/
theorem keeps_of_not_occurs (h : w.occurs (e, n) = false) :
    w.KeepsToConfig ipaddrAton (e, n) := by
  cases e with
  | outside ev =>
      cases ev with
      | dnsFound ip ans =>
          have hlen : w.begun.length ≤ n := Nat.not_lt.mp (of_decide_eq_false h)
          cases ip with
          | none => trivial
          | some ip =>
              intro host hget
              rw [List.getElem?_eq_none hlen] at hget
              cases hget
      | _ => trivial
  | _ => cases h

/-- Soundness is kept by every event. -/
theorem sound_step (hs : w.Sound) (e : AppEvent) (n : Nat) :
    (w.step ipaddrAton palStrToUl (e, n)).Sound := by
  cases hoccurs : w.occurs (e, n) with
  | false =>
      rw [step_of_not_occurs hoccurs]
      exact hs
  | true =>
      rw [step_of_occurs hoccurs]
      have hfits : (w.app.step ipaddrAton palStrToUl e).ha.cfg.Fits := fits_step hs.fits e
      rcases kind_of_event w.app e with ⟨hdials, happlies⟩ | ⟨heq, hflag⟩ |
        ⟨ms, ans, chain, loc, heq, hretry⟩ | ⟨ip, ans, heq, hbegun⟩
      · exact sound_calm hs hfits (MqttApp.calm_step ipaddrAton palStrToUl hdials happlies) happlies
      · subst heq
        exact sound_applyPass hs hflag
      · subst heq
        have happlies : ¬w.app.Applies (.tick ms ans chain loc) :=
          MqttApp.not_applies_of_ne (by simp)
        refine sound_attempt hs hfits
          (MqttApp.attempts_tick ipaddrAton palStrToUl hretry ans chain loc) happlies ?_
        simp only [MqttApp.step, MqttApp.mqttAppTick, MqttApp.cli_connectEdge]
        refine (Mqtt.lookups_mqttClientTick hretry ipaddrAton ans).imp_right ?_
        intro hasked
        rw [hasked.2]
        exact ⟨hasked.1, rfl⟩
      · subst heq
        have happlies : ¬w.app.Applies (.outside (.dnsFound (some ip) ans)) :=
          MqttApp.not_applies_of_ne (by simp)
        refine sound_attempt hs hfits
          (MqttApp.attempts_dnsFound ipaddrAton palStrToUl hbegun ip ans) happlies (.inl ?_)
        rw [MqttApp.cli_dnsFound ipaddrAton palStrToUl hbegun]
        exact Mqtt.lookups_mqttDNSFoundCB w.app.cli ip ans

/-- **One event, exactly.** -/
theorem follows_step_iff (hs : w.Sound) (hf : w.Follows ipaddrAton) (e : AppEvent) (n : Nat) :
    (w.step ipaddrAton palStrToUl (e, n)).Follows ipaddrAton ↔
      w.KeepsToConfig ipaddrAton (e, n) := by
  cases hoccurs : w.occurs (e, n) with
  | false =>
      rw [step_of_not_occurs hoccurs]
      exact iff_of_true hf (keeps_of_not_occurs hoccurs)
  | true =>
      rw [step_of_occurs hoccurs]
      rcases kind_of_event w.app e with ⟨hdials, happlies⟩ | ⟨heq, hflag⟩ |
        ⟨ms, ans, chain, loc, heq, hretry⟩ | ⟨ip, ans, heq, hbegun⟩
      · have hcalm := MqttApp.calm_step ipaddrAton palStrToUl hdials happlies
        exact iff_of_true (follows_calm hs hf hcalm happlies) (keeps_of_calm hs hdials happlies)
      · subst heq
        exact follows_applyPass_iff hflag
      · subst heq
        have happlies : ¬w.app.Applies (.tick ms ans chain loc) :=
          MqttApp.not_applies_of_ne (by simp)
        rw [follows_attempt_iff hf
          (MqttApp.attempts_tick ipaddrAton palStrToUl hretry ans chain loc) happlies]
        refine forall_congr' fun cfg => forall_congr' fun happlied => ?_
        constructor
        · intro hc hempty
          exact absurd (hc.2 hempty) (attemptCalls_ne_nil _ _)
        · intro hkeeps
          have hhost : cfg.host ≠ [] := fun hempty => hkeeps hempty hretry
          exact ⟨follows_attemptCalls (hs.target cfg happlied hhost) ans,
            fun hempty => absurd hempty hhost⟩
      · subst heq
        have hlt : n < w.begun.length := of_decide_eq_true hoccurs
        have hget : w.begun[n]? = some w.begun[n] := List.getElem?_eq_getElem hlt
        have happlies : ¬w.app.Applies (.outside (.dnsFound (some ip) ans)) :=
          MqttApp.not_applies_of_ne (by simp)
        rw [follows_attempt_iff hf
          (MqttApp.attempts_dnsFound ipaddrAton palStrToUl hbegun ip ans) happlies]
        simp only [KeepsToConfig, source, hget, Option.some.injEq, forall_eq',
          follows_dialCalls_iff]
        refine forall_congr' fun cfg => forall_congr' fun happlied => ?_
        constructor
        · intro hc
          have hhost : cfg.host ≠ [] := fun hempty => dialCalls_ne_nil _ _ _ (hc.2 hempty)
          exact ⟨hhost, fun hnew => (hc.1 hnew).broker⟩
        · intro hkeeps
          have hport := congrArg Target.port (hs.target cfg happlied hkeeps.1)
          exact ⟨fun hnew => ⟨hkeeps.2 hnew, hport⟩, fun hempty => absurd hempty hkeeps.1⟩

theorem fits_oneShutterSettings : MqttApp.oneShutterSettings.cfg.Fits :=
  ⟨by decide +kernel, by decide +kernel, by decide +kernel, by decide +kernel⟩

/-- The saved configuration is applied, and the client connects and logs in. -/
def firstConnection : List (AppEvent × Nat) :=
  [(.requestApply, 0), (.applyPass, 0), (.tick 0#32 .obliging (fun _ => 0#8) 0#8, 0),
    (.outside (.connected 0 .ok .obliging), 0)]

end Followed

end HomeAuto
