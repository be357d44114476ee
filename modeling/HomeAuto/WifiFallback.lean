import HomeAuto.WifiLink

/-!
# The fallback to the setup access point

The main loop falls back to the setup access point when the station has had no IP for
`WIFI_FALLBACK_MS`, unless it has had one with its credentials before: `bStaHadIp`.  It sets
this flag whenever it finds the IP flag set.  The IP flag is cleared by the link going down and
by `NetWifiStaDown`, and a switch from one network to another without leaving the station role
does neither: the IP flag of the old network then counts for the new one, and the fallback is
disarmed (`stale_ip_recorded`).

With the IP flag clear whenever new credentials are tried, the record is honest in every order
of events (`fallback_armed`).
-/

namespace HomeAuto.Wifi

/-- A device, and whether a callback has found an IP address since the station was last told
to connect with other credentials. -/
structure Watch where
  dev : Device
  acquired : Bool

/-- A callback that finds an IP address. -/
def NetifCallback.acquires : NetifCallback → Bool
  | .status up addr => up && addr != 0#32
  | .link _ => false

namespace Device

/-- The callbacks for the station netif that are made in a step. -/
def callbacksOf (s : Device) : Event → List NetifCallback
  | .lwip cb => [cb]
  | .wlan e cbs => s.wlanCallbacks cbs e
  | .task ans => if s.todo.head? = some .staNetifDown then ans.callbacks else []

/-- A step that ends the switch to other credentials: `NetWifiStaUp` returns. -/
def switches (s : Device) : Event → Bool
  | .task _ =>
      match s.todo with
      | .issueConnect _ :: _ => true
      | _ => false
  | _ => false

end Device

namespace Watch

variable (fallbackTicks : BitVec 32)

/-- A step, watched. -/
def step (w : Watch) (e : Event) : Watch where
  dev := w.dev.step fallbackTicks e
  acquired :=
    if w.dev.switches e then false
    else w.acquired || (w.dev.callbacksOf e).any NetifCallback.acquires

/-- The device at boot. -/
def atBoot (stored : Bool) (cands : List Credentials) : Watch := ⟨.atBoot stored cands, false⟩

/-- The station is recorded as having had an IP only if an address has been acquired since the
switch to the credentials that are being tried.  Between the switch and the end of the request
the record still is the one of the old credentials. -/
def Honest (w : Watch) : Prop :=
  w.dev.bStaHadIp = true → .armFallback ∉ w.dev.todo → w.acquired = true

instance (w : Watch) : Decidable w.Honest := inferInstanceAs (Decidable (_ → _ → _))

/-- Other credentials are tried with the IP flag clear. -/
def SwitchesWithoutIp (w : Watch) (e : Event) : Prop :=
  w.dev.switches e = true → w.dev.iIpAcquired = false

instance (w : Watch) (e : Event) : Decidable (w.SwitchesWithoutIp e) :=
  inferInstanceAs (Decidable (_ → _))

end Watch

/-! ## The operations of the task -/

/-- The operations that come before a connection, at boot or in a switch. -/
def Op.connects : Op → Bool
  | .issueConnect _ | .join _ | .await .. | .attempted .. | .decide .. => true
  | _ => false

/-- Nothing is left to do after the link maintenance. -/
def maintenanceLast : List Op → Prop
  | [] => True
  | .linkMaintenance :: todo => todo = []
  | _ :: todo => maintenanceLast todo

/-- The operations of a call: none is the link maintenance, and a connection is either one
that the caller was to make or is followed by the arming of the fallback. -/
structure Called (op : Op) (ops : List Op) : Prop where
  maintenance : .linkMaintenance ∉ ops
  connects : ∀ o ∈ ops, o.connects = true → op.connects = true ∨ .armFallback ∈ ops

theorem maintenanceLast_append {ops todo : List Op} (hops : .linkMaintenance ∉ ops)
    (htodo : maintenanceLast todo) : maintenanceLast (ops ++ todo) := by
  induction ops with
  | nil => exact htodo
  | cons op ops ih =>
      rw [List.mem_cons, not_or] at hops
      have hrest := ih hops.2
      cases op <;> first | exact hrest | exact absurd rfl hops.1

theorem maintenanceLast.tail {op : Op} {todo : List Op} (h : maintenanceLast (op :: todo)) :
    maintenanceLast todo := by
  cases op <;> first | exact h | (have hnil : todo = [] := h; rw [hnil]; trivial)

namespace Device

variable (fallbackTicks : BitVec 32)

theorem callback_frame (s : Device) (cb : NetifCallback) :
    (s.callback cb).todo = s.todo ∧ (s.callback cb).bStaHadIp = s.bStaHadIp ∧
      ((s.callback cb).iIpAcquired = true → s.iIpAcquired = true ∨ cb.acquires = true) := by
  cases cb with
  | status up addr =>
      simp only [callback]
      split
      · rename_i hip
        exact ⟨rfl, rfl, fun _ => .inr (by simpa [NetifCallback.acquires] using hip)⟩
      · exact ⟨rfl, rfl, .inl⟩
  | link up =>
      cases up with
      | true => exact ⟨rfl, rfl, .inl⟩
      | false => exact ⟨rfl, rfl, fun h => absurd h (by simp [callback])⟩

/-- Callbacks leave the task alone, and the IP flag is set by one that finds an address. -/
theorem callbacks_frame (s : Device) (cbs : List NetifCallback) :
    (s.callbacks cbs).todo = s.todo ∧ (s.callbacks cbs).bStaHadIp = s.bStaHadIp ∧
      ((s.callbacks cbs).iIpAcquired = true →
        s.iIpAcquired = true ∨ cbs.any NetifCallback.acquires = true) := by
  induction cbs generalizing s with
  | nil => exact ⟨rfl, rfl, .inl⟩
  | cons cb cbs ih =>
      obtain ⟨htodo, hhad, hip⟩ := ih (s.callback cb)
      obtain ⟨htodo', hhad', hip'⟩ := s.callback_frame cb
      refine ⟨htodo.trans htodo', hhad.trans hhad', ?_⟩
      intro hset
      rw [List.any_cons, Bool.or_eq_true]
      rcases hip hset with hbefore | hlater
      · exact (hip' hbefore).imp_right .inl
      · exact .inr (.inr hlater)

theorem called_nil (op : Op) : Called op [] := ⟨by simp, by simp⟩

/-- The retry and the fallback neither set the IP flag nor the record. -/
theorem awaitIp_frame (s : Device) (now : BitVec 32) :
    ((s.awaitIp fallbackTicks now).todo = s.todo ∨
        (s.awaitIp fallbackTicks now).todo = (netWifiScanCache ++ netWifiApUp) ++ s.todo) ∧
      (s.awaitIp fallbackTicks now).bStaHadIp = s.bStaHadIp ∧
      (s.awaitIp fallbackTicks now).iIpAcquired = s.iIpAcquired := by
  unfold awaitIp
  dsimp only
  by_cases hhad : s.bStaHadIp = true
  · rw [if_pos hhad]
    exact ⟨.inl rfl, rfl, rfl⟩
  · rw [if_neg hhad]
    by_cases htiming : (!s.bNoIpTiming) = true
    · rw [if_pos htiming]
      exact ⟨.inl rfl, rfl, rfl⟩
    · rw [if_neg htiming]
      by_cases hlate : fallbackTicks ≤ now - s.xNoIpStart
      · rw [if_pos hlate]
        exact ⟨.inr rfl, rfl, rfl⟩
      · rw [if_neg hlate]
        exact ⟨.inl rfl, rfl, rfl⟩

/-- What an operation leaves to do. -/
theorem exec_todo (s : Device) (ans : Answers) (op : Op) :
    ∃ ops, (s.exec fallbackTicks ans op).todo = ops ++ s.todo ∧ Called op ops := by
  have hscan : Called op (netWifiScanCache ++ netWifiApUp) :=
    ⟨by simp [netWifiScanCache, netWifiApUp], by simp [netWifiScanCache, netWifiApUp, Op.connects]⟩
  cases op with
  | apDown | apUp | staRoleUp =>
      refine ⟨[], ?_, called_nil _⟩
      simp only [exec]
      repeat' split
      all_goals rfl
  | issueConnect c => exact ⟨[], rfl, called_nil _⟩
  | staDown =>
      simp only [exec]
      split
      · exact ⟨[], rfl, called_nil _⟩
      · exact ⟨_, rfl, by simp, by simp [Op.connects]⟩
  | clearIp => exact ⟨[], rfl, called_nil _⟩
  | staNetifDown => exact ⟨[], (s.callbacks_frame ans.callbacks).1, called_nil _⟩
  | wlanScan =>
      simp only [exec]
      split
      · exact ⟨[], rfl, called_nil _⟩
      · refine ⟨_, rfl, ?_, ?_⟩
        · cases ans.rc <;> simp [netWifiStaDown]
        · cases ans.rc <;> simp [netWifiStaDown, Op.connects]
  | scanWait =>
      simp only [exec]
      split
      · exact ⟨[], rfl, called_nil _⟩
      · exact ⟨[.scanWait], rfl, by simp, by simp [Op.connects]⟩
  | join cands =>
      cases cands with
      | nil => exact ⟨_, rfl, hscan⟩
      | cons c cands => exact ⟨_, rfl, by simp [netWifiStaUp], by simp [Op.connects]⟩
  | await c cands attempts =>
      simp only [exec]
      split
      · exact ⟨[.attempted c cands attempts], rfl, by simp, by simp [Op.connects]⟩
      · exact ⟨[.await c cands attempts], rfl, by simp, by simp [Op.connects]⟩
  | attempted c cands attempts =>
      simp only [exec]
      split
      · exact ⟨[.decide c cands], rfl, by simp, by simp [Op.connects]⟩
      · exact ⟨[.await c cands (attempts - 1)], rfl, by simp, by simp [Op.connects]⟩
  | decide c cands =>
      simp only [exec]
      split
      · exact ⟨[], rfl, called_nil _⟩
      · split
        · exact ⟨[.join []], rfl, by simp, by simp [Op.connects]⟩
        · exact ⟨_, rfl, by simp [netWifiStaDown], by simp [Op.connects]⟩
  | pollRequests =>
      simp only [exec]
      split
      · exact ⟨[], rfl, called_nil _⟩
      · split
        · refine ⟨_, rfl, ?_, ?_⟩
          · simp [netWifiSwitchToSta, netWifiApDown, netWifiStaUp]
          · simp
        · exact ⟨[], rfl, called_nil _⟩
      · exact ⟨_, rfl, hscan⟩
  | armFallback => exact ⟨[], rfl, called_nil _⟩
  | linkMaintenance =>
      simp only [exec]
      split
      · exact ⟨[], rfl, called_nil _⟩
      · split
        · exact ⟨[], rfl, called_nil _⟩
        · rcases (s.awaitIp_frame fallbackTicks ans.now).1 with hnone | hfall
          · exact ⟨[], hnone, called_nil _⟩
          · exact ⟨_, hfall, hscan⟩

/-- What an operation does to the IP flag and to the record: lwIP's callbacks set the flag, the
link maintenance sets the record when it finds the flag set, and the arming of the fallback
clears it. -/
theorem exec_flags (s : Device) (ans : Answers) (op : Op) :
    ((s.exec fallbackTicks ans op).iIpAcquired = true → s.iIpAcquired = true ∨
        (op = .staNetifDown ∧ ans.callbacks.any NetifCallback.acquires = true)) ∧
      ((s.exec fallbackTicks ans op).bStaHadIp = true → op ≠ .armFallback ∧
        (s.bStaHadIp = true ∨ (op = .linkMaintenance ∧ s.iIpAcquired = true))) := by
  have hsame {s' : Device} (hop : op ≠ .armFallback) (hip : s'.iIpAcquired = s.iIpAcquired)
      (hhad : s'.bStaHadIp = s.bStaHadIp) :
      (s'.iIpAcquired = true → s.iIpAcquired = true ∨
        (op = .staNetifDown ∧ ans.callbacks.any NetifCallback.acquires = true)) ∧
      (s'.bStaHadIp = true → op ≠ .armFallback ∧
        (s.bStaHadIp = true ∨ (op = .linkMaintenance ∧ s.iIpAcquired = true))) := by
    rw [hip, hhad]
    exact ⟨.inl, fun h => ⟨hop, .inl h⟩⟩
  cases op with
  | clearIp => exact ⟨fun h => absurd h (by simp [exec]), fun h => ⟨by simp, .inl h⟩⟩
  | staNetifDown =>
      obtain ⟨_, hhad, hip⟩ := s.callbacks_frame ans.callbacks
      refine ⟨fun h => (hip h).imp_right fun hcb => ⟨rfl, hcb⟩, ?_⟩
      intro h
      exact ⟨by simp, .inl (hhad ▸ h)⟩
  | armFallback => exact ⟨.inl, fun h => absurd h (by simp [exec])⟩
  | linkMaintenance =>
      simp only [exec]
      split
      · exact ⟨.inl, fun h => ⟨by simp, .inl h⟩⟩
      · split
        · rename_i hip
          exact ⟨.inl, fun _ => ⟨by simp, .inr ⟨trivial, hip⟩⟩⟩
        · obtain ⟨_, hhad, hip⟩ := s.awaitIp_frame fallbackTicks ans.now
          have hframe := @hsame (s.awaitIp fallbackTicks ans.now) (by simp) hip hhad
          simpa using hframe
  | join cands => cases cands <;> exact hsame (by simp) rfl rfl
  | _ =>
      simp only [exec]
      repeat' split
      all_goals exact hsame (by simp) rfl rfl

end Device

/-! ## Every run -/

namespace Watch

variable (fallbackTicks : BitVec 32)

/-- What holds in every state, as long as other credentials are tried with the IP flag clear:
an IP flag that is set was set after the switch, and so was a record that the fallback is not
about to be armed over. -/
structure Fresh (w : Watch) : Prop where
  last : maintenanceLast w.dev.todo
  ip : w.dev.iIpAcquired = true → w.acquired = true
  honest : w.Honest
  connects : ∀ op ∈ w.dev.todo, op.connects = true → w.dev.bStaHadIp = true →
    .armFallback ∈ w.dev.todo

theorem fresh_atBoot (stored : Bool) (cands : List Credentials) :
    (atBoot stored cands).Fresh where
  last := by cases stored <;> trivial
  ip := by
    intro h
    exact absurd h (by simp [atBoot, Device.atBoot])
  honest := by
    intro h
    exact absurd h (by simp [atBoot, Device.atBoot])
  connects := by
    intro op _ _ h
    exact absurd h (by simp [atBoot, Device.atBoot])

variable {w : Watch}

/-- Callbacks keep it. -/
theorem Fresh.callbacks (hw : w.Fresh) (cbs : List NetifCallback) :
    Fresh ⟨w.dev.callbacks cbs, w.acquired || cbs.any NetifCallback.acquires⟩ := by
  obtain ⟨htodo, hhad, hip⟩ := w.dev.callbacks_frame cbs
  constructor
  · rw [htodo]
    exact hw.last
  · intro h
    rw [Bool.or_eq_true]
    exact (hip h).imp_left hw.ip
  · intro h hidle
    rw [hhad] at h
    rw [htodo] at hidle
    rw [Bool.or_eq_true]
    exact .inl (hw.honest h hidle)
  · rw [htodo, hhad]
    exact hw.connects

/-- A Wlan event keeps it. -/
theorem Fresh.wlan (hw : w.Fresh) (e : WlanEvent) (cbs : List NetifCallback) :
    (w.step fallbackTicks (.wlan e cbs)).Fresh := by
  have hkept := hw.callbacks (w.dev.wlanCallbacks cbs e)
  cases e with
  | connect status => exact hkept
  | disconnect => exact hkept
  | scanResult => exact ⟨hkept.last, hkept.ip, hkept.honest, hkept.connects⟩

/-- The end of a switch. -/
theorem Fresh.issueConnect (hw : w.Fresh) {c : Credentials} {todo : List Op}
    (htodo : w.dev.todo = .issueConnect c :: todo) (ans : Answers)
    (hok : w.SwitchesWithoutIp (.task ans)) : (w.step fallbackTicks (.task ans)).Fresh := by
  have hswitch : w.dev.switches (.task ans) = true := by
    simp [Device.switches, htodo]
  have hstep : w.step fallbackTicks (.task ans) = ⟨{ w.dev with todo := todo }, false⟩ := by
    simp [Watch.step, Device.step, htodo, hswitch, Device.exec]
  have hlast := hw.last
  have hconnects := hw.connects
  rw [htodo] at hlast hconnects
  -- A record of the old credentials is going to be cleared.
  have harm (hhad : w.dev.bStaHadIp = true) : .armFallback ∈ todo := by
    have hmem := hconnects (.issueConnect c) (by simp) rfl hhad
    simpa using hmem
  rw [hstep]
  refine ⟨hlast.tail, ?_, ?_, ?_⟩
  · intro hset
    exact absurd (hok hswitch) (by simp [show w.dev.iIpAcquired = true from hset])
  · intro hhad hidle
    exact absurd (harm hhad) hidle
  · intro op _ _ hhad
    exact harm hhad

/-- Any other operation. -/
theorem Fresh.exec (hw : w.Fresh) {op : Op} {todo : List Op} (htodo : w.dev.todo = op :: todo)
    (ans : Answers) (hop : w.dev.switches (.task ans) = false) :
    (w.step fallbackTicks (.task ans)).Fresh := by
  obtain ⟨ops, hops, hcalled⟩ :=
    Device.exec_todo fallbackTicks { w.dev with todo := todo } ans op
  obtain ⟨hip, hhad⟩ := Device.exec_flags fallbackTicks { w.dev with todo := todo } ans op
  have hlast := hw.last
  have hconnects := hw.connects
  have hhonest := hw.honest
  rw [htodo] at hlast hconnects
  have hdev : (w.step fallbackTicks (.task ans)).dev =
      { w.dev with todo := todo }.exec fallbackTicks ans op := by
    simp [Watch.step, Device.step, htodo]
  have hacq : (w.step fallbackTicks (.task ans)).acquired = true ↔
      w.acquired = true ∨ (op = .staNetifDown ∧
        ans.callbacks.any NetifCallback.acquires = true) := by
    simp only [Watch.step, hop, Device.callbacksOf, htodo, List.head?_cons]
    by_cases hdown : op = .staNetifDown <;> simp [hdown]
  refine ⟨?_, ?_, ?_, ?_⟩
  · rw [hdev, hops]
    exact maintenanceLast_append hcalled.maintenance hlast.tail
  · intro hset
    rw [hdev] at hset
    exact hacq.mpr ((hip hset).imp_left hw.ip)
  · intro hset hidle
    rw [hdev] at hset hidle
    rw [hops, List.mem_append, not_or] at hidle
    obtain ⟨hne, hbefore | ⟨_, hnow⟩⟩ := hhad hset
    · have hpending : .armFallback ∉ w.dev.todo := by
        rw [htodo, List.mem_cons, not_or]
        exact ⟨Ne.symm hne, hidle.2⟩
      exact hacq.mpr (.inl (hhonest hbefore hpending))
    · exact hacq.mpr (.inl (hw.ip hnow))
  · intro o ho hconn hset
    rw [hdev] at ho hset ⊢
    rw [hops, List.mem_append] at ho ⊢
    obtain ⟨hne, hbefore | ⟨hmaint, _⟩⟩ := hhad hset
    · have hpending (o' : Op) (hmem : o' ∈ op :: todo) (hconn' : o'.connects = true) :
          .armFallback ∈ todo := by
        have harm := hconnects o' hmem hconn' hbefore
        rw [List.mem_cons] at harm
        exact harm.resolve_left (Ne.symm hne)
      rcases ho with hnew | hold
      · rcases hcalled.connects o hnew hconn with hcaller | harm
        · exact .inr (hpending op (by simp) hcaller)
        · exact .inl harm
      · exact .inr (hpending o (by simp [hold]) hconn)
    · -- Nothing is left to do after the link maintenance but what it calls.
      subst hmaint
      have hnil : todo = [] := hlast
      rw [hnil] at ho
      rcases hcalled.connects o (by simpa using ho) hconn with hcaller | harm
      · exact absurd hcaller (by simp [Op.connects])
      · exact .inl harm

/-- An operation keeps it. -/
theorem Fresh.task (hw : w.Fresh) (ans : Answers)
    (hok : w.SwitchesWithoutIp (.task ans)) : (w.step fallbackTicks (.task ans)).Fresh := by
  cases htodo : w.dev.todo with
  | nil =>
      have hstep : w.step fallbackTicks (.task ans) =
          ⟨{ w.dev with todo := [.pollRequests, .linkMaintenance] }, w.acquired⟩ := by
        simp [Watch.step, Device.step, Device.switches, Device.callbacksOf, htodo]
      have hhonest := hw.honest
      rw [hstep]
      refine ⟨rfl, hw.ip, ?_, ?_⟩
      · intro hhad _
        exact hhonest hhad (by simp [htodo])
      · simp [Op.connects]
  | cons op todo =>
      cases hswitch : w.dev.switches (.task ans) with
      | false => exact hw.exec fallbackTicks htodo ans hswitch
      | true =>
          have hconnect : ∃ c, op = .issueConnect c := by
            unfold Device.switches at hswitch
            rw [htodo] at hswitch
            cases op <;> simp_all
          obtain ⟨c, rfl⟩ := hconnect
          exact hw.issueConnect fallbackTicks htodo ans hok

/-- One step keeps it. -/
theorem Fresh.step (hw : w.Fresh) (e : Event) (hok : w.SwitchesWithoutIp e) :
    (w.step fallbackTicks e).Fresh := by
  cases e with
  | task ans => exact hw.task fallbackTicks ans hok
  | wlan e cbs => exact hw.wlan fallbackTicks e cbs
  | lwip cb =>
      have hkept := hw.callbacks [cb]
      exact hkept

/-- **The fallback stays armed.**  In every run, from boot on and in every order of Wi-Fi events
and requests, in which other credentials are tried with the IP flag clear, the station is
recorded as having had an IP only if one has been acquired since the switch. -/
theorem fallback_armed (stored : Bool) (cands : List Credentials) (es : List Event)
    (hok : Runs.EveryStep (step fallbackTicks) SwitchesWithoutIp (atBoot stored cands) es) :
    Runs.EveryState (step fallbackTicks) Honest (atBoot stored cands) es :=
  (hok.invariant (fun _ e hw => hw.step fallbackTicks e) (fresh_atBoot stored cands)).mono
    fun _ hw => hw.honest

/-- The Wlan calls succeed, and the waits time out. -/
def prompt (request : Option Request) : Event := .task ⟨true, true, 0#32, request, []⟩

/-- lwIP's callbacks for a station that joins its network. -/
def joins : List Event :=
  [.wlan (.connect 0) [.status true 0#32, .link true], .lwip (.status true 0xC0A80107#32)]

/-- A device without credentials brings up the setup access point and is given a network there:
it is recorded as having had an IP after it has joined. -/
theorem provisioned_in_setup_recorded :
    Runs.EveryState (step 45000#32) Honest (atBoot false [])
        (List.replicate 9 (prompt none) ++
          prompt (some (.provision 0 ⟨ascii "home", ascii "secret"⟩)) ::
            List.replicate 5 (prompt none) ++ joins ++ List.replicate 3 (prompt none)) ∧
      (Runs.final (step 45000#32) (atBoot false [])
        (List.replicate 9 (prompt none) ++
          prompt (some (.provision 0 ⟨ascii "home", ascii "secret"⟩)) ::
            List.replicate 5 (prompt none) ++ joins ++ List.replicate 3 (prompt none))).dev.bStaHadIp
        = true :=
  ⟨fallback_armed _ _ _ _ (by decide +kernel), by decide +kernel⟩

/-! ## A switch in the station role -/

/-- With the IP flag set at the end of a switch, the task records the station as having had an IP
as soon as it is left alone until the end of its iteration. -/
theorem stale_ip_recorded {c : Credentials}
    (htodo : w.dev.todo = [.issueConnect c, .armFallback, .linkMaintenance])
    (hip : w.dev.iIpAcquired = true) (hrole : w.dev.eRole ≠ .ap) (ans ans' ans'' : Answers) :
    ¬(Runs.final (step fallbackTicks) w [.task ans, .task ans', .task ans'']).Honest := by
  obtain ⟨⟨eRole, iIpAcquired, bScanDone, cred, retryMs, had, timing, start, todo⟩, acquired⟩ := w
  dsimp only at htodo hip hrole
  subst htodo hip
  intro h
  have hrec := h (by simp [Watch.step, Device.step, Device.exec, hrole])
    (by simp [Watch.step, Device.step, Device.exec, hrole])
  exact absurd hrec
    (by simp [Watch.step, Device.step, Device.exec, Device.switches, Device.callbacksOf])

/-- A station that has joined one network and is given another one is recorded as having had an
IP with the new credentials at once. -/
theorem station_switch_recorded :
    ∃ es, ¬Runs.EveryState (step 45000#32) Honest (atBoot false [⟨ascii "home", ascii "secret"⟩])
      es := by
  refine ⟨List.replicate 3 (prompt none) ++ joins ++ List.replicate 4 (prompt none) ++
    prompt (some (.provision 0 ⟨ascii "cabin", ascii "wrong"⟩)) ::
      List.replicate 5 (prompt none), ?_⟩
  intro h
  exact absurd h.last (by decide +kernel)

end Watch

end HomeAuto.Wifi
