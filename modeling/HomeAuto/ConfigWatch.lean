import HomeAuto.AppClient
import HomeAuto.PostConnectRuns

/-!
# Watching the applied configuration

`Followed` watches the application from the side of lwIP: the calls that open connections, and
the bytes that TCP has accepted.  Of every pcb it knows the address and port given to
`tcp_connect`, the name which that address was resolved from, and what the CONNECT packets
written to it have told.  It also knows the calls made since `MQTTAppStart` was last given a
configuration.

The application follows its configuration when all this is of that configuration, and when an
empty host means no connection and no call at all.

`MQTTAppStart` returns early when the host is empty and leaves the client as it is, and an
answer is for the name it was asked for.  `KeepsToConfig` says in which states this shows.
-/

namespace HomeAuto

/-! ## Configurations -/

namespace MqttConfig

/-- The strings fit their buffers. -/
structure Fits (c : MqttConfig) : Prop where
  host : c.host.length < cfgHostLen
  clientID : c.clientID.length < cfgClientIDLen
  user : c.user.length < cfgUserLen
  pass : c.pass.length < cfgPassLen

theorem length_decodeLoop (cs : CStr) (room : Nat) : (decodeLoop cs room).length ≤ room := by
  fun_induction decodeLoop cs room with
  | case1 => exact Nat.zero_le _
  | case2 => exact Nat.zero_le _
  | case3 room cs ih => simpa using ih
  | case4 room _ hi lo rest b hb ih => simpa using ih
  | case5 room _ hi lo rest hb ih => exact ih
  | case6 => exact Nat.zero_le _
  | case7 c cs room _ _ ih => simpa using ih

theorem length_decodeFormString (encoded : CStr) (size : Nat) :
    (decodeFormString encoded size).length ≤ size - 1 := by
  have htake := (List.takeWhile_prefix (fun c : UInt8 => decide (c ≠ 0))
    (l := decodeLoop encoded (size - 1))).length_le
  exact htake.trans (length_decodeLoop encoded (size - 1))

theorem length_getStringParam (name : String) (params : CgiParams) {size : Nat} (hsize : 0 < size)
    {old : CStr} (hold : old.length < size) :
    (getStringParam name params size old).length < size := by
  unfold getStringParam
  split
  · rename_i value _
    have hlen := length_decodeFormString value size
    omega
  · exact hold

/-- Every form leaves strings that fit. -/
theorem fits_mqttConfigCGIHandler {c : MqttConfig} (h : c.Fits) (params : CgiParams) :
    (c.mqttConfigCGIHandler params).Fits where
  host := length_getStringParam _ _ (by decide) (by decide)
  clientID := length_getStringParam _ _ (by decide) h.clientID
  user := length_getStringParam _ _ (by decide) h.user
  pass := by
    simp only [mqttConfigCGIHandler]
    split
    · rename_i value _
      split
      · have hlen := length_decodeFormString value cfgPassLen
        have hpos : 0 < cfgPassLen := by decide
        omega
      · exact h.pass
    · exact h.pass

end MqttConfig

/-! ## Connections -/

/-- Where a connection leads, and the name that was resolved to it; an address in digits has
none. -/
structure Peer where
  ip : BitVec 32
  port : BitVec 16
  source : Option CStr

/-- A connection, and what has been told on it. -/
structure Conn where
  peer : Peer
  told : List Told

/-- The peer is the broker of the configuration, under its port. -/
structure Peer.Follows (ipaddrAton : CStr → Option (BitVec 32)) (peer : Peer)
    (cfg : MqttConfig) : Prop where
  broker :
    match peer.source with
    | some name => name = cfg.host
    | none => ipaddrAton cfg.host = some peer.ip
  port : peer.port = cfg.tcpPort

/-- So is the peer of a connection, and it was told the login of the configuration only. -/
structure Conn.Follows (ipaddrAton : CStr → Option (BitVec 32)) (c : Conn)
    (cfg : MqttConfig) : Prop where
  peer : c.peer.Follows ipaddrAton cfg
  told : ∀ told ∈ c.told, told = cfg.login.told

/-- A call to open a connection is one for the broker of the configuration.  The address of
`tcp_connect` was resolved from `source`. -/
def LwipCall.Follows (ipaddrAton : CStr → Option (BitVec 32)) (source : Option CStr)
    (cfg : MqttConfig) : LwipCall → Prop
  | .dnsGetHostByName name => name = cfg.host
  | .tcpNew => True
  | .tcpConnect _ ip port => (Peer.mk ip port source).Follows ipaddrAton cfg

/-- The names that are asked for. -/
def namesAsked (calls : List LwipCall) : List CStr :=
  calls.filterMap fun
    | .dnsGetHostByName name => some name
    | _ => none

/-- `tcp_connect` begins a connection. -/
def opened (source : Option CStr) (conn : Nat → Conn) : LwipCall → Nat → Conn
  | .tcpConnect p ip port => Function.update conn p ⟨⟨ip, port, source⟩, []⟩
  | _ => conn

/-- A CONNECT tells the broker something. -/
def heard (conn : Nat → Conn) (w : Nat × List UInt8) : Nat → Conn :=
  Function.update conn w.1 { conn w.1 with told := (conn w.1).told ++ (toldBy w.2).toList }

/-- The application, and what is watched of it. -/
structure Followed where
  app : MqttApp
  applied : Option MqttConfig
  begun : List CStr
  conn : Nat → Conn
  attempts : List (LwipCall × Option CStr)

namespace Followed

/-- At start-up. -/
def boot (ha : HaMqtt) : Followed where
  app := .boot ha
  applied := none
  begun := []
  conn := fun _ => ⟨⟨0#32, 0#16, none⟩, []⟩
  attempts := []

/-- The event gives a configuration to `MQTTAppStart`. -/
def applies (w : Followed) : AppEvent → Bool
  | .applyPass => w.app.startPending
  | _ => false

/-- A DNS answer answers one of the lookups begun, here the one of that number. -/
def occurs (w : Followed) : AppEvent × Nat → Bool
  | (.outside (.dnsFound _ _), n) => n < w.begun.length
  | _ => true

/-- The name that an address of this event was resolved from: the one its lookup was begun
for, or the one asked for just now. -/
def source (w : Followed) (made : List LwipCall) : AppEvent × Nat → Option CStr
  | (.outside (.dnsFound _ _), n) => w.begun[n]?
  | _ => (namesAsked made).head?

variable (ipaddrAton : CStr → Option (BitVec 32)) (palStrToUl : StrToUl)

/-- What is watched, after an event that leaves the application in `app`. -/
def watch (w : Followed) (app : MqttApp) (e : AppEvent × Nat) : Followed :=
  let made := app.cli.net.calls.drop w.app.cli.net.calls.length
  let written := app.cli.net.writes.drop w.app.cli.net.writes.length
  { app
    applied := if w.applies e.1 then some w.app.ha.cfg else w.applied
    begun :=
      if w.app.cli.net.lookups < app.cli.net.lookups then w.begun ++ namesAsked made
      else w.begun
    conn := written.foldl heard (made.foldl (opened (w.source made e)) w.conn)
    attempts :=
      (if w.applies e.1 then [] else w.attempts) ++ made.map fun c => (c, w.source made e) }

/-- One event, with the number of the lookup that a DNS answer answers. -/
def step (w : Followed) (e : AppEvent × Nat) : Followed :=
  if w.occurs e then w.watch (w.app.step ipaddrAton palStrToUl e.1) e else w

/-- A pcb of the client is neither aborted, closed nor freed. -/
def Live (w : Followed) (p : Nat) : Prop := (w.app.cli.net.pcb p).live = true

/-- Every live connection and every call is one of `cfg`, and there is none when its host
is empty. -/
structure FollowsConfig (w : Followed) (cfg : MqttConfig) : Prop where
  kept : ∀ p, w.Live p → (w.conn p).Follows ipaddrAton cfg
  made : ∀ c ∈ w.attempts, c.1.Follows ipaddrAton c.2 cfg
  quiet : cfg.host = [] → (∀ p, ¬w.Live p) ∧ w.attempts = []

/-- The configuration applied last is followed. -/
def Follows (w : Followed) : Prop := ∀ cfg, w.applied = some cfg → w.FollowsConfig ipaddrAton cfg

/-- An event that keeps to the configuration: an empty host is applied while no connection
is live, another one while every live connection but the held one is its own; with an empty
host applied no tick begins an attempt and no address arrives; and an address for which there is
a pcb answers a lookup of the broker that is applied. -/
def KeepsToConfig (w : Followed) : AppEvent × Nat → Prop
  | (.applyPass, _) =>
      w.app.startPending = true →
        if w.app.ha.cfg.host = [] then ∀ p, ¬w.Live p
        else ∀ p, w.Live p → w.app.cli.cli.psPcb ≠ some p →
          (w.conn p).Follows ipaddrAton w.app.ha.cfg
  | (.tick ms _ _ _, _) =>
      ∀ cfg, w.applied = some cfg → cfg.host = [] → ¬w.app.cli.Retries ms
  | (.outside (.dnsFound (some _) ans), n) =>
      ∀ host, w.begun[n]? = some host → ∀ cfg, w.applied = some cfg →
        cfg.host ≠ [] ∧ (ans.tcpNew = true → host = cfg.host)
  | _ => True

/-- What holds in every state: the strings of the configuration and of the client fit, the client
uses the parameters of the configuration applied last unless its host is empty, and lookups
and pcbs are counted. -/
structure Sound (w : Followed) : Prop where
  fits : w.app.ha.cfg.Fits
  stored : w.app.cli.cli.Stored
  target : ∀ cfg, w.applied = some cfg → cfg.host ≠ [] → w.app.cli.target = cfg.target
  created : ∀ p, w.Live p → p < w.app.cli.net.created
  lookups : w.begun.length = w.app.cli.net.lookups

variable {ipaddrAton palStrToUl}
variable {w : Followed} {e : AppEvent} {n : Nat} {cfg : MqttConfig}

theorem sound_boot {ha : HaMqtt} (h : ha.cfg.Fits) : (boot ha).Sound where
  fits := h
  stored := MqttClient.stored_init
  target := nofun
  created := nofun
  lookups := rfl

theorem follows_boot (ha : HaMqtt) : (boot ha).Follows ipaddrAton := nofun

/-! ## The configuration of the application -/

theorem cfg_mqttAppStart (s : MqttApp) : s.mqttAppStart.ha.cfg = s.ha.cfg := by
  unfold MqttApp.mqttAppStart
  split
  · rfl
  · rfl

theorem cfg_applyPass (s : MqttApp) : s.applyPass.ha.cfg = s.ha.cfg := by
  unfold MqttApp.applyPass
  split
  · rfl
  · rw [cfg_mqttAppStart]

/-- Only a form changes the configuration. -/
theorem cfg_step (hform : ∀ params, e ≠ .mqttConfig params) (s : MqttApp) :
    (s.step ipaddrAton palStrToUl e).ha.cfg = s.ha.cfg := by
  cases e with
  | mqttConfig params => exact absurd rfl (hform params)
  | ioConfig params => rfl
  | outputConfig cfg names => simp only [MqttApp.step]
  | requestApply => rfl
  | applyPass => exact cfg_applyPass s
  | republishPass chain loc =>
      simp only [MqttApp.step, MqttApp.republishPass, MqttApp.mqttAppRepublish]
      split
      · rfl
      split
      · rfl
      · rfl
  | product ev => simp only [MqttApp.step]
  | pubService ans =>
      simp only [MqttApp.step, MqttApp.mqttAppPubServiceTick]
      split
      · rfl
      split
      · have hha := (MqttApp.foldl_issueItem ans (s.ha.mqttAppPostConnect s.ha.pubStep) s).1
        change (s.issueStep s.ha.pubStep ans).ha.cfg = s.ha.cfg
        rw [MqttApp.issueStep, hha]
      · rfl
  | tick ms ans chain loc =>
      simp only [MqttApp.step, MqttApp.mqttAppTick, MqttApp.connectEdge]
      split
      · rfl
      · rfl
  | stop => rfl
  | outside ev =>
      simp only [MqttApp.step]
      split
      · rfl
      · rfl

/-- The strings of the configuration fit after every event. -/
theorem fits_step (h : w.app.ha.cfg.Fits) (e : AppEvent) :
    (w.app.step ipaddrAton palStrToUl e).ha.cfg.Fits := by
  by_cases hform : ∃ params, e = .mqttConfig params
  · obtain ⟨params, heq⟩ := hform
    rw [heq]
    exact MqttConfig.fits_mqttConfigCGIHandler h params
  · rw [cfg_step fun params heq => hform ⟨params, heq⟩]
    exact h

end Followed

end HomeAuto
