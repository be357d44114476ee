import HomeAuto.Lib.Runs
import HomeAuto.CStrings

/-!
# The Wi-Fi link of the CC35x1 (`net_wifi.c`, `main.c`)

The application task brings the station and the setup access point up and down; the Wlan
driver and lwIP call back on threads of their own, between any two accesses of the task to
what they share: the role, the IP flag and the scan flag.

The task is a list of operations that are still to be done (`todo`), each of them with at most
one access to the shared variables; an operation that calls a function puts the operations of
the function in front of the rest.  What the surroundings answer comes with each step: the
results of the Wlan calls, the time, the request of the web page, and the netif callbacks that
lwIP makes.  No order of the callbacks is assumed.
-/

namespace HomeAuto.Wifi

/-- `tNetRole`. -/
inductive NetRole
  | none
  | sta
  | ap
  deriving DecidableEq

/-- A network name and its passphrase. -/
structure Credentials where
  ssid : CStr
  pass : CStr
  deriving DecidableEq

/-- `WIFI_SSID_MAX` and `WIFI_PASS_MAX`. -/
def wifiSsidMax : Nat := 32
def wifiPassMax : Nat := 63

/-- `SYSTICKMS`, `WIFI_MAX_ATTEMPTS` and `WIFI_RETRY_MS`. -/
def sysTickMs : Nat := 10
def wifiMaxAttempts : Nat := 3
def wifiRetryMs : Nat := 15000

/-- Copying credentials with `strncpy`, and the empty ones. -/
def Credentials.adopt (c : Credentials) : Credentials :=
  ⟨c.ssid.take wifiSsidMax, c.pass.take wifiPassMax⟩
def Credentials.forgotten : Credentials := ⟨[], []⟩

/-- What the CGIs of the setup page ask of the main loop. -/
inductive Request
  | provision (slot : Int) (c : Credentials)
  | forget

/-- The operations of the application task. -/
inductive Op
  | apDown
  | apUp
  | staRoleUp
  | issueConnect (c : Credentials)
  | staDown
  | clearIp
  | staNetifDown
  | wlanScan
  | scanWait
  | join (cands : List Credentials)
  | await (c : Credentials) (cands : List Credentials) (attempts : Nat)
  | attempted (c : Credentials) (cands : List Credentials) (attempts : Nat)
  | decide (c : Credentials) (cands : List Credentials)
  | pollRequests
  | armFallback
  | linkMaintenance
  deriving DecidableEq

/-- What lwIP calls for the station netif. -/
inductive NetifCallback
  | status (up : Bool) (addr : BitVec 32)
  | link (up : Bool)

/-- The events that `WlanStackEventHandler` tells apart. -/
inductive WlanEvent
  | connect (status : Int)
  | disconnect
  | scanResult

/-- What the surroundings answer to an operation. -/
structure Answers where
  rc : Bool
  timedOut : Bool
  now : BitVec 32
  request : Option Request
  callbacks : List NetifCallback

/-- One step: an operation of the task, a Wlan event with the callbacks that lwIP makes for
it, or a callback of lwIP on its own. -/
inductive Event
  | task (ans : Answers)
  | wlan (e : WlanEvent) (callbacks : List NetifCallback)
  | lwip (cb : NetifCallback)

/-- The state of `net_wifi.c` and the locals of `mainThread`. -/
structure Device where
  eRole : NetRole
  iIpAcquired : Bool
  bScanDone : Bool
  cred : Credentials
  retryMs : Nat
  bStaHadIp : Bool
  bNoIpTiming : Bool
  xNoIpStart : BitVec 32
  todo : List Op

namespace Device

/-- A call: its operations come before the rest. -/
def call (s : Device) (ops : List Op) : Device := { s with todo := ops ++ s.todo }

@[simp] theorem call_todo (s : Device) (ops : List Op) : (s.call ops).todo = ops ++ s.todo := rfl

@[simp] theorem call_iIpAcquired (s : Device) (ops : List Op) :
    (s.call ops).iIpAcquired = s.iIpAcquired := rfl

@[simp] theorem call_bStaHadIp (s : Device) (ops : List Op) :
    (s.call ops).bStaHadIp = s.bStaHadIp := rfl

/-! ## Callbacks and events -/

/-- `status_callback` and `link_callback`, for the station netif. -/
def callback (s : Device) : NetifCallback → Device
  | .status up addr => if up ∧ addr ≠ 0#32 then { s with iIpAcquired := true } else s
  | .link up => if up then s else { s with iIpAcquired := false }

def callbacks (s : Device) (cbs : List NetifCallback) : Device := cbs.foldl callback s

/-- The callbacks that lwIP makes in `WlanStackEventHandler`. -/
def wlanCallbacks (s : Device) (cbs : List NetifCallback) : WlanEvent → List NetifCallback
  | .connect status => if s.eRole ≠ .sta then [] else if status < 0 then [] else cbs
  | .disconnect => if s.eRole ≠ .sta then [] else cbs
  | .scanResult => []

/-- `WlanStackEventHandler`, without the scan cache. -/
def wlanStackEventHandler (s : Device) (e : WlanEvent) (cbs : List NetifCallback) : Device :=
  match e with
  | .scanResult => { s with bScanDone := true }
  | e => s.callbacks (s.wlanCallbacks cbs e)

end Device

/-! ## The functions of the task -/

/-- `NetWifiApDown`, `NetWifiApUp`, `NetWifiStaUp` and `NetWifiStaDown`. -/
def netWifiApDown : List Op := [.apDown]
def netWifiApUp : List Op := [.apUp]
def netWifiStaUp (c : Credentials) : List Op := [.staRoleUp, .issueConnect c]
def netWifiStaDown : List Op := [.staDown]

/-- `NetWifiSwitchToSta`. -/
def netWifiSwitchToSta (c : Credentials) : List Op := netWifiApDown ++ netWifiStaUp c

/-- `NetWifiScanCache`. -/
def netWifiScanCache : List Op := [.staRoleUp, .wlanScan]

namespace Device

/-- The last part of the main loop: the retry and the fallback, for a station without an IP.
`fallbackTicks` is `pdMS_TO_TICKS(WIFI_FALLBACK_MS)`. -/
def awaitIp (fallbackTicks : BitVec 32) (s : Device) (now : BitVec 32) : Device :=
  let s := { s with
    retryMs := if wifiRetryMs ≤ s.retryMs + sysTickMs then 0 else s.retryMs + sysTickMs }
  if s.bStaHadIp then s
  else if !s.bNoIpTiming then { s with bNoIpTiming := true, xNoIpStart := now }
  else if fallbackTicks ≤ now - s.xNoIpStart then
    { s with bNoIpTiming := false }.call (netWifiScanCache ++ netWifiApUp)
  else s

/-- An operation of the task. -/
def exec (fallbackTicks : BitVec 32) (s : Device) (ans : Answers) : Op → Device
  | .apDown => if s.eRole ≠ .ap then s else { s with eRole := .none }
  | .apUp => if s.eRole = .ap then s else if ans.rc then { s with eRole := .ap } else s
  | .staRoleUp => if s.eRole = .sta then s else if ans.rc then { s with eRole := .sta } else s
  | .issueConnect _ => s
  | .staDown =>
      if s.eRole ≠ .sta then s else { s with eRole := .none }.call [.clearIp, .staNetifDown]
  | .clearIp => { s with iIpAcquired := false }
  | .staNetifDown => s.callbacks ans.callbacks
  -- `net_sta_role_up` has failed exactly when the role is another one.
  | .wlanScan =>
      if s.eRole ≠ .sta then s
      else { s with bScanDone := false }.call
        (if ans.rc then .scanWait :: netWifiStaDown else netWifiStaDown)
  | .scanWait => if s.bScanDone ∨ ans.timedOut then s else s.call [.scanWait]
  | .join [] => { s with cred := .forgotten }.call (netWifiScanCache ++ netWifiApUp)
  | .join (c :: cands) => s.call (netWifiStaUp c ++ [.await c cands wifiMaxAttempts])
  | .await c cands attempts =>
      if s.iIpAcquired ∨ ans.timedOut then s.call [.attempted c cands attempts]
      else s.call [.await c cands attempts]
  | .attempted c cands attempts =>
      if s.iIpAcquired ∨ attempts ≤ 1 then s.call [.decide c cands]
      else s.call [.await c cands (attempts - 1)]
  | .decide c cands =>
      if s.iIpAcquired then { s with cred := c.adopt }
      else if cands = [] then s.call [.join []]
      else s.call (netWifiStaDown ++ [.join cands])
  | .pollRequests =>
      match ans.request with
      | none => s
      | some (.provision slot c) =>
          if slot = 0 then
            { s with cred := c.adopt }.call (netWifiSwitchToSta c.adopt ++ [Op.armFallback])
          else s
      | some .forget => { s with cred := .forgotten }.call (netWifiScanCache ++ netWifiApUp)
  | .armFallback => { s with retryMs := 0, bStaHadIp := false, bNoIpTiming := false }
  | .linkMaintenance =>
      if s.eRole = .ap then s
      else if s.iIpAcquired then { s with bStaHadIp := true, bNoIpTiming := false }
      else s.awaitIp fallbackTicks ans.now

/-- One step.  A task with nothing left to do begins the main loop again. -/
def step (fallbackTicks : BitVec 32) (s : Device) : Event → Device
  | .wlan e cbs => s.wlanStackEventHandler e cbs
  | .lwip cb => s.callback cb
  | .task ans =>
      match s.todo with
      | [] => { s with todo := [.pollRequests, .linkMaintenance] }
      | op :: todo => exec fallbackTicks { s with todo := todo } ans op

/-- After the driver is started, with the ranked candidates: a scan if any slot is stored, then
the candidates in turn. -/
def atBoot (stored : Bool) (cands : List Credentials) : Device where
  eRole := .none
  iIpAcquired := false
  bScanDone := false
  cred := .forgotten
  retryMs := 0
  bStaHadIp := false
  bNoIpTiming := false
  xNoIpStart := 0#32
  todo := (if stored then netWifiScanCache else []) ++ [.join cands]

end Device

end HomeAuto.Wifi
