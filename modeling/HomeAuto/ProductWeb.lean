import HomeAuto.HaMqtt

/-!
# Web requests that drive the outputs (`product_web.c`)

The three CGI handlers behind the control page: a timed pulse, a relay command and
a shutter command.  Each returns the page to show; only their effect on the outputs
is modelled here.
-/

namespace HomeAuto

/-- The command of `/relayset.cgi`: `on`, `off`, anything else toggles. -/
def relaySetCmd (value : CStr) : OutCmd :=
  if charAt value 0 = 111 then (if charAt value 1 = 110 then .on else .off) else .toggle

/-- The command of `/cover.cgi`, by its first byte. -/
def coverCmd (value : CStr) : Option ShCmd :=
  if charAt value 0 = 117 then some .up
  else if charAt value 0 = 100 then some .down
  else if charAt value 0 = 115 then some .stop
  else if charAt value 0 = 99 then some .toggle
  else none

namespace Hub

variable (palStrToUl : StrToUl)

/-- The duration a `/relaypulse.cgi` request asks for. -/
def relayPulseMs (params : CgiParams) : Nat :=
  pulseDuration
    (match findCGIParameter (ascii "ms") params with
      | some ms => palStrToUl ms 10
      | none => 0#32)

/-- `RelayPulseCGIHandler`. -/
def relayPulseCGIHandler (h : Hub) (params : CgiParams) : Hub :=
  match findCGIParameter (ascii "relay") params with
  | none => h
  | some relay =>
      if pulseMaxMs < relayPulseMs palStrToUl params ∨
          h.chain.relayChainCount ≤ (palStrToUl relay 10).toNat then h
      else h.relayPulseStart (palStrToUl relay 10).toInt (relayPulseMs palStrToUl params)

/-- `CoverCGIHandler`. -/
def coverCGIHandler (h : Hub) (params : CgiParams) : Hub :=
  match findCGIParameter (ascii "sh") params, findCGIParameter (ascii "cmd") params with
  | some sh, some cmd =>
      match coverCmd cmd with
      | none => h
      | some eCmd => h.outputCtrlShutter (palStrToUl sh 10).toInt eCmd
  | _, _ => h

/-- `RelaySetCGIHandler`. -/
def relaySetCGIHandler (h : Hub) (params : CgiParams) : Hub :=
  match findCGIParameter (ascii "relay") params, findCGIParameter (ascii "cmd") params with
  | some relay, some cmd =>
      if h.chain.relayChainCount ≤ (palStrToUl relay 10).toNat then h
      else h.outputCtrlCommand (palStrToUl relay 10).toInt (relaySetCmd cmd)
  | _, _ => h

end Hub

end HomeAuto
