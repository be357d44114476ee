import HomeAuto.MqttApp
import HomeAuto.ProductWeb
import HomeAuto.RoomCfgRequest

/-!
# Saving the I/O page (`iocfg.shtml`)

The script of the page keeps the output settings in variables, and `doSaveNamesAndSubmit`
sends them in three requests: `/outcfg.cgi`, then `/roomcfg.cgi`, and last the form itself
to `/iocfg.cgi`, which carries the device counts.  A request reaches its handler if its
first line goes into the request buffer.
-/

namespace HomeAuto

/-! ## Requests -/

/-- A query of `name=value` pairs. -/
def queryText (fields : List (CStr × CStr)) : CStr :=
  [38].intercalate (fields.map fun f => f.1 ++ 61 :: f.2)

/-- `extract_uri_parameters`: pairs end at `&`, names at the first `=`. -/
def extractUriParameters (query : CStr) : CgiParams :=
  (query.splitOn 38).map fun pair => (pair.takeWhile (· ≠ 61), (pair.dropWhile (· ≠ 61)).drop 1)

/-- `LWIP_HTTPD_MAX_REQ_LENGTH`. -/
def httpdMaxReqLength : Nat := 2048

/-- The line `GET <uri>?<query> HTTP/1.1`, with its line end, goes into the buffer of
`http_parse_request`. -/
def RequestFits (uri : CStr) (fields : List (CStr × CStr)) : Prop :=
  (ascii "GET " ++ (uri ++ 63 :: (queryText fields ++ ascii " HTTP/1.1\r\n"))).length ≤
    httpdMaxReqLength

instance (uri : CStr) (fields : List (CStr × CStr)) : Decidable (RequestFits uri fields) :=
  inferInstanceAs (Decidable (_ ≤ _))

/-- The handler reads the pairs that the page sent. -/
theorem extractUriParameters_queryText {fields : List (CStr × CStr)} (hne : fields ≠ [])
    (hname : ∀ n ∈ fields.map Prod.fst, 38 ∉ n ∧ 61 ∉ n)
    (hvalue : ∀ v ∈ fields.map Prod.snd, 38 ∉ v) :
    extractUriParameters (queryText fields) = fields := by
  have hname := fun f hf => hname _ (List.mem_map_of_mem (f := Prod.fst) (a := f) hf)
  have hvalue := fun f hf => hvalue _ (List.mem_map_of_mem (f := Prod.snd) (a := f) hf)
  have hsplit : (queryText fields).splitOn 38 = fields.map fun f => f.1 ++ 61 :: f.2 := by
    refine List.splitOn_intercalate _ (fun l hl => ?_) (by simpa using hne)
    obtain ⟨f, hf, rfl⟩ := List.mem_map.mp hl
    simp [(hname f hf).1, hvalue f hf]
  rw [extractUriParameters, hsplit, List.map_map]
  conv_rhs => rw [← List.map_id fields]
  refine List.map_congr_left fun f hf => ?_
  have hwhile : ∀ c ∈ f.1, decide (c ≠ 61) = true := fun c hc => decide_eq_true fun h =>
    (hname f hf).2 (h ▸ hc)
  have hpair : (f.1 ++ 61 :: f.2).takeWhile (· ≠ 61) = f.1 ∧
      ((f.1 ++ 61 :: f.2).dropWhile (· ≠ 61)).drop 1 = f.2 := by
    rw [List.takeWhile_append_of_pos hwhile, List.dropWhile_append_of_pos hwhile]
    simp
  exact Prod.ext hpair.1 hpair.2

/-! ## The model of the page -/

/-- The UTF-16 units of a character. -/
def utf16Units (c : Char) : Nat := if c.toNat < 0x10000 then 1 else 2

/-- What a text field of the page holds: at most 11 UTF-16 units (`maxlength`), so
`substring(0,11)` changes nothing. -/
abbrev FieldText := { s : List Char // (s.map utf16Units).sum ≤ 11 }

/-- An element of `SH`.  `room` is `none` for an unassigned shutter. -/
structure PageShutter where
  up : Nat
  down : Nat
  travel : Nat
  name : FieldText
  room : Option (Fin cfgMaxRooms)

/-- The variables of the script: `R`, `OM`, `OT`, `SH`, `ROOMS`, `OR`, and the fields of the
form. -/
structure IoPage where
  relay : Nat
  om : Nat → Bool
  ot : Nat → Nat
  sh : List PageShutter
  roomNames : Nat → FieldText
  outRoom : Nat → Option (Fin cfgMaxRooms)
  form : List (CStr × CStr)

/-- `s.up!==s.down&&s.up<R*8&&s.down<R*8`. -/
def PageShutter.Valid (relay : Nat) (s : PageShutter) : Prop :=
  s.up ≠ s.down ∧ s.up < relay * 8 ∧ s.down < relay * 8

instance (relay : Nat) (s : PageShutter) : Decidable (s.Valid relay) :=
  inferInstanceAs (Decidable (_ ∧ _ ∧ _))

/-- `v||dflt`. -/
def jsOr (v dflt : Nat) : Nat := if v = 0 then dflt else v

/-- `(q>=0&&q<NROOMS)?q:255`. -/
def roomArg (q : Option (Fin cfgMaxRooms)) : Nat :=
  match q with
  | some q => q.val
  | none => 255

/-- A shutter as `outCfgQuery` prints it. -/
def PageShutter.sent (s : PageShutter) : SentShutter where
  up := s.up
  down := s.down
  travel := jsOr s.travel 20000
  enc := queryName s.name.val

namespace IoPage

/-- The shutters that the queries include. -/
def validShutters (p : IoPage) : List PageShutter := p.sh.filter (·.Valid p.relay)

/-- `outCfgQuery`. -/
def outCfgQuery (p : IoPage) : List (CStr × CStr) :=
  [(ascii "modes", (List.range (p.relay * 8)).map fun i => if p.om i then 49 else 48),
   (ascii "tmo", [44].intercalate
     ((List.range (p.relay * 8)).map fun i => fmtDecimal (jsOr (p.ot i) 1000))),
   (ascii "sh", [59].intercalate ((p.validShutters.map PageShutter.sent).map SentShutter.text))]

/-- `roomCfgQuery`. -/
def roomCfgQuery (p : IoPage) : List (CStr × CStr) :=
  [(ascii "rooms", [59].intercalate
     ((List.range cfgMaxRooms).map fun i => queryName (p.roomNames i).val)),
   (ascii "outr", [44].intercalate
     (((List.range (p.relay * 8)).map fun i => roomArg (p.outRoom i)).map fmtDecimal)),
   (ascii "shr", [44].intercalate
     ((p.validShutters.map fun s => roomArg s.room).map fmtDecimal))]

end IoPage

/-! ## The save -/

/-- The output controller, and the records that the requests change. -/
structure WebState where
  panel : OutPanel
  rooms : RoomRecord

namespace WebState

/-- A request of the page; one that does not fit reaches no handler. -/
def fetch (s : WebState) (uri : CStr) (fields : List (CStr × CStr))
    (handler : CgiParams → WebState) : WebState :=
  if RequestFits uri fields then handler (extractUriParameters (queryText fields)) else s

/-- `/outcfg.cgi`. -/
def fetchOutCfg (s : WebState) (p : IoPage) : WebState :=
  s.fetch (ascii "/outcfg.cgi") p.outCfgQuery fun params =>
    { s with panel := s.panel.outCfgCGIHandler params }

/-- `/roomcfg.cgi`. -/
def fetchRoomCfg (s : WebState) (p : IoPage) : WebState :=
  s.fetch (ascii "/roomcfg.cgi") p.roomCfgQuery fun params =>
    { s with rooms := s.rooms.roomCfgCGIHandler params }

/-- The submission of the form to `/iocfg.cgi`.  Of its effects the device counts are the
one on this state; the relay chain follows them later. -/
def submitFields (palStrToUl : StrToUl) (s : WebState) (form : List (CStr × CStr)) : WebState :=
  s.fetch (ascii "/iocfg.cgi") form fun params =>
    { s with
      panel.hub.ioDevices := HaMqtt.setRelayParam palStrToUl
        (HaMqtt.setDinParam palStrToUl s.panel.hub.ioDevices params) params }

def submitForm (palStrToUl : StrToUl) (s : WebState) (p : IoPage) : WebState :=
  s.submitFields palStrToUl p.form

/-- `doSaveNamesAndSubmit`, after the names. -/
def savePage (palStrToUl : StrToUl) (s : WebState) (p : IoPage) : WebState :=
  ((s.fetchOutCfg p).fetchRoomCfg p).submitForm palStrToUl p

theorem submitFields_out (palStrToUl : StrToUl) (s : WebState) (form : List (CStr × CStr)) :
    (s.submitFields palStrToUl form).panel.out = s.panel.out ∧
      (s.submitFields palStrToUl form).rooms = s.rooms := by
  unfold submitFields fetch
  split <;> exact ⟨rfl, rfl⟩

theorem submitForm_out (palStrToUl : StrToUl) (s : WebState) (p : IoPage) :
    (s.submitForm palStrToUl p).panel.out = s.panel.out ∧
      (s.submitForm palStrToUl p).rooms = s.rooms := s.submitFields_out palStrToUl p.form

end WebState

end HomeAuto
