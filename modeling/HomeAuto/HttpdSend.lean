import HomeAuto.CStrings
import HomeAuto.Lib.Template

/-!
# The sending half of the web server (`httpd.c`)

`http_send_data` is called whenever TCP may take more of a response: when the request has been
parsed, when earlier data has been acknowledged, and from the poll timer.  It sends the header
strings, then the file; in an `.shtml` file it looks for tags on the way, and sends for each of
them what the SSI handler inserts.

TCP is a parameter: a write may be accepted, refused for want of memory, or fail, in any order.
`fs_open` hands out files that lie in memory as a whole (`index = len`), so the branch that
reads a further block from the file is never taken, and is left out.
-/

namespace HomeAuto.Httpd

/-! ## TCP -/

/-- The results of `tcp_write` that `httpd.c` tells apart. -/
inductive Err where
  | ok
  | mem
  | other
deriving DecidableEq

/-- What the server asks of TCP.  `queueFull` is `tcp_sndqueuelen(pcb) >= TCP_SND_QUEUELEN`, and
`write` is the answer to a write of some bytes. -/
structure Tcp (σ : Type) where
  mss : σ → Nat
  sndbuf : σ → Nat
  queueFull : σ → Bool
  write : σ → CStr → Err × σ

/-- A connection: the state of TCP, and the bytes which it has accepted. -/
structure Pcb (σ : Type) where
  tcp : σ
  stream : CStr

variable {σ : Type} (T : Tcp σ)

/-- `tcp_write`: accepted bytes join the stream. -/
def tcpWrite (pcb : Pcb σ) (bytes : CStr) : Err × Pcb σ :=
  let answer := T.write pcb.tcp bytes
  (answer.1, ⟨answer.2, if answer.1 = .ok then pcb.stream ++ bytes else pcb.stream⟩)

/-- What `http_write` leaves: its result, the length it settled for, and the connection. -/
structure Written (σ : Type) where
  err : Err
  len : Nat
  pcb : Pcb σ

/-- What `http_write` tries when `len` bytes were too many. -/
def lessThan (pcb : Pcb σ) (len : Nat) : Nat :=
  if T.sndbuf pcb.tcp = 0 ∨ T.queueFull pcb.tcp then 1 else len / 2

/-- The loop of `http_write`, which tries smaller and smaller lengths; `fuel` exceeds `len`. -/
def httpWriteLoop (ptr : CStr) : Nat → Pcb σ → Nat → Written σ
  | 0, pcb, len => ⟨.mem, len, pcb⟩
  | fuel + 1, pcb, len =>
      let w := tcpWrite T pcb (ptr.take len)
      if w.1 = .mem then
        let less := lessThan T w.2 len
        if 1 < less then httpWriteLoop ptr fuel w.2 less else ⟨.mem, less, w.2⟩
      else ⟨w.1, len, w.2⟩

/-- `http_write`. -/
def httpWrite (pcb : Pcb σ) (ptr : CStr) (len : Nat) : Written σ :=
  httpWriteLoop T ptr (len + 1) pcb len

/-! ## The site -/

/-- `LWIP_HTTPD_MAX_TAG_INSERT_LEN`. -/
def httpdMaxTagInsertLen : Nat := 800

/-- The tags and the SSI handler.  The handler may answer differently each time it is asked;
`maxTagName` is `LWIP_HTTPD_MAX_TAG_NAME_LEN`, which a header outside the repository sets. -/
structure Site where
  maxTagName : Nat
  tags : List CStr
  ssiHandler : Nat → Nat → CStr
  ssiHandler_le : ∀ asked index, (ssiHandler asked index).length ≤ httpdMaxTagInsertLen

def unknownTag1Text : CStr := ascii "<b>***UNKNOWN TAG "
def unknownTag2Text : CStr := ascii "***</b>"

/-- `get_tag_insert`: the handler's text for a tag of the table, else an error marker. -/
def getTagInsert (site : Site) (asked : Nat) (tagName : CStr) : CStr :=
  match site.tags.findIdx? (· = tagName) with
  | some loop => site.ssiHandler asked loop
  | none =>
      unknownTag1Text ++
        (tagName.take (httpdMaxTagInsertLen - (unknownTag1Text.length + unknownTag2Text.length)) ++
          unknownTag2Text)

def isTagBlank (c : UInt8) : Bool := c = 32 || c = 9 || c = 10 || c = 13

/-- `g_pcTagLeadIn` and `g_pcTagLeadOut`. -/
def pcTagLeadIn : CStr := ascii "<!--#"
def pcTagLeadOut : CStr := ascii "-->"

/-- What the tag parser looks for. -/
def tagMarks (maxTagName : Nat) : Template.Marks UInt8 where
  leadIn := pcTagLeadIn
  leadOut := pcTagLeadOut
  blank := isTagBlank
  maxName := maxTagName
  leadIn_ne := by decide
  leadOut_ne := by decide
  leadOut_visible c hc := by
    obtain rfl : 45 = c := Option.some.inj hc
    rfl

/-! ## The state of a connection -/

inductive TagState where
  | none
  | leadIn
  | found
  | leadOut
  | sending
deriving DecidableEq

/-- `NUM_FILE_HDR_STRINGS`. -/
def numFileHdrStrings : Nat := 3

/-- `HTTPD_MAX_RETRIES`. -/
def httpdMaxRetries : Nat := 4

/-- A file of the web site; the server counts its bytes in 16 bits. -/
structure Page where
  data : CStr
  length_lt : data.length < 65536

/-- `struct http_state`, once a file is being sent.  Pointers into the file are offsets, and
`asked` counts the calls of the SSI handler. -/
structure HttpState where
  handle : Page
  file : Nat
  left : Nat
  retries : Nat
  parsed : Nat
  tagStarted : Nat
  tagEnd : Nat
  parseLeft : Nat
  tagIndex : Nat
  tagCheck : Bool
  tagName : CStr
  tagInsert : CStr
  tagState : TagState
  hdrs : List CStr
  hdrPos : Nat
  hdrIndex : Nat
  asked : Nat

/-- `http_init_file`, with the header strings that `get_http_headers` chose; there are none when
the file brings its own header, or its name has no extension. -/
def httpInitFile (page : Page) (tagCheck : Bool) (hdrs : Option (List CStr)) : HttpState where
  handle := page
  file := 0
  left := page.data.length
  retries := 0
  parsed := 0
  tagStarted := 0
  tagEnd := 0
  parseLeft := page.data.length
  tagIndex := 0
  tagCheck := tagCheck
  tagName := []
  tagInsert := []
  tagState := .none
  hdrs := hdrs.getD []
  hdrPos := 0
  hdrIndex := if hdrs.isSome then 0 else numFileHdrStrings
  asked := 0

/-- The local variables of `http_send_data`. -/
structure Sending (σ : Type) where
  hs : HttpState
  pcb : Pcb σ
  len : Nat
  err : Err

/-! ## Sending the headers -/

/-- `sendlen` more bytes of a header string of `hdrlen` bytes are sent. -/
def HttpState.headerSent (hs : HttpState) (hdrlen sendlen : Nat) : HttpState :=
  if hs.hdrPos + sendlen = hdrlen then { hs with hdrIndex := hs.hdrIndex + 1, hdrPos := 0 }
  else { hs with hdrPos := hs.hdrPos + sendlen }

namespace Sending

/-- `len = tcp_sndbuf(pcb)`. -/
def asking (x : Sending σ) : Sending σ := { x with len := T.sndbuf x.pcb.tcp }

/-- The header string that is being sent. -/
def hdr (x : Sending σ) : CStr := x.hs.hdrs.getD x.hs.hdrIndex []

/-- How much to send of a header string. -/
def lenOfHeader (x : Sending σ) : Nat :=
  if x.len < x.hdr.length - x.hs.hdrPos then x.len else x.hdr.length - x.hs.hdrPos

/-- `http_write(pcb, ptr, &sendlen, ..)`. -/
def httpWriteHeader (x : Sending σ) : Written σ :=
  httpWrite T x.pcb (x.hdr.drop x.hs.hdrPos) x.lenOfHeader

/-- How much was sent of a header string. -/
def sendlen (x : Sending σ) : Nat :=
  if (x.httpWriteHeader T).err = .ok then (x.httpWriteHeader T).len else 0

/-- One pass of the loop over the header strings. -/
def passHeader (x : Sending σ) : Sending σ where
  hs := x.hs.headerSent x.hdr.length (x.sendlen T)
  pcb := (x.httpWriteHeader T).pcb
  len := x.len - x.sendlen T
  err := (x.httpWriteHeader T).err

/-- The loop over the header strings; every pass but the last sends something, so `fuel` need not
exceed `len`. -/
def headerLoop : Nat → Sending σ → Sending σ
  | 0, x => x
  | fuel + 1, x =>
      if x.len ≠ 0 ∧ x.hs.hdrIndex < numFileHdrStrings then
        if x.sendlen T ≠ 0 then headerLoop fuel (x.passHeader T) else x.passHeader T
      else x

/-- The header part of `http_send_data`. -/
def sendHeaders (x : Sending σ) : Sending σ :=
  (x.asking T).headerLoop T (T.sndbuf x.pcb.tcp)

end Sending

/-! ## Sending the file -/

/-- `hs->file += len; hs->left -= len`. -/
def HttpState.fileSent (hs : HttpState) (len : Nat) : HttpState :=
  { hs with file := hs.file + len, left := hs.left - len }

/-- The last byte of a tag is read: its insert is fetched, to be sent in the place of it. -/
def HttpState.tagSeen (site : Site) (hs : HttpState) : HttpState :=
  { hs with
    parseLeft := hs.parseLeft - 1
    parsed := hs.tagStarted
    tagEnd := hs.parsed + 1
    tagIndex := 0
    tagState := .sending
    tagInsert := getTagInsert site hs.asked hs.tagName
    asked := hs.asked + 1 }

/-- `hs->tag_index += len`. -/
def HttpState.insertSent (hs : HttpState) (len : Nat) : HttpState :=
  { hs with tagIndex := hs.tagIndex + len }

/-- All of an insert is sent, and the parser goes back to looking for a tag. -/
def HttpState.insertDone (hs : HttpState) : HttpState :=
  { hs with tagIndex := 0, tagState := .none, parsed := hs.tagEnd }

namespace Sending

/-- `http_write(pcb, hs->file, &len, ..)`. -/
def httpWriteFile (x : Sending σ) (len : Nat) : Written σ :=
  httpWrite T x.pcb (x.hs.handle.data.drop x.hs.file) len

/-- `http_write` from the file, and what follows it when it succeeds; `skipped` are bytes of the
file that count as sent with it. -/
def writeFile (x : Sending σ) (len skipped : Nat) : Sending σ :=
  if (x.httpWriteFile T len).err = .ok then
    { hs := x.hs.fileSent (((x.httpWriteFile T len).len + skipped) % 65536)
      pcb := (x.httpWriteFile T len).pcb
      len := ((x.httpWriteFile T len).len + skipped) % 65536
      err := .ok }
  else
    { x with
      pcb := (x.httpWriteFile T len).pcb
      len := (x.httpWriteFile T len).len
      err := (x.httpWriteFile T len).err }

/-- How many of `rest` bytes to write: as far as the send buffer and two segments go. -/
def roomFor (pcb : Pcb σ) (rest : Nat) : Nat :=
  let len := if T.sndbuf pcb.tcp < rest then T.sndbuf pcb.tcp else rest
  if 2 * T.mss pcb.tcp < len then 2 * T.mss pcb.tcp else len

/-- Sends what is parsed and unsent, as far as TCP has room: the code before the parsing loop,
and again behind it. -/
def writeParsed (x : Sending σ) : Sending σ :=
  x.writeFile T (roomFor T x.pcb (x.hs.parsed - x.hs.file)) 0

/-- The byte `*hs->parsed`. -/
def char (x : Sending σ) : UInt8 := x.hs.handle.data.getD x.hs.parsed 0

/-- `hs->parse_left--; hs->parsed++`, into a state of the tag parser. -/
def advance (x : Sending σ) (tagState : TagState) (tagIndex : Nat) : Sending σ :=
  { x with
    hs :=
      { x.hs with
        parseLeft := x.hs.parseLeft - 1
        parsed := x.hs.parsed + 1
        tagState := tagState
        tagIndex := tagIndex } }

/-- How much to send of the file in front of a tag. -/
def lenBeforeTag (x : Sending σ) : Nat :=
  if x.hs.tagStarted - x.hs.file < x.len then x.hs.tagStarted - x.hs.file else x.len

/-- What counts as sent, the tag itself, once nothing is left in front of it. -/
def skippedTag (x : Sending σ) : Nat :=
  if x.hs.tagStarted ≤ x.hs.file then x.hs.tagEnd - x.hs.tagStarted else 0

/-- The file in front of a tag is sent, and then the tag counts as sent; `empty` says whether
`http_write` is called for no bytes at all. -/
def writeBeforeTag (x : Sending σ) (empty : Bool) : Sending σ :=
  if x.lenBeforeTag ≠ 0 ∨ empty then x.writeFile T x.lenBeforeTag x.skippedTag
  else
    { x with hs := x.hs.fileSent (x.skippedTag % 65536), len := x.skippedTag % 65536, err := .ok }

/-- `case TAG_NONE`. -/
def passNone (x : Sending σ) : Sending σ :=
  if x.char = charAt pcTagLeadIn 0 then
    { x with hs := { x.hs with tagStarted := x.hs.parsed } }.advance .leadIn 1
  else x.advance .none x.hs.tagIndex

/-- `case TAG_LEADIN`. -/
def passLeadIn (x : Sending σ) : Sending σ :=
  if x.hs.tagIndex = pcTagLeadIn.length then
    { x with hs := { x.hs with tagIndex := 0, tagState := .found } }
  else if x.char = charAt pcTagLeadIn x.hs.tagIndex then x.advance .leadIn (x.hs.tagIndex + 1)
  else x.advance .none x.hs.tagIndex

/-- `case TAG_FOUND`. -/
def passFound (site : Site) (x : Sending σ) : Sending σ :=
  if x.hs.tagIndex = 0 ∧ isTagBlank x.char then x.advance .found 0
  else if x.char = charAt pcTagLeadOut 0 ∨ isTagBlank x.char then
    if x.hs.tagIndex = 0 then x.advance .none 0
    else
      { x with hs := { x.hs with tagName := x.hs.tagName.take x.hs.tagIndex } }.advance .leadOut
        (if x.char = charAt pcTagLeadOut 0 then 1 else 0)
  else if x.hs.tagIndex < site.maxTagName then
    { x with
      hs := { x.hs with tagName := x.hs.tagName.take x.hs.tagIndex ++ [x.char] } }.advance .found
      (x.hs.tagIndex + 1)
  else x.advance .none x.hs.tagIndex

/-- `case TAG_LEADOUT`. -/
def passLeadOut (site : Site) (x : Sending σ) : Sending σ :=
  if x.hs.tagIndex = 0 ∧ isTagBlank x.char then x.advance .leadOut 0
  else if x.char = charAt pcTagLeadOut x.hs.tagIndex then
    if x.hs.tagIndex = pcTagLeadOut.length - 1 then
      let y := { x with hs := x.hs.tagSeen site }
      if y.hs.file < y.hs.tagEnd then y.writeBeforeTag T true else y
    else x.advance .leadOut (x.hs.tagIndex + 1)
  else x.advance .none x.hs.tagIndex

/-- How much to send of an insert. -/
def lenOfInsert (x : Sending σ) : Nat :=
  if x.hs.tagInsert.length - x.hs.tagIndex < x.len then x.hs.tagInsert.length - x.hs.tagIndex
  else x.len

/-- `http_write(pcb, &(hs->tag_insert[hs->tag_index]), &len, ..)`. -/
def httpWriteInsert (x : Sending σ) : Written σ :=
  httpWrite T x.pcb (x.hs.tagInsert.drop x.hs.tagIndex) x.lenOfInsert

/-- `http_write` from the insert, and what follows it when it succeeds. -/
def writeInsert (x : Sending σ) : Sending σ :=
  if (x.httpWriteInsert T).err = .ok then
    { hs := x.hs.insertSent (x.httpWriteInsert T).len
      pcb := (x.httpWriteInsert T).pcb
      len := (x.httpWriteInsert T).len
      err := .ok }
  else
    { x with
      pcb := (x.httpWriteInsert T).pcb
      len := (x.httpWriteInsert T).len
      err := (x.httpWriteInsert T).err }

/-- `case TAG_SENDING`. -/
def passSending (x : Sending σ) : Sending σ :=
  if x.hs.file < x.hs.tagEnd then x.writeBeforeTag T false
  else if x.hs.tagIndex < x.hs.tagInsert.length then x.writeInsert T
  else { x with hs := x.hs.insertDone }

/-- One pass of the parsing loop. -/
def pass (site : Site) (x : Sending σ) : Sending σ :=
  match x.hs.tagState with
  | .none => x.passNone
  | .leadIn => x.passLeadIn
  | .found => x.passFound site
  | .leadOut => x.passLeadOut T site
  | .sending => x.passSending T

/-- The parsing loop; the flag tells that `http_send_data` returns from inside it. -/
def loop (site : Site) : Nat → Sending σ → Sending σ × Bool
  | 0, x => (x, false)
  | fuel + 1, x =>
      if x.hs.parseLeft = 0 ∨ x.err ≠ .ok then (x, false)
      else if x.len = 0 then (x, true)
      else loop site fuel (x.pass T site)

/-- More passes than the parsing loop can take. -/
def fuel (x : Sending σ) : Nat :=
  (x.hs.parseLeft + 1) * (x.hs.handle.data.length + httpdMaxTagInsertLen + 3)

/-- The part of `http_send_data` for a file without tags. -/
def sendPlain (x : Sending σ) : Sending σ :=
  x.writeFile T (roomFor T x.pcb x.hs.left) 0

/-- What is parsed and unsent is sent before more is parsed. -/
def firstWrite (x : Sending σ) : Sending σ :=
  if x.hs.file < x.hs.parsed then (x.asking T).writeParsed T else x.asking T

/-- What follows the parsing loop, unless `http_send_data` returns from inside it. -/
def afterLoop (x : Sending σ) : Sending σ :=
  if x.hs.tagState ≠ .sending ∧ x.hs.file < x.hs.parsed then x.writeParsed T else x

/-- The part of `http_send_data` for a file with tags; the flag tells that the function returns
without looking whether it is done. -/
def sendTagged (site : Site) (x : Sending σ) : Sending σ × Bool :=
  let y := x.firstWrite T
  if x.hs.file < x.hs.parsed ∧ T.sndbuf y.pcb.tcp = 0 then (y, true)
  else
    let z := y.loop T site y.fuel
    if z.2 then z else (z.1.afterLoop T, false)

end Sending

/-! ## The connection -/

/-- Why `http_close_conn` or `http_err` ended a connection. -/
inductive Ending where
  | endOfFile
  | tooManyRetries
  | peer
  | error
deriving DecidableEq

/-- A connection whose request has been answered with a file. -/
inductive Conn (σ : Type) where
  | open_ (hs : HttpState) (pcb : Pcb σ)
  | closed (why : Ending) (stream : CStr)

/-- The part of `http_send_data` for a file. -/
def Sending.sendFile (site : Site) (x : Sending σ) : Sending σ × Bool :=
  if x.hs.tagCheck then x.sendTagged T site else (x.sendPlain T, false)

/-- `http_send_data` behind the headers. -/
def httpSendFile (site : Site) (x : Sending σ) : Conn σ :=
  if x.hs.left = 0 then .closed .endOfFile x.pcb.stream
  else
    let y := x.sendFile T site
    if y.2 = false ∧ y.1.hs.left = 0 then .closed .endOfFile y.1.pcb.stream
    else .open_ y.1.hs y.1.pcb

/-- What `http_send_data` does first: it sends header strings if there are any left. -/
def Sending.begin (hs : HttpState) (pcb : Pcb σ) : Sending σ :=
  if hs.hdrIndex < numFileHdrStrings then (⟨hs, pcb, 0, .ok⟩ : Sending σ).sendHeaders T
  else ⟨hs, pcb, 0, .ok⟩

/-- `http_send_data`.  Its result, whether `tcp_output` is worth a call, is left out. -/
def httpSendData (site : Site) (hs : HttpState) (pcb : Pcb σ) : Conn σ :=
  let x := Sending.begin T hs pcb
  if x.hs.hdrIndex < numFileHdrStrings then .open_ x.hs x.pcb else httpSendFile T site x

/-- What the server hears of a connection.  Between two calls TCP may get into any state. -/
inductive Event (σ : Type) where
  | sent (tcp : σ)
  | poll (tcp : σ)
  | received
  | hungUp
  | error

/-- `http_sent`, `http_poll`, `http_recv` while a file is being sent, `http_recv` without data,
and `http_err`. -/
def Conn.step (site : Site) (c : Conn σ) (e : Event σ) : Conn σ :=
  match c, e with
  | .closed why stream, _ => .closed why stream
  | .open_ hs pcb, .sent tcp => httpSendData T site { hs with retries := 0 } ⟨tcp, pcb.stream⟩
  | .open_ hs pcb, .poll tcp =>
      if hs.retries + 1 = httpdMaxRetries then .closed .tooManyRetries pcb.stream
      else httpSendData T site { hs with retries := hs.retries + 1 } ⟨tcp, pcb.stream⟩
  | .open_ hs pcb, .received => .open_ hs pcb
  | .open_ _ pcb, .hungUp => .closed .peer pcb.stream
  | .open_ _ pcb, .error => .closed .error pcb.stream

/-- The bytes that TCP has accepted. -/
def Conn.stream : Conn σ → CStr
  | .open_ _ pcb => pcb.stream
  | .closed _ stream => stream

end HomeAuto.Httpd
