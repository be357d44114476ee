import HomeAuto.HttpdCalls
import HomeAuto.Lib.Runs

/-!
# The pages that clients get

Over any run of a connection, with TCP answering as it likes, the bytes that TCP has accepted are
a beginning of the headers and the expanded page, and the insert of a tag at the very end of the
page is never among them (`stream_unsent`).  A connection that was closed at the end of the file
has delivered all the rest (`endOfFile_stream`).
-/

namespace HomeAuto.Httpd

open Template

variable {σ : Type} {T : Tcp σ} {site : Site}

/-- What a tag at the very end of a page becomes. -/
def lastInsert (site : Site) (page : Page) (tagCheck : Bool) : CStr :=
  if tagCheck then (tagMarks site.maxTagName).lastInsert site.insert page.data else []

/-! ## What is unsent at the end -/

/-- The insert of a tag at the very end of the page is unsent wherever the parser stops. -/
theorem unsentBody_ends {hs : HttpState} (hsound : hs.Sound site) (htag : hs.tagCheck = true) :
    ∃ front, hs.unsentBody site = front ++ lastInsert site hs.handle true := by
  have hrest {k : Nat} (hk : k < hs.handle.data.length) {s : Seen UInt8}
      (hs' : Marks.idle ((tagMarks site.maxTagName).scan .text (hs.handle.data.take k)) = s)
      (hne : ∀ name, s ≠ .tag name) (hcount : hs.asked =
        ((tagMarks site.maxTagName).tags .text (hs.handle.data.take k)).length) (held : CStr) :
      ∃ front, (tagMarks site.maxTagName).expand site.insert hs.asked s held
        (hs.handle.data.drop k) = front ++ lastInsert site hs.handle true := by
    have hdrop : hs.handle.data.drop k ≠ [] := fun h => by
      have := List.drop_eq_nil_iff.mp h
      omega
    have hscan : (tagMarks site.maxTagName).scan s (hs.handle.data.drop k) =
        (tagMarks site.maxTagName).scan .text hs.handle.data := by
      rw [← hs', Marks.scan_idle _ hdrop, ← Marks.scan_append, List.take_append_drop]
    have htags : ((tagMarks site.maxTagName).tags .text hs.handle.data).length =
        hs.asked + ((tagMarks site.maxTagName).tags s (hs.handle.data.drop k)).length := by
      rw [hcount, ← hs', Marks.tags_idle, ← List.length_append, ← Marks.tags_append,
        List.take_append_drop]
    unfold lastInsert Marks.lastInsert
    rw [if_pos rfl]
    split
    · next name hname =>
        obtain ⟨front, hfront⟩ := Marks.expand_ends hs.asked held (hscan.trans hname) hne
        exact ⟨front, by rw [hfront, htags]⟩
    · exact ⟨_, (List.append_nil _).symm⟩
  by_cases hstate : hs.tagState = .sending
  · obtain ⟨hlt, hend, hparsed, hor⟩ := hsound.tagEnd_le hstate
    obtain ⟨name, hname, hinsert⟩ := hsound.tagged hstate
    have hcount := hsound.counted
    rw [HttpState.readTo_sending hstate] at hcount
    rw [HttpState.unsentBody_inserting _ htag hstate, HttpState.unsentInserting]
    by_cases hleft : hs.parseLeft = 0
    · have hall : hs.handle.data.take hs.tagEnd = hs.handle.data :=
        List.take_of_length_le (by omega)
      have hnone : hs.handle.data.drop hs.tagEnd = [] := List.drop_of_length_le (by omega)
      have hindex : hs.tagIndex = 0 := by
        rcases hor with h | h
        · exact h.2
        · exact h.2 hleft
      rw [hall] at hname hcount
      refine ⟨stretch hs.handle.data hs.file hs.tagStarted, ?_⟩
      rw [hindex, HttpState.rest, hnone, lastInsert, if_pos rfl, Marks.lastInsert, hname, hinsert,
        hcount, Marks.expand_nil, List.append_nil, List.drop_zero]
    · obtain ⟨front, hfront⟩ := hrest (k := hs.tagEnd) (by omega) (congrArg Marks.idle hname)
        (fun name => by simp [Marks.idle]) hcount []
      rw [HttpState.rest, Marks.idle] at *
      exact ⟨_, by rw [hfront, ← List.append_assoc, ← List.append_assoc]⟩
  · obtain ⟨hend, hfile, hheld, -⟩ := hsound.parsed_add hstate
    rw [HttpState.unsentBody_parsing _ htag hstate, HttpState.unsentParsing]
    by_cases hleft : hs.parseLeft = 0
    · have hall : hs.handle.data.take hs.parsed = hs.handle.data :=
        List.take_of_length_le (by omega)
      have hnever := hsound.untagged hstate hleft
      rw [hall] at hnever
      have hempty : lastInsert site hs.handle true = [] := by
        unfold lastInsert Marks.lastInsert
        rw [if_pos rfl]
        split
        · next name hname => exact absurd hname (hnever name)
        · rfl
      exact ⟨_, by rw [hempty, List.append_nil]⟩
    · have hcount := hsound.counted
      rw [HttpState.readTo_parsing hstate] at hcount
      obtain ⟨front, hfront⟩ := hrest (k := hs.parsed) (by omega) (hsound.scanned hstate)
        (HttpState.seen_ne_tag site hs) hcount
        (stretch hs.handle.data (max hs.file hs.heldFrom) hs.parsed)
      exact ⟨_, by rw [hfront, ← List.append_assoc]⟩

/-- Once all of the file counts as sent, only the insert of a tag at its end may be unsent. -/
theorem unsentBody_endOfFile {hs : HttpState} (hsound : hs.Sound site) (htag : hs.tagCheck = true)
    (hleft : hs.left = 0) : hs.unsentBody site = lastInsert site hs.handle true := by
  have hadd := hsound.left_add
  by_cases hstate : hs.tagState = .sending
  · obtain ⟨hlt, hend, -, hor⟩ := hsound.tagEnd_le hstate
    have hindex : hs.tagIndex = 0 := by
      rcases hor with h | h
      · exact h.2
      · exact h.2 (by omega)
    obtain ⟨name, hname, hinsert⟩ := hsound.tagged hstate
    have hcount := hsound.counted
    have hall : hs.handle.data.take hs.tagEnd = hs.handle.data :=
      List.take_of_length_le (by omega)
    have hnone : hs.handle.data.drop hs.tagEnd = [] := List.drop_of_length_le (by omega)
    have hgone : stretch hs.handle.data hs.file hs.tagStarted = [] := stretch_of_le _ (by omega)
    rw [HttpState.readTo_sending hstate, hall] at hcount
    rw [hall] at hname
    rw [HttpState.unsentBody_inserting _ htag hstate, HttpState.unsentInserting, hgone, hindex,
      HttpState.rest, hnone, lastInsert, if_pos rfl, Marks.lastInsert, hname, hinsert, hcount,
      Marks.expand_nil, List.append_nil, List.drop_zero, List.nil_append]
  · obtain ⟨hend, hfile, hheld, -⟩ := hsound.parsed_add hstate
    obtain ⟨front, hfront⟩ := unsentBody_ends hsound htag
    have hempty : hs.unsentBody site = [] := by
      rw [HttpState.unsentBody_parsing _ htag hstate,
        HttpState.unsentParsing_done hs (by omega) hfile hheld]
      exact List.drop_of_length_le (by omega)
    rw [hempty] at hfront ⊢
    exact (List.append_eq_nil_iff.mp hfront.symm).2.symm

/-! ## A whole call -/

/-- What holds of an open connection between two calls of `http_send_data`. -/
structure HttpState.Ready (site : Site) (page : Page) (tagCheck : Bool) (hs : HttpState) : Prop where
  handle : hs.handle = page
  tagCheck_eq : hs.tagCheck = tagCheck
  left_add : hs.left + hs.file = page.data.length
  parser : tagCheck = true → hs.Sound site ∧ hs.Rested
  headerOk : hs.HeaderOk

/-- The insert of a tag at the very end of the page is unsent on an open connection. -/
theorem HttpState.Ready.unsent_ends {page : Page} {tagCheck : Bool} {hs : HttpState}
    (h : hs.Ready site page tagCheck) :
    ∃ front, hs.unsent site = front ++ lastInsert site page tagCheck := by
  cases htag : tagCheck with
  | false => exact ⟨_, (List.append_nil _).symm⟩
  | true =>
      obtain ⟨front, hfront⟩ := unsentBody_ends (h.parser htag).1 (h.tagCheck_eq.trans htag)
      rw [h.handle] at hfront
      exact ⟨hs.unsentHeaders ++ front, by rw [HttpState.unsent, hfront, List.append_assoc]⟩

/-- Once the headers are sent and all of the file counts as sent, only the insert of a tag at its
end may be unsent. -/
theorem HttpState.Ready.unsent_endOfFile {page : Page} {tagCheck : Bool} {hs : HttpState}
    (h : hs.Ready site page tagCheck) (hheaders : ¬hs.hdrIndex < numFileHdrStrings)
    (hleft : hs.left = 0) : hs.unsent site = lastInsert site page tagCheck := by
  rw [HttpState.unsent, unsentHeaders_done _ hheaders, List.nil_append]
  cases htag : tagCheck with
  | false =>
      have hadd := h.left_add
      have hfalse : ¬hs.tagCheck = true := by rw [h.tagCheck_eq, htag]; simp
      rw [HttpState.unsentBody, if_neg hfalse, h.handle]
      exact List.drop_of_length_le (by omega)
  | true =>
      rw [unsentBody_endOfFile (h.parser htag).1 (h.tagCheck_eq.trans htag) hleft, h.handle]

/-- What is known of a connection that was to deliver the text `whole`. -/
inductive Conn.Serves (site : Site) (page : Page) (tagCheck : Bool) (whole : CStr) :
    Conn σ → Prop where
  | open_ (hs : HttpState) (pcb : Pcb σ) (hready : hs.Ready site page tagCheck)
      (htext : pcb.stream ++ hs.unsent site = whole) :
      Serves site page tagCheck whole (.open_ hs pcb)
  | done (stream : CStr) (htext : stream ++ lastInsert site page tagCheck = whole) :
      Serves site page tagCheck whole (.closed .endOfFile stream)
  | cut (why : Ending) (hwhy : why ≠ .endOfFile) (stream unsent : CStr)
      (htext : stream ++ (unsent ++ lastInsert site page tagCheck) = whole) :
      Serves site page tagCheck whole (.closed why stream)

section Calls

variable {page : Page} {tagCheck : Bool} {whole : CStr}

/-- What `http_send_data` sends of the file. -/
theorem sendFile_ready {x : Sending σ} (hready : x.hs.Ready site page tagCheck)
    (hheaders : ¬x.hs.hdrIndex < numFileHdrStrings) :
    (x.sendFile T site).1.hs.Ready site page tagCheck ∧
      ¬(x.sendFile T site).1.hs.hdrIndex < numFileHdrStrings ∧
      (x.sendFile T site).1.pcb.stream ++ (x.sendFile T site).1.hs.unsent site =
        x.pcb.stream ++ x.hs.unsent site := by
  have hadd := hready.left_add
  rw [← hready.handle] at hadd
  unfold Sending.sendFile
  cases htag : tagCheck with
  | false =>
      have hfalse : ¬x.hs.tagCheck = true := by rw [hready.tagCheck_eq, htag]; simp
      obtain ⟨n, hn, hhs, hstream⟩ := Sending.sendPlain_sends (T := T) hadd
      rw [if_neg hfalse]
      refine ⟨⟨by rw [hhs]; exact hready.handle, by rw [hhs, ← htag]; exact hready.tagCheck_eq, ?_,
        by simp, by rw [hhs]; exact hready.headerOk⟩, by rw [hhs]; exact hheaders, ?_⟩
      · rw [hhs, ← hready.handle]
        change x.hs.left - n + (x.hs.file + n) = x.hs.handle.data.length
        omega
      · have hbody (k : HttpState) (hk : ¬k.tagCheck = true) :
            k.unsentBody site = k.handle.data.drop k.file := if_neg hk
        have hfile := stretch_drop x.hs.handle.data (Nat.le_add_right x.hs.file n)
        simp only [HttpState.unsent, hhs, hstream]
        rw [unsentHeaders_done _ hheaders, unsentHeaders_done (x.hs.fileSent n) hheaders,
          hbody x.hs hfalse, hbody (x.hs.fileSent n) hfalse, List.nil_append, List.nil_append,
          List.append_assoc]
        exact congrArg _ hfile
  | true =>
      have htrue := hready.tagCheck_eq.trans htag
      obtain ⟨hsound, hrested⟩ := hready.parser htag
      obtain ⟨hkeeps, hrest⟩ := Sending.sendTagged_keeps (T := T) hsound htrue hrested
      rw [if_pos htrue]
      have hgone : ¬(x.sendTagged T site).1.hs.hdrIndex < numFileHdrStrings := by
        rw [hkeeps.hdrIndex]
        exact hheaders
      refine ⟨⟨hkeeps.handle.trans hready.handle, hkeeps.tagCheck.trans htrue, ?_,
        fun _ => ⟨hkeeps.sound, hrest⟩, fun h => absurd h hgone⟩, hgone, ?_⟩
      · rw [hkeeps.sound.left_add, hkeeps.handle, hready.handle]
      · rw [HttpState.unsent, HttpState.unsent, unsentHeaders_done _ hgone,
          unsentHeaders_done _ hheaders]
        exact hkeeps.text

theorem httpSendFile_serves {x : Sending σ} (hready : x.hs.Ready site page tagCheck)
    (hheaders : ¬x.hs.hdrIndex < numFileHdrStrings)
    (htext : x.pcb.stream ++ x.hs.unsent site = whole) :
    (httpSendFile T site x).Serves site page tagCheck whole := by
  unfold httpSendFile
  by_cases hleft : x.hs.left = 0
  · rw [if_pos hleft]
    rw [hready.unsent_endOfFile hheaders hleft] at htext
    exact .done _ htext
  · rw [if_neg hleft]
    simp only
    obtain ⟨hready', hheaders', hsame⟩ := sendFile_ready (T := T) hready hheaders
    have htext' := hsame.trans htext
    by_cases hend : (x.sendFile T site).2 = false ∧ (x.sendFile T site).1.hs.left = 0
    · rw [if_pos hend]
      rw [hready'.unsent_endOfFile hheaders' hend.2] at htext'
      exact .done _ htext'
    · rw [if_neg hend]
      exact .open_ _ _ hready' htext'

theorem begin_ready {hs : HttpState} (pcb : Pcb σ) (hready : hs.Ready site page tagCheck) :
    (Sending.begin T hs pcb).hs.Ready site page tagCheck ∧
      (Sending.begin T hs pcb).pcb.stream ++ (Sending.begin T hs pcb).hs.unsent site =
        pcb.stream ++ hs.unsent site := by
  have hsent := Sending.begin_sends (T := T) pcb hready.headerOk
  obtain ⟨i, p, hsame⟩ := hsent.same
  refine ⟨⟨?_, ?_, ?_, fun h => ?_, hsent.headerOk⟩, ?_⟩
  · rw [hsame]
    exact hready.handle
  · rw [hsame]
    exact hready.tagCheck_eq
  · rw [hsame]
    exact hready.left_add
  · obtain ⟨hsound, hrested⟩ := hready.parser h
    rw [hsame]
    exact ⟨⟨hsound.left_add, hsound.tagEnd_le, hsound.parsed_add, hsound.index,
      hsound.tagInsert_le, hsound.scanned, hsound.untagged, hsound.tagged, hsound.counted⟩, hrested⟩
  · have hbody : (Sending.begin T hs pcb).hs.unsentBody site = hs.unsentBody site := by
      rw [hsame]
      rfl
    rw [HttpState.unsent, hbody, ← List.append_assoc, hsent.text, List.append_assoc]
    rfl

/-- **One call of `http_send_data`.** -/
theorem httpSendData_serves {hs : HttpState} (pcb : Pcb σ) (hready : hs.Ready site page tagCheck)
    (htext : pcb.stream ++ hs.unsent site = whole) :
    (httpSendData T site hs pcb).Serves site page tagCheck whole := by
  obtain ⟨hready', hsame⟩ := begin_ready (T := T) pcb hready
  unfold httpSendData
  by_cases hmore : (Sending.begin T hs pcb).hs.hdrIndex < numFileHdrStrings
  · rw [if_pos hmore]
    exact .open_ _ _ hready' (hsame.trans htext)
  · rw [if_neg hmore]
    exact httpSendFile_serves hready' hmore (hsame.trans htext)

end Calls

/-! ## Runs -/

section RunsOfAConnection

variable {page : Page} {tagCheck : Bool} {whole : CStr}

theorem HttpState.Ready.retried {hs : HttpState} (h : hs.Ready site page tagCheck) (n : Nat) :
    ({ hs with retries := n } : HttpState).Ready site page tagCheck := by
  refine ⟨h.handle, h.tagCheck_eq, h.left_add, fun htag => ?_, h.headerOk⟩
  obtain ⟨hsound, hrested⟩ := h.parser htag
  exact ⟨⟨hsound.left_add, hsound.tagEnd_le, hsound.parsed_add, hsound.index, hsound.tagInsert_le,
    hsound.scanned, hsound.untagged, hsound.tagged, hsound.counted⟩, hrested⟩

/-- Whatever is heard of a connection, it goes on to serve its page. -/
theorem Conn.Serves.step {c : Conn σ} (h : c.Serves site page tagCheck whole) (e : Event σ) :
    (c.step T site e).Serves site page tagCheck whole := by
  cases h with
  | done stream htext => exact .done stream htext
  | cut why hwhy stream unsent htext => exact .cut why hwhy stream unsent htext
  | open_ hs pcb hready htext =>
      obtain ⟨front, hfront⟩ := hready.unsent_ends
      have hcut (why : Ending) (hwhy : why ≠ .endOfFile) :
          (Conn.closed why pcb.stream : Conn σ).Serves site page tagCheck whole :=
        .cut why hwhy pcb.stream front (by rw [← hfront]; exact htext)
      cases e with
      | sent tcp => exact httpSendData_serves ⟨tcp, pcb.stream⟩ (hready.retried 0) htext
      | poll tcp =>
          by_cases hmany : hs.retries + 1 = httpdMaxRetries
          · have hstep : (Conn.open_ hs pcb).step T site (.poll tcp) =
                .closed .tooManyRetries pcb.stream := if_pos hmany
            rw [hstep]
            exact hcut _ (by simp)
          · have hstep : (Conn.open_ hs pcb).step T site (.poll tcp) =
                httpSendData T site { hs with retries := hs.retries + 1 } ⟨tcp, pcb.stream⟩ :=
              if_neg hmany
            rw [hstep]
            exact httpSendData_serves ⟨tcp, pcb.stream⟩ (hready.retried _) htext
      | received => exact .open_ hs pcb hready htext
      | hungUp => exact hcut _ (by simp)
      | error => exact hcut _ (by simp)

/-- What is owed to a client: the headers, and the page with its tags replaced. -/
def response (site : Site) (page : Page) (tagCheck : Bool) (hdrs : Option (List CStr)) : CStr :=
  ((hdrs.getD []).take numFileHdrStrings).flatten ++ body site page tagCheck

/-- A connection when its request has just been parsed, and `http_send_data` is called for the
first time. -/
def Conn.start (T : Tcp σ) (site : Site) (page : Page) (tagCheck : Bool)
    (hdrs : Option (List CStr)) (tcp : σ) : Conn σ :=
  httpSendData T site (httpInitFile page tagCheck hdrs) ⟨tcp, []⟩

theorem httpInitFile_sound (site : Site) (page : Page) (tagCheck : Bool)
    (hdrs : Option (List CStr)) : (httpInitFile page tagCheck hdrs).Sound site where
  left_add := Nat.add_zero _
  tagEnd_le h := absurd h (by simp [httpInitFile])
  parsed_add _ := ⟨Nat.zero_add _, le_rfl, le_rfl, fun _ => le_rfl⟩
  index := trivial
  tagInsert_le := Nat.zero_le _
  scanned _ := rfl
  untagged _ _ := HttpState.seen_ne_tag site (httpInitFile page tagCheck hdrs)
  tagged h := absurd h (by simp [httpInitFile])
  counted := rfl

theorem httpInitFile_unsent (site : Site) (page : Page) (tagCheck : Bool)
    (hdrs : Option (List CStr)) :
    (httpInitFile page tagCheck hdrs).unsent site = response site page tagCheck hdrs := by
  have hheaders : (httpInitFile page tagCheck hdrs).unsentHeaders =
      ((hdrs.getD []).take numFileHdrStrings).flatten := by
    cases hdrs with
    | none => rfl
    | some hdrs => rfl
  have hbody : (httpInitFile page tagCheck hdrs).unsentBody site = body site page tagCheck := by
    cases tagCheck with
    | false => rfl
    | true => rfl
  rw [HttpState.unsent, hheaders, hbody, response]

theorem start_serves (T : Tcp σ) (site : Site) (page : Page) (tagCheck : Bool) (tcp : σ)
    (hdrs : Option (List CStr)) :
    (Conn.start T site page tagCheck hdrs tcp).Serves site page tagCheck
      (response site page tagCheck hdrs) := by
  have hsound := httpInitFile_sound site page tagCheck hdrs
  refine httpSendData_serves _ ⟨rfl, rfl, hsound.left_add, fun _ => ⟨hsound, fun h => ?_⟩,
    fun _ => Nat.zero_le _⟩ ?_
  · exact absurd rfl h
  · rw [httpInitFile_unsent]
    rfl

/-- Over a whole run a connection serves its page. -/
theorem run_serves (T : Tcp σ) (site : Site) (page : Page) (tagCheck : Bool) (tcp : σ)
    (hdrs : Option (List CStr)) (es : List (Event σ)) :
    (Runs.final (Conn.step T site) (Conn.start T site page tagCheck hdrs tcp) es).Serves site page
      tagCheck (response site page tagCheck hdrs) := by
  have hstep (c : Conn σ) (e : Event σ)
      (h : c.Serves site page tagCheck (response site page tagCheck hdrs)) :
      (c.step T site e).Serves site page tagCheck (response site page tagCheck hdrs) := h.step e
  exact (Runs.invariant hstep (start_serves T site page tagCheck tcp hdrs) es).last

/-- **Only what is owed is sent, in order**: over any run, and whatever TCP answers, the bytes it
has accepted are a beginning of the response; and what a tag at the very end of the page becomes
is not among them. -/
theorem stream_unsent (T : Tcp σ) (site : Site) (page : Page) (tagCheck : Bool)
    (hdrs : Option (List CStr)) (tcp : σ) (es : List (Event σ)) :
    ∃ unsent, (Runs.final (Conn.step T site) (Conn.start T site page tagCheck hdrs tcp) es).stream ++
      (unsent ++ lastInsert site page tagCheck) = response site page tagCheck hdrs := by
  have hserves := run_serves T site page tagCheck tcp hdrs es
  generalize Runs.final (Conn.step T site) (Conn.start T site page tagCheck hdrs tcp) es = c
    at hserves ⊢
  cases hserves with
  | open_ hs pcb hready htext =>
      obtain ⟨front, hfront⟩ := hready.unsent_ends
      exact ⟨front, by rw [← hfront]; exact htext⟩
  | done stream htext => exact ⟨[], htext⟩
  | cut why hwhy stream unsent htext => exact ⟨unsent, htext⟩

/-- **A response that ends at the end of the file is complete**, but for what a tag at the very
end of the page becomes. -/
theorem endOfFile_stream (T : Tcp σ) (site : Site) (page : Page) (tagCheck : Bool)
    (hdrs : Option (List CStr)) (tcp : σ) (es : List (Event σ)) (stream : CStr)
    (hclosed : Runs.final (Conn.step T site) (Conn.start T site page tagCheck hdrs tcp) es =
      .closed .endOfFile stream) :
    stream ++ lastInsert site page tagCheck = response site page tagCheck hdrs := by
  have hserves := run_serves T site page tagCheck tcp hdrs es
  rw [hclosed] at hserves
  cases hserves with
  | done stream htext => exact htext
  | cut why hwhy stream unsent htext => exact absurd rfl hwhy

/-- A TCP that takes what its window has room for. -/
def windowTcp : Tcp Nat where
  mss _ := 536
  sndbuf room := room
  queueFull _ := false
  write room bytes := if bytes.length ≤ room then (.ok, room - bytes.length) else (.mem, room)

def clockSite : Site where
  maxTagName := 8
  tags := [ascii "clock"]
  ssiHandler _ _ := ascii "12:00"
  ssiHandler_le _ _ := by decide

def clockPage : Page where
  data := ascii "It is <!--#clock-->."
  length_lt := by decide

theorem isName_clock : (tagMarks clockSite.maxTagName).IsName (ascii "clock") where
  ne := by decide
  short := by decide
  visible c hc := by
    have hall : (ascii "clock").all (fun c => !isTagBlank c) = true := by decide
    have hblank := List.all_eq_true.mp hall c hc
    rwa [Bool.not_eq_true'] at hblank
  open_ c hc := by
    have hall : (ascii "clock").all (fun c => pcTagLeadOut[0]? != some c) = true := by decide
    exact bne_iff_ne.mp (List.all_eq_true.mp hall c hc)

/-- The page is delivered in three pieces. -/
theorem endOfFile_stream_clock :
    ascii "OK, It is 12:00." ++ lastInsert clockSite clockPage true =
      response clockSite clockPage true (some [ascii "OK", ascii ",", ascii " "]) :=
  endOfFile_stream windowTcp clockSite clockPage true (some [ascii "OK", ascii ",", ascii " "]) 10
    [.sent 6, .sent 4, .sent 20] (ascii "OK, It is 12:00.") rfl

/-- A page that ends with a tag goes without the insert, and its connection is not closed before
the server loses patience. -/
example :
    Runs.final (Conn.step windowTcp clockSite) (Conn.start windowTcp clockSite
        ⟨ascii "It is <!--#clock-->", by decide⟩ true none 50)
        [.sent 50, .sent 50, .poll 50, .poll 50, .poll 50, .poll 50] =
      .closed .tooManyRetries (ascii "It is ") := rfl

/-- **A page of texts and tags is delivered piece by piece**: a client whose connection was closed
at the end of the file has the headers, the texts, and the inserts in the places of the tags. -/
theorem template_delivered (T : Tcp σ) (site : Site) (page : Page) (hdrs : Option (List CStr))
    (tcp : σ) (es : List (Event σ)) (ps : List (Piece UInt8)) (t : CStr)
    (hpage : page.data = ps.flatMap (Piece.source (tagMarks site.maxTagName)) ++ t)
    (hproper : ∀ p ∈ ps, p.Proper (tagMarks site.maxTagName))
    (htext : (tagMarks site.maxTagName).Passes t) (hne : t ≠ []) (stream : CStr)
    (hclosed : Runs.final (Conn.step T site) (Conn.start T site page true hdrs tcp) es =
      .closed .endOfFile stream) :
    stream = ((hdrs.getD []).take numFileHdrStrings).flatten ++
      Piece.output site.insert 0 (ps ++ [Piece.text t]) := by
  have hend : lastInsert site page true = [] := by
    rw [lastInsert, if_pos rfl, hpage]
    exact Marks.lastInsert_source hproper htext hne
  have hsource : page.data =
      (ps ++ [Piece.text t]).flatMap (Piece.source (tagMarks site.maxTagName)) := by
    simp [hpage, Piece.source]
  have hall : ∀ p ∈ ps ++ [Piece.text t], p.Proper (tagMarks site.maxTagName) := by
    intro p hp
    rcases List.mem_append.mp hp with hp | hp
    · exact hproper p hp
    · rw [List.mem_singleton.mp hp]
      exact htext
  have hbody : body site page true = Piece.output site.insert 0 (ps ++ [Piece.text t]) := by
    rw [body, if_pos rfl, hsource]
    exact Marks.expand_source 0 hall
  have hstream : stream = response site page true hdrs := by
    have hserves := run_serves T site page true tcp hdrs es
    rw [hclosed] at hserves
    cases hserves with
    | done stream htext => rw [← htext, hend, List.append_nil]
    | cut why hwhy stream unsent htext => exact absurd rfl hwhy
  rw [hstream, response, hbody]

theorem template_delivered_clock :
    ascii "OK, It is 12:00." = ascii "OK, " ++
      Piece.output clockSite.insert 0
        ([.text (ascii "It is "), .tag [] (ascii "clock") []] ++ [Piece.text (ascii ".")]) := by
  refine template_delivered windowTcp clockSite clockPage (some [ascii "OK", ascii ",", ascii " "]) 10
    [.sent 6, .sent 4, .sent 20] [.text (ascii "It is "), .tag [] (ascii "clock") []] (ascii ".")
    rfl (fun p hp => ?_) ⟨rfl, rfl⟩ (by decide) (ascii "OK, It is 12:00.") rfl
  rcases List.mem_pair.mp hp with rfl | rfl
  · exact ⟨rfl, rfl⟩
  · exact ⟨isName_clock, List.forall_mem_nil _, List.forall_mem_nil _⟩

end RunsOfAConnection

end HomeAuto.Httpd
