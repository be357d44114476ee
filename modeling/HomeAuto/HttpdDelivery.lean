import HomeAuto.HttpdPages

/-!
# Every page is delivered

Whatever TCP answers, a call of `http_send_data` does not add to what is left to do
(`httpSendData_work`); and a call in which TCP has room, and takes what fits, does away with
some of it, unless the page ends with a tag.  So a connection cannot stay open for ever while
TCP has room again and again (`page_delivered`).
-/

namespace HomeAuto.Httpd

open Template

variable {σ : Type} {T : Tcp σ} {site : Site}

/-- TCP has room, and takes what fits. -/
structure Tcp.Willing (T : Tcp σ) (tcp : σ) : Prop where
  sndbuf : 0 < T.sndbuf tcp
  mss : 0 < T.mss tcp
  write : ∀ bytes, bytes.length ≤ T.sndbuf tcp → (T.write tcp bytes).1 = .ok

theorem httpWrite_willing {pcb : Pcb σ} (h : T.Willing pcb.tcp) (ptr : CStr) {len : Nat}
    (hlen : len ≤ T.sndbuf pcb.tcp) : (httpWrite T pcb ptr len).err = .ok := by
  have hok : (tcpWrite T pcb (ptr.take len)).1 = .ok :=
    h.write _ ((List.length_take_le _ _).trans hlen)
  rw [httpWrite, httpWriteLoop]
  simp only [hok, reduceCtorEq, if_false]

/-! ## What is left to do -/

/-- What is left to do for the headers. -/
def HttpState.headerWork (hs : HttpState) : Nat :=
  hs.unsentHeaders.length + (numFileHdrStrings - hs.hdrIndex)

/-- What is left to do for the file. -/
def HttpState.fileWork (hs : HttpState) : Nat := hs.left + hs.passesLeft

/-- What is left to do. -/
def HttpState.work (hs : HttpState) : Nat := hs.headerWork + hs.fileWork

theorem fileWork_fileSent (hs : HttpState) (n : Nat) :
    (hs.fileSent n).fileWork + min n hs.left ≤ hs.fileWork := by
  have hhere : (hs.fileSent n).passesHere ≤ hs.passesHere := by
    unfold HttpState.passesHere HttpState.fileSent
    cases hs.tagState with
    | sending => simp only; omega
    | none | leadIn | found | leadOut => exact le_rfl
  have hleft : (hs.fileSent n).left = hs.left - n := rfl
  have hpasses : (hs.fileSent n).passesLeft ≤ hs.passesLeft := Nat.add_le_add_left hhere _
  unfold HttpState.fileWork
  omega

/-- How many bytes a call of `http_send_data` sends of one header string. -/
theorem headerWork_headerSent {hs : HttpState} (h : hs.hdrIndex < numFileHdrStrings)
    (hok : hs.HeaderOk) {n : Nat} (hn : hs.hdrPos + n ≤ (hs.hdrs.getD hs.hdrIndex []).length) :
    (hs.headerSent (hs.hdrs.getD hs.hdrIndex []).length n).headerWork + n ≤ hs.headerWork ∧
      (hs.hdrPos + n = (hs.hdrs.getD hs.hdrIndex []).length →
        (hs.headerSent (hs.hdrs.getD hs.hdrIndex []).length n).headerWork < hs.headerWork) := by
  obtain ⟨-, htext, -⟩ := headerSent_sends h hok hn
  have hlength := congrArg List.length htext
  rw [List.length_append, List.length_take, List.length_drop] at hlength
  unfold HttpState.headerWork
  by_cases hend : hs.hdrPos + n = (hs.hdrs.getD hs.hdrIndex []).length
  · have hindex : (hs.headerSent (hs.hdrs.getD hs.hdrIndex []).length n).hdrIndex =
        hs.hdrIndex + 1 := by rw [HttpState.headerSent, if_pos hend]
    omega
  · have hindex : (hs.headerSent (hs.hdrs.getD hs.hdrIndex []).length n).hdrIndex =
        hs.hdrIndex := by rw [HttpState.headerSent, if_neg hend]
    omega

namespace Sending

/-- One pass of the loop over the header strings. -/
theorem passHeader_work {x : Sending σ} (hgo : x.hs.hdrIndex < numFileHdrStrings)
    (hok : x.hs.HeaderOk) :
    (x.passHeader T).hs.headerWork ≤ x.hs.headerWork ∧
      (x.len ≠ 0 → x.len ≤ T.sndbuf x.pcb.tcp → T.Willing x.pcb.tcp →
        (x.passHeader T).hs.headerWork < x.hs.headerWork) := by
  obtain ⟨hwork, hdone⟩ := headerWork_headerSent hgo hok (hdrPos_add_sendlen (T := T) hgo hok)
  refine ⟨(Nat.le_add_right _ _).trans hwork, fun hlen hroom hwilling => ?_⟩
  have hsent : (x.httpWriteHeader T).err = .ok :=
    httpWrite_willing hwilling _ (x.lenOfHeader_le.1.trans hroom)
  have hsendlen : x.sendlen T = (x.httpWriteHeader T).len := if_pos hsent
  by_cases hnone : x.lenOfHeader = 0
  · refine hdone (le_antisymm (hdrPos_add_sendlen hgo hok) ?_)
    have hpos : x.hdr.length ≤ x.hs.hdrPos := by
      unfold lenOfHeader at hnone
      split at hnone <;> omega
    exact hpos.trans (Nat.le_add_right _ _)
  · have hsome := x.httpWriteHeader_wrote.pos hsent (Nat.pos_of_ne_zero hnone)
    rw [← hsendlen] at hsome
    exact (Nat.lt_add_of_pos_right hsome).trans_le hwork

theorem headerLoop_work {fuel : Nat} {x : Sending σ} (hok : x.hs.HeaderOk) :
    (x.headerLoop T fuel).hs.headerWork ≤ x.hs.headerWork := by
  induction fuel generalizing x with
  | zero => exact le_rfl
  | succ fuel ih =>
      rw [headerLoop]
      by_cases hgo : x.len ≠ 0 ∧ x.hs.hdrIndex < numFileHdrStrings
      · rw [if_pos hgo]
        have hpass := (passHeader_work (T := T) hgo.2 hok).1
        split
        · exact (ih (passHeader_sends hgo.2 hok).headerOk).trans hpass
        · exact hpass
      · rw [if_neg hgo]

theorem sendHeaders_work {x : Sending σ} (hok : x.hs.HeaderOk)
    (hgo : x.hs.hdrIndex < numFileHdrStrings) :
    (x.sendHeaders T).hs.headerWork ≤ x.hs.headerWork ∧
      (T.Willing x.pcb.tcp → (x.sendHeaders T).hs.headerWork < x.hs.headerWork) := by
  refine ⟨headerLoop_work (x := x.asking T) hok, fun hwilling => ?_⟩
  have hlen : T.sndbuf x.pcb.tcp ≠ 0 := hwilling.sndbuf.ne'
  have hpass := (passHeader_work (T := T) (x := x.asking T) hgo hok).2 hlen le_rfl hwilling
  have hnext := (passHeader_sends (T := T) (x := x.asking T) hgo hok).headerOk
  have hfuel (fuel : Nat) (hne : fuel ≠ 0) :
      ((x.asking T).headerLoop T fuel).hs.headerWork < x.hs.headerWork := by
    cases fuel with
    | zero => exact absurd rfl hne
    | succ fuel =>
        rw [headerLoop, if_pos ⟨hlen, hgo⟩]
        split
        · exact (headerLoop_work hnext).trans_lt hpass
        · exact hpass
  exact hfuel _ hlen

/-! ## The file -/

theorem writeFile_hs_eq (x : Sending σ) (len skipped : Nat) :
    ∃ n, (x.writeFile T len skipped).hs = x.hs.fileSent n := by
  unfold writeFile
  split
  · exact ⟨_, rfl⟩
  · exact ⟨0, rfl⟩

theorem writeFile_work (x : Sending σ) (len skipped : Nat) :
    (x.writeFile T len skipped).hs.fileWork ≤ x.hs.fileWork ∧
      (x.writeFile T len skipped).hs.left ≤ x.hs.left := by
  obtain ⟨n, hn⟩ := writeFile_hs_eq (T := T) x len skipped
  have hwork := fileWork_fileSent x.hs n
  rw [hn]
  exact ⟨by omega, Nat.sub_le _ _⟩

theorem writeBeforeTag_left (x : Sending σ) (empty : Bool) :
    (x.writeBeforeTag T empty).hs.left ≤ x.hs.left := by
  unfold writeBeforeTag
  split
  · exact (writeFile_work _ _ _).2
  · exact Nat.sub_le _ _

/-- A write of what there is room for, by a willing TCP, gets further. -/
theorem writeFile_room {x : Sending σ} (hadd : x.hs.left + x.hs.file = x.hs.handle.data.length)
    (h : T.Willing x.pcb.tcp) {rest : Nat} (hpos : 0 < rest) (hrest : rest ≤ x.hs.left) :
    (x.writeFile T (roomFor T x.pcb rest) 0).hs.fileWork < x.hs.fileWork := by
  have hroom : 0 < roomFor T x.pcb rest ∧ roomFor T x.pcb rest ≤ T.sndbuf x.pcb.tcp := by
    have hbuf := h.sndbuf
    have hmss := h.mss
    simp only [roomFor]
    split_ifs <;> omega
  have hle := roomFor_le (T := T) x.pcb rest
  have hok : (x.httpWriteFile T (roomFor T x.pcb rest)).err = .ok := httpWrite_willing h _ hroom.2
  have hw := httpWriteFile_wrote (T := T) x (roomFor T x.pcb rest)
  have hsent := hw.le hok
  have hsome := hw.pos hok hroom.1
  have hlt := x.hs.handle.length_lt
  have hwork := fileWork_fileSent x.hs (x.httpWriteFile T (roomFor T x.pcb rest)).len
  rw [writeFile, if_pos hok, Nat.add_zero, Nat.mod_eq_of_lt (by omega)]
  simp only
  omega

theorem Passes.left_le {x y : Sending σ} (h : Passes T site x y) : y.hs.left ≤ x.hs.left := by
  cases h with
  | scans y hstate h => exact h.reads.left.le
  | nameBegins hstate hfive => exact le_rfl
  | tagSeen hlast hfile => exact writeBeforeTag_left _ _
  | beforeTag hstate hfile => exact writeBeforeTag_left _ _
  | insert hstate hfile hmore =>
      unfold writeInsert
      split <;> exact le_rfl
  | insertDone hstate hfile hdone => exact le_rfl

theorem Passes.work_le {x y : Sending σ} (h : Passes T site x y) (hsound : x.hs.Sound site)
    (htag : x.hs.tagCheck = true) (hleft : x.hs.parseLeft ≠ 0) (hlen : x.len ≠ 0) :
    y.hs.fileWork ≤ x.hs.fileWork := by
  have hle := h.left_le
  unfold HttpState.fileWork
  rcases h.decreases hsound htag hleft hlen with hless | ⟨-, hsame, -⟩
  · omega
  · rw [hsame]

/-- A pass in which TCP has room for `len` bytes. -/
theorem Passes.work_lt {x y : Sending σ} (h : Passes T site x y) (hsound : x.hs.Sound site)
    (htag : x.hs.tagCheck = true) (hleft : x.hs.parseLeft ≠ 0) (hlen : x.len ≠ 0)
    (hroom : x.len ≤ T.sndbuf x.pcb.tcp) (hwilling : T.Willing x.pcb.tcp) :
    y.hs.fileWork < x.hs.fileWork := by
  have hle := h.left_le
  unfold HttpState.fileWork
  rcases h.decreases hsound htag hleft hlen with hless | ⟨-, -, ptr, len, hshort, hfail⟩
  · omega
  · exact absurd (httpWrite_willing hwilling ptr (hshort.trans hroom)) hfail

theorem loop_work (fuel : Nat) {x : Sending σ} (hsound : x.hs.Sound site)
    (htag : x.hs.tagCheck = true) : (x.loop T site fuel).1.hs.fileWork ≤ x.hs.fileWork := by
  induction fuel generalizing x with
  | zero => exact le_rfl
  | succ fuel ih =>
      rw [loop]
      by_cases hexit : x.hs.parseLeft = 0 ∨ x.err ≠ .ok
      · rw [if_pos hexit]
      · rw [if_neg hexit]
        by_cases hlen : x.len = 0
        · rw [if_pos hlen]
        · rw [if_neg hlen]
          have hleft := (not_or.mp hexit).1
          have hpass := pass_passes (T := T) hsound hleft
          have hkeeps := hpass.keeps hsound htag hleft
          exact (ih hkeeps.sound (hkeeps.tagCheck.trans htag)).trans
            (hpass.work_le hsound htag hleft hlen)

/-- The loop gets further if it takes a pass in which TCP has room. -/
theorem loop_work_lt {fuel : Nat} {x : Sending σ} (hsound : x.hs.Sound site)
    (htag : x.hs.tagCheck = true) (hfuel : fuel ≠ 0) (hleft : x.hs.parseLeft ≠ 0)
    (herr : x.err = .ok)
    (hlen : x.len = T.sndbuf x.pcb.tcp) (hwilling : T.Willing x.pcb.tcp) :
    (x.loop T site fuel).1.hs.fileWork < x.hs.fileWork := by
  cases fuel with
  | zero => exact absurd rfl hfuel
  | succ fuel =>
      have hexit : ¬(x.hs.parseLeft = 0 ∨ x.err ≠ .ok) :=
        not_or.mpr ⟨hleft, not_not.mpr herr⟩
      have hsome : x.len ≠ 0 := by
        have := hwilling.sndbuf
        omega
      have hpass := pass_passes (T := T) hsound hleft
      have hkeeps := hpass.keeps hsound htag hleft
      rw [loop, if_neg hexit, if_neg hsome]
      exact (loop_work fuel hkeeps.sound (hkeeps.tagCheck.trans htag)).trans_lt
        (hpass.work_lt hsound htag hleft hsome hlen.le hwilling)

theorem writeParsed_work (x : Sending σ) :
    (x.writeParsed T).hs.fileWork ≤ x.hs.fileWork := (writeFile_work _ _ _).1

theorem afterLoop_work (x : Sending σ) : (x.afterLoop T).hs.fileWork ≤ x.hs.fileWork := by
  unfold afterLoop
  split
  · exact writeParsed_work _
  · exact le_rfl

theorem firstWrite_work (x : Sending σ) : (x.firstWrite T).hs.fileWork ≤ x.hs.fileWork := by
  unfold firstWrite
  split
  · exact writeParsed_work (x.asking T)
  · exact le_rfl

/-- Where nothing parsed is unsent, there is more to parse, unless the page ends with a tag. -/
theorem parseLeft_ne {hs : HttpState} (hsound : hs.Sound site) (hready : ¬hs.file < hs.parsed)
    (hleft : hs.left ≠ 0)
    (hlast : ∀ name, (tagMarks site.maxTagName).scan .text hs.handle.data ≠ .tag name) :
    hs.parseLeft ≠ 0 := by
  have hadd := hsound.left_add
  intro hnone
  by_cases hstate : hs.tagState = .sending
  · obtain ⟨hlt, hend, hparsed, hor⟩ := hsound.tagEnd_le hstate
    obtain ⟨name, hname, -⟩ := hsound.tagged hstate
    have hall : hs.handle.data.take hs.tagEnd = hs.handle.data :=
      List.take_of_length_le (by omega)
    rw [hall] at hname
    exact hlast name hname
  · obtain ⟨hend, hfile, -⟩ := hsound.parsed_add hstate
    omega

theorem firstWrite_work_lt {x : Sending σ} (hsound : x.hs.Sound site)
    (hready : x.hs.file < x.hs.parsed) (hwilling : T.Willing x.pcb.tcp) :
    (x.firstWrite T).hs.fileWork < x.hs.fileWork := by
  have hadd := hsound.left_add
  have hle : x.hs.parsed - x.hs.file ≤ x.hs.left := by
    by_cases hstate : x.hs.tagState = .sending
    · obtain ⟨hlt, hend, hparsed, -⟩ := hsound.tagEnd_le hstate
      omega
    · obtain ⟨hend, -⟩ := hsound.parsed_add hstate
      omega
  rw [firstWrite, if_pos hready]
  exact writeFile_room (x := x.asking T) hadd hwilling (Nat.sub_pos_of_lt hready) hle

/-- The part of `http_send_data` for a file with tags. -/
theorem sendTagged_work {x : Sending σ} (hsound : x.hs.Sound site) (htag : x.hs.tagCheck = true)
    (hrested : x.hs.Rested) :
    (x.sendTagged T site).1.hs.fileWork ≤ x.hs.fileWork ∧
      (T.Willing x.pcb.tcp → x.err = .ok → x.hs.left ≠ 0 →
        (∀ name, (tagMarks site.maxTagName).scan .text x.hs.handle.data ≠ .tag name) →
        (x.sendTagged T site).1.hs.fileWork < x.hs.fileWork) := by
  have hkeeps := (firstWrite_keeps (T := T) hsound htag hrested).1
  have hfirst := firstWrite_work (T := T) x
  have hloop := loop_work (T := T) (x.firstWrite T).fuel hkeeps.sound
    (hkeeps.tagCheck.trans htag)
  have hafter := afterLoop_work (T := T) ((x.firstWrite T).loop T site (x.firstWrite T).fuel).1
  have hrest : (x.sendTagged T site).1.hs.fileWork ≤ (x.firstWrite T).hs.fileWork := by
    unfold sendTagged
    simp only
    split
    · exact le_rfl
    · split
      · exact hloop
      · exact hafter.trans hloop
  refine ⟨hrest.trans hfirst, fun hwilling herr hleft hlast => ?_⟩
  by_cases hready : x.hs.file < x.hs.parsed
  · exact hrest.trans_lt (firstWrite_work_lt hsound hready hwilling)
  · have hsame : x.firstWrite T = x.asking T := if_neg hready
    have hless : ((x.firstWrite T).loop T site (x.firstWrite T).fuel).1.hs.fileWork <
        x.hs.fileWork := by
      rw [hsame]
      exact loop_work_lt (x := x.asking T) hsound htag
        (Nat.zero_lt_of_lt (passesLeft_lt_fuel (x := x.asking T) hsound)).ne'
        (parseLeft_ne hsound hready hleft hlast) herr rfl hwilling
    have hgo : ¬(x.hs.file < x.hs.parsed ∧ T.sndbuf (x.firstWrite T).pcb.tcp = 0) :=
      fun h => hready h.1
    unfold sendTagged
    simp only [if_neg hgo]
    split
    · exact hless
    · exact hafter.trans_lt hless

theorem sendPlain_work {x : Sending σ} (hadd : x.hs.left + x.hs.file = x.hs.handle.data.length) :
    (x.sendPlain T).hs.fileWork ≤ x.hs.fileWork ∧
      (T.Willing x.pcb.tcp → x.hs.left ≠ 0 → (x.sendPlain T).hs.fileWork < x.hs.fileWork) :=
  ⟨(writeFile_work _ _ _).1,
    fun hwilling hleft => writeFile_room hadd hwilling (Nat.pos_of_ne_zero hleft) le_rfl⟩

end Sending

/-! ## A whole call -/

/-- The page does not end with a tag that is replaced. -/
def NoLastTag (site : Site) (page : Page) (tagCheck : Bool) : Prop :=
  tagCheck = true → ∀ name, (tagMarks site.maxTagName).scan .text page.data ≠ .tag name

section Calls

variable {page : Page} {tagCheck : Bool}

theorem sendFile_work {x : Sending σ} (hready : x.hs.Ready site page tagCheck) :
    (x.sendFile T site).1.hs.fileWork ≤ x.hs.fileWork ∧
      (T.Willing x.pcb.tcp → x.err = .ok → x.hs.left ≠ 0 → NoLastTag site page tagCheck →
        (x.sendFile T site).1.hs.fileWork < x.hs.fileWork) := by
  have hadd := hready.left_add
  rw [← hready.handle] at hadd
  unfold Sending.sendFile
  cases htag : tagCheck with
  | false =>
      have hfalse : ¬x.hs.tagCheck = true := by rw [hready.tagCheck_eq, htag]; simp
      have hplain := Sending.sendPlain_work (T := T) hadd
      rw [if_neg hfalse]
      exact ⟨hplain.1, fun hwilling _ hleft _ => hplain.2 hwilling hleft⟩
  | true =>
      have htrue := hready.tagCheck_eq.trans htag
      obtain ⟨hsound, hrested⟩ := hready.parser htag
      obtain ⟨hle, hlt⟩ := Sending.sendTagged_work (T := T) hsound htrue hrested
      rw [if_pos htrue]
      refine ⟨hle, fun hwilling herr hleft hlast => hlt hwilling herr hleft ?_⟩
      rw [hready.handle]
      exact hlast rfl

theorem headerWork_done {hs hs' : HttpState} (h : ¬hs.hdrIndex < numFileHdrStrings)
    (h' : ¬hs'.hdrIndex < numFileHdrStrings) : hs'.headerWork = hs.headerWork := by
  unfold HttpState.headerWork
  rw [unsentHeaders_done _ h, unsentHeaders_done _ h']
  omega

theorem begin_work {hs : HttpState} (pcb : Pcb σ) (hready : hs.Ready site page tagCheck) :
    (Sending.begin T hs pcb).hs.work ≤ hs.work ∧
      (hs.hdrIndex < numFileHdrStrings → T.Willing pcb.tcp →
        (Sending.begin T hs pcb).hs.work < hs.work) := by
  have hfile : (Sending.begin T hs pcb).hs.fileWork = hs.fileWork := by
    obtain ⟨i, p, hsame⟩ := (Sending.begin_sends (T := T) pcb hready.headerOk).same
    rw [hsame]
    rfl
  unfold HttpState.work
  rw [hfile]
  unfold Sending.begin
  by_cases hgo : hs.hdrIndex < numFileHdrStrings
  · rw [if_pos hgo]
    have hheaders := Sending.sendHeaders_work (T := T) (x := ⟨hs, pcb, 0, .ok⟩) hready.headerOk hgo
    exact ⟨Nat.add_le_add_right hheaders.1 _, fun _ hwilling =>
      Nat.add_lt_add_right (hheaders.2 hwilling) _⟩
  · rw [if_neg hgo]
    exact ⟨le_rfl, fun h => absurd h hgo⟩

/-- **One call of `http_send_data`** does not add to what is left to do, and does some of it if
TCP is willing. -/
theorem httpSendData_work {hs hs' : HttpState} {pcb pcb' : Pcb σ}
    (hready : hs.Ready site page tagCheck) (hopen : httpSendData T site hs pcb = .open_ hs' pcb') :
    hs'.work ≤ hs.work ∧
      (T.Willing pcb.tcp → NoLastTag site page tagCheck → hs'.work < hs.work) := by
  obtain ⟨hle, hlt⟩ := begin_work (T := T) pcb hready
  have hready' := (begin_ready (T := T) pcb hready).1
  unfold httpSendData at hopen
  by_cases hmore : (Sending.begin T hs pcb).hs.hdrIndex < numFileHdrStrings
  · rw [if_pos hmore] at hopen
    obtain ⟨rfl, -⟩ := Conn.open_.inj hopen
    refine ⟨hle, fun hwilling _ => hlt ?_ hwilling⟩
    by_contra hdone
    rw [Sending.begin, if_neg hdone] at hmore
    exact hdone hmore
  · rw [if_neg hmore] at hopen
    unfold httpSendFile at hopen
    by_cases hleft : (Sending.begin T hs pcb).hs.left = 0
    · rw [if_pos hleft] at hopen
      exact absurd hopen (by simp)
    · rw [if_neg hleft] at hopen
      obtain ⟨hfile, hfile'⟩ := sendFile_work (T := T) hready'
      have hheaders := headerWork_done hmore (sendFile_ready (T := T) hready' hmore).2.1
      simp only at hopen
      split at hopen
      · exact absurd hopen (by simp)
      · obtain ⟨rfl, -⟩ := Conn.open_.inj hopen
        have hsame : ((Sending.begin T hs pcb).sendFile T site).1.hs.work ≤
            (Sending.begin T hs pcb).hs.work := by
          unfold HttpState.work
          rw [hheaders]
          exact Nat.add_le_add_left hfile _
        refine ⟨hsame.trans hle, fun hwilling hlast => ?_⟩
        by_cases hgo : hs.hdrIndex < numFileHdrStrings
        · exact hsame.trans_lt (hlt hgo hwilling)
        · have hbegin : Sending.begin T hs pcb = ⟨hs, pcb, 0, .ok⟩ := if_neg hgo
          rw [hbegin] at hfile' hheaders hleft ⊢
          have hless := hfile' hwilling rfl hleft hlast
          unfold HttpState.work
          rw [hheaders]
          exact Nat.add_lt_add_left hless _

end Calls

/-! ## Runs -/

/-- What is left to do on a connection. -/
def Conn.work : Conn σ → Nat
  | .open_ hs _ => hs.work + 1
  | .closed _ _ => 0

section RunsOfAConnection

variable {page : Page} {tagCheck : Bool} {whole : CStr}

theorem httpSendData_conn_work {hs : HttpState} (pcb : Pcb σ)
    (hready : hs.Ready site page tagCheck) :
    (httpSendData T site hs pcb).work ≤ hs.work + 1 ∧
      (T.Willing pcb.tcp → NoLastTag site page tagCheck →
        (httpSendData T site hs pcb).work < hs.work + 1) := by
  cases hsent : httpSendData T site hs pcb with
  | open_ hs' pcb' =>
      obtain ⟨hle, hlt⟩ := httpSendData_work hready hsent
      exact ⟨Nat.succ_le_succ hle, fun hwilling hlast => Nat.succ_lt_succ (hlt hwilling hlast)⟩
  | closed why stream => exact ⟨Nat.zero_le _, fun _ _ => Nat.succ_pos _⟩

theorem Conn.Serves.step_work {c : Conn σ} (h : c.Serves site page tagCheck whole) (e : Event σ) :
    (c.step T site e).work ≤ c.work := by
  cases h with
  | done stream htext => exact le_rfl
  | cut why hwhy stream unsent htext => exact le_rfl
  | open_ hs pcb hready htext =>
      cases e with
      | sent tcp => exact (httpSendData_conn_work ⟨tcp, pcb.stream⟩ (hready.retried 0)).1
      | poll tcp =>
          by_cases hmany : hs.retries + 1 = httpdMaxRetries
          · have hstep : (Conn.open_ hs pcb).step T site (.poll tcp) =
                .closed .tooManyRetries pcb.stream := if_pos hmany
            rw [hstep]
            exact Nat.zero_le _
          · have hstep : (Conn.open_ hs pcb).step T site (.poll tcp) =
                httpSendData T site { hs with retries := hs.retries + 1 } ⟨tcp, pcb.stream⟩ :=
              if_neg hmany
            rw [hstep]
            exact (httpSendData_conn_work ⟨tcp, pcb.stream⟩ (hready.retried _)).1
      | received => exact le_rfl
      | hungUp => exact Nat.zero_le _
      | error => exact Nat.zero_le _

/-- Data is acknowledged, and TCP is willing. -/
theorem Conn.Serves.sent_work {c : Conn σ} (h : c.Serves site page tagCheck whole) {tcp : σ}
    (hwilling : T.Willing tcp) (hlast : NoLastTag site page tagCheck) :
    (c.step T site (.sent tcp)).work < c.work ∨ c.work = 0 := by
  cases h with
  | done stream htext => exact .inr rfl
  | cut why hwhy stream unsent htext => exact .inr rfl
  | open_ hs pcb hready htext =>
      exact .inl ((httpSendData_conn_work ⟨tcp, pcb.stream⟩ (hready.retried 0)).2
        hwilling hlast)

theorem run_work {c : Conn σ} (h : c.Serves site page tagCheck whole)
    (hlast : NoLastTag site page tagCheck) {willing : List σ}
    (hwilling : ∀ tcp ∈ willing, T.Willing tcp) {es : List (Event σ)}
    (hsub : (willing.map Event.sent).Sublist es) :
    (Runs.final (Conn.step T site) c es).work + willing.length ≤ c.work ∨
      (Runs.final (Conn.step T site) c es).work = 0 := by
  induction es generalizing c willing with
  | nil =>
      rw [List.sublist_nil, List.map_eq_nil_iff] at hsub
      subst hsub
      exact .inl le_rfl
  | cons e es ih =>
      have hstep := h.step (T := T) e
      have hle := h.step_work (T := T) e
      rw [Runs.final_cons]
      cases willing with
      | nil =>
          rcases ih hstep hwilling (List.nil_sublist _) with hmore | hdone
          · exact .inl (hmore.trans hle)
          · exact .inr hdone
      | cons tcp willing =>
          rw [List.map_cons, List.cons_sublist_cons'] at hsub
          rcases hsub with hskip | ⟨rfl, hsub⟩
          · rcases ih hstep hwilling hskip with hmore | hdone
            · exact .inl (hmore.trans hle)
            · exact .inr hdone
          · rw [List.forall_mem_cons] at hwilling
            have hless := h.sent_work hwilling.1 hlast
            rcases ih hstep hwilling.2 hsub with hmore | hdone
            · rw [List.length_cons]
              omega
            · exact .inr hdone

/-- `http_send_data` closes the connection at the end of the file only. -/
theorem httpSendData_closed {hs : HttpState} {pcb : Pcb σ} {why : Ending} {stream : CStr}
    (h : httpSendData T site hs pcb = .closed why stream) : why = .endOfFile := by
  have hfile (x : Sending σ) (hx : httpSendFile T site x = .closed why stream) :
      why = .endOfFile := by
    simp only [httpSendFile] at hx
    split at hx
    · exact (Conn.closed.inj hx).1.symm
    · split at hx
      · exact (Conn.closed.inj hx).1.symm
      · exact absurd hx (by simp)
  simp only [httpSendData] at h
  split at h
  · exact absurd h (by simp)
  · exact hfile _ h

/-- Without polls, and while the client stays, a connection is closed at the end of the file. -/
theorem quiet_closed {c : Conn σ} {es : List (Event σ)}
    (hc : ∀ why stream, c = .closed why stream → why = .endOfFile)
    (hquiet : ∀ e ∈ es, e = .received ∨ ∃ tcp, e = .sent tcp) {why : Ending} {stream : CStr}
    (h : Runs.final (Conn.step T site) c es = .closed why stream) : why = .endOfFile := by
  induction es generalizing c with
  | nil => exact hc why stream h
  | cons e es ih =>
      rw [List.forall_mem_cons] at hquiet
      refine ih (fun why stream hclosed => ?_) hquiet.2 h
      cases c with
      | closed why' stream' => exact hc why stream hclosed
      | open_ hs pcb =>
          rcases hquiet.1 with rfl | ⟨tcp, rfl⟩
          · exact hc why stream hclosed
          · exact httpSendData_closed hclosed

/-- How often TCP must have been willing for a page to be delivered. -/
def patience (page : Page) (hdrs : Option (List CStr)) : Nat :=
  ((hdrs.getD []).take numFileHdrStrings).flatten.length + numFileHdrStrings +
    page.data.length * (page.data.length + httpdMaxTagInsertLen + 4) + 1

theorem start_work (T : Tcp σ) (site : Site) (page : Page) (tagCheck : Bool) (tcp : σ)
    (hdrs : Option (List CStr)) :
    (Conn.start T site page tagCheck hdrs tcp).work ≤ patience page hdrs := by
  have hsound := httpInitFile_sound site page tagCheck hdrs
  have hready : (httpInitFile page tagCheck hdrs).Ready site page tagCheck :=
    ⟨rfl, rfl, hsound.left_add, fun _ => ⟨hsound, fun h => absurd rfl h⟩, fun _ => Nat.zero_le _⟩
  refine (httpSendData_conn_work _ hready).1.trans ?_
  have hheaders : (httpInitFile page tagCheck hdrs).unsentHeaders =
      ((hdrs.getD []).take numFileHdrStrings).flatten := by
    cases hdrs with
    | none => rfl
    | some hdrs => rfl
  have hfile : (httpInitFile page tagCheck hdrs).fileWork =
      page.data.length + (page.data.length * (page.data.length + httpdMaxTagInsertLen + 3) + 0) :=
    rfl
  have hmul : page.data.length * (page.data.length + httpdMaxTagInsertLen + 4) =
      page.data.length * (page.data.length + httpdMaxTagInsertLen + 3) + page.data.length :=
    Nat.mul_succ _ _
  rw [HttpState.work, HttpState.headerWork, hheaders, hfile, patience, hmul]
  omega

/-- **Every page is delivered**: once TCP was willing often enough when data was acknowledged, in
whatever order with anything else, the connection is closed.  If that was at the end of the file
the client has all of the response; and it was, unless the server ran out of patience, the client
hung up, or the connection broke. -/
theorem page_delivered (T : Tcp σ) (site : Site) (page : Page) (tagCheck : Bool)
    (hdrs : Option (List CStr)) (tcp : σ) (es : List (Event σ)) (willing : List σ)
    (hlast : NoLastTag site page tagCheck) (hwilling : ∀ tcp ∈ willing, T.Willing tcp)
    (hsub : (willing.map Event.sent).Sublist es) (hmany : patience page hdrs ≤ willing.length) :
    ∃ why stream, Runs.final (Conn.step T site) (Conn.start T site page tagCheck hdrs tcp) es =
        .closed why stream ∧
      (why = .endOfFile → stream = response site page tagCheck hdrs) ∧
      ((∀ e ∈ es, e = .received ∨ ∃ tcp, e = .sent tcp) → why = .endOfFile) := by
  have hstart := start_serves T site page tagCheck tcp hdrs
  have hwork := run_work hstart hlast hwilling hsub
  have hpatience := start_work T site page tagCheck tcp hdrs
  have hserves := run_serves T site page tagCheck tcp hdrs es
  have hquiet (hq : ∀ e ∈ es, e = .received ∨ ∃ tcp, e = .sent tcp) (why : Ending) (stream : CStr)
      (hclosed : Runs.final (Conn.step T site) (Conn.start T site page tagCheck hdrs tcp) es =
        .closed why stream) : why = .endOfFile :=
    quiet_closed (fun _ _ => httpSendData_closed) hq hclosed
  generalize Runs.final (Conn.step T site) (Conn.start T site page tagCheck hdrs tcp) es = c
    at hwork hserves hquiet ⊢
  have hnone : lastInsert site page tagCheck = [] := by
    cases htag : tagCheck with
    | false => rfl
    | true =>
        unfold lastInsert Marks.lastInsert
        rw [if_pos rfl]
        split
        · next name hname => exact absurd hname (hlast htag name)
        · rfl
  cases hserves with
  | open_ hs pcb hready htext =>
      have hopen : (Conn.open_ hs pcb : Conn σ).work = hs.work + 1 := rfl
      omega
  | done stream htext =>
      rw [hnone, List.append_nil] at htext
      exact ⟨_, stream, rfl, fun _ => htext, fun h => hquiet h _ _ rfl⟩
  | cut why hwhy stream unsent htext =>
      exact ⟨why, stream, rfl, fun h => absurd h hwhy, fun h => hquiet h _ _ rfl⟩

theorem windowTcp_willing {room : Nat} (h : 0 < room) : windowTcp.Willing room where
  sndbuf := h
  mss := Nat.succ_pos 535
  write bytes hle := by
    have hle : bytes.length ≤ room := hle
    simp only [windowTcp, if_pos hle]

theorem page_delivered_clock :
    ∃ why stream, Runs.final (Conn.step windowTcp clockSite)
        (Conn.start windowTcp clockSite clockPage true none 1)
        ((List.replicate 16500 1).map Event.sent) = .closed why stream ∧
      (why = .endOfFile → stream = response clockSite clockPage true none) ∧
      ((∀ e ∈ (List.replicate 16500 1).map Event.sent, e = .received ∨ ∃ tcp, e = .sent tcp) →
        why = .endOfFile) := by
  refine page_delivered windowTcp clockSite clockPage true none 1 _ (List.replicate 16500 1)
    (fun _ name => ?_) (fun tcp h => ?_) (List.Sublist.refl _) ?_
  · have hscan : (tagMarks clockSite.maxTagName).scan .text clockPage.data = .text := rfl
    rw [hscan]
    simp
  · rw [List.eq_of_mem_replicate h]
    exact windowTcp_willing Nat.one_pos
  · rw [List.length_replicate]
    decide

end RunsOfAConnection

end HomeAuto.Httpd
