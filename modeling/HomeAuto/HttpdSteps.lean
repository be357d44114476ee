import HomeAuto.HttpdSend
import Mathlib.Tactic.Common

/-!
# What is unsent of a response

The response owed to a client is the headers and then the file, expanded if it is an `.shtml`
file.  At any moment the state of the connection says what of it is still unsent
(`HttpState.unsent`).  Reading a byte of the file leaves the unsent text as it is
(`HttpState.Reads.unsentParsing`), and bytes that are sent come from the front of it
(`HttpState.unsentBody_fileSent`).
-/

namespace HomeAuto.Httpd

open Template

variable {σ : Type} {T : Tcp σ} {site : Site}

/-! ## Writing -/

/-- What a write did: nothing, or it sent a beginning of the bytes it was given. -/
structure Wrote (pcb : Pcb σ) (ptr : CStr) (len : Nat) (w : Written σ) : Prop where
  le : w.err = .ok → w.len ≤ len
  pos : w.err = .ok → 0 < len → 0 < w.len
  sent : w.err = .ok → w.pcb.stream = pcb.stream ++ ptr.take w.len
  failed : w.err ≠ .ok → w.pcb.stream = pcb.stream

/-- TCP keeps the bytes of a write that it takes. -/
theorem tcpWrite_stream (pcb : Pcb σ) (bytes : CStr) :
    (tcpWrite T pcb bytes).2.stream =
      if (tcpWrite T pcb bytes).1 = .ok then pcb.stream ++ bytes else pcb.stream := rfl

/-- A retry asks for less. -/
theorem lessThan_lt {pcb : Pcb σ} {len : Nat} (h : 1 < lessThan T pcb len) :
    lessThan T pcb len < len := by
  unfold lessThan at h ⊢
  split <;> simp_all
  omega

/-- A write that finds no memory has written nothing. -/
theorem Wrote.of_mem {pcb : Pcb σ} {ptr : CStr} {len : Nat} {w : Written σ} (hmem : w.err = .mem)
    (hstream : w.pcb.stream = pcb.stream) : Wrote pcb ptr len w := by
  constructor <;> simp [hmem, hstream]

/-- The retries write a beginning of the data, or nothing, -/
theorem httpWriteLoop_wrote (ptr : CStr) (fuel : Nat) (pcb : Pcb σ) (len : Nat) :
    Wrote pcb ptr len (httpWriteLoop T ptr fuel pcb len) := by
  induction fuel generalizing pcb len with
  | zero => exact .of_mem rfl rfl
  | succ fuel ih =>
      have hstream := tcpWrite_stream (T := T) pcb (ptr.take len)
      rw [httpWriteLoop]
      by_cases hmem : (tcpWrite T pcb (ptr.take len)).1 = .mem
      · rw [hmem, if_neg (by simp)] at hstream
        rw [if_pos hmem]
        by_cases hmore : 1 < lessThan T (tcpWrite T pcb (ptr.take len)).2 len
        · rw [if_pos hmore]
          have hlt := lessThan_lt hmore
          have hrec := ih (tcpWrite T pcb (ptr.take len)).2
            (lessThan T (tcpWrite T pcb (ptr.take len)).2 len)
          exact ⟨fun hok => (hrec.le hok).trans hlt.le, fun hok _ => hrec.pos hok (by omega),
            fun hok => by rw [hrec.sent hok, hstream],
            fun hfail => (hrec.failed hfail).trans hstream⟩
        · rw [if_neg hmore]
          exact .of_mem rfl hstream
      · rw [if_neg hmem]
        refine ⟨fun _ => le_rfl, fun _ h => h, fun hok => ?_, fun hfail => ?_⟩
        · rwa [if_pos hok] at hstream
        · rwa [if_neg hfail] at hstream

/-- and so does `http_write`. -/
theorem httpWrite_wrote (pcb : Pcb σ) (ptr : CStr) (len : Nat) :
    Wrote pcb ptr len (httpWrite T pcb ptr len) :=
  httpWriteLoop_wrote ptr _ pcb len

/-! ## What is unsent -/

/-- The text that takes the place of a tag. -/
def Site.insert (site : Site) : Nat → CStr → CStr := getTagInsert site

/-- The response body for a file. -/
def body (site : Site) (page : Page) (tagCheck : Bool) : CStr :=
  if tagCheck then (tagMarks site.maxTagName).expand site.insert 0 .text [] page.data
  else page.data

namespace HttpState

/-- The state of the tag parser, as that of the template scanner. -/
def seen (site : Site) (hs : HttpState) : Seen UInt8 :=
  match hs.tagState with
  | .none => .text
  | .leadIn => (tagMarks site.maxTagName).inLeadIn hs.tagIndex
  | .found => .name (hs.tagName.take hs.tagIndex)
  | .leadOut => .leadOut hs.tagIndex hs.tagName
  | .sending => .text

/-- Where the parser may still find that a tag began: bytes from there on are held back. -/
def heldFrom (hs : HttpState) : Nat := if hs.tagState = .none then hs.parsed else hs.tagStarted

/-- How far the parser has read. -/
def readTo (hs : HttpState) : Nat := if hs.tagState = .sending then hs.tagEnd else hs.parsed

/-- What the rest of the file becomes from offset `off` on. -/
def rest (site : Site) (hs : HttpState) (off : Nat) : CStr :=
  (tagMarks site.maxTagName).expand site.insert hs.asked .text [] (hs.handle.data.drop off)

/-- The unsent part of the file while its tags are being looked for. -/
def unsentParsing (site : Site) (hs : HttpState) : CStr :=
  stretch hs.handle.data hs.file hs.heldFrom ++
    (tagMarks site.maxTagName).expand site.insert hs.asked (hs.seen site)
      (stretch hs.handle.data (max hs.file hs.heldFrom) hs.parsed) (hs.handle.data.drop hs.parsed)

/-- The unsent part of the file while an insert is being sent. -/
def unsentInserting (site : Site) (hs : HttpState) : CStr :=
  stretch hs.handle.data hs.file hs.tagStarted ++
    (hs.tagInsert.drop hs.tagIndex ++ hs.rest site hs.tagEnd)

/-- The unsent part of the file. -/
def unsentBody (site : Site) (hs : HttpState) : CStr :=
  if hs.tagCheck then
    if hs.tagState = .sending then hs.unsentInserting site else hs.unsentParsing site
  else hs.handle.data.drop hs.file

/-- The header strings that are unsent. -/
def unsentHeaders (hs : HttpState) : CStr :=
  ((hs.hdrs.take numFileHdrStrings).drop hs.hdrIndex).flatten.drop hs.hdrPos

/-- What is unsent of the response. -/
def unsent (site : Site) (hs : HttpState) : CStr := hs.unsentHeaders ++ hs.unsentBody site

/-- The index of the tag parser is one of its state. -/
def IndexOk (tagState : TagState) (tagName : CStr) (tagIndex : Nat) : Prop :=
  match tagState with
  | .none => True
  | .leadIn => 0 < tagIndex ∧ tagIndex ≤ 5
  | .found => tagIndex ≤ tagName.length
  | .leadOut => tagIndex < 3
  | .sending => True

/-- What holds of the parser wherever it stops. -/
structure Sound (site : Site) (hs : HttpState) : Prop where
  left_add : hs.left + hs.file = hs.handle.data.length
  tagEnd_le : hs.tagState = .sending → hs.tagStarted < hs.tagEnd ∧
    hs.tagEnd + hs.parseLeft = hs.handle.data.length ∧ hs.parsed = hs.tagStarted ∧
    (hs.file ≤ hs.tagStarted ∧ hs.tagIndex = 0 ∨
      hs.file = hs.tagEnd ∧ (hs.parseLeft = 0 → hs.tagIndex = 0))
  parsed_add : hs.tagState ≠ .sending → hs.parsed + hs.parseLeft = hs.handle.data.length ∧
    hs.file ≤ hs.parsed ∧ hs.heldFrom ≤ hs.parsed ∧ (hs.parseLeft ≠ 0 → hs.file ≤ hs.heldFrom)
  index : IndexOk hs.tagState hs.tagName hs.tagIndex
  tagInsert_le : hs.tagInsert.length ≤ httpdMaxTagInsertLen
  scanned : hs.tagState ≠ .sending →
    Marks.idle ((tagMarks site.maxTagName).scan .text (hs.handle.data.take hs.parsed)) =
      hs.seen site
  untagged : hs.tagState ≠ .sending → hs.parseLeft = 0 → ∀ name,
    (tagMarks site.maxTagName).scan .text (hs.handle.data.take hs.parsed) ≠ .tag name
  tagged : hs.tagState = .sending → ∃ name,
    (tagMarks site.maxTagName).scan .text (hs.handle.data.take hs.tagEnd) = .tag name ∧
      hs.tagInsert = site.insert (hs.asked - 1) name
  counted : hs.asked =
    ((tagMarks site.maxTagName).tags .text (hs.handle.data.take hs.readTo)).length

end HttpState

/-! ## Reading a byte of the file -/

namespace HttpState

/-- The fields which reading a byte leaves alone. -/
structure SameSending (hs hs' : HttpState) : Prop where
  handle : hs'.handle = hs.handle
  file : hs'.file = hs.file
  left : hs'.left = hs.left
  tagCheck : hs'.tagCheck = hs.tagCheck
  hdrs : hs'.hdrs = hs.hdrs
  hdrPos : hs'.hdrPos = hs.hdrPos
  hdrIndex : hs'.hdrIndex = hs.hdrIndex

/-- The byte at `parsed` is read: the parser goes on as the template scanner does. -/
structure Reads (site : Site) (hs hs' : HttpState) : Prop extends SameSending hs hs' where
  asked : hs'.asked = hs.asked
  tagInsert : hs'.tagInsert = hs.tagInsert
  parsed : hs'.parsed = hs.parsed + 1
  parseLeft : hs'.parseLeft + 1 = hs.parseLeft
  step : hs'.seen site =
    (tagMarks site.maxTagName).step (hs.seen site) (hs.handle.data.getD hs.parsed 0)
  tagState : hs'.tagState ≠ .sending
  started : hs'.tagState ≠ .none → hs'.tagStarted = hs.heldFrom
  index : IndexOk hs'.tagState hs'.tagName hs'.tagIndex

/-- Between two passes a tag is not complete: it is put in at once. -/
theorem seen_ne_tag (site : Site) (hs : HttpState) (name : CStr) : hs.seen site ≠ .tag name := by
  unfold seen
  cases hs.tagState with
  | leadIn => exact (Marks.inLeadIn_ne _).2 name
  | none | found | leadOut | sending => simp

theorem seen_eq_text {site : Site} {hs : HttpState} (hstate : hs.tagState ≠ .sending) :
    hs.seen site = .text ↔ hs.tagState = .none := by
  unfold seen
  cases h : hs.tagState with
  | leadIn => simp [(Marks.inLeadIn_ne (m := tagMarks site.maxTagName) hs.tagIndex).1]
  | sending => exact absurd h hstate
  | none | found | leadOut => simp

/-- Outside a tag everything parsed can go out; -/
theorem heldFrom_none {hs : HttpState} (h : hs.tagState = .none) : hs.heldFrom = hs.parsed :=
  if_pos h

/-- inside one, what stands before it. -/
theorem heldFrom_tag {hs : HttpState} (h : hs.tagState ≠ .none) : hs.heldFrom = hs.tagStarted :=
  if_neg h

/-- Reading more of the file changes nothing of what is still to be sent. -/
theorem Reads.unsentParsing {hs hs' : HttpState} (r : Reads site hs hs') (hsound : hs.Sound site)
    (hstate : hs.tagState ≠ .sending) (hleft : hs.parseLeft ≠ 0) :
    hs'.unsentParsing site = hs.unsentParsing site := by
  obtain ⟨hend, hfile, hheld, hfrom⟩ := hsound.parsed_add hstate
  have hfrom := hfrom hleft
  have hlt : hs.parsed < hs.handle.data.length := by omega
  have hrest : hs.handle.data.drop hs.parsed =
      hs.handle.data.getD hs.parsed 0 :: hs.handle.data.drop (hs.parsed + 1) := by
    rw [List.drop_eq_getElem_cons hlt, List.getD_eq_getElem _ _ hlt]
  unfold HttpState.unsentParsing
  rw [r.handle, r.file, r.asked, r.parsed, hrest, max_eq_right hfrom]
  by_cases hnone : hs'.tagState = .none
  · have htext : hs'.seen site = .text := (seen_eq_text r.tagState).mpr hnone
    have hstep := r.step
    rw [htext] at hstep
    have hheld' : hs'.heldFrom = hs.parsed + 1 := by rw [heldFrom_none hnone, r.parsed]
    rw [hheld', max_eq_right (by omega), stretch_self, htext, Marks.expand, ← hstep,
      stretch_succ _ (by omega) hlt 0, ← stretch_append _ hfrom hheld]
    simp only [List.append_assoc, List.singleton_append]
  · have hheld' : hs'.heldFrom = hs.heldFrom := by
      rw [heldFrom_tag hnone, r.started hnone]
    rw [hheld', max_eq_right hfrom, stretch_succ _ hheld hlt 0,
      Marks.expand_inside r.step.symm (fun h => hnone ((seen_eq_text r.tagState).mp h))
        (seen_ne_tag site hs')]

/-- One more byte is one more step of the scanner, -/
theorem scan_take_succ {data : CStr} {i n : Nat} (h : i < data.length) :
    (tagMarks n).scan .text (data.take (i + 1)) =
      (tagMarks n).step ((tagMarks n).scan .text (data.take i)) (data.getD i 0) := by
  rw [List.take_succ_eq_append_getElem h, Marks.scan_append, List.getD_eq_getElem _ _ h]
  rfl

/-- and it completes a tag or none. -/
theorem tags_take_succ {data : CStr} {i n : Nat} (h : i < data.length) :
    (tagMarks n).tags .text (data.take (i + 1)) = (tagMarks n).tags .text (data.take i) ++
      (tagMarks n).tags ((tagMarks n).scan .text (data.take i)) [data.getD i 0] := by
  rw [List.take_succ_eq_append_getElem h, Marks.tags_append, List.getD_eq_getElem _ _ h]

theorem readTo_parsing {hs : HttpState} (h : hs.tagState ≠ .sending) : hs.readTo = hs.parsed :=
  if_neg h

theorem readTo_sending {hs : HttpState} (h : hs.tagState = .sending) : hs.readTo = hs.tagEnd :=
  if_pos h

/-- Reading keeps the state of a connection sound. -/
theorem Reads.sound {hs hs' : HttpState} (r : Reads site hs hs') (hsound : hs.Sound site)
    (hstate : hs.tagState ≠ .sending) : hs'.Sound site := by
  obtain ⟨hend, hfile, hheld, hfrom⟩ := hsound.parsed_add hstate
  have hleft := r.parseLeft
  have hheld' : hs'.heldFrom ≤ hs'.parsed ∧ hs.heldFrom ≤ hs'.heldFrom := by
    by_cases hnone : hs'.tagState = .none
    · rw [heldFrom_none hnone, r.parsed]
      omega
    · rw [heldFrom_tag hnone, r.started hnone, r.parsed]
      omega
  have hlt : hs.parsed < hs.handle.data.length := by omega
  have hstep : (tagMarks site.maxTagName).step
      ((tagMarks site.maxTagName).scan .text (hs.handle.data.take hs.parsed))
      (hs.handle.data.getD hs.parsed 0) = hs'.seen site := by
    rw [← Marks.step_idle, hsound.scanned hstate, ← r.step]
  have hscan : (tagMarks site.maxTagName).scan .text (hs'.handle.data.take hs'.parsed) =
      hs'.seen site := by
    rw [r.handle, r.parsed, scan_take_succ hlt, hstep]
  exact {
    left_add := by rw [r.left, r.file, r.handle]; exact hsound.left_add
    tagEnd_le := fun h => absurd h r.tagState
    parsed_add := fun _ => by
      rw [r.parsed, r.handle, r.file]
      have := r.parsed
      have := hfrom (by omega)
      omega
    index := r.index
    tagInsert_le := by rw [r.tagInsert]; exact hsound.tagInsert_le
    scanned := fun _ => by rw [hscan, Marks.idle_eq_self (seen_ne_tag site hs')]
    untagged := fun _ _ name => by rw [hscan]; exact seen_ne_tag site hs' name
    tagged := fun h => absurd h r.tagState
    counted := by
      have hnone := Marks.tags_single (m := tagMarks site.maxTagName)
        (fun name => by rw [hstep]; exact seen_ne_tag site hs' name)
      rw [readTo_parsing r.tagState, r.asked, r.handle, r.parsed, tags_take_succ hlt, hnone,
        List.append_nil, ← readTo_parsing hstate]
      exact hsound.counted }

end HttpState

theorem leadIn_length (n : Nat) : (tagMarks n).leadIn.length = 5 := rfl

theorem leadOut_length (n : Nat) : (tagMarks n).leadOut.length = 3 := rfl

/-- A byte of a text, as the scanner and as C reads it. -/
theorem getElem?_eq_some_iff_charAt {s : CStr} {i : Nat} (h : i < s.length) (c : UInt8) :
    s[i]? = some c ↔ c = charAt s i := by
  rw [charAt, List.getD_eq_getElem _ _ h, List.getElem?_eq_getElem h, Option.some_inj, eq_comm]

namespace Sending

/-- A pass of the parsing loop that reads a byte, and does nothing else. -/
structure Scans (site : Site) (x y : Sending σ) : Prop where
  reads : x.hs.Reads site y.hs
  pcb : y.pcb = x.pcb
  len : y.len = x.len
  err : y.err = x.err

/-- A pass that moves the parser by one byte and steps the scanner with it. -/
theorem scans_advance (x : Sending σ) (started : Nat) (tagName : CStr) {tagState : TagState}
    {tagIndex : Nat} (hleft : x.hs.parseLeft ≠ 0) (hsending : tagState ≠ .sending)
    (hstarted : tagState ≠ .none → started = x.hs.heldFrom)
    (hindex : HttpState.IndexOk tagState tagName tagIndex)
    (hstep : ({ x.hs with tagName := tagName, tagState := tagState, tagIndex := tagIndex }
      : HttpState).seen site = (tagMarks site.maxTagName).step (x.hs.seen site) x.char) :
    x.Scans site
      (({ x with hs := { x.hs with tagStarted := started, tagName := tagName } }).advance tagState
        tagIndex) := by
  refine ⟨⟨⟨rfl, rfl, rfl, rfl, rfl, rfl, rfl⟩, rfl, rfl, rfl, ?_, hstep, hsending, hstarted,
    hindex⟩, rfl, rfl, rfl⟩
  exact Nat.sub_add_cancel (Nat.pos_of_ne_zero hleft)

/-- Outside a tag the parser looks for the lead-in. -/
theorem passNone_scans {x : Sending σ} (hstate : x.hs.tagState = .none)
    (hleft : x.hs.parseLeft ≠ 0) : x.Scans site x.passNone := by
  have hseen : x.hs.seen site = .text := (HttpState.seen_eq_text (by simp [hstate])).mpr hstate
  have hfirst (c : UInt8) :
      (tagMarks site.maxTagName).leadIn[0]? = some c ↔ c = charAt pcTagLeadIn 0 :=
    getElem?_eq_some_iff_charAt (by rw [leadIn_length]; decide) c
  unfold passNone
  split
  · next hc =>
      exact x.scans_advance _ x.hs.tagName hleft (by simp)
        (fun _ => (HttpState.heldFrom_none hstate).symm) ⟨Nat.one_pos, by decide⟩
        (by rw [hseen]; exact (if_pos ((hfirst _).mpr hc)).symm)
  · next hc =>
      exact x.scans_advance x.hs.tagStarted x.hs.tagName hleft (by simp)
        (fun h => absurd rfl h) trivial
        (by rw [hseen]; exact (if_neg (mt (hfirst _).mp hc)).symm)

/-- In the lead-in a wrong byte goes back to plain text. -/
theorem passLeadIn_scans {x : Sending σ} (hsound : x.hs.Sound site) (hstate : x.hs.tagState = .leadIn)
    (hleft : x.hs.parseLeft ≠ 0) (hmore : x.hs.tagIndex ≠ 5) :
    x.Scans site x.passLeadIn := by
  have hindex := hsound.index
  rw [hstate] at hindex
  change 0 < x.hs.tagIndex ∧ x.hs.tagIndex ≤ 5 at hindex
  have hlen := leadIn_length site.maxTagName
  have hseen : x.hs.seen site = .leadIn x.hs.tagIndex := by
    unfold HttpState.seen
    rw [hstate]
    exact if_neg (fun h => hmore (h.trans hlen))
  have hchar : (tagMarks site.maxTagName).leadIn[x.hs.tagIndex]? = some x.char ↔
      x.char = charAt pcTagLeadIn x.hs.tagIndex :=
    getElem?_eq_some_iff_charAt (by rw [hlen]; have := hindex.2; omega) _
  have hheld : x.hs.tagStarted = x.hs.heldFrom :=
    (HttpState.heldFrom_tag (by simp [hstate])).symm
  unfold passLeadIn
  rw [if_neg (fun h => hmore (h.trans hlen))]
  split
  · next hc =>
      exact x.scans_advance x.hs.tagStarted x.hs.tagName hleft (by simp)
        (fun _ => hheld) ⟨by omega, by omega⟩
        (by rw [hseen]; exact (if_pos (hchar.mpr hc)).symm)
  · next hc =>
      exact x.scans_advance x.hs.tagStarted x.hs.tagName hleft (by simp)
        (fun h => absurd rfl h) trivial
        (by rw [hseen]; exact (if_neg (mt hchar.mp hc)).symm)

/-- A name grows by a byte, ends at a blank or the lead-out, or is none. -/
theorem passFound_scans {x : Sending σ} (hsound : x.hs.Sound site) (hstate : x.hs.tagState = .found)
    (hleft : x.hs.parseLeft ≠ 0) : x.Scans site (x.passFound site) := by
  have hindex := hsound.index
  rw [hstate] at hindex
  have hlength : (x.hs.tagName.take x.hs.tagIndex).length = x.hs.tagIndex :=
    List.length_take_of_le hindex
  have hempty : x.hs.tagName.take x.hs.tagIndex = [] ↔ x.hs.tagIndex = 0 := by
    rw [← List.length_eq_zero_iff, hlength]
  have hseen : x.hs.seen site = .name (x.hs.tagName.take x.hs.tagIndex) := by
    unfold HttpState.seen
    rw [hstate]
  have hlead : (tagMarks site.maxTagName).leadOut[0]? = some x.char ↔
      x.char = charAt pcTagLeadOut 0 :=
    getElem?_eq_some_iff_charAt (by rw [leadOut_length]; decide) _
  have hheld : x.hs.tagStarted = x.hs.heldFrom :=
    (HttpState.heldFrom_tag (by simp [hstate])).symm
  have hstep : (tagMarks site.maxTagName).step (x.hs.seen site) x.char =
      if x.hs.tagIndex = 0 ∧ isTagBlank x.char then .name []
      else if x.char = charAt pcTagLeadOut 0 ∨ isTagBlank x.char then
        if x.hs.tagIndex = 0 then .text
        else .leadOut (if x.char = charAt pcTagLeadOut 0 then 1 else 0)
          (x.hs.tagName.take x.hs.tagIndex)
      else if x.hs.tagIndex < site.maxTagName then
        .name (x.hs.tagName.take x.hs.tagIndex ++ [x.char])
      else .text := by
    have hblank : (tagMarks site.maxTagName).blank x.char = isTagBlank x.char := rfl
    have hmax : (tagMarks site.maxTagName).maxName = site.maxTagName := rfl
    rw [hseen]
    simp only [Marks.step, Marks.stepName, hempty, hlead, hlength, hblank, hmax]
    have hone : (tagMarks site.maxTagName).inLeadOut 1 (x.hs.tagName.take x.hs.tagIndex) =
        .leadOut 1 (x.hs.tagName.take x.hs.tagIndex) :=
      if_neg (by rw [leadOut_length]; decide)
    rw [hone]
    split_ifs <;> rfl
  unfold passFound
  by_cases hblank : x.hs.tagIndex = 0 ∧ isTagBlank x.char
  · rw [if_pos hblank] at hstep ⊢
    exact x.scans_advance x.hs.tagStarted x.hs.tagName hleft (by simp)
      (fun _ => hheld) (Nat.zero_le _) hstep.symm
  rw [if_neg hblank] at hstep ⊢
  by_cases hclose : x.char = charAt pcTagLeadOut 0 ∨ isTagBlank x.char
  · rw [if_pos hclose] at hstep ⊢
    by_cases hzero : x.hs.tagIndex = 0
    · rw [if_pos hzero] at hstep ⊢
      exact x.scans_advance x.hs.tagStarted x.hs.tagName hleft (by simp)
        (fun h => absurd rfl h) trivial hstep.symm
    · rw [if_neg hzero] at hstep ⊢
      have hindex : (if x.char = charAt pcTagLeadOut 0 then 1 else 0) < 3 := by split <;> decide
      exact x.scans_advance x.hs.tagStarted _ hleft (by simp) (fun _ => hheld) hindex
        hstep.symm
  rw [if_neg hclose] at hstep ⊢
  by_cases hroom : x.hs.tagIndex < site.maxTagName
  · rw [if_pos hroom] at hstep ⊢
    have hlonger : (x.hs.tagName.take x.hs.tagIndex ++ [x.char]).length = x.hs.tagIndex + 1 := by
      rw [List.length_append, hlength]
      rfl
    refine x.scans_advance x.hs.tagStarted _ hleft (by simp) (fun _ => hheld)
      hlonger.ge ?_
    rw [hstep]
    exact congrArg Seen.name (List.take_of_length_le hlonger.le)
  · rw [if_neg hroom] at hstep ⊢
    exact x.scans_advance x.hs.tagStarted x.hs.tagName hleft (by simp)
      (fun h => absurd rfl h) trivial hstep.symm

/-- The last byte of the lead-out. -/
def LastByte (x : Sending σ) : Prop :=
  x.hs.tagState = .leadOut ∧ x.hs.tagIndex = 2 ∧ x.char = charAt pcTagLeadOut 2

/-- The lead-out as the scanner reads it: blanks first, then its three bytes. -/
theorem leadOut_step {x : Sending σ} (hsound : x.hs.Sound site) (hstate : x.hs.tagState = .leadOut) :
    (tagMarks site.maxTagName).step (x.hs.seen site) x.char =
      if x.hs.tagIndex = 0 ∧ isTagBlank x.char then .leadOut 0 x.hs.tagName
      else if x.char = charAt pcTagLeadOut x.hs.tagIndex then
        if x.hs.tagIndex = 2 then .tag x.hs.tagName
        else .leadOut (x.hs.tagIndex + 1) x.hs.tagName
      else .text := by
  have hindex := hsound.index
  rw [hstate] at hindex
  have hchar : (tagMarks site.maxTagName).leadOut[x.hs.tagIndex]? = some x.char ↔
      x.char = charAt pcTagLeadOut x.hs.tagIndex :=
    getElem?_eq_some_iff_charAt hindex _
  have hend : (tagMarks site.maxTagName).inLeadOut (x.hs.tagIndex + 1) x.hs.tagName =
      if x.hs.tagIndex = 2 then .tag x.hs.tagName
      else .leadOut (x.hs.tagIndex + 1) x.hs.tagName := by
    rw [Marks.inLeadOut, leadOut_length]
    simp only [Nat.reduceEqDiff]
  have hblank : (tagMarks site.maxTagName).blank x.char = isTagBlank x.char := rfl
  have hseen : x.hs.seen site = .leadOut x.hs.tagIndex x.hs.tagName := by
    unfold HttpState.seen
    rw [hstate]
  rw [hseen]
  simp only [Marks.step, hchar, hend, hblank]

/-- In the lead-out a byte continues it, or the text is plain again. -/
theorem passLeadOut_scans {x : Sending σ} (hsound : x.hs.Sound site)
    (hstate : x.hs.tagState = .leadOut) (hleft : x.hs.parseLeft ≠ 0) (hmore : ¬x.LastByte) :
    x.Scans site (x.passLeadOut T site) := by
  have hindex := hsound.index
  rw [hstate] at hindex
  have hheld : x.hs.tagStarted = x.hs.heldFrom :=
    (HttpState.heldFrom_tag (by simp [hstate])).symm
  have hstep := leadOut_step hsound hstate
  unfold passLeadOut
  by_cases hblank : x.hs.tagIndex = 0 ∧ isTagBlank x.char
  · rw [if_pos hblank] at hstep ⊢
    exact x.scans_advance x.hs.tagStarted x.hs.tagName hleft (by simp)
      (fun _ => hheld) (by decide : 0 < 3) hstep.symm
  rw [if_neg hblank] at hstep ⊢
  by_cases hchar : x.char = charAt pcTagLeadOut x.hs.tagIndex
  · have htwo : x.hs.tagIndex ≠ 2 := fun h => hmore ⟨hstate, h, h ▸ hchar⟩
    have hlast : x.hs.tagIndex ≠ pcTagLeadOut.length - 1 := htwo
    rw [if_pos hchar, if_neg htwo] at hstep
    rw [if_pos hchar, if_neg hlast]
    have hnext : x.hs.tagIndex + 1 < 3 := by
      change x.hs.tagIndex < 3 at hindex
      omega
    exact x.scans_advance x.hs.tagStarted x.hs.tagName hleft (by simp)
      (fun _ => hheld) hnext hstep.symm
  · rw [if_neg hchar] at hstep ⊢
    exact x.scans_advance x.hs.tagStarted x.hs.tagName hleft (by simp)
      (fun h => absurd rfl h) trivial hstep.symm

end Sending

/-! ## Sending bytes of the file -/

namespace HttpState

/-- The next `n` bytes of the file are owed as they are. -/
structure CanSend (hs : HttpState) (n : Nat) : Prop where
  le_left : n ≤ hs.left
  parsing : hs.tagCheck = true → hs.tagState ≠ .sending →
    hs.file + n ≤ hs.parsed ∧ (hs.file + n ≤ hs.heldFrom ∨ hs.parseLeft = 0)
  inserting : hs.tagCheck = true → hs.tagState = .sending → hs.file + n ≤ hs.tagStarted

/-- What can be sent can be sent in part. -/
theorem CanSend.mono {hs : HttpState} {m n : Nat} (h : hs.CanSend n) (hmn : m ≤ n) :
    hs.CanSend m where
  le_left := hmn.trans h.le_left
  parsing htag hstate := by
    have := h.parsing htag hstate
    omega
  inserting htag hstate := by
    have := h.inserting htag hstate
    omega

theorem unsentBody_inserting (hs : HttpState) (htag : hs.tagCheck = true)
    (hstate : hs.tagState = .sending) : hs.unsentBody site = hs.unsentInserting site := by
  rw [unsentBody, if_pos htag, if_pos hstate]

theorem unsentBody_parsing (hs : HttpState) (htag : hs.tagCheck = true)
    (hstate : hs.tagState ≠ .sending) : hs.unsentBody site = hs.unsentParsing site := by
  rw [unsentBody, if_pos htag, if_neg hstate]

/-- Once all of the file is parsed, what is unsent is its rest. -/
theorem unsentParsing_done (hs : HttpState) (hend : hs.parsed = hs.handle.data.length)
    (hfile : hs.file ≤ hs.parsed) (hheld : hs.heldFrom ≤ hs.parsed) :
    hs.unsentParsing site = hs.handle.data.drop hs.file := by
  have hnil : hs.handle.data.drop hs.parsed = [] := List.drop_of_length_le (by omega)
  rw [unsentParsing, hnil, Marks.expand_nil]
  rcases Nat.le_total hs.file hs.heldFrom with h | h
  · rw [max_eq_right h, stretch_append _ h hheld, ← stretch_drop hs.handle.data hfile, hnil,
      List.append_nil]
  · rw [max_eq_left h, stretch_of_le _ h, List.nil_append, ← stretch_drop hs.handle.data hfile,
      hnil, List.append_nil]

/-- The bytes that are sent were the next ones owed. -/
theorem unsentBody_fileSent {hs : HttpState} (hsound : hs.Sound site) {n : Nat} (h : hs.CanSend n) :
    hs.unsentBody site = stretch hs.handle.data hs.file (hs.file + n) ++
      (hs.fileSent n).unsentBody site := by
  unfold unsentBody
  change _ = _ ++ (if hs.tagCheck = true then if hs.tagState = .sending then _ else _ else _)
  have hle : hs.file ≤ hs.file + n := Nat.le_add_right _ _
  by_cases htag : hs.tagCheck = true
  · rw [if_pos htag, if_pos htag]
    by_cases hstate : hs.tagState = .sending
    · have hroom := h.inserting htag hstate
      have hsplit := stretch_append hs.handle.data hle hroom
      rw [if_pos hstate, if_pos hstate, unsentInserting, ← hsplit, List.append_assoc]
      rfl
    · rw [if_neg hstate, if_neg hstate]
      obtain ⟨hparsed, hheld | hdone⟩ := h.parsing htag hstate
      · have hsplit := stretch_append hs.handle.data hle hheld
        have hheld' : max (hs.fileSent n).file (hs.fileSent n).heldFrom = hs.heldFrom :=
          max_eq_right hheld
        rw [unsentParsing, unsentParsing, hheld', max_eq_right (hle.trans hheld), ← hsplit,
          List.append_assoc]
        rfl
      · obtain ⟨hend, hfile, hheld, -⟩ := hsound.parsed_add hstate
        have hend : hs.parsed = hs.handle.data.length := by omega
        rw [unsentParsing_done hs hend hfile hheld,
          unsentParsing_done (hs.fileSent n) hend hparsed hheld]
        exact (stretch_drop _ hle).symm
  · rw [if_neg htag, if_neg htag]
    exact (stretch_drop _ hle).symm

/-- Sending from the file keeps the state sound. -/
theorem sound_fileSent {hs : HttpState} (hsound : hs.Sound site) (htag : hs.tagCheck = true) {n : Nat}
    (h : hs.CanSend n) : (hs.fileSent n).Sound site where
  left_add := by
    have := hsound.left_add
    have := h.le_left
    change hs.left - n + (hs.file + n) = hs.handle.data.length
    omega
  tagEnd_le hstate := by
    obtain ⟨hlt, hend, hparsed, hfile⟩ := hsound.tagEnd_le hstate
    have hroom := h.inserting htag hstate
    refine ⟨hlt, hend, hparsed, .inl ⟨hroom, ?_⟩⟩
    rcases hfile with ⟨-, hindex⟩ | ⟨hpast, -⟩
    · exact hindex
    · omega
  parsed_add hstate := by
    obtain ⟨hend, hfile, hheld, hfrom⟩ := hsound.parsed_add hstate
    obtain ⟨hroom, hcan⟩ := h.parsing htag hstate
    refine ⟨hend, hroom, hheld, fun hleft => ?_⟩
    rcases hcan with hcan | hcan
    · exact hcan
    · exact absurd hcan hleft
  index := hsound.index
  tagInsert_le := hsound.tagInsert_le
  scanned := hsound.scanned
  untagged := hsound.untagged
  tagged := hsound.tagged
  counted := hsound.counted

end HttpState

end HomeAuto.Httpd
