import HomeAuto.HttpdSteps

/-!
# What a pass of the parsing loop does

Every pass of the parsing loop of `http_send_data` keeps the sent bytes and the unsent ones
together the same text (`Sending.Passes.keeps`), and unless a write fails it brings the loop
closer to its end (`Sending.Passes.decreases`).
-/

namespace HomeAuto.Httpd

open Template

variable {σ : Type} {T : Tcp σ} {site : Site}

namespace Sending

/-- A part of `http_send_data` that only moves bytes from the unsent to the sent ones. -/
structure Keeps (site : Site) (x y : Sending σ) : Prop where
  sound : y.hs.Sound site
  text : y.pcb.stream ++ y.hs.unsentBody site = x.pcb.stream ++ x.hs.unsentBody site
  handle : y.hs.handle = x.hs.handle
  tagCheck : y.hs.tagCheck = x.hs.tagCheck
  hdrIndex : y.hs.hdrIndex = x.hs.hdrIndex

theorem Keeps.refl {x : Sending σ} (h : x.hs.Sound site) : x.Keeps site x :=
  ⟨h, rfl, rfl, rfl, rfl⟩

theorem Keeps.trans {x y z : Sending σ} (hxy : x.Keeps site y) (hyz : y.Keeps site z) :
    x.Keeps site z where
  sound := hyz.sound
  text := hyz.text.trans hxy.text
  handle := hyz.handle.trans hxy.handle
  tagCheck := hyz.tagCheck.trans hxy.tagCheck
  hdrIndex := hyz.hdrIndex.trans hxy.hdrIndex

theorem httpWriteFile_wrote (x : Sending σ) (len : Nat) :
    Wrote x.pcb (x.hs.handle.data.drop x.hs.file) len (x.httpWriteFile T len) :=
  httpWrite_wrote _ _ _

theorem mod_of_le_left {hs : HttpState} (hsound : hs.Sound site) {n : Nat} (h : n ≤ hs.left) :
    n % 65536 = n := by
  have hadd := hsound.left_add
  have hlt := hs.handle.length_lt
  exact Nat.mod_eq_of_lt (by omega)

/-- A write from the file that fails changes nothing. -/
theorem writeFile_fails {x : Sending σ} (hsound : x.hs.Sound site) {len : Nat} (skipped : Nat)
    (hfail : (x.httpWriteFile T len).err ≠ .ok) : x.Keeps site (x.writeFile T len skipped) := by
  have hw := httpWriteFile_wrote (T := T) x len
  rw [writeFile, if_neg hfail]
  exact ⟨hsound, by rw [hw.failed hfail], rfl, rfl, rfl⟩

/-- Bytes that are owed as they are, are sent. -/
theorem writeFile_keeps {x : Sending σ} (hsound : x.hs.Sound site) (htag : x.hs.tagCheck = true)
    {len : Nat} (hcan : x.hs.CanSend len) : x.Keeps site (x.writeFile T len 0) := by
  have hw := httpWriteFile_wrote (T := T) x len
  by_cases hok : (x.httpWriteFile T len).err = .ok
  · have hcan' := hcan.mono (hw.le hok)
    rw [writeFile, if_pos hok, Nat.add_zero, mod_of_le_left hsound hcan'.le_left]
    refine ⟨HttpState.sound_fileSent hsound htag hcan', ?_, rfl, rfl, rfl⟩
    rw [hw.sent hok, take_drop_eq_stretch, List.append_assoc,
      ← HttpState.unsentBody_fileSent hsound hcan']
  · exact writeFile_fails hsound 0 hok

/-! ## The tag and its insert -/

/-- All in front of the tag is sent; the tag is skipped. -/
theorem skipTag_keeps {x y : Sending σ} (hsound : x.hs.Sound site) (htag : x.hs.tagCheck = true)
    (hstate : x.hs.tagState = .sending) (hfile : x.hs.file = x.hs.tagStarted)
    (hindex : x.hs.tagIndex = 0)
    (hhs : y.hs = x.hs.fileSent (x.hs.tagEnd - x.hs.tagStarted))
    (hstream : y.pcb.stream = x.pcb.stream) : x.Keeps site y := by
  obtain ⟨hlt, hend, hparsed, -⟩ := hsound.tagEnd_le hstate
  have hadd := hsound.left_add
  have hpast : x.hs.file + (x.hs.tagEnd - x.hs.tagStarted) = x.hs.tagEnd := by omega
  refine ⟨?_, ?_, by rw [hhs]; rfl, by rw [hhs]; rfl, by rw [hhs]; rfl⟩
  · rw [hhs]
    exact {
      left_add := by
        change x.hs.left - _ + (x.hs.file + _) = x.hs.handle.data.length
        omega
      tagEnd_le := fun _ => ⟨hlt, hend, hparsed, .inr ⟨hpast, fun _ => hindex⟩⟩
      parsed_add := fun h => absurd hstate h
      index := hsound.index
      tagInsert_le := hsound.tagInsert_le
      scanned := hsound.scanned
      untagged := hsound.untagged
      tagged := hsound.tagged
      counted := hsound.counted }
  · rw [hstream, hhs, HttpState.unsentBody_inserting _ htag hstate,
      HttpState.unsentBody_inserting (x.hs.fileSent _) htag hstate]
    have hgone : stretch x.hs.handle.data (x.hs.file + (x.hs.tagEnd - x.hs.tagStarted))
        x.hs.tagStarted = [] := stretch_of_le _ (by omega)
    have hnone : stretch x.hs.handle.data x.hs.file x.hs.tagStarted = [] :=
      stretch_of_le _ hfile.ge
    rw [HttpState.unsentInserting, HttpState.unsentInserting, hnone]
    exact congrArg _ (congrArg (· ++ _) hgone)

theorem writeBeforeTag_keeps {x : Sending σ} (hsound : x.hs.Sound site) (htag : x.hs.tagCheck = true)
    (hstate : x.hs.tagState = .sending) (hfile : x.hs.file < x.hs.tagEnd) (empty : Bool) :
    x.Keeps site (x.writeBeforeTag T empty) := by
  obtain ⟨hlt, hend, -, hor⟩ := hsound.tagEnd_le hstate
  have hle : x.hs.file ≤ x.hs.tagStarted ∧ x.hs.tagIndex = 0 := by omega
  obtain ⟨hle, hindex⟩ := hle
  have hadd := hsound.left_add
  unfold writeBeforeTag
  by_cases hbefore : x.hs.tagStarted ≤ x.hs.file
  · have hat : x.hs.file = x.hs.tagStarted := le_antisymm hle hbefore
    have hskip : x.skippedTag % 65536 = x.hs.tagEnd - x.hs.tagStarted := by
      rw [skippedTag, if_pos hbefore]
      exact mod_of_le_left hsound (by omega)
    have hnone : x.lenBeforeTag = 0 := by
      unfold lenBeforeTag
      split <;> omega
    rw [hnone]
    split
    · by_cases hok : (x.httpWriteFile T 0).err = .ok
      · have hw := httpWriteFile_wrote (T := T) x 0
        have hzero := Nat.le_zero.mp (hw.le hok)
        rw [writeFile, if_pos hok, hzero, Nat.zero_add, hskip]
        exact skipTag_keeps hsound htag hstate hat hindex rfl (by rw [hw.sent hok, hzero]; simp)
      · exact writeFile_fails hsound _ hok
    · rw [hskip]
      exact skipTag_keeps hsound htag hstate hat hindex rfl rfl
  · have hskip : x.skippedTag = 0 := if_neg hbefore
    have hroom : x.lenBeforeTag ≤ x.hs.tagStarted - x.hs.file := by
      unfold lenBeforeTag
      split <;> omega
    rw [hskip]
    split
    · exact writeFile_keeps hsound htag
        ⟨by omega, fun _ h => absurd hstate h, fun _ _ => by omega⟩
    · exact ⟨hsound, rfl, rfl, rfl, rfl⟩

/-- A piece of the insert is sent. -/
theorem writeInsert_keeps {x : Sending σ} (hsound : x.hs.Sound site) (htag : x.hs.tagCheck = true)
    (hleft : x.hs.parseLeft ≠ 0) (hstate : x.hs.tagState = .sending)
    (hfile : ¬x.hs.file < x.hs.tagEnd) :
    x.Keeps site (x.writeInsert T) := by
  obtain ⟨hlt, hend, hparsed, hor⟩ := hsound.tagEnd_le hstate
  have hat : x.hs.file = x.hs.tagEnd := by omega
  have hgone : stretch x.hs.handle.data x.hs.file x.hs.tagStarted = [] :=
    stretch_of_le _ (by omega)
  have hw : Wrote x.pcb (x.hs.tagInsert.drop x.hs.tagIndex) x.lenOfInsert (x.httpWriteInsert T) :=
    httpWrite_wrote _ _ _
  unfold writeInsert
  generalize x.httpWriteInsert T = w at hw ⊢
  by_cases hok : w.err = .ok
  · rw [if_pos hok]
    refine ⟨⟨hsound.left_add,
      fun _ => ⟨hlt, hend, hparsed, .inr ⟨hat, fun h => absurd h hleft⟩⟩,
      fun h => absurd hstate h, ?_, hsound.tagInsert_le, fun h => absurd hstate h,
      fun h => absurd hstate h, hsound.tagged, hsound.counted⟩, ?_, rfl, rfl, rfl⟩
    · change HttpState.IndexOk x.hs.tagState _ _
      rw [hstate]
      trivial
    · have hpiece : x.hs.tagInsert.drop x.hs.tagIndex =
          (x.hs.tagInsert.drop x.hs.tagIndex).take w.len ++
            x.hs.tagInsert.drop (x.hs.tagIndex + w.len) := by
        rw [← List.drop_drop, List.take_append_drop]
      have hnext : (x.hs.insertSent w.len).unsentBody site =
          x.hs.tagInsert.drop (x.hs.tagIndex + w.len) ++ x.hs.rest site x.hs.tagEnd := by
        rw [HttpState.unsentBody_inserting (x.hs.insertSent w.len) htag hstate]
        exact congrArg (· ++ _) hgone
      rw [HttpState.unsentBody_inserting x.hs htag hstate, HttpState.unsentInserting, hgone,
        List.nil_append, hpiece, hnext, hw.sent hok]
      simp only [List.append_assoc]
  · rw [if_neg hok]
    exact ⟨hsound, by rw [hw.failed hok], rfl, rfl, rfl⟩

/-- All of the insert is sent; the parser goes on behind the tag. -/
theorem insertDone_keeps {x : Sending σ} (hsound : x.hs.Sound site) (htag : x.hs.tagCheck = true)
    (hleft : x.hs.parseLeft ≠ 0) (hstate : x.hs.tagState = .sending)
    (hfile : ¬x.hs.file < x.hs.tagEnd)
    (hdone : ¬x.hs.tagIndex < x.hs.tagInsert.length) :
    x.Keeps site { x with hs := x.hs.insertDone } := by
  obtain ⟨hlt, hend, hparsed, hor⟩ := hsound.tagEnd_le hstate
  have hat : x.hs.file = x.hs.tagEnd := by omega
  have hgone : stretch x.hs.handle.data x.hs.file x.hs.tagStarted = [] :=
    stretch_of_le _ (by omega)
  have hsent : x.hs.tagInsert.drop x.hs.tagIndex = [] := List.drop_of_length_le (by omega)
  have hnone : stretch x.hs.handle.data x.hs.file x.hs.tagEnd = [] := stretch_of_le _ hat.ge
  have hempty : stretch x.hs.handle.data (max x.hs.file x.hs.tagEnd) x.hs.tagEnd = [] :=
    stretch_of_le _ (le_max_right _ _)
  refine ⟨⟨hsound.left_add, fun h => absurd h (by simp [HttpState.insertDone]),
    fun _ => ⟨hend, hat.le, le_rfl, fun _ => hat.le⟩, trivial, hsound.tagInsert_le, fun _ => ?_,
    fun _ h => absurd h hleft, fun h => absurd h (by simp [HttpState.insertDone]), ?_⟩, ?_, rfl,
    rfl, rfl⟩
  · obtain ⟨name, hname, -⟩ := hsound.tagged hstate
    exact congrArg Marks.idle hname
  · have hcounted := hsound.counted
    rw [HttpState.readTo_sending hstate] at hcounted
    exact hcounted
  have hnext : x.hs.insertDone.unsentBody site = x.hs.rest site x.hs.tagEnd := by
    rw [HttpState.unsentBody_parsing x.hs.insertDone htag (by simp [HttpState.insertDone]),
      HttpState.unsentParsing, HttpState.heldFrom_none (rfl : x.hs.insertDone.tagState = .none)]
    change stretch x.hs.handle.data x.hs.file x.hs.tagEnd ++ Marks.expand _ _ _ _
      (stretch x.hs.handle.data (max x.hs.file x.hs.tagEnd) x.hs.tagEnd) _ = _
    rw [hnone, hempty, List.nil_append]
    rfl
  rw [HttpState.unsentBody_inserting x.hs htag hstate, HttpState.unsentInserting, hgone, hsent,
    List.nil_append, List.nil_append]
  exact congrArg _ hnext

/-- What an unknown tag becomes is no longer than an insert. -/
theorem getTagInsert_le (site : Site) (asked : Nat) (tagName : CStr) :
    (getTagInsert site asked tagName).length ≤ httpdMaxTagInsertLen := by
  unfold getTagInsert
  split
  · exact site.ssiHandler_le _ _
  · have h1 : unknownTag1Text.length = 18 := rfl
    have h2 : unknownTag2Text.length = 7 := rfl
    rw [List.length_append, List.length_append, List.length_take, h1, h2, httpdMaxTagInsertLen]
    omega

/-- A tag is found: its insert takes the place of it in the unsent text. -/
theorem tagSeen_keeps {x : Sending σ} (hsound : x.hs.Sound site) (htag : x.hs.tagCheck = true)
    (hleft : x.hs.parseLeft ≠ 0) (hlast : x.LastByte) :
    x.Keeps site { x with hs := x.hs.tagSeen site } := by
  obtain ⟨hstate, htwo, hchar⟩ := hlast
  have hsending : x.hs.tagState ≠ .sending := by simp [hstate]
  obtain ⟨hend, hfile, hheld, hfrom⟩ := hsound.parsed_add hsending
  have hfrom := hfrom hleft
  have hstarted : x.hs.heldFrom = x.hs.tagStarted := HttpState.heldFrom_tag (by simp [hstate])
  have hlt : x.hs.parsed < x.hs.handle.data.length := by omega
  have hstep : (tagMarks site.maxTagName).step (x.hs.seen site) x.char = .tag x.hs.tagName := by
    rw [leadOut_step hsound hstate, if_neg (by rw [htwo]; simp), if_pos (by rw [htwo]; exact hchar),
      if_pos htwo]
  have hscan : (tagMarks site.maxTagName).step
      ((tagMarks site.maxTagName).scan .text (x.hs.handle.data.take x.hs.parsed)) x.char =
      .tag x.hs.tagName := by
    rw [← Marks.step_idle, hsound.scanned hsending, hstep]
  refine ⟨⟨hsound.left_add, fun _ => ?_, fun h => absurd rfl h, trivial, getTagInsert_le _ _ _,
    fun h => absurd rfl h, fun h => absurd rfl h, fun _ => ⟨x.hs.tagName, ?_, rfl⟩, ?_⟩, ?_, rfl,
    rfl, rfl⟩
  · change x.hs.tagStarted < x.hs.parsed + 1 ∧
      x.hs.parsed + 1 + (x.hs.parseLeft - 1) = x.hs.handle.data.length ∧
      x.hs.tagStarted = x.hs.tagStarted ∧ (x.hs.file ≤ x.hs.tagStarted ∧ 0 = 0 ∨ _)
    omega
  · exact (HttpState.scan_take_succ hlt).trans hscan
  · have hcounted := hsound.counted
    rw [HttpState.readTo_parsing hsending] at hcounted
    rw [HttpState.readTo_sending (rfl : (x.hs.tagSeen site).tagState = .sending)]
    change x.hs.asked + 1 =
      ((tagMarks site.maxTagName).tags .text (x.hs.handle.data.take (x.hs.parsed + 1))).length
    rw [HttpState.tags_take_succ hlt, List.length_append, ← hcounted, ← char, Marks.tags, hscan]
    rfl
  · have hrest : x.hs.handle.data.drop x.hs.parsed =
        x.char :: x.hs.handle.data.drop (x.hs.parsed + 1) := by
      rw [char, List.drop_eq_getElem_cons hlt, List.getD_eq_getElem _ _ hlt]
    rw [HttpState.unsentBody_parsing x.hs htag hsending, HttpState.unsentParsing, hrest,
      Marks.expand, hstep, hstarted]
    simp only
    rw [Marks.expand_tag, HttpState.unsentBody_inserting (x.hs.tagSeen site) htag rfl]
    rfl

theorem passLeadOut_last {x : Sending σ} (hlast : x.LastByte) :
    x.passLeadOut T site =
      if x.hs.file < (x.hs.tagSeen site).tagEnd then
        ({ x with hs := x.hs.tagSeen site } : Sending σ).writeBeforeTag T true
      else { x with hs := x.hs.tagSeen site } := by
  obtain ⟨-, htwo, hchar⟩ := hlast
  have hnonzero : ¬(x.hs.tagIndex = 0 ∧ isTagBlank x.char) := by simp [htwo]
  have hindex : x.hs.tagIndex = pcTagLeadOut.length - 1 := htwo
  rw [passLeadOut, if_neg hnonzero, if_pos (by rw [htwo]; exact hchar), if_pos hindex]
  rfl

/-- The last byte of the lead-in was read before; the name begins. -/
theorem nameBegins_keeps {x : Sending σ} (hsound : x.hs.Sound site) (htag : x.hs.tagCheck = true)
    (hstate : x.hs.tagState = .leadIn) (hfive : x.hs.tagIndex = 5) :
    x.Keeps site { x with hs := { x.hs with tagIndex := 0, tagState := .found } } := by
  have hsending : x.hs.tagState ≠ .sending := by simp [hstate]
  have hheld : x.hs.heldFrom = x.hs.tagStarted := HttpState.heldFrom_tag (by simp [hstate])
  have hseen : x.hs.seen site = .name [] := by
    unfold HttpState.seen
    rw [hstate]
    exact if_pos hfive
  refine ⟨⟨hsound.left_add, by simp, fun _ => ?_, Nat.zero_le _, hsound.tagInsert_le, fun _ => ?_,
    fun _ => hsound.untagged hsending, by simp, ?_⟩, ?_, rfl, rfl, rfl⟩
  · have hparsed := hsound.parsed_add hsending
    rwa [hheld] at hparsed
  · exact (hsound.scanned hsending).trans hseen
  · have hcounted := hsound.counted
    rwa [HttpState.readTo_parsing hsending] at hcounted
  · rw [HttpState.unsentBody_parsing x.hs htag hsending, HttpState.unsentParsing, hheld, hseen]
    exact congrArg _ (HttpState.unsentBody_parsing { x.hs with tagIndex := 0, tagState := .found }
      htag (by simp))

theorem Scans.keeps {x y : Sending σ} (h : x.Scans site y) (hsound : x.hs.Sound site)
    (htag : x.hs.tagCheck = true) (hstate : x.hs.tagState ≠ .sending)
    (hleft : x.hs.parseLeft ≠ 0) : x.Keeps site y := by
  refine ⟨h.reads.sound hsound hstate, ?_, h.reads.handle, h.reads.tagCheck, h.reads.hdrIndex⟩
  rw [h.pcb, HttpState.unsentBody_parsing _ htag hstate,
    HttpState.unsentBody_parsing _ (h.reads.tagCheck.trans htag) h.reads.tagState,
    h.reads.unsentParsing hsound hstate hleft]

/-- **What a pass of the parsing loop can do**: read a byte, get to the name of a tag, read the
last byte of a tag, or send something in the place of one. -/
inductive Passes (T : Tcp σ) (site : Site) (x : Sending σ) : Sending σ → Prop where
  | scans (y : Sending σ) (hstate : x.hs.tagState ≠ .sending) (h : x.Scans site y) :
      Passes T site x y
  | nameBegins (hstate : x.hs.tagState = .leadIn) (hfive : x.hs.tagIndex = 5) :
      Passes T site x { x with hs := { x.hs with tagIndex := 0, tagState := .found } }
  | tagSeen (hlast : x.LastByte) (hfile : x.hs.file < (x.hs.tagSeen site).tagEnd) :
      Passes T site x (({ x with hs := x.hs.tagSeen site } : Sending σ).writeBeforeTag T true)
  | beforeTag (hstate : x.hs.tagState = .sending) (hfile : x.hs.file < x.hs.tagEnd) :
      Passes T site x (x.writeBeforeTag T false)
  | insert (hstate : x.hs.tagState = .sending) (hfile : ¬x.hs.file < x.hs.tagEnd)
      (hmore : x.hs.tagIndex < x.hs.tagInsert.length) : Passes T site x (x.writeInsert T)
  | insertDone (hstate : x.hs.tagState = .sending) (hfile : ¬x.hs.file < x.hs.tagEnd)
      (hdone : ¬x.hs.tagIndex < x.hs.tagInsert.length) :
      Passes T site x { x with hs := x.hs.insertDone }

theorem pass_passes {x : Sending σ} (hsound : x.hs.Sound site) (hleft : x.hs.parseLeft ≠ 0) :
    Passes T site x (x.pass T site) := by
  cases hstate : x.hs.tagState with
  | none =>
      have hpass : x.pass T site = x.passNone := by rw [pass, hstate]
      rw [hpass]
      exact .scans _ (by simp [hstate]) (passNone_scans hstate hleft)
  | leadIn =>
      have hpass : x.pass T site = x.passLeadIn := by rw [pass, hstate]
      rw [hpass]
      by_cases hfive : x.hs.tagIndex = 5
      · have hlen : x.hs.tagIndex = pcTagLeadIn.length := hfive
        rw [passLeadIn, if_pos hlen]
        exact .nameBegins hstate hfive
      · exact .scans _ (by simp [hstate]) (passLeadIn_scans hsound hstate hleft hfive)
  | found =>
      have hpass : x.pass T site = x.passFound site := by rw [pass, hstate]
      rw [hpass]
      exact .scans _ (by simp [hstate]) (passFound_scans hsound hstate hleft)
  | leadOut =>
      have hpass : x.pass T site = x.passLeadOut T site := by rw [pass, hstate]
      rw [hpass]
      by_cases hlast : x.LastByte
      · have hfile : x.hs.file < (x.hs.tagSeen site).tagEnd := by
          have hle := (hsound.parsed_add (by simp [hstate])).2.1
          exact Nat.lt_succ_of_le hle
        rw [passLeadOut_last hlast, if_pos hfile]
        exact .tagSeen hlast hfile
      · exact .scans _ (by simp [hstate]) (passLeadOut_scans hsound hstate hleft hlast)
  | sending =>
      have hpass : x.pass T site = x.passSending T := by rw [pass, hstate]
      rw [hpass]
      by_cases hfile : x.hs.file < x.hs.tagEnd
      · rw [passSending, if_pos hfile]
        exact .beforeTag hstate hfile
      · rw [passSending, if_neg hfile]
        by_cases hmore : x.hs.tagIndex < x.hs.tagInsert.length
        · rw [if_pos hmore]
          exact .insert hstate hfile hmore
        · rw [if_neg hmore]
          exact .insertDone hstate hfile hmore

/-- **One pass of the parsing loop** only moves bytes from the unsent to the sent ones. -/
theorem Passes.keeps {x y : Sending σ} (h : Passes T site x y) (hsound : x.hs.Sound site)
    (htag : x.hs.tagCheck = true) (hleft : x.hs.parseLeft ≠ 0) : x.Keeps site y := by
  cases h with
  | scans y hstate h => exact h.keeps hsound htag hstate hleft
  | nameBegins hstate hfive => exact nameBegins_keeps hsound htag hstate hfive
  | tagSeen hlast hfile =>
      have hkeeps := tagSeen_keeps hsound htag hleft hlast
      exact hkeeps.trans (writeBeforeTag_keeps hkeeps.sound htag rfl hfile true)
  | beforeTag hstate hfile => exact writeBeforeTag_keeps hsound htag hstate hfile false
  | insert hstate hfile hmore => exact writeInsert_keeps hsound htag hleft hstate hfile
  | insertDone hstate hfile hdone => exact insertDone_keeps hsound htag hleft hstate hfile hdone

/-! ## The loop ends -/

theorem writeFile_err {x : Sending σ} {len skipped : Nat}
    (hok : (x.writeFile T len skipped).err = .ok) : (x.httpWriteFile T len).err = .ok := by
  by_contra hfail
  rw [writeFile, if_neg hfail] at hok
  exact hfail hok

theorem writeFile_hs {x : Sending σ} {len skipped : Nat}
    (hok : (x.writeFile T len skipped).err = .ok) :
    (x.writeFile T len skipped).hs =
      x.hs.fileSent (((x.httpWriteFile T len).len + skipped) % 65536) := by
  rw [writeFile, if_pos (writeFile_err hok)]

theorem writeFile_tagState (x : Sending σ) (len skipped : Nat) :
    (x.writeFile T len skipped).hs.tagState = x.hs.tagState ∧
      (x.writeFile T len skipped).hs.parseLeft = x.hs.parseLeft := by
  unfold writeFile
  split <;> exact ⟨rfl, rfl⟩

theorem writeBeforeTag_tagState (x : Sending σ) (empty : Bool) :
    (x.writeBeforeTag T empty).hs.tagState = x.hs.tagState ∧
      (x.writeBeforeTag T empty).hs.parseLeft = x.hs.parseLeft := by
  unfold writeBeforeTag
  split
  · exact writeFile_tagState _ _ _
  · exact ⟨rfl, rfl⟩

/-- A successful write in front of a tag gets further. -/
theorem writeBeforeTag_further {x : Sending σ} (hsound : x.hs.Sound site)
    (hstate : x.hs.tagState = .sending) (hfile : x.hs.file < x.hs.tagEnd) {empty : Bool}
    (hlen : x.len ≠ 0) (hok : (x.writeBeforeTag T empty).err = .ok) :
    ∃ n, 0 < n ∧ (x.writeBeforeTag T empty).hs = x.hs.fileSent n := by
  obtain ⟨hlt, hend, -, hor⟩ := hsound.tagEnd_le hstate
  have hadd := hsound.left_add
  have hskip : x.hs.tagEnd - x.hs.tagStarted ≤ x.hs.left := by omega
  unfold writeBeforeTag at hok ⊢
  by_cases hbefore : x.hs.tagStarted ≤ x.hs.file
  · have hskipped : x.skippedTag = x.hs.tagEnd - x.hs.tagStarted := if_pos hbefore
    by_cases hwrite : x.lenBeforeTag ≠ 0 ∨ empty = true
    · rw [if_pos hwrite, hskipped] at hok ⊢
      have hzero : (x.httpWriteFile T x.lenBeforeTag).len = 0 := by
        have hle := (httpWriteFile_wrote (T := T) x x.lenBeforeTag).le (writeFile_err hok)
        have hnone : x.lenBeforeTag = 0 := by
          unfold lenBeforeTag
          split <;> omega
        omega
      rw [writeFile_hs hok, hzero, Nat.zero_add, mod_of_le_left hsound hskip]
      exact ⟨_, by omega, rfl⟩
    · rw [if_neg hwrite, hskipped, mod_of_le_left hsound hskip]
      exact ⟨_, by omega, rfl⟩
  · have hskipped : x.skippedTag = 0 := if_neg hbefore
    have hroom : 0 < x.lenBeforeTag ∧ x.lenBeforeTag ≤ x.hs.left := by
      unfold lenBeforeTag
      split <;> omega
    rw [if_pos (.inl (by omega))] at hok ⊢
    have hw := httpWriteFile_wrote (T := T) x x.lenBeforeTag
    have hle := hw.le (writeFile_err hok)
    rw [writeFile_hs hok, hskipped, Nat.add_zero, mod_of_le_left hsound (hle.trans hroom.2)]
    exact ⟨_, hw.pos (writeFile_err hok) hroom.1, rfl⟩

/-- A successful write from an insert gets further. -/
theorem writeInsert_further {x : Sending σ} (hlen : x.len ≠ 0)
    (hmore : x.hs.tagIndex < x.hs.tagInsert.length) (hok : (x.writeInsert T).err = .ok) :
    ∃ n, 0 < n ∧ (x.writeInsert T).hs = x.hs.insertSent n := by
  have hw : Wrote x.pcb (x.hs.tagInsert.drop x.hs.tagIndex) x.lenOfInsert (x.httpWriteInsert T) :=
    httpWrite_wrote _ _ _
  have hroom : 0 < x.lenOfInsert := by
    unfold lenOfInsert
    split <;> omega
  unfold writeInsert at hok ⊢
  by_cases hwrote : (x.httpWriteInsert T).err = .ok
  · rw [if_pos hwrote]
    exact ⟨_, hw.pos hwrote hroom, rfl⟩
  · rw [if_neg hwrote] at hok
    exact absurd hok hwrote

end Sending

/-- How many passes the parsing loop may still take in its present state. -/
def HttpState.passesHere (hs : HttpState) : Nat :=
  match hs.tagState with
  | .none => 0
  | .leadIn => if hs.tagIndex = 5 then 1 else 0
  | .found => 0
  | .leadOut => 0
  | .sending => hs.tagEnd - hs.file + (hs.tagInsert.length - hs.tagIndex) + 1

/-- How many passes the parsing loop may still take. -/
def HttpState.passesLeft (hs : HttpState) : Nat :=
  hs.parseLeft * (hs.handle.data.length + httpdMaxTagInsertLen + 3) + hs.passesHere

namespace Sending

theorem passesHere_le {hs : HttpState} (hsound : hs.Sound site) :
    hs.passesHere ≤ hs.handle.data.length + httpdMaxTagInsertLen + 1 := by
  unfold HttpState.passesHere
  split
  · exact Nat.zero_le _
  · split <;> omega
  · exact Nat.zero_le _
  · exact Nat.zero_le _
  · next hstate =>
      obtain ⟨-, hend, -⟩ := hsound.tagEnd_le hstate
      have hinsert := hsound.tagInsert_le
      omega

/-- Where a write from the file fails, nothing happens to the state. -/
theorem writeFile_stalls {x : Sending σ} {len skipped : Nat}
    (hfail : (x.writeFile T len skipped).err ≠ .ok) :
    (x.httpWriteFile T len).err ≠ .ok ∧ (x.writeFile T len skipped).hs = x.hs := by
  by_cases hok : (x.httpWriteFile T len).err = .ok
  · rw [writeFile, if_pos hok] at hfail
    exact absurd rfl hfail
  · exact ⟨hok, by rw [writeFile, if_neg hok]⟩

theorem writeBeforeTag_stalls {x : Sending σ} {empty : Bool}
    (hfail : (x.writeBeforeTag T empty).err ≠ .ok) :
    (x.httpWriteFile T x.lenBeforeTag).err ≠ .ok ∧ (x.writeBeforeTag T empty).hs = x.hs := by
  unfold writeBeforeTag at hfail ⊢
  by_cases hwrite : x.lenBeforeTag ≠ 0 ∨ empty = true
  · rw [if_pos hwrite] at hfail ⊢
    exact writeFile_stalls hfail
  · rw [if_neg hwrite] at hfail
    exact absurd rfl hfail

theorem writeInsert_stalls {x : Sending σ} (hfail : (x.writeInsert T).err ≠ .ok) :
    (x.httpWriteInsert T).err ≠ .ok ∧ (x.writeInsert T).hs = x.hs := by
  by_cases hok : (x.httpWriteInsert T).err = .ok
  · rw [writeInsert, if_pos hok] at hfail
    exact absurd rfl hfail
  · exact ⟨hok, by rw [writeInsert, if_neg hok]⟩

theorem lenBeforeTag_le (x : Sending σ) : x.lenBeforeTag ≤ x.len := by
  unfold lenBeforeTag
  split <;> omega

theorem lenOfInsert_le (x : Sending σ) : x.lenOfInsert ≤ x.len := by
  unfold lenOfInsert
  split <;> omega

/-- A pass brings the loop closer to its end, unless it changes nothing because a write failed. -/
theorem Passes.decreases {x y : Sending σ} (h : Passes T site x y) (hsound : x.hs.Sound site)
    (htag : x.hs.tagCheck = true) (hleft : x.hs.parseLeft ≠ 0) (hlen : x.len ≠ 0) :
    y.hs.passesLeft < x.hs.passesLeft ∨ y.err ≠ .ok ∧ y.hs = x.hs ∧
      ∃ ptr len, len ≤ x.len ∧ (httpWrite T x.pcb ptr len).err ≠ .ok := by
  have hkeeps := h.keeps hsound htag hleft
  have hless (hone : y.hs.parseLeft + 1 = x.hs.parseLeft) :
      y.hs.passesLeft < x.hs.passesLeft := by
    have hhere := passesHere_le hkeeps.sound
    rw [HttpState.passesLeft, HttpState.passesLeft, hkeeps.handle, ← hone, Nat.succ_mul]
    rw [hkeeps.handle] at hhere
    omega
  have hsame (hparse : y.hs.parseLeft = x.hs.parseLeft)
      (hhere : y.hs.passesHere < x.hs.passesHere) : y.hs.passesLeft < x.hs.passesLeft := by
    rw [HttpState.passesLeft, HttpState.passesLeft, hkeeps.handle, hparse]
    omega
  cases h with
  | scans y hstate h => exact .inl (hless h.reads.parseLeft)
  | nameBegins hstate hfive =>
      refine .inl (hsame rfl ?_)
      simp [HttpState.passesHere, hstate, hfive]
  | tagSeen hlast hfile =>
      refine .inl (hless ?_)
      rw [(writeBeforeTag_tagState _ _).2]
      exact Nat.sub_add_cancel (Nat.pos_of_ne_zero hleft)
  | beforeTag hstate hfile =>
      by_cases hok : (x.writeBeforeTag T false).err = .ok
      · obtain ⟨n, hn, hhs⟩ := writeBeforeTag_further hsound hstate hfile hlen hok
        refine .inl (hsame (writeBeforeTag_tagState _ _).2 ?_)
        rw [hhs]
        simp only [HttpState.passesHere, hstate, HttpState.fileSent]
        omega
      · obtain ⟨hfail, hsame⟩ := writeBeforeTag_stalls hok
        exact .inr ⟨hok, hsame, _, _, x.lenBeforeTag_le, hfail⟩
  | insert hstate hfile hmore =>
      by_cases hok : (x.writeInsert T).err = .ok
      · obtain ⟨n, hn, hhs⟩ := writeInsert_further hlen hmore hok
        refine .inl (hsame (by rw [hhs]; rfl) ?_)
        rw [hhs]
        simp only [HttpState.passesHere, hstate, HttpState.insertSent]
        omega
      · obtain ⟨hfail, hsame⟩ := writeInsert_stalls hok
        exact .inr ⟨hok, hsame, _, _, x.lenOfInsert_le, hfail⟩
  | insertDone hstate hfile hdone =>
      refine .inl (hsame rfl ?_)
      simp only [HttpState.passesHere, hstate, HttpState.insertDone]
      omega

end Sending

end HomeAuto.Httpd
