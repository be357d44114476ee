import HomeAuto.HttpdPasses

/-!
# What one call of `http_send_data` sends

The parsing loop ends before its fuel does (`Sending.loop_ends`).  Like it, the parts of the
function that send a file with tags (`Sending.sendTagged_keeps`), a file without tags
(`Sending.sendPlain_sends`) and the header strings (`Sending.headerLoop_sends`) move bytes from the
unsent to the sent ones.
-/

namespace HomeAuto.Httpd

open Template

variable {σ : Type} {T : Tcp σ} {site : Site}

/-! ## The parsing loop -/

/-- Where a call of `http_send_data` may stop: not inside what may be a tag, unless the file is
at its end. -/
def HttpState.Rested (hs : HttpState) : Prop :=
  hs.tagState ≠ .none → hs.tagState ≠ .sending → hs.parseLeft = 0

namespace Sending

/-- Inside what may be a tag the loop has no reason to stop. -/
def Running (x : Sending σ) : Prop :=
  x.hs.tagState ≠ .none → x.hs.tagState ≠ .sending → x.hs.parseLeft ≠ 0 → x.len ≠ 0 ∧ x.err = .ok

/-- A call begins at rest. -/
theorem Running.of_rested {x : Sending σ} (h : x.hs.Rested) : x.Running :=
  fun hnone hsending hleft => absurd (h hnone hsending) hleft

/-- A pass that stops for neither an error nor a lack of room leaves the loop running. -/
theorem Passes.running {x y : Sending σ} (h : Passes T site x y) (hlen : x.len ≠ 0)
    (herr : x.err = .ok) : y.Running := by
  intro hnone hsending hleft
  cases h with
  | scans y hstate h => exact ⟨by rw [h.len]; exact hlen, by rw [h.err]; exact herr⟩
  | nameBegins hstate hfive => exact ⟨hlen, herr⟩
  | tagSeen hlast hfile => exact absurd (writeBeforeTag_tagState _ _).1 hsending
  | beforeTag hstate hfile =>
      exact absurd ((writeBeforeTag_tagState _ _).1.trans hstate) hsending
  | insert hstate hfile hmore =>
      have hsame : (x.writeInsert T).hs.tagState = x.hs.tagState := by
        unfold writeInsert
        split <;> rfl
      exact absurd (hsame.trans hstate) hsending
  | insertDone hstate hfile hdone => exact absurd rfl hnone

/-- What the parsing loop leaves. -/
structure LoopEnds (site : Site) (x : Sending σ) (z : Sending σ × Bool) : Prop where
  keeps : x.Keeps site z.1
  rested : z.1.hs.Rested
  ended : z.2 = false → z.1.hs.parseLeft = 0 ∨ z.1.err ≠ .ok

/-- **The parsing loop** ends, and only moves bytes from the unsent to the sent ones. -/
theorem loop_ends {fuel : Nat} {x : Sending σ} (hsound : x.hs.Sound site)
    (htag : x.hs.tagCheck = true) (hrunning : x.Running) (hfuel : x.hs.passesLeft < fuel) :
    LoopEnds site x (x.loop T site fuel) := by
  induction fuel generalizing x with
  | zero => exact absurd hfuel (Nat.not_lt_zero _)
  | succ fuel ih =>
      rw [loop]
      by_cases hexit : x.hs.parseLeft = 0 ∨ x.err ≠ .ok
      · rw [if_pos hexit]
        refine ⟨.refl hsound, fun hnone hsending => ?_, fun _ => hexit⟩
        by_contra hleft
        rcases hexit with h | h
        · exact hleft h
        · exact h (hrunning hnone hsending hleft).2
      · rw [if_neg hexit]
        obtain ⟨hleft, herr⟩ := not_or.mp hexit
        have herr := not_not.mp herr
        by_cases hlen : x.len = 0
        · rw [if_pos hlen]
          exact ⟨.refl hsound, fun hnone hsending => absurd hlen (hrunning hnone hsending hleft).1,
            fun h => absurd h (by simp)⟩
        · rw [if_neg hlen]
          have hpass := pass_passes (T := T) hsound hleft
          have hkeeps := hpass.keeps hsound htag hleft
          have hnext : LoopEnds site (x.pass T site) ((x.pass T site).loop T site fuel) := by
            by_cases hok : (x.pass T site).err = .ok
            · have hdec : (x.pass T site).hs.passesLeft < x.hs.passesLeft := by
                rcases hpass.decreases hsound htag hleft hlen with hless | hstall
                · exact hless
                · exact absurd hok hstall.1
              exact ih hkeeps.sound (hkeeps.tagCheck.trans htag) (hpass.running hlen herr)
                (by omega)
            · have hstop : (x.pass T site).loop T site fuel = (x.pass T site, false) := by
                cases fuel with
                | zero => rfl
                | succ fuel => rw [loop, if_pos (.inr hok)]
              rw [hstop]
              refine ⟨.refl hkeeps.sound, fun hnone hsending => ?_, fun _ => .inr hok⟩
              by_contra hmore
              exact hok (hpass.running hlen herr hnone hsending hmore).2
          exact ⟨hkeeps.trans hnext.keeps, hnext.rested, hnext.ended⟩

/-- The loop has fuel for all its passes. -/
theorem passesLeft_lt_fuel {x : Sending σ} (hsound : x.hs.Sound site) :
    x.hs.passesLeft < x.fuel := by
  have hhere := passesHere_le hsound
  rw [HttpState.passesLeft, fuel, Nat.succ_mul]
  omega

theorem roomFor_le (pcb : Pcb σ) (rest : Nat) : roomFor T pcb rest ≤ rest := by
  simp only [roomFor]
  split_ifs <;> omega

/-- What is parsed may be sent as it is, once the parser rests. -/
theorem canSend_parsed {hs : HttpState} (hsound : hs.Sound site) (hrested : hs.Rested)
    (hready : hs.file < hs.parsed) {n : Nat} (hn : n ≤ hs.parsed - hs.file) : hs.CanSend n := by
  have hadd := hsound.left_add
  by_cases hstate : hs.tagState = .sending
  · obtain ⟨hlt, hend, hparsed, -⟩ := hsound.tagEnd_le hstate
    exact ⟨by omega, fun _ h => absurd hstate h, fun _ _ => by omega⟩
  · obtain ⟨hend, -, -, -⟩ := hsound.parsed_add hstate
    refine ⟨by omega, fun _ _ => ⟨by omega, ?_⟩, fun _ h => absurd h hstate⟩
    by_cases hnone : hs.tagState = .none
    · exact .inl (by rw [HttpState.heldFrom_none hnone]; omega)
    · exact .inr (hrested hnone hstate)

/-- The write of what has been parsed keeps the bytes in order, -/
theorem writeParsed_keeps {x : Sending σ} (hsound : x.hs.Sound site) (htag : x.hs.tagCheck = true)
    (hrested : x.hs.Rested) (hready : x.hs.file < x.hs.parsed) :
    x.Keeps site (x.writeParsed T) ∧ (x.writeParsed T).hs.Rested := by
  refine ⟨writeFile_keeps hsound htag (canSend_parsed hsound hrested hready (roomFor_le _ _)), ?_⟩
  have hsame := writeFile_tagState (T := T) x (roomFor T x.pcb (x.hs.parsed - x.hs.file)) 0
  unfold HttpState.Rested writeParsed
  rw [hsame.1, hsame.2]
  exact hrested

/-- also where it is the first one of the call -/
theorem firstWrite_keeps {x : Sending σ} (hsound : x.hs.Sound site) (htag : x.hs.tagCheck = true)
    (hrested : x.hs.Rested) : x.Keeps site (x.firstWrite T) ∧ (x.firstWrite T).hs.Rested := by
  unfold firstWrite
  by_cases hready : x.hs.file < x.hs.parsed
  · rw [if_pos hready]
    obtain ⟨hkeeps, hrest⟩ :=
      writeParsed_keeps (T := T) (x := x.asking T) hsound htag hrested hready
    exact ⟨⟨hkeeps.sound, hkeeps.text, hkeeps.handle, hkeeps.tagCheck, hkeeps.hdrIndex⟩, hrest⟩
  · rw [if_neg hready]
    exact ⟨⟨hsound, rfl, rfl, rfl, rfl⟩, hrested⟩

/-- or the last one. -/
theorem afterLoop_keeps {x : Sending σ} (hsound : x.hs.Sound site) (htag : x.hs.tagCheck = true)
    (hrested : x.hs.Rested) : x.Keeps site (x.afterLoop T) ∧ (x.afterLoop T).hs.Rested := by
  unfold afterLoop
  split
  · next hready => exact writeParsed_keeps hsound htag hrested hready.2
  · exact ⟨.refl hsound, hrested⟩

/-- The part of `http_send_data` for a file with tags. -/
theorem sendTagged_keeps {x : Sending σ} (hsound : x.hs.Sound site) (htag : x.hs.tagCheck = true)
    (hrested : x.hs.Rested) :
    x.Keeps site (x.sendTagged T site).1 ∧ (x.sendTagged T site).1.hs.Rested := by
  obtain ⟨hkeeps, hrest⟩ := firstWrite_keeps (T := T) hsound htag hrested
  have hloop := loop_ends (T := T) hkeeps.sound (hkeeps.tagCheck.trans htag) (.of_rested hrest)
    (passesLeft_lt_fuel hkeeps.sound)
  have hboth := hkeeps.trans hloop.keeps
  obtain ⟨hafter, hend⟩ := afterLoop_keeps (T := T) hboth.sound (hboth.tagCheck.trans htag)
    hloop.rested
  unfold sendTagged
  simp only
  by_cases hfull : x.hs.file < x.hs.parsed ∧ T.sndbuf (x.firstWrite T).pcb.tcp = 0
  · rw [if_pos hfull]
    exact ⟨hkeeps, hrest⟩
  · rw [if_neg hfull]
    split
    · exact ⟨hboth, hloop.rested⟩
    · exact ⟨hboth.trans hafter, hend⟩

/-- The part of `http_send_data` for a file without tags. -/
theorem sendPlain_sends {x : Sending σ} (hadd : x.hs.left + x.hs.file = x.hs.handle.data.length) :
    ∃ n ≤ x.hs.left, (x.sendPlain T).hs = x.hs.fileSent n ∧
      (x.sendPlain T).pcb.stream =
        x.pcb.stream ++ stretch x.hs.handle.data x.hs.file (x.hs.file + n) := by
  have hw := httpWriteFile_wrote (T := T) x (roomFor T x.pcb x.hs.left)
  have hlt := x.hs.handle.length_lt
  unfold sendPlain writeFile
  by_cases hok : (x.httpWriteFile T (roomFor T x.pcb x.hs.left)).err = .ok
  · have hle := (hw.le hok).trans (roomFor_le _ _)
    rw [if_pos hok, Nat.add_zero, Nat.mod_eq_of_lt (by omega)]
    exact ⟨_, hle, rfl, (hw.sent hok).trans (congrArg _ (take_drop_eq_stretch _ _))⟩
  · rw [if_neg hok]
    refine ⟨0, Nat.zero_le _, rfl, ?_⟩
    rw [Nat.add_zero, stretch_self, List.append_nil]
    exact hw.failed hok

end Sending

/-! ## The headers -/

/-- The headers left are the rest of this one and the ones behind it. -/
theorem unsentHeaders_eq (hs : HttpState) (h : hs.hdrIndex < numFileHdrStrings)
    (hpos : hs.hdrPos ≤ (hs.hdrs.getD hs.hdrIndex []).length) :
    hs.unsentHeaders = (hs.hdrs.getD hs.hdrIndex []).drop hs.hdrPos ++
      ((hs.hdrs.take numFileHdrStrings).drop (hs.hdrIndex + 1)).flatten := by
  have hsplit : ((hs.hdrs.take numFileHdrStrings).drop hs.hdrIndex).flatten =
      hs.hdrs.getD hs.hdrIndex [] ++
        ((hs.hdrs.take numFileHdrStrings).drop (hs.hdrIndex + 1)).flatten := by
    by_cases hlt : hs.hdrIndex < hs.hdrs.length
    · have htake : hs.hdrIndex < (hs.hdrs.take numFileHdrStrings).length := by
        rw [List.length_take]
        omega
      rw [List.drop_eq_getElem_cons htake, List.flatten_cons, List.getElem_take,
        List.getD_eq_getElem _ _ hlt]
    · have hnone (k : Nat) (hk : hs.hdrIndex ≤ k) :
          (hs.hdrs.take numFileHdrStrings).drop k = [] :=
        List.drop_of_length_le (by rw [List.length_take]; omega)
      rw [hnone _ le_rfl, hnone _ (Nat.le_succ _), List.getD_eq_default _ _ (Nat.le_of_not_lt hlt)]
      rfl
  rw [HttpState.unsentHeaders, hsplit, List.drop_append_of_le_length hpos]

/-- Behind the last one there are none. -/
theorem unsentHeaders_done (hs : HttpState) (h : ¬hs.hdrIndex < numFileHdrStrings) :
    hs.unsentHeaders = [] := by
  have hnone : (hs.hdrs.take numFileHdrStrings).drop hs.hdrIndex = [] :=
    List.drop_of_length_le (by rw [List.length_take]; omega)
  rw [HttpState.unsentHeaders, hnone, List.flatten_nil, List.drop_nil]

/-- The state of a connection at another place of its headers. -/
def HttpState.atHeader (hs : HttpState) (hdrIndex hdrPos : Nat) : HttpState :=
  { hs with hdrIndex := hdrIndex, hdrPos := hdrPos }

/-- The place in the header strings is a place in one of them. -/
def HttpState.HeaderOk (hs : HttpState) : Prop :=
  hs.hdrIndex < numFileHdrStrings → hs.hdrPos ≤ (hs.hdrs.getD hs.hdrIndex []).length

/-- What sending header strings does. -/
structure HeadersSent (x y : Sending σ) : Prop where
  headerOk : y.hs.HeaderOk
  text : y.pcb.stream ++ y.hs.unsentHeaders = x.pcb.stream ++ x.hs.unsentHeaders
  same : ∃ hdrIndex hdrPos, y.hs = x.hs.atHeader hdrIndex hdrPos

/-- One header string is sent, or a piece of it. -/
theorem headerSent_sends {hs : HttpState} (h : hs.hdrIndex < numFileHdrStrings)
    (hok : hs.HeaderOk) {n : Nat} (hn : hs.hdrPos + n ≤ (hs.hdrs.getD hs.hdrIndex []).length) :
    (hs.headerSent (hs.hdrs.getD hs.hdrIndex []).length n).HeaderOk ∧
      hs.unsentHeaders = ((hs.hdrs.getD hs.hdrIndex []).drop hs.hdrPos).take n ++
        (hs.headerSent (hs.hdrs.getD hs.hdrIndex []).length n).unsentHeaders ∧
      ∃ hdrIndex hdrPos, hs.headerSent (hs.hdrs.getD hs.hdrIndex []).length n =
        hs.atHeader hdrIndex hdrPos := by
  rw [unsentHeaders_eq _ h (hok h)]
  unfold HttpState.headerSent
  by_cases hend : hs.hdrPos + n = (hs.hdrs.getD hs.hdrIndex []).length
  · rw [if_pos hend]
    have hall : ((hs.hdrs.getD hs.hdrIndex []).drop hs.hdrPos).take n =
        (hs.hdrs.getD hs.hdrIndex []).drop hs.hdrPos :=
      List.take_of_length_le (by rw [List.length_drop]; omega)
    rw [hall]
    exact ⟨fun _ => Nat.zero_le _, rfl, _, _, rfl⟩
  · rw [if_neg hend]
    refine ⟨fun _ => hn, ?_, _, _, rfl⟩
    have hsplit : (hs.hdrs.getD hs.hdrIndex []).drop hs.hdrPos =
        ((hs.hdrs.getD hs.hdrIndex []).drop hs.hdrPos).take n ++
          (hs.hdrs.getD hs.hdrIndex []).drop (hs.hdrPos + n) := by
      rw [← List.drop_drop, List.take_append_drop]
    rw [unsentHeaders_eq { hs with hdrPos := hs.hdrPos + n } h hn, ← List.append_assoc]
    exact congrArg (· ++ _) hsplit

namespace Sending

theorem lenOfHeader_le (x : Sending σ) :
    x.lenOfHeader ≤ x.len ∧ x.lenOfHeader ≤ x.hdr.length - x.hs.hdrPos := by
  unfold lenOfHeader
  split <;> omega

/-- A header is written from its position on. -/
theorem httpWriteHeader_wrote (x : Sending σ) :
    Wrote x.pcb (x.hdr.drop x.hs.hdrPos) x.lenOfHeader (x.httpWriteHeader T) :=
  httpWrite_wrote _ _ _

/-- No more is counted as sent than was asked for. -/
theorem sendlen_le (x : Sending σ) : x.sendlen T ≤ x.lenOfHeader := by
  unfold sendlen
  split
  · next hok => exact x.httpWriteHeader_wrote.le hok
  · exact Nat.zero_le _

/-- The position stays within the header. -/
theorem hdrPos_add_sendlen {x : Sending σ} (hgo : x.hs.hdrIndex < numFileHdrStrings)
    (hok : x.hs.HeaderOk) : x.hs.hdrPos + x.sendlen T ≤ x.hdr.length := by
  have hpos : x.hs.hdrPos ≤ x.hdr.length := hok hgo
  have hle := (x.sendlen_le (T := T)).trans x.lenOfHeader_le.2
  omega

/-- One pass sends the next bytes of the headers, -/
theorem passHeader_sends {x : Sending σ} (hgo : x.hs.hdrIndex < numFileHdrStrings)
    (hok : x.hs.HeaderOk) : HeadersSent x (x.passHeader T) := by
  have hw := x.httpWriteHeader_wrote (T := T)
  have hstream : (x.passHeader T).pcb.stream =
      x.pcb.stream ++ (x.hdr.drop x.hs.hdrPos).take (x.sendlen T) := by
    unfold passHeader sendlen
    split
    · next hwrote => exact hw.sent hwrote
    · next hfail => simpa using hw.failed hfail
  obtain ⟨hok', htext, hsame⟩ := headerSent_sends hgo hok (hdrPos_add_sendlen (T := T) hgo hok)
  refine ⟨hok', ?_, hsame⟩
  rw [htext, hstream, List.append_assoc]
  rfl

/-- and so does the loop, -/
theorem headerLoop_sends (fuel : Nat) {x : Sending σ} (hok : x.hs.HeaderOk) :
    HeadersSent x (x.headerLoop T fuel) := by
  induction fuel generalizing x with
  | zero => exact ⟨hok, rfl, _, _, rfl⟩
  | succ fuel ih =>
      rw [headerLoop]
      by_cases hgo : x.len ≠ 0 ∧ x.hs.hdrIndex < numFileHdrStrings
      · rw [if_pos hgo]
        have hpass := passHeader_sends (T := T) hgo.2 hok
        split
        · have hnext := ih hpass.headerOk
          obtain ⟨i, p, hsame⟩ := hpass.same
          obtain ⟨i', p', hsame'⟩ := hnext.same
          refine ⟨hnext.headerOk, hnext.text.trans hpass.text, i', p', ?_⟩
          rw [hsame', hsame]
          rfl
        · exact hpass
      · rw [if_neg hgo]
        exact ⟨hok, rfl, _, _, rfl⟩

/-- with which a call begins. -/
theorem begin_sends {hs : HttpState} (pcb : Pcb σ) (hok : hs.HeaderOk) :
    HeadersSent ⟨hs, pcb, 0, .ok⟩ (begin T hs pcb) := by
  unfold begin
  split
  · obtain ⟨hok', htext, hsame⟩ := headerLoop_sends (T := T) (T.sndbuf pcb.tcp)
      (x := ⟨hs, pcb, T.sndbuf pcb.tcp, .ok⟩) hok
    exact ⟨hok', htext, hsame⟩
  · exact ⟨hok, rfl, _, _, rfl⟩

end Sending

end HomeAuto.Httpd
