import HomeAuto.BackupSurvives

/-!
# A backup, restored

No other settings than those that survive come back on every device, except that names with
backslashes may do so by chance.  A text with a quotation mark in it never comes back, and behind
texts without one each text is read by itself.
-/

namespace HomeAuto

open QuotedText

namespace BackupSettings

variable {ul : DecimalReader} {browser : Browser} {localInputs : Nat} {s : BackupSettings}

/-! ## The transport -/

/-- The properties are far fewer bytes than there are chunk numbers for. -/
theorem width_props (browser : Browser) (localInputs : Nat) (s : BackupSettings) :
    ((s.props browser localInputs).map lineWidth).sum ≤ 20000 := by
  have hfirst := s.width_texts_le browser localInputs
  have hnames (names : Nat → FieldStr (cfgNameLen - 1)) (count : Nat) (h : count ≤ 64) :
      (browser.body (ssiNames names count)).length ≤ 4608 := by
    have hbody := browser.length_body_le (ssiNames names count)
    have hlen := length_blocksOf names (List.range count)
    rw [← ssiNames_eq names h, List.length_range] at hlen
    unfold cfgNameLen at hlen
    omega
  have hntp := browser.length_body_le s.ntpServer.text
  have hntp' : s.ntpServer.text.length ≤ 31 := s.ntpServer.fits
  have htypes := s.length_types localInputs
  have hbinds := (s.length_binds localInputs).2
  have hin := hnames s.inName (s.listedInNames localInputs) (Nat.min_le_right _ _)
  have hout := hnames s.outName s.listedOutNames (Nat.min_le_right _ _)
  have wntp := lineWidth_strProp (by decide : ascii "ntp" ∈ backupKeys) browser s.ntpServer.text
  have wtz := lineWidth_numProp (by decide : ascii "tz" ∈ backupKeys) s.natAbs_tz
  have wtypes := lineWidth_strProp (by decide : ascii "types" ∈ backupKeys) browser
    (s.tags localInputs .types)
  have wbinds := lineWidth_strProp (by decide : ascii "binds" ∈ backupKeys) browser
    (s.tags localInputs .binds)
  have win := lineWidth_strProp (by decide : ascii "innames" ∈ backupKeys) browser
    (ssiNames s.inName (s.listedInNames localInputs))
  have wout := lineWidth_strProp (by decide : ascii "outnames" ∈ backupKeys) browser
    (ssiNames s.outName s.listedOutNames)
  rw [body_types] at wtypes
  rw [body_binds] at wbinds
  have hsplit : s.props browser localInputs = (s.props browser localInputs).take 9 ++
      [strProp browser (ascii "ntp") s.ntpServer.text, numProp (ascii "tz") s.tz,
        strProp browser (ascii "types") (s.tags localInputs .types),
        strProp browser (ascii "binds") (s.tags localInputs .binds),
        strProp browser (ascii "innames") (ssiNames s.inName (s.listedInNames localInputs)),
        strProp browser (ascii "outnames") (ssiNames s.outName s.listedOutNames)] := rfl
  rw [hsplit, List.map_append, List.sum_append]
  simp only [List.map_cons, List.map_nil, List.sum_cons, List.sum_nil]
  omega

/-- **What the device does with the backup**, of settings without quotation marks. -/
theorem restoreBackup_eq (hquote : ∀ i, 34 ∉ s.tags localInputs i) (d : RestoreState) :
    restoreBackup ul browser localInputs s d =
      d.settings.restoredFrom ul (s.document browser localInputs) := by
  have hbytes : sentBytes (buildJson (browser.value (s.tags localInputs))) =
      docOf (s.props browser localInputs) := sentBytes_buildJson hquote
  have hlen := length_docOf_le (s.props browser localInputs)
  have hwidth := s.width_props browser localInputs
  have hroom : 20004 ≤ cfgChunk * 2 ^ 32 := by decide
  have hne : buildJson (browser.value (s.tags localInputs)) ≠ [] := List.cons_ne_nil _ _
  have hfits : (sentBytes (buildJson (browser.value (s.tags localInputs)))).length ≤
      cfgChunk * 2 ^ 32 := by
    rw [hbytes]
    exact (hlen.trans (Nat.add_le_add_right hwidth 4)).trans hroom
  unfold restoreBackup document
  rw [doRestore_settings ul d hne, uploaded_of_le ul hfits, hbytes]

/-! ## Quotation marks do not come back -/

/-- No text of the settings has a quotation mark. -/
structure QuoteFree (s : BackupSettings) : Prop where
  host : 34 ∉ s.host.text
  client : 34 ∉ s.client.text
  user : 34 ∉ s.user.text
  pass : 34 ∉ s.pass.text
  topic : 34 ∉ s.topic.text
  ntpServer : 34 ∉ s.ntpServer.text
  inName : ∀ i, 34 ∉ (s.inName i).text
  outName : ∀ i, 34 ∉ (s.outName i).text

theorem quote_notMem_strncpy {room : Nat} {v : CStr} (h : 34 ∉ v) :
    34 ∉ (FieldStr.strncpy room v).text := by
  intro hmem
  exact h ((List.takeWhile_subset _) (List.mem_of_mem_take hmem))

theorem quote_notMem_of_getStr {json key v : CStr} {room : Nat}
    (h : cfgJsonGetStr json key room = some v) : 34 ∉ v := by
  unfold cfgJsonGetStr at h
  split at h
  · rw [Option.some.injEq] at h
    rw [← h]
    intro hmem
    have hne := List.mem_takeWhile_imp (List.mem_of_mem_take hmem)
    exact absurd hne (by decide)
  · cases h

theorem quote_notMem_restoreStr {room : Nat} (json key : CStr) {old : FieldStr room}
    (h : 34 ∉ old.text) : 34 ∉ (restoreStr json key old).text := by
  unfold restoreStr
  split
  · rename_i v hv
    exact quote_notMem_strncpy (quote_notMem_of_getStr hv)
  · exact h

theorem quote_notMem_restoreNames (json key : CStr) (count : Nat)
    {old : Nat → FieldStr (cfgNameLen - 1)} (h : ∀ i, 34 ∉ (old i).text) (i : Nat) :
    34 ∉ (restoreNames json key count old i).text := by
  cases hread : cfgJsonGetStr json key 255 with
  | none =>
      have hkept : restoreNames json key count old = old := by
        unfold restoreNames
        rw [hread]
      rw [hkept]
      exact h i
  | some packed =>
      have hquote := quote_notMem_of_getStr hread
      have hloop : restoreNames json key count old =
          (List.range count).foldl (restoreName packed) old := by
        unfold restoreNames
        rw [hread]
      rw [hloop]
      clear hloop
      induction List.range count generalizing old with
      | nil => exact h i
      | cons j is ih =>
          apply ih
          intro k
          unfold restoreName
          split
          · by_cases hk : k = j
            · rw [hk, Function.update_self]
              apply quote_notMem_strncpy
              intro hmem
              exact hquote (List.mem_of_mem_drop (List.mem_of_mem_take (mem_of_mem_trimEnd hmem)))
            · rw [Function.update_of_ne hk]
              exact h k
          · exact h k

/-- What is read of a text in the buffer has no quotation mark. -/
theorem QuoteFree.restoredFrom {d : BackupSettings} (h : d.QuoteFree) (json : CStr) :
    (d.restoredFrom ul json).QuoteFree where
  host := quote_notMem_restoreStr _ _ h.host
  client := quote_notMem_restoreStr _ _ h.client
  user := quote_notMem_restoreStr _ _ h.user
  pass := quote_notMem_restoreStr _ _ h.pass
  topic := quote_notMem_restoreStr _ _ h.topic
  ntpServer := quote_notMem_restoreStr _ _ h.ntpServer
  inName := quote_notMem_restoreNames _ _ _ h.inName
  outName := quote_notMem_restoreNames _ _ _ h.outName

/-- No request puts one into the settings. -/
theorem QuoteFree.requests {d : RestoreState} (h : d.settings.QuoteFree)
    (requests : List CgiParams) :
    (requests.foldl (RestoreState.cfgRestoreCGIHandler ul) d).settings.QuoteFree := by
  induction requests generalizing d with
  | nil => exact h
  | cons params requests ih =>
      apply ih
      unfold RestoreState.cfgRestoreCGIHandler
      split
      · dsimp only
        split
        · exact h.restoredFrom _
        · exact h
      · exact h

/-- The same settings without texts. -/
def withoutTexts (s : BackupSettings) : BackupSettings :=
  { s with
    host := ⟨[], List.not_mem_nil, Nat.zero_le _⟩
    client := ⟨[], List.not_mem_nil, Nat.zero_le _⟩
    user := ⟨[], List.not_mem_nil, Nat.zero_le _⟩
    pass := ⟨[], List.not_mem_nil, Nat.zero_le _⟩
    topic := ⟨[], List.not_mem_nil, Nat.zero_le _⟩
    ntpServer := ⟨[], List.not_mem_nil, Nat.zero_le _⟩
    inName := fun _ => ⟨[], List.not_mem_nil, Nat.zero_le _⟩
    outName := fun _ => ⟨[], List.not_mem_nil, Nat.zero_le _⟩ }

theorem quoteFree_withoutTexts (s : BackupSettings) : s.withoutTexts.QuoteFree where
  host := List.not_mem_nil
  client := List.not_mem_nil
  user := List.not_mem_nil
  pass := List.not_mem_nil
  topic := List.not_mem_nil
  ntpServer := List.not_mem_nil
  inName := fun _ => List.not_mem_nil
  outName := fun _ => List.not_mem_nil

/-- The blocks of names without quotation marks have none. -/
theorem quote_notMem_ssiNames {names : Nat → FieldStr (cfgNameLen - 1)} {count : Nat}
    (hcount : count ≤ 64) (h : ∀ i < count, 34 ∉ (names i).text) : 34 ∉ ssiNames names count := by
  rw [ssiNames_eq names hcount]
  intro hmem
  obtain ⟨i, hi, hblock⟩ := List.mem_flatMap.mp hmem
  rw [nameBlock_nameField (names i).noNul (names i).fits] at hblock
  rcases List.mem_append.mp hblock with htext | hblank
  · exact h i (List.mem_range.mp hi) htext
  · exact absurd (List.eq_of_mem_replicate hblank) (by decide)

/-- Names that are restored over none, on a device without quotation marks, have none. -/
theorem quote_notMem_of_namesRestored {names old new : Nat → FieldStr (cfgNameLen - 1)}
    {count : Nat} (h : NamesRestored names old new count) (hnew : ∀ i, 34 ∉ (new i).text) :
    ∀ i < count, 34 ∉ (names i).text := by
  intro i hi hmem
  have hone := h i hi
  have hne : (names i).text ≠ [] := List.ne_nil_of_mem hmem
  rw [if_neg hne] at hone
  exact hnew i (hone ▸ hmem)

/-- The tags have a quotation mark only where the texts or the listed names have one. -/
theorem quote_notMem_tags (hhost : 34 ∉ s.host.text) (hclient : 34 ∉ s.client.text)
    (huser : 34 ∉ s.user.text) (hpass : 34 ∉ s.pass.text) (htopic : 34 ∉ s.topic.text)
    (hntp : 34 ∉ s.ntpServer.text)
    (hin : ∀ i < s.listedInNames localInputs, 34 ∉ (s.inName i).text)
    (hout : ∀ i < s.listedOutNames, 34 ∉ (s.outName i).text) (i : PageInput) :
    34 ∉ s.tags localInputs i := by
  have hnumber (z : Int) : 34 ∉ fmtInt z := fun hmem => (plainAttr_fmtInt z 34 hmem).1.2.2.1 rfl
  have hhex {t : CStr} (ht : ∀ c ∈ t, isHexDigit c = true) : 34 ∉ t := fun hmem =>
    (plainAttr_of_isHexDigit (ht 34 hmem)).1.2.2.1 rfl
  cases i with
  | host => exact hhost
  | port => exact hnumber s.port.1
  | client => exact hclient
  | user => exact huser
  | pass => exact hpass
  | topic => exact htopic
  | auth =>
      change 34 ∉ if s.useAuth then ascii "checked" else []
      split <;> decide
  | din => exact hnumber s.din.val
  | relay => exact hnumber s.relay.val
  | ntp => exact hntp
  | tz => exact hnumber s.tz
  | types => exact hhex (s.isHexDigit_types localInputs)
  | binds => exact hhex (s.isHexDigit_binds localInputs)
  | innames => exact quote_notMem_ssiNames (Nat.min_le_right _ _) hin
  | outnames => exact quote_notMem_ssiNames (Nat.min_le_right _ _) hout

/-- **Settings that come back have no quotation marks.** -/
theorem noQuote_of_restored (h : ∀ d : RestoreState, s.RestoredOver localInputs d.settings
    (restoreBackup ul browser localInputs s d)) : ∀ i, 34 ∉ s.tags localInputs i := by
  have hback := h ⟨s.withoutTexts, []⟩
  have hbefore : RestoreState.settings ⟨s.withoutTexts, []⟩ |>.QuoteFree :=
    s.quoteFree_withoutTexts
  have hfree : (restoreBackup ul browser localInputs s ⟨s.withoutTexts, []⟩).QuoteFree :=
    hbefore.requests _
  have htext {t u : CStr} (ht : 34 ∉ t) (heq : t = u) : 34 ∉ u := by
    rw [← heq]
    exact ht
  exact quote_notMem_tags (htext hfree.host hback.host) (htext hfree.client hback.client)
    (htext hfree.user hback.user) (htext hfree.pass hback.pass) (htext hfree.topic hback.topic)
    (htext hfree.ntpServer hback.ntpServer)
    (quote_notMem_of_namesRestored hback.inNames hfree.inName)
    (quote_notMem_of_namesRestored hback.outNames hfree.outName)

/-! ## From the device to the settings -/

/-- **Texts that come back are texts that do**, one after the other: each is read behind the
texts before it. -/
theorem textsKept_of_restored {d : BackupSettings}
    (h : s.RestoredOver localInputs d (d.restoredFrom ul (s.document browser localInputs))) :
    s.TextsKept browser := by
  have hsum := s.width_texts_le browser localInputs
  have hwidth {n : Nat} (hn : n ≤ 9) :
      (((s.props browser localInputs).take n).map lineWidth).sum ≤ 1396 :=
    (sum_width_take_le _ hn).trans hsum
  have hkey : ∀ k ∈ backupKeys, k.length ≤ 8 := by decide
  have htext {n room : Nat} {key : CStr} {t : FieldStr room} (old : FieldStr room) (hn : n ≤ 9)
      (hroom : room ≤ 63) (hclean : CleanUpTo (s.props browser localInputs) n)
      (hget : (s.props browser localInputs)[n]? = some (strProp browser key t.text))
      (hback : (restoreStr (s.document browser localInputs) key old).text = t.text) :
      browser.Keeps room t.text := by
    have hlen := hkey key (props_split hget).2.1
    have hsum := hwidth hn
    exact (restoreStr_document_iff t old hget hclean (by omega)).mp hback
  have hstr {key t : CStr} {room : Nat} (hmem : key ∈ backupKeys) (hkeeps : browser.Keeps room t)
      (hnul : 0 ∉ t) : CleanProp (strProp browser key t) :=
    cleanProp_strProp hmem (hkeeps.clean hnul)
  have c0 : CleanUpTo (s.props browser localInputs) 0 := fun p hp => absurd hp List.not_mem_nil
  have host := htext d.host (by decide) (by decide) c0 rfl h.host
  have c1 := c0.succ rfl (hstr (by decide) host s.host.noNul)
  have c2 := c1.succ rfl (cleanProp_numProp (by decide) s.port)
  have client := htext d.client (by decide) (by decide) c2 rfl h.client
  have c3 := c2.succ rfl (hstr (by decide) client s.client.noNul)
  have user := htext d.user (by decide) (by decide) c3 rfl h.user
  have c4 := c3.succ rfl (hstr (by decide) user s.user.noNul)
  have pass := htext d.pass (by decide) (by decide) c4 rfl h.pass
  have c5 := c4.succ rfl (hstr (by decide) pass s.pass.noNul)
  have topic := htext d.topic (by decide) (by decide) c5 rfl h.topic
  have c6 := c5.succ rfl (hstr (by decide) topic s.topic.noNul)
  have c7 := c6.succ rfl (cleanProp_numProp (by decide) _)
  have c8 := c7.succ rfl (cleanProp_numProp (by decide) _)
  have c9 := c8.succ rfl (cleanProp_numProp (by decide) _)
  have ntpServer := htext d.ntpServer (Nat.le_refl 9) (by decide) c9 rfl h.ntpServer
  exact ⟨host, client, user, pass, topic, ntpServer⟩

/-- The same settings with one binding, or none, for every slot. -/
def withBinds (s : BackupSettings) (b : { b : BindSlot // b.Stored }) : BackupSettings :=
  { s with binds := ⟨fun _ _ => b.1, fun _ _ => b.2⟩ }

/-- A slot that does something else. -/
theorem exists_other_effective (b : BindSlot) :
    ∃ other : { b : BindSlot // b.Stored }, other.1.effective ≠ b.effective := by
  by_cases hused : b.Used
  · refine ⟨⟨.unused, BindSlot.stored_unused⟩, ?_⟩
    have hsome : b.effective = some _ := if_pos hused
    have hnone : BindSlot.unused.effective = none := rfl
    rw [hsome, hnone]
    nofun
  · refine ⟨⟨⟨bindTrigChange, 0⟩, stored_change⟩, ?_⟩
    have hnone : b.effective = none := if_neg hused
    rw [hnone]
    decide

/-- **Inputs whose bindings come back** are those of at most two devices, and no local ones. -/
theorem inputs_of_restored (h : ∀ d : BackupSettings,
    s.RestoredOver localInputs d (d.restoredFrom ul (s.document browser localInputs))) :
    s.ioInputCount localInputs ≤ min (s.din.val * 8) 16 := by
  rw [← Nat.not_lt]
  intro hlt
  have hle := s.ioInputCount_le localInputs
  have hin : min (s.din.val * 8) 16 < cfgMaxInputs := Nat.lt_of_lt_of_le hlt hle
  obtain ⟨other, hother⟩ := exists_other_effective
    (s.binds.1 ⟨min (s.din.val * 8) 16, hin⟩ ⟨0, by decide⟩)
  have hback := h (s.withBinds other)
  have hslot := hback.binds ⟨min (s.din.val * 8) 16, hin⟩ ⟨0, by decide⟩ hlt
  have hkept : ((s.withBinds other).restoredFrom ul (s.document browser localInputs)).binds.1
      ⟨min (s.din.val * 8) 16, hin⟩ ⟨0, by decide⟩ = other.1 := by
    have hdin := hback.din
    change (restoreBinds (s.document browser localInputs)
      ((s.withBinds other).restoredFrom ul (s.document browser localInputs)).din
      (s.withBinds other).binds).1 _ _ = _
    rw [hdin]
    unfold restoreBinds
    split
    · have hfits : 0 + min (s.din.val * 8) 16 * cfgBindSlots ≤ cfgMaxInputs * cfgBindSlots := by
        rw [Nat.zero_add]
        exact Nat.mul_le_mul_right _ (Nat.le_of_lt hin)
      have hsame := restoreBindsLoop_outside hfits
      exact hsame _ _ _ _ (.inr (by simp))
    · rfl
  rw [hkept] at hslot
  exact hother hslot

/-- **Settings that come back on every device survive**, unless a name has a backslash. -/
theorem survives_of_restored (h : ∀ d : RestoreState, s.RestoredOver localInputs d.settings
    (restoreBackup ul browser localInputs s d)) :
    s.Survives browser localInputs ∨ s.BackslashName localInputs := by
  by_cases hslash : s.BackslashName localInputs
  · exact .inr hslash
  have hquote := noQuote_of_restored h
  have hall (d : BackupSettings) :
      s.RestoredOver localInputs d (d.restoredFrom ul (s.document browser localInputs)) := by
    have hback := h ⟨d, []⟩
    rw [restoreBackup_eq hquote] at hback
    exact hback
  have htexts := textsKept_of_restored (hall s)
  have hinputs := inputs_of_restored hall
  have hin : s.ioInputCount localInputs ≤ 16 := hinputs.trans (Nat.min_le_right _ _)
  have hcount : s.ioInputCount localInputs = s.din.val * 8 := by
    have hge : s.din.val * 8 ≤ s.ioInputCount localInputs := by
      unfold ioInputCount ioInputCountOf
      split <;> omega
    omega
  unfold BackslashName at hslash
  push Not at hslash
  have hquoteNames {names : Nat → FieldStr (cfgNameLen - 1)} {count : Nat} (hle : count ≤ 64)
      (hfree : 34 ∉ ssiNames names count) : ∀ i < count, 34 ∉ (names i).text := by
    intro i hi hmem
    rw [ssiNames_eq names hle] at hfree
    apply hfree
    refine List.mem_flatMap.mpr ⟨i, List.mem_range.mpr hi, ?_⟩
    rw [nameBlock_nameField (names i).noNul (names i).fits]
    exact List.mem_append_left _ hmem
  have hinNames : browser.NamesKept s.inName (s.listedInNames localInputs) := by
    apply Browser.namesKept_of_restored
    · intro old
      have hback := hall { s with inName := old }
      have hnames := hback.inNames
      rw [htexts.inName_eq hin hcount _ hback.din] at hnames
      exact hnames
    · exact hslash.1
    · exact hquoteNames (Nat.min_le_right _ _) (hquote .innames)
  have houtNames : browser.NamesKept s.outName s.listedOutNames := by
    apply Browser.namesKept_of_restored
    · intro old
      have hback := hall { s with outName := old }
      have hnames := hback.outNames
      rw [htexts.outName_eq hin hinNames _ hback.relay] at hnames
      exact hnames
    · exact hslash.2
    · exact hquoteNames (Nat.min_le_right _ _) (hquote .outnames)
  exact .inl ⟨htexts, hinputs, hinNames, houtNames⟩

/-- The texts of settings that survive have no quotation marks. -/
theorem Survives.noQuote (h : s.Survives browser localInputs) :
    ∀ i, 34 ∉ s.tags localInputs i := by
  have hkeeps {room : Nat} {t : CStr} (ht : browser.Keeps room t) : 34 ∉ t := by
    obtain ⟨a, k, hak, hverbatim, -⟩ := ht
    rw [hak]
    intro hmem
    rcases List.mem_append.mp hmem with hleft | hright
    · exact hverbatim.noQuote hleft
    · exact absurd (List.eq_of_mem_replicate hright) (by decide)
  exact quote_notMem_tags (hkeeps h.texts.host) (hkeeps h.texts.client) (hkeeps h.texts.user)
    (hkeeps h.texts.pass) (hkeeps h.texts.topic) (hkeeps h.texts.ntpServer)
    (fun i hi => (h.inNames i hi).1.noQuote) (fun i hi => (h.outNames i hi).1.noQuote)

/-- **A backup of settings that survive brings them back on every device**, and one that brings
its settings back on every device is of settings that survive, or has a name with a backslash. -/
theorem backup_restore (ul : DecimalReader) (browser : Browser) (localInputs : Nat)
    (s : BackupSettings) :
    (s.Survives browser localInputs → ∀ d : RestoreState,
      s.RestoredOver localInputs d.settings (restoreBackup ul browser localInputs s d)) ∧
    ((∀ d : RestoreState, s.RestoredOver localInputs d.settings
      (restoreBackup ul browser localInputs s d)) →
      s.Survives browser localInputs ∨ s.BackslashName localInputs) := by
  constructor
  · intro h d
    rw [restoreBackup_eq h.noQuote]
    exact h.restored d.settings
  · exact survives_of_restored

end BackupSettings

/-! ## A password with a backslash -/

/-- A browser that reads every byte as the character of that number. -/
def latinBrowser : Browser where
  value tags i := (tags i).map byteChar
  attr v := v.map byteChar
  value_eq _ _ _ := rfl
  attr_plain _ _ := rfl
  attr_split v w c _ := by rw [List.map_append, List.map_cons]
  units_le v := by
    rw [← length_sentBytes, sentBytes_map_byteChar]

/-- Defaults, with a password that the settings page accepts. -/
def backslashPass : BackupSettings :=
  { plainSettings with
    user := ⟨ascii "u", by decide, by decide⟩
    pass := ⟨[97, 92, 98], by decide, by decide⟩
    useAuth := true
    din := 2
    relay := 2
    tz := ⟨1, by decide⟩ }

/-- **The password comes back with two backslashes**, on the very device that it is from. -/
theorem backslash_pass_doubled :
    (restoreBackup ustrtoulReader latinBrowser 0 backslashPass ⟨backslashPass, []⟩).pass.text =
        [97, 92, 92, 98] ∧
      ¬backslashPass.RestoredOver 0 backslashPass
        (restoreBackup ustrtoulReader latinBrowser 0 backslashPass ⟨backslashPass, []⟩) := by
  have hplain {t : CStr} (h : ∀ b ∈ t, PlainAttr b) (hslash : 92 ∉ t) :
      0 ∉ latinBrowser.body t ∧ 34 ∉ latinBrowser.body t := by
    have hverbatim : latinBrowser.Verbatim t := Browser.verbatim_of_plain h hslash
    rw [hverbatim.body_eq]
    exact ⟨fun hmem => absurd (h 0 hmem).1 (by decide), hverbatim.noQuote⟩
  have hquote : ∀ i, 34 ∉ backslashPass.tags 0 i :=
    BackupSettings.quote_notMem_tags (by decide) (by decide) (by decide) (by decide) (by decide)
      (by decide) (fun _ _ => List.not_mem_nil) (fun _ _ => List.not_mem_nil)
  have c0 : CleanUpTo (backslashPass.props latinBrowser 0) 0 := fun p hp =>
    absurd hp List.not_mem_nil
  have c1 := c0.succ rfl (cleanProp_strProp (by decide) (hplain (by decide) (by decide)))
  have c2 := c1.succ rfl (cleanProp_numProp (by decide) _)
  have c3 := c2.succ rfl (cleanProp_strProp (by decide) (hplain (by decide) (by decide)))
  have c4 := c3.succ rfl (cleanProp_strProp (by decide) (hplain (by decide) (by decide)))
  have hwidth := (sum_width_take_le (backslashPass.props latinBrowser 0)
    (by decide : 4 ≤ 9)).trans (backslashPass.width_texts_le latinBrowser 0)
  have hget : (backslashPass.props latinBrowser 0)[4]? =
      some (strProp latinBrowser (ascii "pass") [97, 92, 98]) := rfl
  have hkey : (ascii "pass").length = 4 := rfl
  have hroom : cfgPassLen - 1 = 31 := rfl
  have hread : cfgJsonGetStr (backslashPass.document latinBrowser 0) (ascii "pass")
      (cfgPassLen - 1) =
        some (((latinBrowser.body [97, 92, 98]).takeWhile GoodByte).take (cfgPassLen - 1)) :=
    BackupSettings.getStr_document hget c4 (by omega)
  have hpass : (restoreBackup ustrtoulReader latinBrowser 0 backslashPass
      ⟨backslashPass, []⟩).pass.text = [97, 92, 92, 98] := by
    rw [BackupSettings.restoreBackup_eq hquote]
    change (restoreStr (backslashPass.document latinBrowser 0) (ascii "pass")
      backslashPass.pass).text = _
    unfold restoreStr
    rw [hread]
    decide
  refine ⟨hpass, ?_⟩
  intro h
  have heq := h.pass
  rw [hpass] at heq
  exact absurd heq (by decide)

end HomeAuto
