import HomeAuto.BackupDocument

/-!
# The settings that a backup brings back

The settings come back on every other device when each text is one that comes back, the bindings
are of no more inputs than the restore takes, and the names are kept.
-/

namespace HomeAuto

open QuotedText

/-! ## What is to come back -/

/-- The texts of the settings come back. -/
structure BackupSettings.TextsKept (browser : Browser) (s : BackupSettings) : Prop where
  host : browser.Keeps (cfgHostLen - 1) s.host.text
  client : browser.Keeps (cfgClientIDLen - 1) s.client.text
  user : browser.Keeps (cfgUserLen - 1) s.user.text
  pass : browser.Keeps (cfgPassLen - 1) s.pass.text
  topic : browser.Keeps (cfgTopicLen - 1) s.topic.text
  ntpServer : browser.Keeps (cfgNtpServerLen - 1) s.ntpServer.text

/-- **The settings that a backup brings back.** -/
structure BackupSettings.Survives (browser : Browser) (localInputs : Nat) (s : BackupSettings) :
    Prop where
  texts : s.TextsKept browser
  inputs : s.ioInputCount localInputs ≤ min (s.din.val * 8) 16
  inNames : browser.NamesKept s.inName (s.listedInNames localInputs)
  outNames : browser.NamesKept s.outName s.listedOutNames

/-- Everything that the backup of `s` contains is on the device, which had the settings `d`
before: what the inputs are and do, and the names, where an empty one leaves the old one. -/
structure BackupSettings.RestoredOver (localInputs : Nat) (s d d' : BackupSettings) : Prop where
  host : d'.host.text = s.host.text
  port : d'.port = s.port
  client : d'.client.text = s.client.text
  user : d'.user.text = s.user.text
  pass : d'.pass.text = s.pass.text
  topic : d'.topic.text = s.topic.text
  useAuth : d'.useAuth = s.useAuth
  din : d'.din = s.din
  relay : d'.relay = s.relay
  ntpServer : d'.ntpServer.text = s.ntpServer.text
  tz : d'.tz = s.tz
  types : ∀ i < s.ioInputCount localInputs,
    isPushbutton d'.inputType i = isPushbutton s.inputType i
  binds : ∀ (i : Fin cfgMaxInputs) (k : Fin cfgBindSlots), i < s.ioInputCount localInputs →
    (d'.binds.1 i k).effective = (s.binds.1 i k).effective
  inNames : NamesRestored s.inName d.inName d'.inName (s.listedInNames localInputs)
  outNames : NamesRestored s.outName d.outName d'.outName s.listedOutNames

/-- A listed name has a backslash in it. -/
def BackupSettings.BackslashName (localInputs : Nat) (s : BackupSettings) : Prop :=
  (∃ i < s.listedInNames localInputs, 92 ∈ (s.inName i).text) ∨
    ∃ i < s.listedOutNames, 92 ∈ (s.outName i).text

/-! ## What is read at a key -/

/-- The properties before number `n` are clean. -/
def CleanUpTo (ps : List (CStr × CStr)) (n : Nat) : Prop := ∀ p ∈ ps.take n, CleanProp p

theorem CleanUpTo.succ {ps : List (CStr × CStr)} {n : Nat} {p : CStr × CStr}
    (h : CleanUpTo ps n) (hn : ps[n]? = some p) (hp : CleanProp p) : CleanUpTo ps (n + 1) := by
  intro q hq
  rw [List.take_add_one, hn] at hq
  rcases List.mem_append.mp hq with hold | hlast
  · exact h q hold
  · rw [List.mem_singleton.mp hlast]
    exact hp

theorem sum_width_take_le (ps : List (CStr × CStr)) {m n : Nat} (h : m ≤ n) :
    ((ps.take m).map lineWidth).sum ≤ ((ps.take n).map lineWidth).sum := by
  obtain ⟨k, hk⟩ := Nat.exists_eq_add_of_le h
  rw [hk, List.take_add, List.map_append, List.sum_append]
  exact Nat.le_add_right _ _

namespace BackupSettings

variable {ul : DecimalReader} {browser : Browser} {localInputs : Nat} {s : BackupSettings}

/-- The text that the device has, when it has read the whole backup. -/
def document (browser : Browser) (localInputs : Nat) (s : BackupSettings) : CStr :=
  bufferText (docOf (s.props browser localInputs))

/-- A property and those before it. -/
theorem props_split {n : Nat} {p : CStr × CStr} (hn : (s.props browser localInputs)[n]? = some p) :
    (∃ post, s.props browser localInputs = (s.props browser localInputs).take n ++ p :: post) ∧
      p.1 ∈ backupKeys ∧ ∀ q ∈ (s.props browser localInputs).take n, q.1 ≠ p.1 := by
  obtain ⟨hlt, hget⟩ := List.getElem?_eq_some_iff.mp hn
  have hsplit : s.props browser localInputs = (s.props browser localInputs).take n ++
      p :: (s.props browser localInputs).drop (n + 1) := by
    rw [← hget, List.getElem_cons_drop, List.take_append_drop]
  have hkey : p.1 ∈ backupKeys := by
    have hkeys : (s.props browser localInputs).map Prod.fst = backupKeys := keys_props
    rw [← hkeys]
    exact List.mem_map_of_mem (List.mem_of_getElem? hn)
  refine ⟨⟨_, hsplit⟩, hkey, ?_⟩
  intro q hq heq
  have hnodup : (s.props browser localInputs).map Prod.fst |>.Nodup := by
    rw [keys_props]
    decide
  rw [hsplit, List.map_append, List.map_cons, List.nodup_append] at hnodup
  exact hnodup.2.2 q.1 (List.mem_map_of_mem hq) p.1 List.mem_cons_self heq

/-- A text. -/
theorem getStr_document {n room : Nat} {key t : CStr}
    (hn : (s.props browser localInputs)[n]? = some (strProp browser key t))
    (hclean : CleanUpTo (s.props browser localInputs) n)
    (hlen : (((s.props browser localInputs).take n).map lineWidth).sum + key.length + 9 + room ≤
      2047) :
    cfgJsonGetStr (s.document browser localInputs) key room =
      some (((browser.body t).takeWhile GoodByte).take room) := by
  obtain ⟨⟨post, hsplit⟩, hkey, hother⟩ := props_split hn
  obtain ⟨hisKey, hnul⟩ := key_of_mem hkey
  have hbefore := length_beforeOf ((s.props browser localInputs).take n) key
  unfold document
  rw [hsplit]
  apply cfgJsonGetStr_docOf hisKey hnul
  · intro q hq
    exact ⟨hclean q hq, hother q hq⟩
  · change (beforeOf ((s.props browser localInputs).take n) key).length + 1 + room ≤ 2047
    omega

/-- A number. -/
theorem getInt_document {n : Nat} {key : CStr} {z : Int}
    (hn : (s.props browser localInputs)[n]? = some (numProp key z)) (hz : z.natAbs < 10 ^ 5)
    (hclean : CleanUpTo (s.props browser localInputs) n)
    (hlen : (((s.props browser localInputs).take n).map lineWidth).sum + key.length ≤ 2000) :
    cfgJsonGetInt ul (s.document browser localInputs) key = z := by
  obtain ⟨⟨post, hsplit⟩, hkey, hother⟩ := props_split hn
  obtain ⟨hisKey, hnul⟩ := key_of_mem hkey
  have hbefore := length_beforeOf ((s.props browser localInputs).take n) key
  have hdigits := length_fmtInt_le hz
  unfold document
  rw [hsplit]
  apply cfgJsonGetInt_docOf ul hisKey hnul
  · intro q hq
    exact ⟨hclean q hq, hother q hq⟩
  · omega
  · change (beforeOf ((s.props browser localInputs).take n) key).length +
      (fmtInt z).length + 1 ≤ 2047
    omega

/-- **A text setting comes back exactly if it is a text that does.** -/
theorem restoreStr_document_iff {n room : Nat} {key : CStr} (t old : FieldStr room)
    (hn : (s.props browser localInputs)[n]? = some (strProp browser key t.text))
    (hclean : CleanUpTo (s.props browser localInputs) n)
    (hlen : (((s.props browser localInputs).take n).map lineWidth).sum + key.length + 9 + room ≤
      2047) :
    (restoreStr (s.document browser localInputs) key old).text = t.text ↔
      browser.Keeps room t.text := by
  have hread : (restoreStr (s.document browser localInputs) key old).text =
      ((browser.body t.text).takeWhile GoodByte).take room := by
    have hgood : ∀ c ∈ ((browser.body t.text).takeWhile GoodByte).take room,
        decide (c ≠ 0) = true := by
      intro c hc
      have hbyte := List.mem_takeWhile_imp (List.mem_of_mem_take hc)
      exact (Bool.and_eq_true_iff.mp hbyte).1
    unfold restoreStr
    rw [getStr_document hn hclean hlen]
    change ((((browser.body t.text).takeWhile GoodByte).take room).takeWhile
      (fun c => decide (c ≠ 0))).take room = _
    rw [List.takeWhile_eq_self_iff.mpr hgood, List.take_take, Nat.min_self]
  rw [hread]
  exact Browser.read_iff_keeps t.noNul t.fits

/-! ## Sizes -/

theorem lineWidth_strProp {key : CStr} (h : key ∈ backupKeys) (browser : Browser) (t : CStr) :
    lineWidth (strProp browser key t) ≤ (browser.body t).length + 18 := by
  have hkey : ∀ k ∈ backupKeys, k.length ≤ 8 := by decide
  have hle := hkey key h
  have hlen : (quoted 34 (browser.body t)).length = (browser.body t).length + 2 := by
    simp [quoted]
  change key.length + (quoted 34 (browser.body t)).length + 8 ≤ _
  omega

theorem lineWidth_numProp {key : CStr} (h : key ∈ backupKeys) {z : Int}
    (hz : z.natAbs < 10 ^ 5) : lineWidth (numProp key z) ≤ 22 := by
  have hkey : ∀ k ∈ backupKeys, k.length ≤ 8 := by decide
  have hle := hkey key h
  have hdigits := length_fmtInt_le hz
  change key.length + (fmtInt z).length + 8 ≤ 22
  omega

theorem natAbs_port (s : BackupSettings) : (s.port.1 : Int).natAbs < 10 ^ 5 := by
  have hport := s.port.2.2
  omega

theorem natAbs_auth (s : BackupSettings) :
    ((if s.useAuth then 1 else 0 : Int)).natAbs < 10 ^ 5 := by
  cases s.useAuth <;> decide

theorem natAbs_din (s : BackupSettings) : ((s.din : Nat) : Int).natAbs < 10 ^ 5 := by
  have hdin := s.din.isLt
  omega

theorem natAbs_relay (s : BackupSettings) : ((s.relay : Nat) : Int).natAbs < 10 ^ 5 := by
  have hrelay := s.relay.isLt
  omega

theorem natAbs_tz (s : BackupSettings) : (s.tz.1).natAbs < 10 ^ 5 := by
  have htz := s.tz.2
  omega

/-- The size of the properties before the NTP server. -/
theorem width_texts (browser : Browser) (localInputs : Nat) (s : BackupSettings) :
    (((s.props browser localInputs).take 9).map lineWidth).sum ≤
      (browser.body s.host.text).length + (browser.body s.client.text).length +
        (browser.body s.user.text).length + (browser.body s.pass.text).length +
        (browser.body s.topic.text).length + 178 := by
  have hhost := lineWidth_strProp (by decide : ascii "host" ∈ backupKeys) browser s.host.text
  have hport := lineWidth_numProp (by decide : ascii "port" ∈ backupKeys) s.natAbs_port
  have hclient := lineWidth_strProp (by decide : ascii "client" ∈ backupKeys) browser s.client.text
  have huser := lineWidth_strProp (by decide : ascii "user" ∈ backupKeys) browser s.user.text
  have hpass := lineWidth_strProp (by decide : ascii "pass" ∈ backupKeys) browser s.pass.text
  have htopic := lineWidth_strProp (by decide : ascii "topic" ∈ backupKeys) browser s.topic.text
  have hauth := lineWidth_numProp (by decide : ascii "auth" ∈ backupKeys) s.natAbs_auth
  have hdin := lineWidth_numProp (by decide : ascii "din" ∈ backupKeys) s.natAbs_din
  have hrelay := lineWidth_numProp (by decide : ascii "relay" ∈ backupKeys) s.natAbs_relay
  simp only [props, List.take_succ_cons, List.take_zero, List.map_cons, List.map_nil,
    List.sum_cons, List.sum_nil]
  omega

/-- They leave room for it. -/
theorem width_texts_le (browser : Browser) (localInputs : Nat) (s : BackupSettings) :
    (((s.props browser localInputs).take 9).map lineWidth).sum ≤ 1396 := by
  have hwidth := s.width_texts browser localInputs
  have hhost := browser.length_body_le s.host.text
  have hclient := browser.length_body_le s.client.text
  have huser := browser.length_body_le s.user.text
  have hpass := browser.length_body_le s.pass.text
  have htopic := browser.length_body_le s.topic.text
  have hhost' : s.host.text.length ≤ 63 := s.host.fits
  have hclient' : s.client.text.length ≤ 31 := s.client.fits
  have huser' : s.user.text.length ≤ 31 := s.user.fits
  have hpass' : s.pass.text.length ≤ 31 := s.pass.fits
  have htopic' : s.topic.text.length ≤ 47 := s.topic.fits
  omega

/-- A text of hexadecimal digits. -/
theorem verbatim_of_hex {t : CStr} (h : ∀ c ∈ t, isHexDigit c = true) : browser.Verbatim t := by
  apply Browser.verbatim_of_plain
  · intro b hb
    exact (plainAttr_of_isHexDigit (h b hb)).1
  · intro hmem
    exact (plainAttr_of_isHexDigit (h 92 hmem)).2.1 rfl

theorem ioInputCount_le (localInputs : Nat) (s : BackupSettings) :
    s.ioInputCount localInputs ≤ 120 := by
  have hdin := s.din.isLt
  unfold ioInputCount ioInputCountOf cfgMaxInputs
  split <;> omega

theorem isHexDigit_types (localInputs : Nat) (s : BackupSettings) :
    ∀ c ∈ s.tags localInputs .types, isHexDigit c = true :=
  isHexDigit_ssiIoTypes _ (s.ioInputCount_le localInputs)

theorem isHexDigit_binds (localInputs : Nat) (s : BackupSettings) :
    ∀ c ∈ s.tags localInputs .binds, isHexDigit c = true :=
  isHexDigit_ssiIoBinds _ _

theorem body_types : browser.body (s.tags localInputs .types) = s.tags localInputs .types :=
  (verbatim_of_hex (s.isHexDigit_types localInputs)).body_eq

theorem body_binds : browser.body (s.tags localInputs .binds) = s.tags localInputs .binds :=
  (verbatim_of_hex (s.isHexDigit_binds localInputs)).body_eq

theorem length_types (localInputs : Nat) (s : BackupSettings) :
    (s.tags localInputs .types).length ≤ 30 := by
  have hle := s.ioInputCount_le localInputs
  change (ssiIoTypes (isPushbutton s.inputType) (s.ioInputCount localInputs)).length ≤ 30
  rw [ssiIoTypes_eq _ hle, length_typeBytes]
  omega

theorem length_binds (localInputs : Nat) (s : BackupSettings) :
    (s.tags localInputs .binds).length ≤ s.ioInputCount localInputs * 12 ∧
      (s.tags localInputs .binds).length ≤ 798 := by
  have hw : ∀ e ∈ ((List.range (min (s.ioInputCount localInputs) cfgMaxInputs *
      cfgBindSlots)).take 266).map (fun k => hex3
        (s.binds.1.configBindingGet (k / cfgBindSlots) (k % cfgBindSlots)).bits),
      e.length = 3 := by
    intro e he
    obtain ⟨k, -, hk⟩ := List.mem_map.mp he
    rw [← hk]
    rfl
  have hlen := Delimited.length_flatten_uniform hw
  rw [List.length_map, List.length_take, List.length_range] at hlen
  change (ssiIoBinds s.binds (s.ioInputCount localInputs)).length ≤ _ ∧
    (ssiIoBinds s.binds (s.ioInputCount localInputs)).length ≤ 798
  rw [ssiIoBinds_eq, hlen]
  unfold cfgBindSlots
  omega

/-! ## From the settings to the device -/

/-- The properties before the names are clean when the texts come back. -/
theorem TextsKept.cleanUpTo (h : s.TextsKept browser) :
    CleanUpTo (s.props browser localInputs) 13 := by
  have hhex {t : CStr} (ht : ∀ c ∈ t, isHexDigit c = true) :
      0 ∉ browser.body t ∧ 34 ∉ browser.body t := by
    have hverbatim : browser.Verbatim t := verbatim_of_hex ht
    rw [hverbatim.body_eq]
    exact ⟨fun hmem => (plainAttr_of_isHexDigit (ht 0 hmem)).2.2 rfl, hverbatim.noQuote⟩
  intro p hp
  simp only [props, List.take_succ_cons, List.take_zero, List.mem_cons, List.not_mem_nil,
    or_false] at hp
  rcases hp with hp | hp | hp | hp | hp | hp | hp | hp | hp | hp | hp | hp | hp <;> rw [hp]
  · exact cleanProp_strProp (by decide) (h.host.clean s.host.noNul)
  · exact cleanProp_numProp (by decide) _
  · exact cleanProp_strProp (by decide) (h.client.clean s.client.noNul)
  · exact cleanProp_strProp (by decide) (h.user.clean s.user.noNul)
  · exact cleanProp_strProp (by decide) (h.pass.clean s.pass.noNul)
  · exact cleanProp_strProp (by decide) (h.topic.clean s.topic.noNul)
  · exact cleanProp_numProp (by decide) _
  · exact cleanProp_numProp (by decide) _
  · exact cleanProp_numProp (by decide) _
  · exact cleanProp_strProp (by decide) (h.ntpServer.clean s.ntpServer.noNul)
  · exact cleanProp_numProp (by decide) _
  · exact cleanProp_strProp (by decide) (hhex (s.isHexDigit_types localInputs))
  · exact cleanProp_strProp (by decide) (hhex (s.isHexDigit_binds localInputs))

/-- The properties before the names leave room for them. -/
theorem TextsKept.width (h : s.TextsKept browser) (hin : s.ioInputCount localInputs ≤ 16) :
    (((s.props browser localInputs).take 13).map lineWidth).sum ≤ 944 := by
  have hhost := h.host.length_body_le
  have hclient := h.client.length_body_le
  have huser := h.user.length_body_le
  have hpass := h.pass.length_body_le
  have htopic := h.topic.length_body_le
  have hntp := h.ntpServer.length_body_le
  have hhost' : s.host.text.length ≤ 63 := s.host.fits
  have hclient' : s.client.text.length ≤ 31 := s.client.fits
  have huser' : s.user.text.length ≤ 31 := s.user.fits
  have hpass' : s.pass.text.length ≤ 31 := s.pass.fits
  have htopic' : s.topic.text.length ≤ 47 := s.topic.fits
  have hntp' : s.ntpServer.text.length ≤ 31 := s.ntpServer.fits
  have htypes := length_types localInputs s
  have hbinds := (length_binds localInputs s).1
  have hfirst := s.width_texts browser localInputs
  have wntp := lineWidth_strProp (by decide : ascii "ntp" ∈ backupKeys) browser s.ntpServer.text
  have wtz := lineWidth_numProp (by decide : ascii "tz" ∈ backupKeys) s.natAbs_tz
  have wtypes := lineWidth_strProp (by decide : ascii "types" ∈ backupKeys) browser
    (s.tags localInputs .types)
  have wbinds := lineWidth_strProp (by decide : ascii "binds" ∈ backupKeys) browser
    (s.tags localInputs .binds)
  rw [body_types] at wtypes
  rw [body_binds] at wbinds
  have hsplit : (s.props browser localInputs).take 13 = (s.props browser localInputs).take 9 ++
      [strProp browser (ascii "ntp") s.ntpServer.text, numProp (ascii "tz") s.tz,
        strProp browser (ascii "types") (s.tags localInputs .types),
        strProp browser (ascii "binds") (s.tags localInputs .binds)] := rfl
  rw [hsplit, List.map_append, List.sum_append]
  simp only [List.map_cons, List.map_nil, List.sum_cons, List.sum_nil]
  omega

/-- The names at a key. -/
theorem restoreNames_document {n count : Nat} {key : CStr} (names : Nat → FieldStr (cfgNameLen - 1))
    (hn : (s.props browser localInputs)[n]? = some (strProp browser key (ssiNames names count)))
    (hcount : count ≤ 64) (hclean : CleanUpTo (s.props browser localInputs) n)
    (hlen : (((s.props browser localInputs).take n).map lineWidth).sum + key.length ≤ 1783)
    (old : Nat → FieldStr (cfgNameLen - 1)) :
    restoreNames (s.document browser localInputs) key count old =
      (List.range count).foldl (restoreName (browser.readNames names count)) old := by
  unfold restoreNames
  rw [getStr_document hn hclean (by omega), ssiNames_eq names hcount]
  rfl

theorem restoreDevices_eq {json key : CStr} {z : Fin 16} (old : Fin 16)
    (h : cfgJsonGetInt ul json key = (z : Nat)) : restoreDevices ul json key old = z := by
  have hz := z.isLt
  have htoNat : ((z : Nat) : Int).toNat % 256 = z := by omega
  unfold restoreDevices setDevices
  rw [h, if_pos (Int.natCast_nonneg _), htoNat, dif_pos hz]

/-- The input names come after everything else, and the output names after them. -/
theorem TextsKept.cleanUpTo_outNames (h : s.TextsKept browser)
    (hnames : browser.NamesKept s.inName (s.listedInNames localInputs)) :
    CleanUpTo (s.props browser localInputs) 14 := by
  have hcount : s.listedInNames localInputs ≤ 64 := Nat.min_le_right _ _
  apply h.cleanUpTo.succ rfl
  apply cleanProp_strProp (by decide)
  have hclean := hnames.clean
  rw [← ssiNames_eq _ hcount] at hclean
  exact hclean

theorem TextsKept.width_outNames (h : s.TextsKept browser)
    (hin : s.ioInputCount localInputs ≤ 16)
    (hnames : browser.NamesKept s.inName (s.listedInNames localInputs)) :
    (((s.props browser localInputs).take 14).map lineWidth).sum ≤ 1154 := by
  have hcount : s.listedInNames localInputs ≤ 64 := Nat.min_le_right _ _
  have hin' : s.listedInNames localInputs ≤ s.ioInputCount localInputs := Nat.min_le_left _ _
  have hbefore := h.width hin
  have hlast := lineWidth_strProp (by decide : ascii "innames" ∈ backupKeys) browser
    (s.tags localInputs .innames)
  change _ ≤ (browser.body (ssiNames s.inName (s.listedInNames localInputs))).length + 18 at hlast
  rw [ssiNames_eq _ hcount, hnames.body_eq, length_blocksOf, List.length_range] at hlast
  have hsplit : ((s.props browser localInputs).take 14) = (s.props browser localInputs).take 13 ++
      [strProp browser (ascii "innames") (s.tags localInputs .innames)] := rfl
  rw [hsplit, List.map_append, List.sum_append, List.map_singleton, List.sum_singleton]
  unfold cfgNameLen at hlast
  omega

/-- The input names that the device has, when it has the number of devices and the inputs are
those of the devices. -/
theorem TextsKept.inName_eq (h : s.TextsKept browser) (hin : s.ioInputCount localInputs ≤ 16)
    (hcount : s.ioInputCount localInputs = s.din.val * 8) (d : BackupSettings)
    (hdin : (d.restoredFrom ul (s.document browser localInputs)).din = s.din) :
    (d.restoredFrom ul (s.document browser localInputs)).inName =
      (List.range (s.listedInNames localInputs)).foldl
        (restoreName (browser.readNames s.inName (s.listedInNames localInputs))) d.inName := by
  have hget : (s.props browser localInputs)[13]? = some (strProp browser (ascii "innames")
      (ssiNames s.inName (s.listedInNames localInputs))) := rfl
  have hkey : (ascii "innames").length = 7 := rfl
  have hwidth := h.width hin
  have hread := restoreNames_document s.inName hget (Nat.min_le_right _ _) h.cleanUpTo
    (by omega) d.inName
  have hlisted : min (s.din.val * 8) cfgNamesMaxInputs = s.listedInNames localInputs := by
    rw [listedInNames, hcount]
  change restoreNames _ _ (min ((d.restoredFrom ul (s.document browser localInputs)).din.val * 8)
    cfgNamesMaxInputs) d.inName = _
  rw [hdin, hlisted, hread]

/-- The output names that it has, when the input names are kept. -/
theorem TextsKept.outName_eq (h : s.TextsKept browser) (hin : s.ioInputCount localInputs ≤ 16)
    (hnames : browser.NamesKept s.inName (s.listedInNames localInputs)) (d : BackupSettings)
    (hrelay : (d.restoredFrom ul (s.document browser localInputs)).relay = s.relay) :
    (d.restoredFrom ul (s.document browser localInputs)).outName =
      (List.range s.listedOutNames).foldl
        (restoreName (browser.readNames s.outName s.listedOutNames)) d.outName := by
  have hget : (s.props browser localInputs)[14]? = some (strProp browser (ascii "outnames")
      (ssiNames s.outName s.listedOutNames)) := rfl
  have hkey : (ascii "outnames").length = 8 := rfl
  have hwidth := h.width_outNames hin hnames
  have hread := restoreNames_document s.outName hget (Nat.min_le_right _ _)
    (h.cleanUpTo_outNames hnames) (by omega) d.outName
  change restoreNames _ _ (min ((d.restoredFrom ul (s.document browser localInputs)).relay.val * 8)
    cfgNamesMaxOutputs) d.outName = _
  rw [hrelay]
  exact hread

/-- What stands before a property, up to the names, is clean, and leaves room for the property. -/
theorem TextsKept.before (h : s.TextsKept browser) (hin : s.ioInputCount localInputs ≤ 16)
    {n : Nat} (hn : n ≤ 13) {key value : CStr}
    (hget : (s.props browser localInputs)[n]? = some (key, value)) :
    CleanUpTo (s.props browser localInputs) n ∧
      (((s.props browser localInputs).take n).map lineWidth).sum + key.length ≤ 952 := by
  have hkey : ∀ k ∈ backupKeys, k.length ≤ 8 := by decide
  have hlen := hkey key (props_split hget).2.1
  have hsum := (sum_width_take_le (s.props browser localInputs) hn).trans (h.width hin)
  refine ⟨fun q hq => h.cleanUpTo q ((List.take_subset_take_left _ hn) hq), ?_⟩
  omega

/-- A number, as the restore reads it. -/
theorem TextsKept.getInt_eq (h : s.TextsKept browser) (hin : s.ioInputCount localInputs ≤ 16)
    {n : Nat} (hn : n ≤ 13) {key : CStr} {z : Int}
    (hget : (s.props browser localInputs)[n]? = some (numProp key z)) (hz : z.natAbs < 10 ^ 5) :
    cfgJsonGetInt ul (s.document browser localInputs) key = z := by
  obtain ⟨hclean, hroom⟩ := h.before hin hn hget
  exact getInt_document hget hz hclean (by omega)

/-- A text that comes back. -/
theorem TextsKept.restoreStr_text (h : s.TextsKept browser)
    (hin : s.ioInputCount localInputs ≤ 16) {n room : Nat} (hn : n ≤ 13) (hroom : room ≤ 63)
    {key : CStr} {t : FieldStr room}
    (hget : (s.props browser localInputs)[n]? = some (strProp browser key t.text))
    (hkeeps : browser.Keeps room t.text) (old : FieldStr room) :
    (restoreStr (s.document browser localInputs) key old).text = t.text := by
  obtain ⟨hclean, hbefore⟩ := h.before hin hn hget
  exact (restoreStr_document_iff t old hget hclean (by omega)).mpr hkeeps

/-- Hexadecimal digits, as the restore reads them. -/
theorem TextsKept.getStr_hex (h : s.TextsKept browser) (hin : s.ioInputCount localInputs ≤ 16)
    {n room : Nat} (hn : n ≤ 13) (hroom : room ≤ 255) {key t : CStr}
    (hget : (s.props browser localInputs)[n]? = some (strProp browser key t))
    (ht : ∀ c ∈ t, isHexDigit c = true) (hlen : t.length ≤ room) :
    cfgJsonGetStr (s.document browser localInputs) key room = some t := by
  obtain ⟨hclean, hbefore⟩ := h.before hin hn hget
  have hverbatim : browser.Verbatim t := verbatim_of_hex ht
  have hnul : 0 ∉ t := fun hmem => (plainAttr_of_isHexDigit (ht 0 hmem)).2.2 rfl
  rw [getStr_document hget hclean (by omega), hverbatim.body_eq,
    Browser.takeWhile_good hnul hverbatim.noQuote, List.take_of_length_le hlen]

/-- **Settings that survive are restored.** -/
theorem Survives.restored (h : s.Survives browser localInputs) (d : BackupSettings) :
    s.RestoredOver localInputs d (d.restoredFrom ul (s.document browser localInputs)) := by
  have hin : s.ioInputCount localInputs ≤ 16 := h.inputs.trans (Nat.min_le_right _ _)
  have htexts := h.texts
  have hport : cfgJsonGetInt ul (s.document browser localInputs) (ascii "port") = s.port :=
    htexts.getInt_eq hin (by decide : 1 ≤ 13) rfl s.natAbs_port
  have hauth : cfgJsonGetInt ul (s.document browser localInputs) (ascii "auth") =
      if s.useAuth then 1 else 0 := htexts.getInt_eq hin (by decide : 6 ≤ 13) rfl s.natAbs_auth
  have htz : cfgJsonGetInt ul (s.document browser localInputs) (ascii "tz") = s.tz :=
    htexts.getInt_eq hin (by decide : 10 ≤ 13) rfl s.natAbs_tz
  have hdin : restoreDevices ul (s.document browser localInputs) (ascii "din") d.din = s.din :=
    restoreDevices_eq _ (htexts.getInt_eq hin (by decide : 7 ≤ 13) rfl s.natAbs_din)
  have hrelay : restoreDevices ul (s.document browser localInputs) (ascii "relay") d.relay =
      s.relay := restoreDevices_eq _ (htexts.getInt_eq hin (by decide : 8 ≤ 13) rfl s.natAbs_relay)
  have hcount : s.ioInputCount localInputs = s.din * 8 := by
    have hle := h.inputs
    have hge : s.din * 8 ≤ s.ioInputCount localInputs := by
      unfold ioInputCount ioInputCountOf
      split <;> omega
    omega
  exact
    { host := htexts.restoreStr_text hin (by decide : 0 ≤ 13) (by decide) rfl htexts.host d.host
      client :=
        htexts.restoreStr_text hin (by decide : 2 ≤ 13) (by decide) rfl htexts.client d.client
      user := htexts.restoreStr_text hin (by decide : 3 ≤ 13) (by decide) rfl htexts.user d.user
      pass := htexts.restoreStr_text hin (by decide : 4 ≤ 13) (by decide) rfl htexts.pass d.pass
      topic := htexts.restoreStr_text hin (by decide : 5 ≤ 13) (by decide) rfl htexts.topic d.topic
      ntpServer := htexts.restoreStr_text hin (by decide : 9 ≤ 13) (by decide) rfl
        htexts.ntpServer d.ntpServer
      port := by
        have hrange := s.port.2
        have hvalid : 0 < (s.port.1 : Int) ∧ (s.port.1 : Int) ≤ 65535 := by omega
        unfold restoredFrom
        dsimp only
        simp only [hport, dif_pos hvalid]
        exact Subtype.ext (Int.toNat_natCast _)
      useAuth := by
        unfold restoredFrom
        dsimp only
        rw [hauth]
        cases s.useAuth <;> rfl
      din := hdin
      relay := hrelay
      tz := by
        unfold restoredFrom
        dsimp only
        simp only [htz, dif_pos s.tz.2]
      types := by
        intro i hi
        have hread := htexts.getStr_hex hin (by decide : 11 ≤ 13) (by decide : 63 ≤ 255) rfl
          (s.isHexDigit_types localInputs)
          ((s.length_types localInputs).trans (by decide))
        unfold restoredFrom
        dsimp only
        rw [hread]
        exact isPushbutton_restored _ (s.ioInputCount_le localInputs) _ hi
      binds := by
        intro i k hi
        have hread := htexts.getStr_hex hin (by decide : 12 ≤ 13) (Nat.le_refl 255) rfl
          (s.isHexDigit_binds localInputs)
          ((s.length_binds localInputs).1.trans (by omega))
        unfold restoredFrom restoreBinds
        dsimp only
        rw [hread, hdin]
        dsimp only
        have hmin : min (s.din.val * 8) 16 = s.ioInputCount localInputs := by omega
        rw [hmin]
        exact effective_restored s.binds.2 hin d.binds.1 i hi k
      inNames := by
        rw [htexts.inName_eq hin hcount d hdin]
        exact h.inNames.restored d.inName
      outNames := by
        rw [htexts.outName_eq hin h.inNames d hrelay]
        exact h.outNames.restored d.outName }

end BackupSettings

end HomeAuto
