import HomeAuto.BackupScan
import HomeAuto.BackupUpload
import HomeAuto.BackupNames
import HomeAuto.BackupTables

/-!
# The document that a backup is

The properties of the JSON text, as bytes, for settings whose texts have no quotation mark; and
what the device reads at each of their keys.
-/

namespace HomeAuto

open QuotedText

/-! ## Numbers through the page -/

theorem jsDigits_fmtDecimal (n : Nat) : jsDigits ((fmtDecimal n).map byteChar) = some n := by
  have hdigits : ((fmtDecimal n).map byteChar).takeWhile Char.isDigit =
      (fmtDecimal n).map byteChar := by
    apply List.takeWhile_eq_self_iff.mpr
    intro c hc
    obtain ⟨b, hb, hbc⟩ := List.mem_map.mp hc
    have hdigit := (isNumeral_fmtDecimal n).2 b hb
    have htoNat : (byteChar b).toNat = b.toNat := toNat_ofNat_byte b
    rw [isDecDigit, Bool.and_eq_true, decide_eq_true_eq, decide_eq_true_eq] at hdigit
    have hlow : 48 ≤ b.toNat := UInt8.le_iff_toNat_le.mp hdigit.1
    have hhigh : b.toNat ≤ 57 := UInt8.le_iff_toNat_le.mp hdigit.2
    rw [← htoNat] at hlow hhigh
    rw [← hbc, Char.isDigit, Bool.and_eq_true, decide_eq_true_eq, decide_eq_true_eq]
    exact ⟨UInt32.le_iff_toNat_le.mpr hlow, UInt32.le_iff_toNat_le.mpr hhigh⟩
  have hback : ((fmtDecimal n).map byteChar).map (fun c => UInt8.ofNat c.toNat) =
      fmtDecimal n := by
    rw [List.map_map]
    refine (List.map_congr_left fun b _ => ?_).trans (List.map_id _)
    have htoNat : (byteChar b).toNat = b.toNat := toNat_ofNat_byte b
    rw [Function.comp_apply, htoNat, UInt8.ofNat_toNat]
    rfl
  unfold jsDigits
  rw [hdigits, hback, parseInt_fmtDecimal]

/-- The page reads a printed number. -/
theorem jsParseInt_fmtInt (z : Int) : jsParseInt ((fmtInt z).map byteChar) = some z := by
  unfold fmtInt
  split
  · rename_i hneg
    change (jsDigits ((fmtDecimal z.natAbs).map byteChar)).map (fun n : Nat => -(n : Int)) = some z
    rw [jsDigits_fmtDecimal, Option.map_some]
    congr 1
    omega
  · rename_i hpos
    obtain ⟨c, cs, hcs⟩ := List.exists_cons_of_ne_nil (isNumeral_fmtDecimal z.natAbs).1
    have hdigit := (isNumeral_fmtDecimal z.natAbs).2 c (by rw [hcs]; exact List.mem_cons_self)
    have hminus : byteChar c ≠ '-' := by
      intro heq
      have hnat := congrArg Char.toNat heq
      rw [byteChar, toNat_ofNat_byte] at hnat
      have hbyte : c = 45 := UInt8.toNat_inj.mp hnat
      subst hbyte
      exact absurd hdigit (by decide)
    have hread : jsParseInt ((fmtDecimal z.natAbs).map byteChar) =
        (jsDigits ((fmtDecimal z.natAbs).map byteChar)).map Int.ofNat := by
      rw [hcs, List.map_cons]
      unfold jsParseInt
      split
      · rename_i heq
        rw [List.cons.injEq] at heq
        exact absurd heq.1 hminus
      · rfl
    rw [hread, jsDigits_fmtDecimal, Option.map_some]
    congr 1
    change (z.natAbs : Int) = z
    omega

/-- `parseInt(.)||dflt` of a printed number. -/
theorem jsIntOr_fmtInt (z dflt : Int) :
    jsIntOr ((fmtInt z).map byteChar) dflt = if z = 0 then dflt else z := by
  unfold jsIntOr
  rw [jsParseInt_fmtInt]

theorem plainAttr_fmtInt (z : Int) : ∀ b ∈ fmtInt z, PlainAttr b ∧ b ≠ 0 := by
  have hdecimal (n : Nat) : ∀ b ∈ fmtDecimal n, PlainAttr b ∧ b ≠ 0 := by
    intro b hb
    have hdigit := (isNumeral_fmtDecimal n).2 b hb
    have hhex : isHexDigit b = true := by
      rw [isDecDigit] at hdigit
      rw [isHexDigit, hdigit, Bool.true_or, Bool.true_or]
    obtain ⟨hplain, -, hzero⟩ := plainAttr_of_isHexDigit hhex
    exact ⟨hplain, hzero⟩
  intro b hb
  unfold fmtInt at hb
  split at hb
  · rcases List.mem_cons.mp hb with hminus | hdigits
    · rw [hminus]
      refine ⟨⟨?_, ?_, ?_, ?_⟩, ?_⟩ <;> decide
    · exact hdecimal _ b hdigits
  · exact hdecimal _ b hb

theorem length_fmtInt_le {z : Int} (h : z.natAbs < 10 ^ 5) : (fmtInt z).length ≤ 6 := by
  have hle := length_fmtDecimal_le (n := z.natAbs) (by decide) h
  unfold fmtInt
  split
  · rw [List.length_cons]
    omega
  · omega

/-! ## The properties -/

/-- A property with a text, and one with a number. -/
def strProp (browser : Browser) (key t : CStr) : CStr × CStr := (key, quoted 34 (browser.body t))
def numProp (key : CStr) (z : Int) : CStr × CStr := (key, fmtInt z)

/-- The keys of a backup. -/
def backupKeys : List CStr :=
  [ascii "host", ascii "port", ascii "client", ascii "user", ascii "pass", ascii "topic",
    ascii "auth", ascii "din", ascii "relay", ascii "ntp", ascii "tz", ascii "types",
    ascii "binds", ascii "innames", ascii "outnames"]

namespace BackupSettings

variable (browser : Browser) (localInputs : Nat) (s : BackupSettings)

/-- The properties of the backup. -/
def props : List (CStr × CStr) :=
  [strProp browser (ascii "host") s.host.text,
    numProp (ascii "port") s.port,
    strProp browser (ascii "client") s.client.text,
    strProp browser (ascii "user") s.user.text,
    strProp browser (ascii "pass") s.pass.text,
    strProp browser (ascii "topic") s.topic.text,
    numProp (ascii "auth") (if s.useAuth then 1 else 0),
    numProp (ascii "din") s.din,
    numProp (ascii "relay") s.relay,
    strProp browser (ascii "ntp") s.ntpServer.text,
    numProp (ascii "tz") s.tz,
    strProp browser (ascii "types") (s.tags localInputs .types),
    strProp browser (ascii "binds") (s.tags localInputs .binds),
    strProp browser (ascii "innames") (s.tags localInputs .innames),
    strProp browser (ascii "outnames") (s.tags localInputs .outnames)]

variable {browser localInputs s}

/-- **The bytes that are sent**, of settings without quotation marks. -/
theorem sentBytes_buildJson (hquote : ∀ i, 34 ∉ s.tags localInputs i) :
    sentBytes (buildJson (browser.value (s.tags localInputs))) =
      docOf (s.props browser localInputs) := by
  have hvalue : browser.value (s.tags localInputs) =
      fun i => browser.attr (s.tags localInputs i) := by
    funext i
    exact browser.value_eq _ hquote i
  have hstr (t : CStr) :
      sentBytes (JsonValue.str (browser.attr t)).text = quoted 34 (browser.body t) := by
    have hopen (v : List Char) : sentBytes ('"' :: v) = 34 :: sentBytes v :=
      sentBytes_cons_byteChar 34 v
    change sentBytes ('"' :: ((browser.attr t).flatMap jsonEscape ++ ['"'])) = _
    rw [hopen, sentBytes_append, hopen]
    rfl
  have hnum (z : Int) : sentBytes (JsonValue.num z).text = fmtInt z :=
    sentBytes_map_byteChar _
  have hattr (z : Int) : browser.attr (fmtInt z) = (fmtInt z).map byteChar :=
    browser.attr_plain _ fun b hb => (plainAttr_fmtInt z b hb).1
  have hint (z dflt : Int) (h : z = 0 → dflt = 0) :
      jsIntOr (browser.attr (fmtInt z)) dflt = z := by
    rw [hattr, jsIntOr_fmtInt]
    split
    · rename_i hz
      rw [h hz, hz]
    · rfl
  have hport : jsIntOr (browser.attr (s.tags localInputs .port)) 1883 = s.port :=
    hint (s.port : Int) 1883 fun hz => by
      have hpos := s.port.2.1
      omega
  have hdin : jsIntOr (browser.attr (s.tags localInputs .din)) 0 = s.din :=
    hint (s.din : Int) 0 fun _ => rfl
  have hrelay : jsIntOr (browser.attr (s.tags localInputs .relay)) 0 = s.relay :=
    hint (s.relay : Int) 0 fun _ => rfl
  have htz : jsIntOr (browser.attr (s.tags localInputs .tz)) 0 = s.tz := hint _ 0 fun _ => rfl
  have hauth : (if browser.attr (s.tags localInputs .auth) = "checked".toList ∨
      browser.attr (s.tags localInputs .auth) = ['1'] then (1 : Int) else 0) =
        if s.useAuth then 1 else 0 := by
    change (if browser.attr (if s.useAuth then ascii "checked" else []) = "checked".toList ∨
      browser.attr (if s.useAuth then ascii "checked" else []) = ['1'] then (1 : Int) else 0) = _
    have hchecked : browser.attr (ascii "checked") = "checked".toList := by
      rw [browser.attr_plain]
      · decide
      · decide
    cases s.useAuth with
    | true => exact if_pos (.inl hchecked)
    | false =>
        change (if browser.attr [] = "checked".toList ∨ browser.attr [] = ['1'] then (1 : Int)
          else 0) = 0
        rw [browser.attr_nil]
        rfl
  unfold buildJson
  rw [sentBytes_jsonStringify, hvalue]
  congr 1
  unfold buildObject
  rw [hport, hdin, hrelay, htz, hauth]
  simp only [List.map_cons, List.map_nil, hstr, hnum]
  rfl

theorem keys_props : (s.props browser localInputs).map Prod.fst = backupKeys := rfl

/-- The keys are found where they are. -/
theorem key_of_mem {key : CStr} (h : key ∈ backupKeys) : IsKey 34 [58, 44] key ∧ 0 ∉ key := by
  have hall : ∀ k ∈ backupKeys, 34 ∉ k ∧ 0 ∉ k ∧ k ≠ [] ∧ k.head? ≠ some 58 ∧
      k.head? ≠ some 44 := by decide
  obtain ⟨hquote, hzero, hne, hcolon, hcomma⟩ := hall key h
  refine ⟨⟨hquote, ?_⟩, hzero⟩
  obtain ⟨c, rest, hkey⟩ := List.exists_cons_of_ne_nil hne
  subst hkey
  refine ⟨c, rest, rfl, ?_⟩
  simp only [List.head?_cons, ne_eq, Option.some.injEq] at hcolon hcomma
  simp [hcolon, hcomma]

end BackupSettings

/-! ## Clean properties -/

theorem cleanProp_numProp {key : CStr} (h : key ∈ backupKeys) (z : Int) :
    CleanProp (numProp key z) where
  key := (BackupSettings.key_of_mem h).1
  value := .inl fun hmem => (plainAttr_fmtInt z 34 hmem).1.2.2.1 rfl
  keyNul := (BackupSettings.key_of_mem h).2
  valueNul := fun hmem => (plainAttr_fmtInt z 0 hmem).2 rfl

theorem cleanProp_strProp {browser : Browser} {key t : CStr} (h : key ∈ backupKeys)
    (hbody : 0 ∉ browser.body t ∧ 34 ∉ browser.body t) : CleanProp (strProp browser key t) where
  key := (BackupSettings.key_of_mem h).1
  value := .inr ⟨browser.body t, rfl, hbody.2⟩
  keyNul := (BackupSettings.key_of_mem h).2
  valueNul := by
    intro hmem
    unfold strProp quoted at hmem
    rcases List.mem_cons.mp hmem with hfirst | hrest
    · exact absurd hfirst (by decide)
    · rcases List.mem_append.mp hrest with hbody' | hlast
      · exact hbody.1 hbody'
      · exact absurd (List.mem_singleton.mp hlast) (by decide)

/-! ## Lengths -/

/-- The bytes of a line with what is around its value. -/
def lineWidth (p : CStr × CStr) : Nat := p.1.length + p.2.length + 8

theorem length_lineOf (p : CStr × CStr) : (lineOf p).length + 2 = lineWidth p := by
  simp [lineOf, quoted, lineWidth]
  omega

theorem length_beforeOf (pre : List (CStr × CStr)) (key : CStr) :
    (beforeOf pre key).length = (pre.map lineWidth).sum + key.length + 8 := by
  have hlines : (pre.flatMap fun p => lineOf p ++ [44, 10]).length = (pre.map lineWidth).sum := by
    induction pre with
    | nil => rfl
    | cons p pre ih =>
        have hline := length_lineOf p
        rw [List.flatMap_cons, List.length_append, List.length_append, ih, List.map_cons,
          List.sum_cons]
        simp only [List.length_cons, List.length_nil]
        omega
  unfold beforeOf
  rw [List.length_append, List.length_append, List.length_append, hlines]
  simp [keyed]
  omega

theorem length_docOf_le (ps : List (CStr × CStr)) :
    (docOf ps).length ≤ (ps.map lineWidth).sum + 4 := by
  have hlines : ([44, 10].intercalate (ps.map lineOf)).length ≤ (ps.map lineWidth).sum := by
    induction ps with
    | nil => exact Nat.le_refl _
    | cons p ps ih =>
        have hline := length_lineOf p
        cases ps with
        | nil =>
            simp only [List.map_cons, List.map_nil, List.intercalate_singleton, List.sum_cons,
              List.sum_nil]
            omega
        | cons q ps =>
            have hsep : ([44, 10] : CStr).length = 2 := rfl
            rw [List.map_cons] at ih
            rw [List.map_cons, List.map_cons, List.intercalate_cons_cons, List.length_append,
              List.length_append, List.map_cons, List.sum_cons, hsep]
            omega
  unfold docOf
  rw [List.length_append, List.length_append]
  simp only [List.length_cons, List.length_nil]
  omega

end HomeAuto
