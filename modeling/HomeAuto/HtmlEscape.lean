import HomeAuto.Lib.EscapeTable
import HomeAuto.WifiScan

/-!
# Text in a page (`html_escape`, `WebPlatformWifiScanOptions`)

The five characters that HTML gives a meaning are written as entities, one after the other while
there is room.  `html_escape` does so into the caller's buffer, and the list of the scanned
networks into a temporary one, from which whole options are appended.

* `escapeLoop_eq` — what either loop writes is the escaped form of a beginning of its input;
* `optionsLoop_eq` — the options are those of the first networks of the cache;
* `htmlEscape_right_iff` — the room check of `html_escape` gives away one byte.
-/

namespace HomeAuto

/-- The entities. -/
def htmlTable : EscapeTable UInt8 where
  entries := [(0x26, ascii "&amp;"), (0x3C, ascii "&lt;"), (0x3E, ascii "&gt;"),
    (0x22, ascii "&quot;"), (0x27, ascii "&#39;")]
  starts := by decide +kernel
  prefixFree := by decide +kernel

/-- `<option>` and `</option>`. -/
def optionTags : ElementTags UInt8 := ⟨ascii "<option>", 0x3C, ascii "/option>"⟩

/-! ## The code -/

/-- `pcRep`. -/
def htmlRep (b : UInt8) : Option CStr :=
  if b = 0x26 then some (ascii "&amp;")
  else if b = 0x3C then some (ascii "&lt;")
  else if b = 0x3E then some (ascii "&gt;")
  else if b = 0x22 then some (ascii "&quot;")
  else if b = 0x27 then some (ascii "&#39;")
  else none

/-- The loops over the characters: what they write from `iPos` on, until the next end would be
`full`. -/
def escapeLoop (full : Nat → Bool) : (iPos : Nat) → CStr → CStr
  | _, [] => []
  | iPos, b :: bs =>
      let pcRep := (htmlRep b).getD [b]
      if full (iPos + pcRep.length) then []
      else pcRep ++ escapeLoop full (iPos + pcRep.length) bs

/-- `html_escape`: the string that is written into a buffer of `iOutLen` bytes, if any; its
length is returned. -/
def htmlEscape (pcIn : Option CStr) (iOutLen : Int) : Option CStr :=
  if iOutLen ≤ 0 then none
  else some (escapeLoop (fun iEnd => iOutLen - 1 ≤ iEnd) 0 (pcIn.getD []))

namespace Wifi.ScanCache

/-- `NetWifiScanGet`, of the SSID. -/
def netWifiScanGet (c : ScanCache) (iIndex iSsidLen : Nat) : Option CStr :=
  if c.count ≤ iIndex ∨ iSsidLen = 0 then none
  else some ((c.entry iIndex).pcSsid.take (iSsidLen - 1))

/-- `sizeof(pcSsid)` and `sizeof(pcEsc)`. -/
def ssidSize : Nat := 33
def escSize : Nat := 33 * 6

/-- `pcEsc`. -/
def ssidEscape (pcSsid : CStr) : CStr := escapeLoop (fun iEnd => escSize < iEnd) 0 pcSsid

/-- The loop of `WebPlatformWifiScanOptions` over the networks `is`, from `iPos` on. -/
def optionsLoop (c : ScanCache) (iInsertLen : Int) : (is : List Nat) → (iPos : Nat) → CStr
  | [], _ => []
  | i :: is, iPos =>
      match c.netWifiScanGet i ssidSize with
      | none => c.optionsLoop iInsertLen is iPos
      | some pcSsid =>
          let iNeed := 8 + (ssidEscape pcSsid).length + 9
          if iInsertLen - 1 ≤ ((iPos + iNeed : Nat) : Int) then []
          else
            ascii "<option>" ++ ssidEscape pcSsid ++ ascii "</option>" ++
              c.optionsLoop iInsertLen is (iPos + iNeed)

/-- `WebPlatformWifiScanOptions`: the string that is written into a buffer of `iInsertLen`
bytes, if any. -/
def webPlatformWifiScanOptions (c : ScanCache) (iInsertLen : Int) : Option CStr :=
  if iInsertLen ≤ 0 then none
  else some (c.optionsLoop iInsertLen (List.range c.count) 0)

end Wifi.ScanCache

/-! ## The loops over the characters -/

theorem htmlRep_eq (b : UInt8) : (htmlRep b).getD [b] = htmlTable.code b := by
  unfold htmlRep
  rcases htmlTable.code_cases b with ⟨e, he, rfl, heq⟩ | ⟨hplain, heq⟩
  · rw [heq]
    have hall : ∀ e ∈ htmlTable.entries, (htmlRep e.1).getD [e.1] = e.2 := by decide +kernel
    exact hall e he
  · have hne (c : UInt8) (hc : c ∈ htmlTable.special) : b ≠ c := fun h => hplain (h ▸ hc)
    rw [heq, if_neg (hne 0x26 (by decide)), if_neg (hne 0x3C (by decide)),
      if_neg (hne 0x3E (by decide)), if_neg (hne 0x22 (by decide)), if_neg (hne 0x27 (by decide)),
      Option.getD_none]

/-- **What a loop writes** is the escaped form of a beginning of its input: all of it, or up to
a character behind which it would be full. -/
theorem escapeLoop_eq (full : Nat → Bool) (iPos : Nat) (s : CStr) :
    ∃ pre rest, s = pre ++ rest ∧ escapeLoop full iPos s = htmlTable.escape pre ∧
      (pre ≠ [] → full (iPos + (htmlTable.escape pre).length) = false) ∧
      ∀ b bs, rest = b :: bs → full (iPos + (htmlTable.escape (pre ++ [b])).length) = true := by
  induction s generalizing iPos with
  | nil => exact ⟨[], [], rfl, rfl, fun h => absurd rfl h, nofun⟩
  | cons b bs ih =>
      rw [escapeLoop, htmlRep_eq]
      by_cases hfull : full (iPos + (htmlTable.code b).length) = true
      · refine ⟨[], b :: bs, rfl, if_pos hfull, fun h => absurd rfl h, ?_⟩
        intro b' bs' heq
        rw [List.cons.injEq] at heq
        rw [← heq.1, List.nil_append, EscapeTable.escape_cons, EscapeTable.escape_nil,
          List.append_nil]
        exact hfull
      · obtain ⟨pre, rest, hs, hloop, hroom, hnext⟩ := ih (iPos + (htmlTable.code b).length)
        have hlen (p : CStr) : iPos + (htmlTable.code b).length + (htmlTable.escape p).length =
            iPos + (htmlTable.escape (b :: p)).length := by
          rw [EscapeTable.escape_cons, List.length_append, Nat.add_assoc]
        refine ⟨b :: pre, rest, by rw [hs, List.cons_append], ?_, fun _ => ?_, ?_⟩
        · rw [if_neg hfull, hloop, EscapeTable.escape_cons]
        · rw [← hlen]
          rcases List.eq_nil_or_concat pre with rfl | ⟨front, last, rfl⟩
          · exact Bool.eq_false_iff.mpr hfull
          · exact hroom (by simp)
        · intro b' bs' heq
          rw [List.cons_append, ← hlen]
          exact hnext b' bs' heq

/-- A character becomes at most six. -/
theorem length_entities_le (s : CStr) : (htmlTable.escape s).length ≤ 6 * s.length := by
  have hcode (b : UInt8) : (htmlTable.code b).length ≤ 6 := by
    rcases htmlTable.code_cases b with ⟨e, he, -, heq⟩ | ⟨-, heq⟩
    · have hall : ∀ e ∈ htmlTable.entries, e.2.length ≤ 6 := by decide +kernel
      rw [heq]
      exact hall e he
    · rw [heq, List.length_singleton]
      decide
  induction s with
  | nil => exact Nat.le_refl 0
  | cons b s ih =>
      have hb := hcode b
      rw [EscapeTable.escape_cons, List.length_append, List.length_cons]
      omega

theorem length_entities_append (s s' : CStr) : (htmlTable.escape (s ++ s')).length =
    (htmlTable.escape s).length + (htmlTable.escape s').length := by
  rw [EscapeTable.escape_append, List.length_append]

/-- A text that does not fit goes on to no text that does. -/
theorem length_entities_le_append (pre : CStr) (b : UInt8) (bs : CStr) :
    (htmlTable.escape (pre ++ [b])).length ≤ (htmlTable.escape (pre ++ b :: bs)).length := by
  have hsplit := length_entities_append (pre ++ [b]) bs
  rw [List.append_assoc, List.singleton_append] at hsplit
  omega

/-- What is written cannot be taken for markup: of the special characters only `&` comes up. -/
theorem not_mem_escape (s : CStr) :
    ∀ c ∈ [(0x3C : UInt8), 0x3E, 0x22, 0x27], c ∉ htmlTable.escape s := by
  intro c hc
  have hall : ∀ c ∈ [(0x3C : UInt8), 0x3E, 0x22, 0x27],
      c ∈ htmlTable.special ∧ ∀ e ∈ htmlTable.entries, c ∉ e.2 := by decide +kernel
  exact EscapeTable.not_mem_escape (hall c hc).1 (hall c hc).2 s

/-- Nor does it end early. -/
theorem nul_not_mem_escape {s : CStr} (hs : 0 ∉ s) : 0 ∉ htmlTable.escape s := by
  intro hmem
  have hall : ∀ e ∈ htmlTable.entries, (0 : UInt8) ∉ e.2 := by decide +kernel
  rcases EscapeTable.mem_escape hmem with ⟨e, he, hin⟩ | ⟨hin, -⟩
  · exact hall e he hin
  · exact hs hin

/-! ## `html_escape` -/

/-- What is asked of `html_escape`: into a buffer it writes a string that ends within it,
without a character of HTML but in entities, and read back it is a beginning of the input; all
of it, if its escaped form and the NUL fit. -/
def EscapeRight (s : CStr) (iOutLen : Int) : Prop :=
  match htmlEscape (some s) iOutLen with
  | none => iOutLen ≤ 0
  | some out =>
      (out.length : Int) < iOutLen ∧ (0 ∉ s → 0 ∉ out) ∧
        (∀ c ∈ [(0x3C : UInt8), 0x3E, 0x22, 0x27], c ∉ out) ∧
        ∃ pre, htmlTable.unescape out = some pre ∧ pre <+: s ∧
          (((htmlTable.escape s).length : Int) < iOutLen → pre = s)

theorem escapeRight_iff (s : CStr) (iOutLen : Int) :
    EscapeRight s iOutLen ↔ s = [] ∨ ((htmlTable.escape s).length : Int) + 1 ≠ iOutLen := by
  unfold EscapeRight htmlEscape
  by_cases hnone : iOutLen ≤ 0
  · rw [if_pos hnone]
    exact ⟨fun _ => .inr (by omega), fun _ => hnone⟩
  · rw [if_neg hnone, Option.getD_some]
    obtain ⟨pre, rest, rfl, hloop, hroom, hnext⟩ :=
      escapeLoop_eq (fun iEnd => iOutLen - 1 ≤ iEnd) 0 s
    rw [hloop]
    dsimp only
    rw [EscapeTable.unescape_escape]
    have hends : ((htmlTable.escape pre).length : Int) < iOutLen := by
      rcases eq_or_ne pre [] with rfl | hpre
      · exact Int.not_le.mp hnone
      · have hlt := of_decide_eq_false (hroom hpre)
        rw [Nat.zero_add] at hlt
        omega
    constructor
    · rintro ⟨-, -, -, pre', heq, -, hwhole⟩
      rw [Option.some.injEq] at heq
      subst heq
      by_contra hno
      rw [not_or, not_not] at hno
      have hrest : rest = [] := List.self_eq_append_right.mp (hwhole (by omega))
      subst hrest
      rw [List.append_nil] at hno
      have hlt := of_decide_eq_false (hroom hno.1)
      rw [Nat.zero_add] at hlt
      omega
    · intro hcond
      refine ⟨hends, fun hs => nul_not_mem_escape fun hmem => hs (List.mem_append_left _ hmem),
        not_mem_escape pre, pre, rfl, List.prefix_append pre rest, fun hfits => ?_⟩
      cases rest with
      | nil => rw [List.append_nil]
      | cons b bs =>
          have hfull := of_decide_eq_true (hnext b bs rfl)
          have hle := length_entities_le_append pre b bs
          rw [Nat.zero_add] at hfull
          rcases hcond with hnil | hlen
          · exact absurd hnil (by simp)
          · omega

/-! ## The options -/

namespace Wifi.ScanCache

/-- The SSIDs of the cache, as they are read from it. -/
def ssids (c : ScanCache) : List CStr :=
  (List.range c.count).map fun i => (c.entry i).pcSsid.take wlanSsidMaxLength

/-- The temporary buffer has room for every SSID. -/
theorem ssidEscape_eq {pcSsid : CStr} (h : pcSsid.length ≤ wlanSsidMaxLength) :
    ssidEscape pcSsid = htmlTable.escape pcSsid ∧
      (htmlTable.escape pcSsid).length ≤ escSize := by
  have hlen := length_entities_le pcSsid
  unfold wlanSsidMaxLength at h
  have hroom : (htmlTable.escape pcSsid).length ≤ escSize := by
    unfold escSize
    omega
  refine ⟨?_, hroom⟩
  obtain ⟨pre, rest, rfl, hloop, -, hnext⟩ :=
    escapeLoop_eq (fun iEnd => escSize < iEnd) 0 pcSsid
  rw [ssidEscape, hloop]
  cases rest with
  | nil => rw [List.append_nil]
  | cons b bs =>
      have hfull := of_decide_eq_true (hnext b bs rfl)
      have hle := length_entities_le_append pre b bs
      omega

/-- An option of the list. -/
def optionOf (pcSsid : CStr) : CStr := optionTags.element (htmlTable.escape pcSsid)

theorem length_optionOf (pcSsid : CStr) :
    (optionOf pcSsid).length = 8 + (htmlTable.escape pcSsid).length + 9 := by
  have hopen : optionTags.opening.length = 8 := by decide
  have hclose : (optionTags.stop :: optionTags.closing).length = 9 := by decide
  rw [optionOf, ElementTags.element, List.length_append, List.length_append, hopen, hclose]

/-- **The loop over the networks** appends the options of the first of them. -/
theorem optionsLoop_eq (c : ScanCache) (iInsertLen : Int) {is : List Nat}
    (his : ∀ i ∈ is, i < c.count) (iPos : Nat) :
    ∃ k, c.optionsLoop iInsertLen is iPos =
        ((is.take k).map fun i => (c.entry i).pcSsid.take wlanSsidMaxLength).flatMap optionOf ∧
      (c.optionsLoop iInsertLen is iPos = [] ∨
        ((iPos + (c.optionsLoop iInsertLen is iPos).length : Nat) : Int) < iInsertLen - 1) := by
  induction is generalizing iPos with
  | nil => exact ⟨0, rfl, .inl rfl⟩
  | cons i is ih =>
      have hi := his i (by simp)
      have hget : c.netWifiScanGet i ssidSize =
          some ((c.entry i).pcSsid.take wlanSsidMaxLength) := by
        have hin : ¬(c.count ≤ i ∨ ssidSize = 0) := by
          rintro (hle | hzero)
          · omega
          · cases hzero
        rw [netWifiScanGet, if_neg hin]
        rfl
      obtain ⟨hesc, -⟩ := ssidEscape_eq
        (List.length_take_le wlanSsidMaxLength (c.entry i).pcSsid)
      have hopt : ascii "<option>" ++ htmlTable.escape
          ((c.entry i).pcSsid.take wlanSsidMaxLength) ++ ascii "</option>" =
            optionOf ((c.entry i).pcSsid.take wlanSsidMaxLength) := rfl
      have hlen := length_optionOf ((c.entry i).pcSsid.take wlanSsidMaxLength)
      rw [optionsLoop, hget]
      dsimp only
      rw [hesc, hopt, ← hlen]
      split
      · exact ⟨0, rfl, .inl rfl⟩
      · rename_i hroom
        obtain ⟨k, heq, hends⟩ := ih (fun j hj => his j (by simp [hj]))
          (iPos + (optionOf ((c.entry i).pcSsid.take wlanSsidMaxLength)).length)
        refine ⟨k + 1, ?_, .inr ?_⟩
        · rw [heq]
          rfl
        · rw [List.length_append]
          rcases hends with hnil | hlt
          · rw [hnil, List.length_nil]
            omega
          · omega

/-- The reader of a list of options. -/
def readOptions (html : CStr) : Option (List CStr) :=
  (optionTags.readElements html.length html).bind fun texts => texts.mapM htmlTable.unescape

theorem length_le_flatMap (ss : List CStr) : ss.length ≤ (ss.flatMap optionOf).length := by
  induction ss with
  | nil => exact Nat.le_refl 0
  | cons s ss ih =>
      have hlen := length_optionOf s
      rw [List.flatMap_cons, List.length_append, List.length_cons]
      omega

/-- **Options are read back** as the SSIDs they were written for. -/
theorem readOptions_flatMap (ss : List CStr) : readOptions (ss.flatMap optionOf) = some ss := by
  have hmap : ss.flatMap optionOf = (ss.map htmlTable.escape).flatMap optionTags.element := by
    rw [List.flatMap_map]
    rfl
  have hplain : ∀ text ∈ ss.map htmlTable.escape, optionTags.stop ∉ text := by
    intro text htext
    obtain ⟨s, -, rfl⟩ := List.mem_map.mp htext
    exact not_mem_escape s 0x3C (by decide)
  have hfuel : (ss.map htmlTable.escape).length ≤ (ss.flatMap optionOf).length := by
    rw [List.length_map]
    exact length_le_flatMap ss
  have hread := ElementTags.readElements_flatMap hplain hfuel
  rw [← hmap] at hread
  rw [readOptions, hread, Option.bind_some, EscapeTable.mapM_unescape_escape]

/-- What is asked of `WebPlatformWifiScanOptions`: into a buffer it writes a string that ends
within it, whole options with the first SSIDs of the cache, and nothing else is read from it. -/
def OptionsRight (c : ScanCache) (iInsertLen : Int) : Prop :=
  match c.webPlatformWifiScanOptions iInsertLen with
  | none => iInsertLen ≤ 0
  | some out =>
      (out.length : Int) < iInsertLen ∧
        ∃ k, out = (c.ssids.take k).flatMap optionOf ∧ readOptions out = some (c.ssids.take k)

theorem optionsRight (c : ScanCache) (iInsertLen : Int) : c.OptionsRight iInsertLen := by
  unfold OptionsRight webPlatformWifiScanOptions
  by_cases hnone : iInsertLen ≤ 0
  · rw [if_pos hnone]
    exact hnone
  · rw [if_neg hnone]
    dsimp only
    have hin : ∀ i ∈ List.range c.count, i < c.count := fun i hi => List.mem_range.mp hi
    obtain ⟨k, heq, hends⟩ := c.optionsLoop_eq iInsertLen hin 0
    rw [List.map_take] at heq
    refine ⟨?_, k, heq, ?_⟩
    · rcases hends with hnil | hlt
      · rw [hnil, List.length_nil]
        omega
      · omega
    · rw [heq]
      exact readOptions_flatMap _

end Wifi.ScanCache

/-- **Escaping.**  `html_escape` does what is asked of it exactly if its input is empty, or the
escaped form and the NUL do not just fill the buffer; and the list of the scanned networks is
right for every cache and buffer. -/
theorem htmlEscape_right_iff (s : CStr) (iOutLen : Int) (c : Wifi.ScanCache) (iInsertLen : Int) :
    (EscapeRight s iOutLen ↔ s = [] ∨ ((htmlTable.escape s).length : Int) + 1 ≠ iOutLen) ∧
      c.OptionsRight iInsertLen :=
  ⟨escapeRight_iff s iOutLen, c.optionsRight iInsertLen⟩

/-- `AT&T` takes eight characters and the NUL, and in nine bytes the last of them is left out. -/
theorem last_character_left_out : ¬∀ (s : CStr) (iOutLen : Int), EscapeRight s iOutLen := by
  intro h
  have hright := h (ascii "AT&T") 9
  have hout : htmlEscape (some (ascii "AT&T")) 9 = some (ascii "AT&amp;") := by decide +kernel
  unfold EscapeRight at hright
  rw [hout] at hright
  obtain ⟨-, -, -, pre, hpre, -, hwhole⟩ := hright
  rw [hwhole (by decide +kernel)] at hpre
  exact absurd hpre (by decide +kernel)

end HomeAuto
