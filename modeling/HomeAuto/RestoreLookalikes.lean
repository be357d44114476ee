import HomeAuto.RestoreFrame
import HomeAuto.Lib.JsonPlaces

/-!
# What looks like a key

A restore searches the text of the posted object for the keys.  For a setting whose key the
object has not, the search can still end up somewhere: in the string of another key, behind a
quotation mark that is escaped in it, or in a value, at a key of a nested object; and characters
may be sent as bytes that look so.  `leavesOthers_iff` says exactly when that does no harm: when
behind the first such place there is nothing that the restore takes, and for the time zone, which
is set to -1 when its key is not found at all, when there is such a place.
-/

namespace HomeAuto

open QuotedText
open Unicode (utf16)

/-! ## Values in the text -/

/-- What `SKIP_WS` skips. -/
def IsWs (c : UInt8) : Prop := c = 32 ∨ c = 9 ∨ c = 13 ∨ c = 10

/-- Behind blanks there is a string: `v`, as much of it as `room` bytes take. -/
def StringAt (rest : CStr) (room : Nat) (v : CStr) : Prop :=
  ∃ ws p, rest = ws ++ 34 :: p ∧ (∀ c ∈ ws, IsWs c) ∧ v = (p.takeWhile (· ≠ 34)).take room

/-- Behind blanks there is text that reads as the number `z`, a minus sign in front. -/
def NumberAt (ul : DecimalReader) (rest : CStr) (z : Int) : Prop :=
  ∃ ws p, rest = ws ++ p ∧ (∀ c ∈ ws, IsWs c) ∧ (∀ c ∈ p.head?, ¬IsWs c) ∧
    ((∃ q, p = 45 :: q ∧ z = (-(ul.palStrToUl q 10)).toInt) ∨
      p.head? ≠ some 45 ∧ z = (ul.palStrToUl p 10).toInt)

/-- Where the key of a device count stands first, there is a count for `n` devices. -/
def SetsDevices (ul : DecimalReader) (json key : CStr) (n : Nat) : Prop :=
  ∃ before rest z, FirstAt (keyed 34 58 key) json before rest ∧ NumberAt ul rest z ∧ 0 ≤ z ∧
    n = (setDevices (z.toNat % 256)).val

/-- What stands behind the key of a setting is a value that some device takes: a string for a
text, two digits for the types; a number in range; three digits for the bindings, and a whole
block that is not blank for the names, as far as the device count in the text leaves any. -/
def Accepts (ul : DecimalReader) (json rest : CStr) : PageInput → Prop
  | .host => ∃ v, StringAt rest (cfgHostLen - 1) v
  | .client => ∃ v, StringAt rest (cfgClientIDLen - 1) v
  | .user => ∃ v, StringAt rest (cfgUserLen - 1) v
  | .pass => ∃ v, StringAt rest (cfgPassLen - 1) v
  | .topic => ∃ v, StringAt rest (cfgTopicLen - 1) v
  | .ntp => ∃ v, StringAt rest (cfgNtpServerLen - 1) v
  | .port => ∃ z, NumberAt ul rest z ∧ 0 < z ∧ z ≤ 65535
  | .auth | .din | .relay => ∃ z, NumberAt ul rest z ∧ 0 ≤ z
  | .tz => ∃ z, NumberAt ul rest z ∧ -12 ≤ z ∧ z ≤ 14
  | .types => ∃ v, StringAt rest 63 v ∧ 2 ≤ v.length
  | .binds => ∃ v, StringAt rest 255 v ∧ 3 ≤ v.length ∧
      ∀ n, SetsDevices ul json (ascii "din") n → 0 < n
  | .innames => ∃ v, StringAt rest 255 v ∧ ∃ i < cfgNamesMaxInputs,
      (∀ n, SetsDevices ul json (ascii "din") n → i < n * 8) ∧
        (i + 1) * cfgNameLen ≤ v.length ∧ nameAt v i ≠ []
  | .outnames => ∃ v, StringAt rest 255 v ∧ ∃ i < cfgNamesMaxOutputs,
      (∀ n, SetsDevices ul json (ascii "relay") n → i < n * 8) ∧
        (i + 1) * cfgNameLen ≤ v.length ∧ nameAt v i ≠ []

variable {ul : DecimalReader} {json key before rest : CStr}

theorem skipWs_append {ws p : CStr} (hws : ∀ c ∈ ws, IsWs c) (hp : ∀ c ∈ p.head?, ¬IsWs c) :
    skipWs (ws ++ p) = p := by
  have hblank (c : UInt8) : (decide (c = 32) || decide (c = 9) || decide (c = 13) ||
      decide (c = 10)) = true ↔ IsWs c := by
    simp [IsWs, or_assoc]
  unfold skipWs
  rw [List.dropWhile_append_of_pos fun c hc => (hblank c).mpr (hws c hc)]
  cases p with
  | nil => rfl
  | cons c p => exact List.dropWhile_cons_of_neg fun h => hp c rfl ((hblank c).mp h)

/-- Every text is blanks, and then what `SKIP_WS` leaves. -/
theorem exists_skipWs (rest : CStr) :
    ∃ ws, rest = ws ++ skipWs rest ∧ (∀ c ∈ ws, IsWs c) ∧ ∀ c ∈ (skipWs rest).head?, ¬IsWs c := by
  refine ⟨rest.takeWhile fun c => c = 32 || c = 9 || c = 13 || c = 10,
    List.takeWhile_append_dropWhile.symm, fun c hc => ?_, fun c hc => ?_⟩
  · simpa [IsWs, or_assoc] using List.mem_takeWhile_imp hc
  · have hstop := List.head?_dropWhile_not
      (fun c : UInt8 => c = 32 || c = 9 || c = 13 || c = 10) rest
    unfold skipWs at hc
    rw [Option.mem_def.mp hc] at hstop
    simpa [IsWs, not_or, and_assoc] using hstop

theorem stringAt_iff {room : Nat} {v : CStr} :
    StringAt rest room v ↔
      ∃ p, skipWs rest = 34 :: p ∧ v = (p.takeWhile (· ≠ 34)).take room := by
  constructor
  · rintro ⟨ws, p, rfl, hws, hv⟩
    exact ⟨p, skipWs_append hws (by simp [IsWs]), hv⟩
  · rintro ⟨p, hp, hv⟩
    obtain ⟨ws, hrest, hws, -⟩ := exists_skipWs rest
    exact ⟨ws, p, hp ▸ hrest, hws, hv⟩

theorem numberAt_iff {z : Int} :
    NumberAt ul rest z ↔ z = match skipWs rest with
      | 45 :: p => (-(ul.palStrToUl p 10)).toInt
      | p => (ul.palStrToUl p 10).toInt := by
  have hread (p : CStr) : ((∃ q, p = 45 :: q ∧ z = (-(ul.palStrToUl q 10)).toInt) ∨
      p.head? ≠ some 45 ∧ z = (ul.palStrToUl p 10).toInt) ↔ z = match p with
        | 45 :: p => (-(ul.palStrToUl p 10)).toInt
        | p => (ul.palStrToUl p 10).toInt := by
    split
    · simp
    · rename_i hother
      have hhead : p.head? ≠ some 45 := by
        intro h
        obtain ⟨q, hq⟩ := List.head?_eq_some_iff.mp h
        exact hother q hq
      constructor
      · rintro (⟨q, hq, -⟩ | ⟨-, hz⟩)
        · exact (hother q hq).elim
        · exact hz
      · exact fun hz => .inr ⟨hhead, hz⟩
  constructor
  · rintro ⟨ws, p, rfl, hws, hp, hz⟩
    rw [skipWs_append hws hp]
    exact (hread p).mp hz
  · intro hz
    obtain ⟨ws, hrest, hws, hp⟩ := exists_skipWs rest
    exact ⟨ws, skipWs rest, hrest, hws, hp, (hread _).mpr hz⟩

/-! ## Values and what is taken -/

theorem keyed_ne_nil : keyed (34 : UInt8) 58 key ≠ [] := List.cons_ne_nil _ _

theorem findKey_eq_some_iff {p : CStr} :
    findKey json key = some p ↔
      ∃ before rest, FirstAt (keyed 34 58 key) json before rest ∧ p = skipWs rest := by
  unfold findKey
  rw [Option.map_eq_some_iff]
  constructor
  · rintro ⟨t, ht, rfl⟩
    obtain ⟨before, rest, hfirst, rfl⟩ := (find_eq_some_iff keyed_ne_nil).mp ht
    exact ⟨before, rest, hfirst, by rw [List.drop_left]⟩
  · rintro ⟨before, rest, hfirst, rfl⟩
    exact ⟨_, (find_eq_some_iff keyed_ne_nil).mpr ⟨before, rest, hfirst, rfl⟩,
      by rw [List.drop_left]⟩

theorem findKey_eq_none_iff :
    findKey json key = none ↔ ∀ before rest, ¬FirstAt (keyed 34 58 key) json before rest := by
  unfold findKey
  rw [Option.map_eq_none_iff, find_eq_none_iff keyed_ne_nil]

/-- The string that is read is the one where the key stands first. -/
theorem cfgJsonGetStr_eq_some_iff {room : Nat} {v : CStr} :
    cfgJsonGetStr json key room = some v ↔
      ∃ before rest, FirstAt (keyed 34 58 key) json before rest ∧ StringAt rest room v := by
  have hfind : cfgJsonGetStr json key room = some v ↔
      ∃ p, findKey json key = some (34 :: p) ∧ v = (p.takeWhile (· ≠ 34)).take room := by
    unfold cfgJsonGetStr
    split
    · rename_i q hq
      simp [hq, eq_comm]
    · rename_i hq
      simp only [reduceCtorEq, false_iff, not_exists, not_and]
      exact fun p hp => absurd hp (hq p)
  rw [hfind]
  constructor
  · rintro ⟨p, hp, hv⟩
    obtain ⟨before, rest, hfirst, hrest⟩ := findKey_eq_some_iff.mp hp
    exact ⟨before, rest, hfirst, stringAt_iff.mpr ⟨p, hrest.symm, hv⟩⟩
  · rintro ⟨before, rest, hfirst, hat⟩
    obtain ⟨p, hp, hv⟩ := stringAt_iff.mp hat
    exact ⟨p, findKey_eq_some_iff.mpr ⟨before, rest, hfirst, hp.symm⟩, hv⟩

/-- So is the number. -/
theorem cfgJsonGetInt_of_firstAt (ul : DecimalReader)
    (h : FirstAt (keyed 34 58 key) json before rest) :
    NumberAt ul rest (cfgJsonGetInt ul json key) := by
  have hfind := findKey_eq_some_iff.mpr ⟨before, rest, h, rfl⟩
  rw [numberAt_iff, cfgJsonGetInt, hfind]
  generalize skipWs rest = p
  split <;> simp_all

theorem cfgJsonGetInt_of_absent (h : ∀ before rest, ¬FirstAt (keyed 34 58 key) json before rest) :
    cfgJsonGetInt ul json key = -1 := by
  rw [cfgJsonGetInt, findKey_eq_none_iff.mpr h]

/-- A number in a range without -1 is one that stands where the key does first. -/
theorem cfgJsonGetInt_iff {c : Int → Prop} (hc : ¬c (-1)) :
    c (cfgJsonGetInt ul json key) ↔
      ∃ before rest, FirstAt (keyed 34 58 key) json before rest ∧
        ∃ z, NumberAt ul rest z ∧ c z := by
  constructor
  · intro h
    by_cases hfirst : ∃ before rest, FirstAt (keyed 34 58 key) json before rest
    · obtain ⟨before, rest, hfirst⟩ := hfirst
      exact ⟨before, rest, hfirst, _, cfgJsonGetInt_of_firstAt ul hfirst, h⟩
    · push Not at hfirst
      rw [cfgJsonGetInt_of_absent hfirst] at h
      exact absurd h hc
  · rintro ⟨before, rest, hfirst, z, hz, h⟩
    have hread := numberAt_iff.mp (cfgJsonGetInt_of_firstAt ul hfirst)
    rwa [hread, ← numberAt_iff.mp hz]

theorem setsDevices_iff {n : Nat} :
    SetsDevices ul json key n ↔
      0 ≤ cfgJsonGetInt ul json key ∧ n = (restoreDevices ul json key 15).val := by
  have hnot : ¬(0 : Int) ≤ -1 := by decide
  constructor
  · rintro ⟨before, rest, z, hfirst, hz, hpos, hn⟩
    have hread : cfgJsonGetInt ul json key = z :=
      (numberAt_iff.mp (cfgJsonGetInt_of_firstAt ul hfirst)).trans (numberAt_iff.mp hz).symm
    rw [restoreDevices, hread, if_pos hpos]
    exact ⟨hpos, hn⟩
  · rintro ⟨hpos, hn⟩
    obtain ⟨before, rest, hfirst, -⟩ := (cfgJsonGetInt_iff (c := fun z => 0 ≤ z) hnot).mp hpos
    rw [restoreDevices, if_pos hpos] at hn
    exact ⟨before, rest, _, hfirst, cfgJsonGetInt_of_firstAt ul hfirst, hpos, hn⟩

/-- What the device count leaves of the first `limit` numbers. -/
theorem lt_devices_iff (ul : DecimalReader) (json key : CStr) {limit i : Nat}
    (hlimit : limit ≤ 120) :
    i < min ((restoreDevices ul json key 15).val * 8) limit ↔
      i < limit ∧ ∀ n, SetsDevices ul json key n → i < n * 8 := by
  simp only [setsDevices_iff, and_imp]
  by_cases hpos : 0 ≤ cfgJsonGetInt ul json key
  · simp only [hpos, forall_const, forall_eq, lt_min_iff]
    exact and_comm
  · have hmost : (restoreDevices ul json key 15).val = 15 := by
      rw [restoreDevices, if_neg hpos]
      rfl
    rw [hmost, Nat.min_eq_right hlimit]
    exact (and_iff_left fun n h => absurd h hpos).symm

/-- For a key that is found, what stands behind the first place of it is taken if it is
accepted. -/
theorem taken_iff_accepts {i : PageInput} (hfirst : FirstAt (keyed 34 58 i.key) json before rest) :
    Taken ul json i ↔ Accepts ul json rest i := by
  have hstr (room : Nat) (v : CStr) :
      cfgJsonGetStr json i.key room = some v ↔ StringAt rest room v := by
    rw [cfgJsonGetStr_eq_some_iff]
    constructor
    · rintro ⟨before', rest', hfirst', hat⟩
      rwa [← (hfirst.unique hfirst').2] at hat
    · exact fun hat => ⟨before, rest, hfirst, hat⟩
  have hint (c : Int → Prop) :
      c (cfgJsonGetInt ul json i.key) ↔ ∃ z, NumberAt ul rest z ∧ c z := by
    have hread := cfgJsonGetInt_of_firstAt ul hfirst
    constructor
    · exact fun h => ⟨_, hread, h⟩
    · rintro ⟨z, hz, h⟩
      rwa [numberAt_iff.mp hread, ← numberAt_iff.mp hz]
  cases i with
  | host | client | user | pass | topic | ntp =>
      exact Option.isSome_iff_exists.trans (exists_congr (hstr _))
  | port => exact hint fun z => 0 < z ∧ z ≤ 65535
  | auth | din | relay => exact hint fun z => 0 ≤ z
  | tz => exact hint fun z => -12 ≤ z ∧ z ≤ 14
  | types => exact exists_congr fun v => and_congr_left' (hstr 63 v)
  | binds =>
      refine exists_congr fun v => and_congr (hstr 255 v) (and_congr_right' ?_)
      have hone : (1 : Nat) ≤ 120 := by decide
      have hdevices := lt_devices_iff ul json (ascii "din") (i := 0) hone
      simpa [Nat.lt_min] using hdevices
  | innames | outnames =>
      refine exists_congr fun v => and_congr (hstr 255 v) (exists_congr fun n => ?_)
      rw [lt_devices_iff ul json _ (by decide)]
      exact and_assoc

/-- **What is taken for a setting**: a value that is accepted, where its key stands first; and
the -1 of a time zone that is not found. -/
theorem taken_iff (i : PageInput) :
    Taken ul json i ↔
      (∃ before rest, FirstAt (keyed 34 58 i.key) json before rest ∧ Accepts ul json rest i) ∨
        i = .tz ∧ ∀ before rest, ¬FirstAt (keyed 34 58 i.key) json before rest := by
  by_cases hfound : ∃ before rest, FirstAt (keyed 34 58 i.key) json before rest
  · obtain ⟨before, rest, hfirst⟩ := hfound
    rw [taken_iff_accepts hfirst]
    constructor
    · exact fun h => .inl ⟨before, rest, hfirst, h⟩
    · rintro (⟨before', rest', hfirst', h⟩ | ⟨-, hnone⟩)
      · rwa [(hfirst.unique hfirst').2]
      · exact absurd hfirst (hnone before rest)
  · push Not at hfound
    rw [taken_iff_of_not_found (findKey_eq_none_iff.mpr hfound)]
    constructor
    · exact fun h => .inr ⟨h, hfound⟩
    · rintro (⟨before, rest, hfirst, -⟩ | ⟨h, -⟩)
      · exact absurd hfirst (hfound before rest)
      · exact h

/-! ## The objects that are posted -/

/-- A character as it is sent: of each of its units the low byte. -/
def lowBytes (c : Char) : CStr := (utf16 c).map UInt8.ofNat

theorem sentText_lowBytes (t : List Char) : JsonText.sentText lowBytes t = sentBytes t :=
  List.map_flatMap.symm

theorem sendsMarks_lowBytes :
    JsonText.SendsMarks lowBytes 34 58 [32, 9, 10, 13, 44, 58, 123, 125] where
  quote_sent := rfl
  colon_sent := rfl
  marks c hc := by
    simp only [List.mem_cons, List.not_mem_nil, or_false] at hc
    rcases hc with rfl | rfl | rfl | rfl | rfl | rfl | rfl | rfl <;>
      exact ⟨_, by decide, rfl⟩
  quote_notMem := by decide

theorem PageInput.isKey_key (i : PageInput) :
    IsKey 34 [32, 9, 10, 13, 44, 58, 123, 125] i.key := by
  cases i <;> exact ⟨by decide, _, _, rfl, by decide⟩

/-- The text of a JSON object, as it is posted. -/
abbrev PostedObject := JsonText.Object utf16

namespace PostedObject

variable (posted : PostedObject) (ul : DecimalReader)

/-- The units of a setting's key. -/
def units (i : PageInput) : List Nat := i.key.map UInt8.toNat

/-- The object has the setting's key. -/
def Mentions (i : PageInput) : Prop := units i ∈ posted.keys

/-- The settings after the object was posted. -/
def apply (d : RestoreState) : BackupSettings :=
  ((doRestore posted.text).foldl (RestoreState.cfgRestoreCGIHandler ul) d).settings

/-- A restore of the object leaves the settings that it does not mention, and the others
valid. -/
def LeavesOthers : Prop :=
  ∀ d : RestoreState, (∀ i, ¬posted.Mentions i → d.settings.SameAt (posted.apply ul d) i) ∧
    (posted.apply ul d).Valid

/-- The bytes that are gone because the numbers of the chunks have wrapped. -/
def skipped : Nat := restartOf ul (chunkCount (posted.text.flatMap utf16) - 1) * cfgChunk

/-- The bytes that arrive: as far as the buffer has them, and up to a NUL. -/
def arrived : CStr := bufferText (uploaded ul posted.text)

/-- **A lookalike.**  The bytes of the quoted key and the colon arrive, for the first time, in
the string of another key or in a value; `rest` is what stands behind them. -/
def Lookalike (i : PageInput) (rest : CStr) : Prop :=
  ∃ before, FirstAt (keyed 34 58 i.key) (posted.arrived ul) before rest ∧
    posted.LookalikePlace lowBytes (units i) (posted.skipped ul + before.length)

/-- A key that is not mentioned is harmless when nothing is accepted behind its lookalike, and
that of the time zone when it has one. -/
def Harmless (i : PageInput) : Prop :=
  (∀ rest, posted.Lookalike ul i rest → ¬Accepts ul (posted.arrived ul) rest i) ∧
    (i = .tz → ∃ rest, posted.Lookalike ul i rest)

variable {posted ul}

/-- What arrives of a text stands in the text. -/
theorem occurs_text {needle : CStr} {n : Nat} (h : Occurs needle (posted.arrived ul) n) :
    Occurs needle (sentBytes posted.text) (posted.skipped ul + n) := by
  have hbegins : posted.arrived ul <+: (sentBytes posted.text).drop (posted.skipped ul) :=
    (List.takeWhile_prefix _).trans (List.take_prefix _ _)
  have hdrop := h.trans (hbegins.drop n)
  rwa [List.drop_drop] at hdrop

/-- **The search for a key that is not mentioned ends at a lookalike.** -/
theorem lookalike_of_firstAt {i : PageInput} (hnot : ¬posted.Mentions i) {before rest : CStr}
    (h : FirstAt (keyed 34 58 i.key) (posted.arrived ul) before rest) :
    posted.Lookalike ul i rest := by
  refine ⟨before, h, posted.lookalikePlace_of_occurs sendsMarks_lowBytes i.isKey_key hnot ?_⟩
  rw [sentText_lowBytes]
  exact occurs_text h.occurs

theorem taken_iff_not_harmless {i : PageInput} (hnot : ¬posted.Mentions i) :
    ¬Taken ul (posted.arrived ul) i ↔ posted.Harmless ul i := by
  rw [taken_iff, not_or, Harmless]
  refine and_congr ⟨?_, ?_⟩ ⟨?_, ?_⟩
  · rintro h rest ⟨before, hfirst, -⟩ haccepts
    exact h ⟨before, rest, hfirst, haccepts⟩
  · rintro h ⟨before, rest, hfirst, haccepts⟩
    exact h rest (lookalike_of_firstAt hnot hfirst) haccepts
  · intro h htz
    by_contra hnone
    refine h ⟨htz, fun before rest hfirst => hnone ⟨rest, lookalike_of_firstAt hnot hfirst⟩⟩
  · rintro h ⟨htz, hnone⟩
    obtain ⟨rest, before, hfirst, -⟩ := h htz
    exact hnone before rest hfirst

variable (posted ul)

theorem apply_eq (d : RestoreState) :
    posted.apply ul d = d.settings.restoredFrom ul (posted.arrived ul) := by
  apply doRestore_settings
  rw [JsonText.Object.text]
  exact List.append_ne_nil_of_right_ne_nil _ (List.cons_ne_nil _ _)

/-- **A restore leaves the settings that the object does not mention**, whatever they are, exactly
if their keys are harmless in it. -/
theorem leavesOthers_iff :
    posted.LeavesOthers ul ↔ ∀ i, ¬posted.Mentions i → posted.Harmless ul i := by
  constructor
  · intro h i hi
    rw [← taken_iff_not_harmless hi]
    apply (sameAt_iff ul _ i).mp
    intro s
    have hsame := (h ⟨s, []⟩).1 i hi
    rwa [apply_eq] at hsame
  · intro h d
    refine ⟨fun i hi => ?_, (posted.apply ul d).valid⟩
    rw [apply_eq]
    exact (sameAt_iff ul _ i).mpr ((taken_iff_not_harmless hi).mpr (h i hi)) d.settings

/-- The object without members. -/
def empty : PostedObject where
  lead := []
  members := []
  blank := []
  trail := []
  leadBlank := fun _ hc => absurd hc List.not_mem_nil
  framed := fun _ hm => absurd hm List.not_mem_nil
  values := fun _ hm => absurd hm List.not_mem_nil
  blankBlank := fun _ hc => absurd hc List.not_mem_nil
  trailBlank := fun _ hc => absurd hc List.not_mem_nil

/-- **A restore of the empty object sets the time zone**, from 0 to -1. -/
theorem empty_sets_tz :
    plainSettings.tz.1 = 0 ∧ (empty.apply ustrtoulReader ⟨plainSettings, []⟩).tz.1 = -1 ∧
      ¬empty.LeavesOthers ustrtoulReader := by
  have hread : (empty.apply ustrtoulReader ⟨plainSettings, []⟩).tz.1 = -1 := by
    have hbytes : empty.arrived ustrtoulReader = [123, 125] := by
      unfold arrived
      rw [uploaded_of_le ustrtoulReader (by decide)]
      decide
    rw [apply_eq, hbytes]
    decide
  refine ⟨rfl, hread, ?_⟩
  intro h
  have hsame := (h ⟨plainSettings, []⟩).1 .tz List.not_mem_nil
  have hvalue : (empty.apply ustrtoulReader ⟨plainSettings, []⟩).tz.1 = 0 :=
    congrArg Subtype.val hsame
  rw [hread] at hvalue
  exact absurd hvalue (by decide)

end PostedObject

end HomeAuto
