import HomeAuto.BackupPage
import HomeAuto.Lib.JsonReader
import HomeAuto.MqttApp

/-!
# The texts of the discovery messages

A discovery payload is printed by `PalSnprintf` with the configured strings put between
quotation marks as they are.  Here each of the four formats is shown to print the text of one
JSON object, `discoveryText`, whenever the strings are UTF-8 (`textFormat_relayFormat` and its
siblings).  What a format adds to its arguments is bounded (`ascii_relayFormat` and its
siblings), so a buffer that is large enough holds the whole text (`palSnprintf_of_fits`).
-/

namespace HomeAuto

open JsonText
open Unicode (utf16)

/-! ## Formats of text -/

-- The formats are checked by evaluation, so the check walks over the list.
instance decidableAscii (s : List Char) : Decidable (∀ c ∈ s, c.toNat < 128) :=
  List.decidableBAll _ s

/-- An argument of a format of text. -/
inductive TextArg
  | str (s : List Char)
  | num (n : Nat)

/-- The bytes of an argument. -/
def TextArg.bytes : TextArg → FmtArg
  | .str s => .str (utf8 s)
  | .num n => .num n

/-- `%d`, and `%02d`, as text. -/
def textDecimal (n : Nat) : List Char := (toString n).toList
def textDecimal2 (n : Nat) : List Char :=
  List.replicate (2 - (textDecimal n).length) '0' ++ textDecimal n

/-- `palFormat` on text. -/
def textFormat : List Char → List TextArg → List Char
  | '%' :: 's' :: cs, .str s :: args => s ++ textFormat cs args
  | '%' :: 'd' :: cs, .num n :: args => textDecimal n ++ textFormat cs args
  | '%' :: '0' :: '2' :: 'd' :: cs, .num n :: args => textDecimal2 n ++ textFormat cs args
  | c :: cs, args => c :: textFormat cs args
  | [], _ => []

theorem isDigit_of_mem_textDecimal {n : Nat} {c : Char} (h : c ∈ textDecimal n) :
    c.isDigit = true := by
  have hdigits : textDecimal n = Nat.toDigits 10 n := by
    have hrepr : toString n = n.repr := rfl
    rw [textDecimal, hrepr, Nat.toList_repr]
  rw [hdigits] at h
  exact Nat.isDigit_of_mem_toDigits (by decide) (by decide) h

/-- A digit is plain, and ASCII. -/
theorem plain_of_isDigit {c : Char} (h : c.isDigit = true) :
    (c ≠ '"' ∧ c ≠ '\\' ∧ 32 ≤ c.toNat) ∧ c.toNat < 128 := by
  have hzero : '0'.toNat = 48 := rfl
  have hnine : '9'.toNat = 57 := rfl
  rw [Char.isDigit_iff_toNat, hzero, hnine] at h
  refine ⟨⟨?_, ?_, by omega⟩, by omega⟩
  · rintro rfl
    exact absurd h (by decide)
  · rintro rfl
    exact absurd h (by decide)

theorem plain_textDecimal (n : Nat) : Plain (textDecimal n) := fun _ hc =>
  (plain_of_isDigit (isDigit_of_mem_textDecimal hc)).1

theorem utf8_textDecimal (n : Nat) : utf8 (textDecimal n) = fmtDecimal n :=
  utf8_ascii fun _ hc => (plain_of_isDigit (isDigit_of_mem_textDecimal hc)).2

theorem length_textDecimal (n : Nat) : (textDecimal n).length = (fmtDecimal n).length := by
  rw [fmtDecimal, ascii, List.length_map, textDecimal]

theorem utf8_textDecimal2 (n : Nat) : utf8 (textDecimal2 n) = fmtDecimal2 n := by
  have hzeros (k : Nat) : utf8 (List.replicate k '0') = List.replicate k 48 := by
    rw [utf8_ascii, List.map_replicate]
    · rfl
    · intro c hc
      rw [List.eq_of_mem_replicate hc]
      decide
  rw [textDecimal2, utf8_append, hzeros, utf8_textDecimal, length_textDecimal, fmtDecimal2]

theorem str_of_bytes {args : List TextArg} {s : CStr} {rest : List FmtArg}
    (h : args.map TextArg.bytes = .str s :: rest) : ∃ t args', args = .str t :: args' := by
  match args, h with
  | .str t :: args', _ => exact ⟨t, args', rfl⟩

theorem num_of_bytes {args : List TextArg} {n : Nat} {rest : List FmtArg}
    (h : args.map TextArg.bytes = .num n :: rest) : ∃ args', args = .num n :: args' := by
  match args, h with
  | .num m :: args', h =>
      obtain ⟨hm, -⟩ := List.cons.inj h
      obtain rfl : m = n := FmtArg.num.inj hm
      exact ⟨args', rfl⟩

/-- Text formatted is the text of the bytes formatted. -/
theorem utf8_textFormat {format : List Char} (h : ∀ c ∈ format, c.toNat < 128)
    (args : List TextArg) :
    utf8 (textFormat format args) = palFormat format (args.map TextArg.bytes) := by
  induction format, args using textFormat.induct with
  | case1 cs s args ih =>
      have hcs : ∀ c ∈ cs, c.toNat < 128 := fun c hc => h c (by simp [hc])
      rw [textFormat, utf8_append, ih hcs]
      rfl
  | case2 cs n args ih =>
      have hcs : ∀ c ∈ cs, c.toNat < 128 := fun c hc => h c (by simp [hc])
      rw [textFormat, utf8_append, utf8_textDecimal, ih hcs]
      rfl
  | case3 cs n args ih =>
      have hcs : ∀ c ∈ cs, c.toNat < 128 := fun c hc => h c (by simp [hc])
      rw [textFormat, utf8_append, utf8_textDecimal2, ih hcs]
      rfl
  | case4 c cs args h₁ h₂ h₃ ih =>
      have hcs : ∀ c ∈ cs, c.toNat < 128 := fun c hc => h c (List.mem_cons_of_mem _ hc)
      -- neither format has a conversion here, for the arguments are of the same kinds
      rw [textFormat, utf8_cons_ascii (h c List.mem_cons_self), ih hcs, palFormat]
      · intro cs' s args' hargs hc hcs'
        obtain ⟨t, args'', rfl⟩ := str_of_bytes hargs
        exact h₁ cs' t args'' rfl hc hcs'
      · intro cs' n args' hargs hc hcs'
        obtain ⟨args'', rfl⟩ := num_of_bytes hargs
        exact h₂ cs' n args'' rfl hc hcs'
      · intro cs' n args' hargs hc hcs'
        obtain ⟨args'', rfl⟩ := num_of_bytes hargs
        exact h₃ cs' n args'' rfl hc hcs'
      · exact h₁
      · exact h₂
      · exact h₃
  | case5 args => rfl

/-! ## The object -/

/-- The value of a field: a string, or an array of strings. -/
inductive FieldValue
  | text (s : List Char)
  | texts (s : List Char) (ss : List (List Char))

namespace FieldValue

def render : FieldValue → List Char
  | .text s => quoted s
  | .texts s ss => arrayText (s :: ss)

/-- What it is meant to be read as. -/
def json : FieldValue → Json
  | .text s => .string (s.flatMap utf16)
  | .texts s ss => .array ((s :: ss).map fun t => .string (t.flatMap utf16))

def PlainValue : FieldValue → Prop
  | .text s => Plain s
  | .texts s ss => ∀ t ∈ s :: ss, Plain t

theorem reads {v : FieldValue} (h : v.PlainValue) : Reads utf16 v.render v.json := by
  cases v with
  | text s => exact reads_quoted utf16 h
  | texts s ss => exact reads_arrayText utf16 h

end FieldValue

/-- The value of the member `dev`. -/
def devText (dev model : List Char) : List Char :=
  objectText [("ids".toList, arrayText [dev]), ("name".toList, quoted "SaKaHub".toList),
    ("mdl".toList, quoted model), ("mf".toList, quoted "TomArts".toList)]

/-- A discovery message: the base topic, the name, the fields of its kind, and the device. -/
def discoveryText (base name : List Char) (fields : List (List Char × FieldValue))
    (dev model : List Char) : List Char :=
  objectText (("~".toList, quoted base) :: ("name".toList, quoted name) ::
    (fields.map (fun f => (f.1, f.2.render)) ++ [("dev".toList, devText dev model)]))

/-- The fields of a relay. -/
def relayFields (dev : List Char) (relay : Nat) : List (List Char × FieldValue) :=
  [("uniq_id".toList, .text (dev ++ "_relay".toList ++ textDecimal relay)),
    ("cmd_t".toList, .text ("~/relay/".toList ++ textDecimal relay ++ "/set".toList)),
    ("stat_t".toList, .text ("~/relay/".toList ++ textDecimal relay ++ "/state".toList)),
    ("pl_on".toList, .text "ON".toList), ("pl_off".toList, .text "OFF".toList),
    ("avty_t".toList, .text "~/status".toList)]

/-- The fields of an input: a pushbutton has events, a switch a state. -/
def inputFields (push : Bool) (dev : List Char) (input : Nat) : List (List Char × FieldValue) :=
  ("uniq_id".toList, .text (dev ++ "_input".toList ++ textDecimal input)) ::
    (if push then
      [("stat_t".toList, .text ("~/input/".toList ++ textDecimal input ++ "/event".toList)),
        ("event_types".toList, .texts "single".toList ["double".toList]),
        ("avty_t".toList, .text "~/status".toList)]
    else
      [("stat_t".toList, .text ("~/input/".toList ++ textDecimal input ++ "/state".toList)),
        ("pl_on".toList, .text "ON".toList), ("pl_off".toList, .text "OFF".toList),
        ("avty_t".toList, .text "~/status".toList)])

/-- The fields of a cover. -/
def coverFields (dev : List Char) (shutter : Nat) : List (List Char × FieldValue) :=
  [("uniq_id".toList, .text (dev ++ "_cover".toList ++ textDecimal shutter)),
    ("cmd_t".toList, .text ("~/cover/".toList ++ textDecimal shutter ++ "/set".toList)),
    ("stat_t".toList, .text ("~/cover/".toList ++ textDecimal shutter ++ "/state".toList)),
    ("pl_open".toList, .text "OPEN".toList), ("pl_cls".toList, .text "CLOSE".toList),
    ("pl_stop".toList, .text "STOP".toList), ("stat_open".toList, .text "open".toList),
    ("stat_clsd".toList, .text "closed".toList),
    ("stat_opening".toList, .text "opening".toList),
    ("stat_closing".toList, .text "closing".toList),
    ("dev_cla".toList, .text "shutter".toList), ("avty_t".toList, .text "~/status".toList)]

/-! ## The formats -/

/-- The format of `MQTTAppPublishRelayDiscovery`, of its two siblings for inputs, and of the
one for covers. -/
def relayFormat : String :=
  "\x7b\"~\":\"%s\",\"name\":\"Out%02d\",\"uniq_id\":\"%s_relay%d\"," ++
    "\"cmd_t\":\"~/relay/%d/set\",\"stat_t\":\"~/relay/%d/state\"," ++
    "\"pl_on\":\"ON\",\"pl_off\":\"OFF\",\"avty_t\":\"~/status\"," ++
    "\"dev\":\x7b\"ids\":[\"%s\"],\"name\":\"SaKaHub\"," ++
    "\"mdl\":\"%s\",\"mf\":\"TomArts\"\x7d\x7d"
def eventFormat : String :=
  "\x7b\"~\":\"%s\",\"name\":\"In%02d\",\"uniq_id\":\"%s_input%d\"," ++
    "\"stat_t\":\"~/input/%d/event\"," ++
    "\"event_types\":[\"single\",\"double\"]," ++
    "\"avty_t\":\"~/status\",\"dev\":\x7b\"ids\":[\"%s\"]," ++
    "\"name\":\"SaKaHub\",\"mdl\":\"%s\"," ++
    "\"mf\":\"TomArts\"\x7d\x7d"
def switchFormat : String :=
  "\x7b\"~\":\"%s\",\"name\":\"In%02d\",\"uniq_id\":\"%s_input%d\"," ++
    "\"stat_t\":\"~/input/%d/state\",\"pl_on\":\"ON\",\"pl_off\":" ++
    "\"OFF\",\"avty_t\":\"~/status\",\"dev\":\x7b\"ids\":[\"%s\"]," ++
    "\"name\":\"SaKaHub\",\"mdl\":\"%s\"," ++
    "\"mf\":\"TomArts\"\x7d\x7d"
def coverFormat : String :=
  "\x7b\"~\":\"%s\",\"name\":\"%s\",\"uniq_id\":\"%s_cover%d\"," ++
    "\"cmd_t\":\"~/cover/%d/set\",\"stat_t\":\"~/cover/%d/state\"," ++
    "\"pl_open\":\"OPEN\",\"pl_cls\":\"CLOSE\",\"pl_stop\":\"STOP\"," ++
    "\"stat_open\":\"open\",\"stat_clsd\":\"closed\"," ++
    "\"stat_opening\":\"opening\",\"stat_closing\":\"closing\"," ++
    "\"dev_cla\":\"shutter\",\"avty_t\":\"~/status\"," ++
    "\"dev\":\x7b\"ids\":[\"%s\"],\"name\":\"SaKaHub\"," ++
    "\"mdl\":\"%s\",\"mf\":\"TomArts\"\x7d\x7d"

set_option maxRecDepth 4000 in
/-- The relay message is one object. -/
theorem textFormat_relayFormat (base dev model : List Char) (relay : Nat) :
    textFormat relayFormat.toList [.str base, .num (relay + 1), .str dev, .num relay, .num relay,
      .num relay, .str dev, .str model] =
      discoveryText base ("Out".toList ++ textDecimal2 (relay + 1)) (relayFields dev relay) dev
        model := by
  unfold relayFormat discoveryText devText relayFields
  simp only [String.toList_append]
  repeat rw [String.toList_ofList]
  simp only [List.map_cons, List.map_nil, FieldValue.render, objectText, membersText, memberText,
    arrayText, elementsText, quoted, List.cons_append, List.append_assoc, List.nil_append]
  rfl

set_option maxRecDepth 4000 in
theorem textFormat_eventFormat (base dev model : List Char) (input : Nat) :
    textFormat eventFormat.toList [.str base, .num (input + 1), .str dev, .num input, .num input,
      .str dev, .str model] =
      discoveryText base ("In".toList ++ textDecimal2 (input + 1)) (inputFields true dev input)
        dev model := by
  unfold eventFormat discoveryText devText inputFields
  rw [if_pos rfl]
  simp only [String.toList_append]
  repeat rw [String.toList_ofList]
  simp only [List.map_cons, List.map_nil, FieldValue.render, objectText, membersText, memberText,
    arrayText, elementsText, quoted, List.cons_append, List.append_assoc, List.nil_append]
  rfl

set_option maxRecDepth 4000 in
theorem textFormat_switchFormat (base dev model : List Char) (input : Nat) :
    textFormat switchFormat.toList [.str base, .num (input + 1), .str dev, .num input, .num input,
      .str dev, .str model] =
      discoveryText base ("In".toList ++ textDecimal2 (input + 1)) (inputFields false dev input)
        dev model := by
  unfold switchFormat discoveryText devText inputFields
  rw [if_neg Bool.false_ne_true]
  simp only [String.toList_append]
  repeat rw [String.toList_ofList]
  simp only [List.map_cons, List.map_nil, FieldValue.render, objectText, membersText, memberText,
    arrayText, elementsText, quoted, List.cons_append, List.append_assoc, List.nil_append]
  rfl

set_option maxRecDepth 4000 in
theorem textFormat_coverFormat (base name dev model : List Char) (shutter : Nat) :
    textFormat coverFormat.toList [.str base, .str name, .str dev, .num shutter, .num shutter,
      .num shutter, .str dev, .str model] =
      discoveryText base name (coverFields dev shutter) dev model := by
  unfold coverFormat discoveryText devText coverFields
  simp only [String.toList_append]
  repeat rw [String.toList_ofList]
  simp only [List.map_cons, List.map_nil, FieldValue.render, objectText, membersText, memberText,
    arrayText, elementsText, quoted, List.cons_append, List.append_assoc, List.nil_append]
  rfl

set_option maxRecDepth 4000 in
/-- The formats are ASCII, and at most this long. -/
theorem ascii_relayFormat : (∀ c ∈ relayFormat.toList, c.toNat < 128) ∧
    relayFormat.toList.length ≤ 215 := by
  unfold relayFormat
  simp only [String.toList_append]
  repeat rw [String.toList_ofList]
  decide +kernel

set_option maxRecDepth 4000 in
theorem ascii_eventFormat : (∀ c ∈ eventFormat.toList, c.toNat < 128) ∧
    eventFormat.toList.length ≤ 195 := by
  unfold eventFormat
  simp only [String.toList_append]
  repeat rw [String.toList_ofList]
  decide +kernel

set_option maxRecDepth 4000 in
theorem ascii_switchFormat : (∀ c ∈ switchFormat.toList, c.toNat < 128) ∧
    switchFormat.toList.length ≤ 189 := by
  unfold switchFormat
  simp only [String.toList_append]
  repeat rw [String.toList_ofList]
  decide +kernel

set_option maxRecDepth 4000 in
theorem ascii_coverFormat : (∀ c ∈ coverFormat.toList, c.toNat < 128) ∧
    coverFormat.toList.length ≤ 343 := by
  unfold coverFormat
  simp only [String.toList_append]
  repeat rw [String.toList_ofList]
  decide +kernel

/-! ## The payloads are whole -/

/-- The room that an argument takes at most. -/
def FmtArg.size : FmtArg → Nat
  | .str s => s.length
  | .num n => max 2 (fmtDecimal n).length

theorem length_palFormat_le (format : List Char) (args : List FmtArg) :
    (palFormat format args).length ≤ format.length + (args.map FmtArg.size).sum := by
  induction format, args using palFormat.induct with
  | case1 cs s args ih =>
      rw [palFormat, List.length_append, List.map_cons, List.sum_cons, FmtArg.size,
        List.length_cons, List.length_cons]
      omega
  | case2 cs n args ih =>
      have hsize := Nat.le_max_right 2 (fmtDecimal n).length
      rw [palFormat, List.length_append, List.map_cons, List.sum_cons, FmtArg.size,
        List.length_cons, List.length_cons]
      omega
  | case3 cs n args ih =>
      have hsize : (fmtDecimal2 n).length = max 2 (fmtDecimal n).length := by
        rw [fmtDecimal2, List.length_append, List.length_replicate]
        omega
      rw [palFormat, List.length_append, List.map_cons, List.sum_cons, FmtArg.size, hsize,
        List.length_cons, List.length_cons, List.length_cons, List.length_cons]
      omega
  | case4 c cs args h₁ h₂ h₃ ih =>
      rw [palFormat, List.length_cons, List.length_cons]
      · omega
      · exact h₁
      · exact h₂
      · exact h₃
  | case5 args => exact Nat.zero_le _

/-- What fits the buffer is printed whole. -/
theorem palSnprintf_of_fits {size : Nat} {format : String} {args : List FmtArg}
    (h : format.toList.length + (args.map FmtArg.size).sum ≤ size - 1) :
    palSnprintf size format args = palFormat format.toList args :=
  List.take_of_length_le ((length_palFormat_le _ _).trans h)

end HomeAuto
