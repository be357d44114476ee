import HomeAuto.HaDiscovery
import HomeAuto.BackupText

/-!
# The discovery messages as JSON

The configured strings stand in the discovery payloads as they are, without an encoder.  So a
payload announces them exactly if each of them is UTF-8 without quotation marks, backslashes
and control characters; its buffers hold it whole in any case.
-/

namespace HomeAuto

open JsonText
open Unicode (utf16)

/-- The units of a key. -/
def key (s : String) : List Nat := s.toList.flatMap utf16

theorem utf16_comma : utf16 ',' = [44] := by decide

theorem utf16_backslash : utf16 '\\' = [92] := by decide

/-- The keys that are looked up differ from the others beside them. -/
theorem keys_ne : (key "~" ≠ key "name" ∧ key "~" ≠ key "dev" ∧ key "name" ≠ key "dev") ∧
    key "ids" ≠ key "mdl" ∧ key "name" ≠ key "mdl" ∧ key "mf" ≠ key "mdl" := by decide

/-- Fields that can be read, and are none of the three with a configured string. -/
def FieldsPlain (fields : List (List Char × FieldValue)) : Prop :=
  ∀ f ∈ fields, Plain f.1 ∧ f.2.PlainValue ∧
    f.1.flatMap utf16 ∉ [key "~", key "name", key "dev"]

/-- What the fields are read as. -/
def fieldsJson (fields : List (List Char × FieldValue)) : List (List Nat × Json) :=
  fields.map fun f => (f.1.flatMap utf16, f.2.json)

/-- The members of the device. -/
def deviceJson (dev model : List Char) : List (List Nat × Json) :=
  [(key "ids", .array [.string (dev.flatMap utf16)]),
    (key "name", .string (key "SaKaHub")), (key "mdl", .string (model.flatMap utf16)),
    (key "mf", .string (key "TomArts"))]

/-- The members of a discovery message. -/
def discoveryJson (base name : List Char) (fields : List (List Char × FieldValue))
    (dev model : List Char) : List (List Nat × Json) :=
  (key "~", .string (base.flatMap utf16)) :: (key "name", .string (name.flatMap utf16)) ::
    (fieldsJson fields ++ [(key "dev", .object (deviceJson dev model))])

/-- A text is an object that announces the three strings: each is the value of the only member
of its key. -/
def AnnouncesText (text base name model : List Char) : Prop :=
  ∃ ms ds, Parses utf16 text (.object ms) ∧
    Only ms (key "~") (.string (base.flatMap utf16)) ∧
    Only ms (key "name") (.string (name.flatMap utf16)) ∧
    Only ms (key "dev") (.object ds) ∧ Only ds (key "mdl") (.string (model.flatMap utf16))

/-! ## Plain strings are announced -/

theorem readsMember_quoted {k s : List Char} (hk : Plain k) (hs : Plain s) :
    ReadsMember utf16 (k, quoted s) (k.flatMap utf16, .string (s.flatMap utf16)) :=
  ⟨hk, rfl, reads_quoted utf16 hs⟩

theorem readsMember_fields {fields : List (List Char × FieldValue)} (h : FieldsPlain fields) :
    List.Forall₂ (ReadsMember utf16) (fields.map fun f => (f.1, f.2.render))
      (fieldsJson fields) := by
  rw [fieldsJson, List.forall₂_map_left_iff, List.forall₂_map_right_iff, List.forall₂_same]
  intro f hf
  exact ⟨(h f hf).1, rfl, FieldValue.reads (h f hf).2.1⟩

theorem readsMember_ids {dev : List Char} (hdev : Plain dev) :
    ReadsMember utf16 ("ids".toList, arrayText [dev])
      (key "ids", .array [.string (dev.flatMap utf16)]) := by
  have hkey : Plain "ids".toList := by decide
  exact ⟨hkey, rfl, reads_arrayText utf16 fun t ht => by rwa [List.mem_singleton.mp ht]⟩

theorem reads_devText {dev model : List Char} (hdev : Plain dev) (hmodel : Plain model) :
    Reads utf16 (devText dev model) (.object (deviceJson dev model)) := by
  refine reads_objectText utf16
    (.cons (readsMember_ids hdev) (.cons ?_ (.cons ?_ (.cons ?_ .nil))))
  · exact readsMember_quoted (by decide) (by decide)
  · exact readsMember_quoted (by decide) hmodel
  · exact readsMember_quoted (by decide) (by decide)

theorem reads_discoveryText {base name dev model : List Char}
    {fields : List (List Char × FieldValue)} (hfields : FieldsPlain fields) (hdev : Plain dev)
    (hbase : Plain base) (hname : Plain name) (hmodel : Plain model) :
    Reads utf16 (discoveryText base name fields dev model)
      (.object (discoveryJson base name fields dev model)) := by
  refine reads_objectText utf16 (.cons ?_ (.cons ?_ ?_))
  · exact readsMember_quoted (by decide) hbase
  · exact readsMember_quoted (by decide) hname
  · refine List.rel_append (readsMember_fields hfields) (.cons ?_ .nil)
    have hkey : Plain "dev".toList := by decide
    exact ⟨hkey, rfl, reads_devText hdev hmodel⟩

theorem announcesText_of_plain {base name dev model : List Char}
    {fields : List (List Char × FieldValue)} (hfields : FieldsPlain fields) (hdev : Plain dev)
    (hbase : Plain base) (hname : Plain name) (hmodel : Plain model) :
    AnnouncesText (discoveryText base name fields dev model) base name model := by
  have hreserved : ∀ m ∈ fieldsJson fields, m.1 ∉ [key "~", key "name", key "dev"] := by
    intro m hm
    obtain ⟨f, hf, rfl⟩ := List.mem_map.mp hm
    exact (hfields f hf).2.2
  have hne (k : String) (hk : key k ∈ [key "~", key "name", key "dev"]) :
      ∀ m ∈ fieldsJson fields, m.1 ≠ key k := fun m hm heq => hreserved m hm (heq ▸ hk)
  obtain ⟨⟨hbaseName, hbaseDev, hnameDev⟩, hids, hnameModel, hmaker⟩ := keys_ne
  refine ⟨discoveryJson base name fields dev model, deviceJson dev model,
    (reads_discoveryText hfields hdev hbase hname hmodel).parses, ?_, ?_, ?_, ?_⟩
  · refine only_cons_self _ _ (List.forall_mem_cons.mpr ⟨hbaseName.symm, ?_⟩)
    refine List.forall_mem_append.mpr ⟨hne "~" (by simp), ?_⟩
    exact List.forall_mem_singleton.mpr hbaseDev.symm
  · refine (only_cons_of_ne hbaseName _ _).mpr (only_cons_self _ _ ?_)
    refine List.forall_mem_append.mpr ⟨hne "name" (by simp), ?_⟩
    exact List.forall_mem_singleton.mpr hnameDev.symm
  · refine (only_cons_of_ne hbaseDev _ _).mpr ((only_cons_of_ne hnameDev _ _).mpr ?_)
    exact (only_append_of_ne (hne "dev" (by simp)) _ _).mpr
      (only_cons_self _ _ (List.forall_mem_nil _))
  · refine (only_cons_of_ne hids _ _).mpr ((only_cons_of_ne hnameModel _ _).mpr ?_)
    exact only_cons_self _ _ (List.forall_mem_singleton.mpr hmaker)

/-! ## Announced strings are plain -/

/-- The model in the device of a message. -/
theorem plain_of_devText {dev model : List Char} (hdev : Plain dev) {n : Nat} {t q : List Char}
    {ds : List (List Nat × Json)}
    (h : readValue utf16 n (devText dev model ++ t) = some (.object ds, q))
    (honly : Only ds (key "mdl") (.string (model.flatMap utf16))) : Plain model := by
  cases n with
  | zero => cases h
  | succ n =>
      rw [devText, readValue_objectText] at h
      obtain ⟨p, hp, heq⟩ := Option.map_eq_some_iff.mp h
      have hds := (Prod.mk.inj heq).1
      rw [Json.object.injEq] at hds
      subst hds
      have hids : ReadsMember utf16 ("ids".toList, arrayText [dev])
          (key "ids", .array [.string (dev.flatMap utf16)]) := readsMember_ids hdev
      have hhub : ReadsMember utf16 ("name".toList, quoted "SaKaHub".toList)
          (key "name", .string (key "SaKaHub")) := readsMember_quoted (by decide) (by decide)
      obtain ⟨n₁, l₁, hl₁, hp⟩ := readMembers_of_reads utf16 hids hp
      obtain ⟨n₂, l₂, hl₂, hp⟩ := readMembers_of_reads utf16 hhub hp
      rw [hl₁, hl₂] at honly
      have honly := (only_cons_of_ne keys_ne.2.1 _ _).mp honly
      have honly := (only_cons_of_ne keys_ne.2.2.1 _ _).mp honly
      exact plain_of_only utf16_ne_nil utf16_comma utf16_backslash (by decide) hp honly

theorem plain_of_announcesText {base name dev model : List Char}
    {fields : List (List Char × FieldValue)} (hfields : FieldsPlain fields) (hdev : Plain dev)
    (h : AnnouncesText (discoveryText base name fields dev model) base name model) :
    Plain base ∧ Plain name ∧ Plain model := by
  obtain ⟨ms, ds, ⟨n, r, hread, -⟩, honlyBase, honlyName, honlyDev, honlyModel⟩ := h
  cases n with
  | zero => cases hread
  | succ n =>
      rw [← List.append_nil (discoveryText base name fields dev model), discoveryText,
        readValue_objectText] at hread
      obtain ⟨p, hp, heq⟩ := Option.map_eq_some_iff.mp hread
      obtain ⟨hms, hr⟩ := Prod.mk.inj heq
      rw [Json.object.injEq] at hms
      subst hms
      -- the base topic stands first
      have hbase : Plain base :=
        plain_of_only utf16_ne_nil utf16_comma utf16_backslash (by decide) hp honlyBase
      obtain ⟨n₁, l₁, hl₁, hp⟩ :=
        readMembers_of_reads utf16 (readsMember_quoted (by decide) hbase) hp
      obtain ⟨⟨hbaseName, hbaseDev, hnameDev⟩, -⟩ := keys_ne
      rw [hl₁] at honlyName honlyDev
      have honlyName := (only_cons_of_ne hbaseName _ _).mp honlyName
      have honlyDev := (only_cons_of_ne hbaseDev _ _).mp honlyDev
      -- then the name
      obtain ⟨m, rest, hnext⟩ : ∃ m rest, fields.map (fun f => (f.1, f.2.render)) ++
          [("dev".toList, devText dev model)] = m :: rest :=
        List.exists_cons_of_ne_nil (List.append_ne_nil_of_right_ne_nil _ (List.cons_ne_nil _ _))
      rw [hnext] at hp
      have hname : Plain name :=
        plain_of_only utf16_ne_nil utf16_comma utf16_backslash (by decide) hp honlyName
      obtain ⟨n₂, l₂, hl₂, hp⟩ :=
        readMembers_of_reads utf16 (readsMember_quoted (by decide) hname) hp
      rw [hl₂] at honlyDev
      have honlyDev := (only_cons_of_ne hnameDev _ _).mp honlyDev
      -- then the fields of its kind, and the device
      rw [← hnext] at hp
      obtain ⟨n₃, l₃, hl₃, hp⟩ := readMembers_append (readsMember_fields hfields) hp
      have hfree : ∀ m ∈ fieldsJson fields, m.1 ≠ key "dev" := by
        intro m hm heq
        obtain ⟨f, hf, rfl⟩ := List.mem_map.mp hm
        exact (hfields f hf).2.2 (heq ▸ by simp)
      rw [hl₃] at honlyDev
      have honlyDev := (only_append_of_ne hfree _ _).mp honlyDev
      have hkey : Plain "dev".toList := by decide
      obtain ⟨n₄, v, q, hv, hhead, -⟩ :=
        @readMembers_head utf16 n₃ ("dev".toList, devText dev model) hkey _ _ _ hp
      rw [honlyDev.eq_of_head hhead] at hv
      exact ⟨hbase, hname, plain_of_devText hdev hv honlyModel⟩

/-! ## The payloads -/

/-- UTF-8 without quotation marks, backslashes and control characters. -/
def PlainText (s : CStr) : Prop := ∃ t, utf8 t = s ∧ Plain t

/-- A payload is a JSON object that announces the three strings. -/
def Announces (payload base name model : CStr) : Prop :=
  ∃ text b n m, utf8 text = payload ∧ utf8 b = base ∧ utf8 n = name ∧ utf8 m = model ∧
    AnnouncesText text b n m

/-- **A message announces exactly plain strings.** -/
theorem announces_iff {payload base name model : CStr} {dev : List Char}
    {fields : List (List Char × FieldValue)} (hfields : FieldsPlain fields) (hdev : Plain dev)
    (hpayload : ∀ b n m, utf8 b = base → utf8 n = name → utf8 m = model →
      payload = utf8 (discoveryText b n fields dev m)) :
    Announces payload base name model ↔ PlainText base ∧ PlainText name ∧ PlainText model := by
  constructor
  · rintro ⟨text, b, n, m, htext, hb, hn, hm, h⟩
    rw [hpayload b n m hb hn hm] at htext
    rw [utf8_injective htext] at h
    obtain ⟨hbase, hname, hmodel⟩ := plain_of_announcesText hfields hdev h
    exact ⟨⟨b, hb, hbase⟩, ⟨n, hn, hname⟩, ⟨m, hm, hmodel⟩⟩
  · rintro ⟨⟨b, hb, hbase⟩, ⟨n, hn, hname⟩, ⟨m, hm, hmodel⟩⟩
    exact ⟨_, b, n, m, (hpayload b n m hb hn hm).symm, hb, hn, hm,
      announcesText_of_plain hfields hdev hbase hname hmodel⟩

theorem FieldsPlain.cons {k : String} {v : FieldValue} {fields : List (List Char × FieldValue)}
    (hk : Plain k.toList ∧ key k ∉ [key "~", key "name", key "dev"]) (hv : v.PlainValue)
    (h : FieldsPlain fields) : FieldsPlain ((k.toList, v) :: fields) :=
  List.forall_mem_cons.mpr ⟨⟨hk.1, hv, hk.2⟩, h⟩

/-- A field with a fixed text. -/
theorem FieldsPlain.fixed {k v : String} {fields : List (List Char × FieldValue)}
    (h : (Plain k.toList ∧ key k ∉ [key "~", key "name", key "dev"]) ∧ Plain v.toList)
    (hfields : FieldsPlain fields) : FieldsPlain ((k.toList, .text v.toList) :: fields) :=
  hfields.cons h.1 h.2

theorem plain_three {s t u : List Char} (hs : Plain s) (ht : Plain t) (hu : Plain u) :
    Plain (s ++ t ++ u) := plain_append.mpr ⟨plain_append.mpr ⟨hs, ht⟩, hu⟩

theorem fieldsPlain_nil : FieldsPlain [] := List.forall_mem_nil _

theorem fieldsPlain_relayFields {dev : List Char} (hdev : Plain dev) (relay : Nat) :
    FieldsPlain (relayFields dev relay) := by
  have hrelay := plain_textDecimal relay
  refine .cons (by decide) (plain_three hdev (by decide) hrelay) ?_
  refine .cons (by decide) (plain_three (by decide) hrelay (by decide)) ?_
  refine .cons (by decide) (plain_three (by decide) hrelay (by decide)) ?_
  exact .fixed (by decide) (.fixed (by decide) (.fixed (by decide) fieldsPlain_nil))

theorem fieldsPlain_inputFields {dev : List Char} (hdev : Plain dev) (push : Bool)
    (input : Nat) : FieldsPlain (inputFields push dev input) := by
  have hinput := plain_textDecimal input
  refine .cons (by decide) (plain_three hdev (by decide) hinput) ?_
  cases push with
  | true =>
      refine .cons (by decide) (plain_three (by decide) hinput (by decide)) ?_
      have htypes : ∀ t ∈ "single".toList :: ["double".toList], Plain t := by decide
      exact .cons (by decide) htypes (.fixed (by decide) fieldsPlain_nil)
  | false =>
      refine .cons (by decide) (plain_three (by decide) hinput (by decide)) ?_
      exact .fixed (by decide) (.fixed (by decide) (.fixed (by decide) fieldsPlain_nil))

theorem fieldsPlain_coverFields {dev : List Char} (hdev : Plain dev) (shutter : Nat) :
    FieldsPlain (coverFields dev shutter) := by
  have hshutter := plain_textDecimal shutter
  refine .cons (by decide) (plain_three hdev (by decide) hshutter) ?_
  refine .cons (by decide) (plain_three (by decide) hshutter (by decide)) ?_
  refine .cons (by decide) (plain_three (by decide) hshutter (by decide)) ?_
  refine .fixed (by decide) (.fixed (by decide) (.fixed (by decide) ?_))
  refine .fixed (by decide) (.fixed (by decide) (.fixed (by decide) ?_))
  exact .fixed (by decide) (.fixed (by decide) (.fixed (by decide) fieldsPlain_nil))

/-- The payload of a call. -/
def AppCall.payload : AppCall → List UInt8
  | .publish _ payload _ => payload
  | .subscribe _ => []

/-- Two hexadecimal digits, `%02x`. -/
def fmtHex2 (b : UInt8) : List Char :=
  [Nat.digitChar (b.toNat / 16), Nat.digitChar (b.toNat % 16)]

/-- `g_pcDevId`: `MQTTAppInit` prints it from the last bytes of the MAC address. -/
def mqttAppDevId (mac : Nat → UInt8) : CStr :=
  utf8 ("tm4c1294_".toList ++ fmtHex2 (mac 3) ++ fmtHex2 (mac 4) ++ fmtHex2 (mac 5))

namespace HaMqtt

/-- The strings fit their buffers, and the device id is derived from a MAC address. -/
structure Stored (a : HaMqtt) : Prop where
  base : a.hub.baseTopic.length < cfgTopicLen
  topic : a.cfg.topicBase.length < cfgTopicLen
  client : a.cfg.clientID.length < cfgClientIDLen
  name : ∀ i, (a.shName i).length < cfgNameLen
  device : ∃ mac, a.devId = mqttAppDevId mac

variable (a : HaMqtt)

/-- The name of a cover: the configured one, or its number. -/
def shownName (shutter : Nat) : CStr :=
  if a.shName shutter ≠ [] then a.shName shutter else ascii "Shutter" ++ fmtDecimal2 (shutter + 1)

/-- The name that a discovery message of the post-connect sequence announces. -/
def announcedName : PubItem → Option CStr
  | .relayDiscovery relay =>
      if relay < a.relays then some (ascii "Out" ++ fmtDecimal2 (relay + 1)) else none
  | .inputDiscovery input =>
      if input < a.ioInputCount then some (ascii "In" ++ fmtDecimal2 (input + 1)) else none
  | .coverDiscovery shutter => some (a.shownName shutter)
  | _ => none

/-- The discovery payload as its format prints it, without a buffer. -/
def wholePayload : PubItem → CStr
  | .relayDiscovery relay =>
      palFormat relayFormat.toList [.str a.hub.baseTopic, .num (relay + 1), .str a.devId,
        .num relay, .num relay, .num relay, .str a.devId, .str a.cfg.clientID]
  | .inputDiscovery input =>
      palFormat (if a.configInputIsPushbutton input then eventFormat else switchFormat).toList
        [.str a.hub.baseTopic, .num (input + 1), .str a.devId, .num input, .num input,
          .str a.devId, .str a.cfg.clientID]
  | .coverDiscovery shutter =>
      palFormat coverFormat.toList [.str a.hub.baseTopic, .str (a.shownName shutter),
        .str a.devId, .num shutter, .num shutter, .num shutter, .str a.devId,
        .str a.cfg.clientID]
  | _ => []

/-- The device id is plain. -/
theorem plain_mqttAppDevId (mac : Nat → UInt8) :
    ∃ d, mqttAppDevId mac = utf8 d ∧ Plain d ∧ (mqttAppDevId mac).length = 15 := by
  have hdigits : ∀ n < 16, Plain [Nat.digitChar n] ∧ (Nat.digitChar n).toNat < 128 := by decide
  have hhex (b : UInt8) : Plain (fmtHex2 b) ∧ ∀ c ∈ fmtHex2 b, c.toNat < 128 := by
    have hb := b.toNat_lt
    have hhigh := hdigits (b.toNat / 16) (by omega)
    have hlow := hdigits (b.toNat % 16) (Nat.mod_lt _ (by decide))
    exact ⟨plain_append.mpr ⟨hhigh.1, hlow.1⟩, List.forall_mem_cons.mpr
      ⟨hhigh.2, List.forall_mem_singleton.mpr hlow.2⟩⟩
  have hfixed : Plain "tm4c1294_".toList ∧ ∀ c ∈ "tm4c1294_".toList, c.toNat < 128 := by decide
  refine ⟨_, rfl, ?_, ?_⟩
  · exact plain_append.mpr ⟨plain_three hfixed.1 (hhex _).1 (hhex _).1, (hhex _).1⟩
  · rw [mqttAppDevId, utf8_ascii, List.length_map]
    · rfl
    · simp only [List.forall_mem_append]
      exact ⟨⟨⟨hfixed.2, (hhex _).2⟩, (hhex _).2⟩, (hhex _).2⟩

variable {a}

/-- The device id, for the formats. -/
theorem Stored.plain_devId (h : a.Stored) :
    ∃ d, a.devId = utf8 d ∧ Plain d ∧ a.devId.length = 15 := by
  obtain ⟨mac, hmac⟩ := h.device
  rw [hmac]
  exact plain_mqttAppDevId mac

theorem size_str (s : CStr) : (FmtArg.str s).size = s.length := rfl

theorem size_num {n k : Nat} (hk : 2 ≤ k) (hn : n < 10 ^ k) : (FmtArg.num n).size ≤ k :=
  Nat.max_le.mpr ⟨hk, length_fmtDecimal_le (by omega) hn⟩

/-- A discovery payload that fits `g_pcDiscPayload` is printed whole. -/
theorem discPayload_of_fits {format : String} {args : List FmtArg} {n : Nat}
    (hformat : format.toList.length ≤ n) (hargs : n + (args.map FmtArg.size).sum ≤ 511) :
    discPayload format args = palFormat format.toList args :=
  palSnprintf_of_fits (by omega)

theorem relays_le : a.relays ≤ 120 := by
  have hmask : a.hub.ioDevices >>> 4 &&& 0x0F ≤ 15 := Nat.and_le_right
  unfold relays Hub.configGetRelayDevices
  omega

theorem ioInputCount_le : a.ioInputCount ≤ 120 := by
  have hmask : a.hub.ioDevices &&& 0x0F ≤ 15 := Nat.and_le_right
  unfold ioInputCount
  split
  · rename_i hlocal
    exact hlocal.2.2
  · unfold configGetDinDevices
    omega

/-- A printed name is the text of the same. -/
theorem utf8_printedName {pre : String} (hpre : ∀ c ∈ pre.toList, c.toNat < 128) (n : Nat) :
    utf8 (pre.toList ++ textDecimal2 n) = ascii pre ++ fmtDecimal2 n := by
  rw [utf8_append, utf8_textDecimal2, utf8_ascii hpre]
  rfl

/-! ## No buffer cuts a payload -/

theorem size_index {n : Nat} (hn : n ≤ 120) : (FmtArg.num n).size ≤ 3 :=
  size_num (by decide) (by omega)

theorem Stored.whole_relay (h : a.Stored) {relay : Nat} (hrelay : relay < a.relays)
    (hpayload : (a.relayDiscoveryCall relay).payload ≠ []) :
    (a.relayDiscoveryCall relay).payload = a.wholePayload (.relayDiscovery relay) := by
  obtain ⟨d, -, -, hlen⟩ := h.plain_devId
  have hcount := @relays_le a
  have hbase : a.hub.baseTopic.length < 48 := h.base
  have hclient : a.cfg.clientID.length < 32 := h.client
  have hrelay₁ : (FmtArg.num (relay + 1)).size ≤ 3 := size_index (by omega)
  have hrelay₀ : (FmtArg.num relay).size ≤ 3 := size_index (by omega)
  unfold relayDiscoveryCall AppCall.payload at hpayload ⊢
  dsimp only at hpayload ⊢
  split at hpayload
  · exact absurd rfl hpayload
  · rename_i hmember
    rw [if_neg hmember]
    refine discPayload_of_fits ascii_relayFormat.2 ?_
    simp only [List.map_cons, List.map_nil, List.sum_cons, List.sum_nil, size_str, hlen]
    omega

theorem Stored.whole_input (h : a.Stored) {input : Nat} (hinput : input < a.ioInputCount) :
    (a.inputDiscoveryCall input).payload = a.wholePayload (.inputDiscovery input) := by
  obtain ⟨d, -, -, hlen⟩ := h.plain_devId
  have hcount := @ioInputCount_le a
  have hbase : a.hub.baseTopic.length < 48 := h.base
  have hclient : a.cfg.clientID.length < 32 := h.client
  have hinput₁ : (FmtArg.num (input + 1)).size ≤ 3 := size_index (by omega)
  have hinput₀ : (FmtArg.num input).size ≤ 3 := size_index (by omega)
  unfold inputDiscoveryCall AppCall.payload wholePayload
  dsimp only
  split
  · refine discPayload_of_fits ascii_eventFormat.2 ?_
    simp only [List.map_cons, List.map_nil, List.sum_cons, List.sum_nil, size_str, hlen]
    omega
  · refine discPayload_of_fits ascii_switchFormat.2 ?_
    simp only [List.map_cons, List.map_nil, List.sum_cons, List.sum_nil, size_str, hlen]
    omega

/-- The name of a cover fits its buffer. -/
theorem Stored.coverName_eq (h : a.Stored) {shutter : Nat} (hshutter : shutter < cfgMaxShutters) :
    a.coverName shutter = a.shownName shutter ∧ (a.shownName shutter).length ≤ 11 := by
  have hname : (a.shName shutter).length < 12 := h.name shutter
  have hlt : shutter < 32 := hshutter
  unfold coverName shownName
  by_cases hset : a.shName shutter ≠ []
  · have hwhole : palSnprintf (cfgNameLen + 8) "%s" [.str (a.shName shutter)] =
        a.shName shutter := by
      have hformat : palFormat "%s".toList [.str (a.shName shutter)] = a.shName shutter :=
        List.append_nil _
      rw [palSnprintf, hformat]
      exact List.take_of_length_le (by unfold cfgNameLen; omega)
    rw [if_pos hset, if_pos hset, hwhole]
    exact ⟨rfl, Nat.le_of_lt_succ hname⟩
  · have hformat : palFormat "Shutter%02d".toList [.num (shutter + 1)] =
        ascii "Shutter" ++ fmtDecimal2 (shutter + 1) := by
      have hend : fmtDecimal2 (shutter + 1) ++ palFormat [] [] = fmtDecimal2 (shutter + 1) :=
        List.append_nil _
      rw [← hend]
      rfl
    have hsmall : shutter + 1 < 10 ^ 2 := by omega
    have hdigits : (fmtDecimal2 (shutter + 1)).length ≤ 2 := by
      have hlen := length_fmtDecimal_le Nat.two_pos hsmall
      rw [fmtDecimal2, List.length_append, List.length_replicate]
      omega
    have hlen : (ascii "Shutter" ++ fmtDecimal2 (shutter + 1)).length ≤ 9 := by
      have hshort : (ascii "Shutter").length = 7 := by decide
      rw [List.length_append, hshort]
      omega
    rw [if_neg hset, if_neg hset, palSnprintf, hformat]
    rw [List.take_of_length_le (by unfold cfgNameLen; omega)]
    exact ⟨rfl, by omega⟩

theorem Stored.whole_cover (h : a.Stored) {shutter : Nat}
    (hpayload : (a.coverDiscoveryCall shutter).payload ≠ []) :
    (a.coverDiscoveryCall shutter).payload = a.wholePayload (.coverDiscovery shutter) := by
  obtain ⟨d, -, -, hlen⟩ := h.plain_devId
  have hbase : a.hub.baseTopic.length < 48 := h.base
  have hclient : a.cfg.clientID.length < 32 := h.client
  unfold coverDiscoveryCall AppCall.payload at hpayload ⊢
  dsimp only at hpayload ⊢
  split at hpayload
  · rename_i hvalid
    have hshutter : shutter < cfgMaxShutters := by
      by_contra hge
      rw [outputCtrlShutterValid, if_pos (Nat.le_of_not_lt hge)] at hvalid
      cases hvalid
    have hnum : (FmtArg.num shutter).size ≤ 3 :=
      size_index (hshutter.le.trans (by decide))
    obtain ⟨hname, hnameLen⟩ := h.coverName_eq hshutter
    rw [if_pos hvalid, hname]
    refine discPayload_of_fits ascii_coverFormat.2 ?_
    simp only [List.map_cons, List.map_nil, List.sum_cons, List.sum_nil, size_str, hlen]
    omega
  · exact absurd rfl hpayload

/-- The items that announce a name. -/
theorem announcedName_cases {item : PubItem} {name : CStr} (h : a.announcedName item = some name) :
    (∃ relay, relay < a.relays ∧ item = .relayDiscovery relay ∧
        name = ascii "Out" ++ fmtDecimal2 (relay + 1)) ∨
      (∃ input, input < a.ioInputCount ∧ item = .inputDiscovery input ∧
        name = ascii "In" ++ fmtDecimal2 (input + 1)) ∨
      ∃ shutter, item = .coverDiscovery shutter ∧ name = a.shownName shutter := by
  cases item with
  | relayDiscovery relay =>
      rw [announcedName, Option.ite_none_right_eq_some] at h
      exact .inl ⟨relay, h.1, rfl, (Option.some.inj h.2).symm⟩
  | inputDiscovery input =>
      rw [announcedName, Option.ite_none_right_eq_some] at h
      exact .inr (.inl ⟨input, h.1, rfl, (Option.some.inj h.2).symm⟩)
  | coverDiscovery shutter => exact .inr (.inr ⟨shutter, rfl, (Option.some.inj h).symm⟩)
  | _ => cases h

/-- A payload that is not empty is printed whole. -/
theorem Stored.whole (h : a.Stored) {item : PubItem} {name : CStr}
    (hname : a.announcedName item = some name) (hpayload : (a.itemCall item).payload ≠ []) :
    (a.itemCall item).payload = a.wholePayload item := by
  rcases announcedName_cases hname with
    ⟨relay, hlt, rfl, -⟩ | ⟨input, hlt, rfl, -⟩ | ⟨shutter, rfl, -⟩
  · exact h.whole_relay hlt hpayload
  · exact h.whole_input hlt
  · exact h.whole_cover hpayload

/-! ## What the payloads announce -/

/-- **A discovery message announces the configured strings exactly if they are plain.** -/
theorem Stored.announces_whole_iff (h : a.Stored) {item : PubItem} {name : CStr}
    (hname : a.announcedName item = some name) :
    Announces (a.wholePayload item) a.hub.baseTopic name a.cfg.clientID ↔
      PlainText a.hub.baseTopic ∧ PlainText name ∧ PlainText a.cfg.clientID := by
  obtain ⟨d, hd, hplain, -⟩ := h.plain_devId
  rcases announcedName_cases hname with
    ⟨relay, -, rfl, rfl⟩ | ⟨input, -, rfl, rfl⟩ | ⟨shutter, rfl, rfl⟩
  · refine announces_iff (fieldsPlain_relayFields hplain relay) hplain fun b n m hb hn hm => ?_
    rw [← utf8_printedName (by decide) (relay + 1)] at hn
    rw [utf8_injective hn, ← textFormat_relayFormat, utf8_textFormat ascii_relayFormat.1]
    simp only [List.map_cons, List.map_nil, TextArg.bytes, hb, hm, ← hd, wholePayload]
  · refine announces_iff (fieldsPlain_inputFields hplain (a.configInputIsPushbutton input) input)
      hplain fun b n m hb hn hm => ?_
    rw [← utf8_printedName (by decide) (input + 1)] at hn
    rw [utf8_injective hn, wholePayload]
    cases a.configInputIsPushbutton input with
    | true =>
        rw [← textFormat_eventFormat, utf8_textFormat ascii_eventFormat.1]
        simp only [List.map_cons, List.map_nil, TextArg.bytes, hb, hm, ← hd, if_true]
    | false =>
        rw [← textFormat_switchFormat, utf8_textFormat ascii_switchFormat.1, if_neg (by decide)]
        simp only [List.map_cons, List.map_nil, TextArg.bytes, hb, hm, ← hd]
  · refine announces_iff (fieldsPlain_coverFields hplain shutter) hplain fun b n m hb hn hm => ?_
    rw [← textFormat_coverFormat, utf8_textFormat ascii_coverFormat.1]
    simp only [List.map_cons, List.map_nil, TextArg.bytes, hb, hn, hm, ← hd, wholePayload]

end HaMqtt

end HomeAuto
