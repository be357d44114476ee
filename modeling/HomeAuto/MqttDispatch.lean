import HomeAuto.HaMqtt
import HomeAuto.ShutterCoherence
import HomeAuto.ShutterExclusion
import Mathlib.Data.List.TakeWhile

/-!
# What an MQTT topic can move

`product_on_mqtt` takes the number of a topic from an unbounded numeral into an `int`, and
checks a relay number only after it has cut it to 16 bits.  Up to the bounds of the three
topics the numeral, the `int` and the 16 bits agree, and the message acts on the relay or
shutter of that number and on nothing else.  Past them they need not.

`dispatchExact_iff_not_aliases` is exact: a topic can act on a relay or shutter that it
does not name precisely when its number is past the bound and one of the narrower numbers
is not.
-/

namespace HomeAuto

/-! ## Numerals and topics -/

/-- A decimal numeral: one digit at least, and digits only. -/
def IsNumeral (ds : CStr) : Prop := ds ≠ [] ∧ ∀ c ∈ ds, isDecDigit c = true

/-- The value of a numeral, of any length. -/
def numeralValue (ds : CStr) : Nat := ds.foldl (fun n c => n * 10 + decDigit c) 0

/-- The topic `<base><mid><n><suf>`. -/
def IsIndexedTopic (base mid suf topic : CStr) (n : Nat) : Prop :=
  ∃ ds, IsNumeral ds ∧ numeralValue ds = n ∧ topic = base ++ (mid ++ (ds ++ suf))

/-- `<base>/relay/<n>/set`. -/
def IsRelaySet (base topic : CStr) (n : Nat) : Prop :=
  IsIndexedTopic base (ascii "/relay/") (ascii "/set") topic n

/-- `<base>/relay/<n>/pulse`. -/
def IsRelayPulse (base topic : CStr) (n : Nat) : Prop :=
  IsIndexedTopic base (ascii "/relay/") (ascii "/pulse") topic n

/-- `<base>/cover/<n>/set`. -/
def IsCoverSet (base topic : CStr) (n : Nat) : Prop :=
  IsIndexedTopic base (ascii "/cover/") (ascii "/set") topic n

/-- The number that the `int` of the parser holds at the end of a numeral. -/
def parsedInt (n : Nat) : Int := (BitVec.ofNat 32 n).toInt

/-- The parser's digit loop computes the value modulo `2 ^ 32`. -/
theorem digitLoop_eq (ds : CStr) (a : Nat) :
    ds.foldl (fun n c => n * 10#32 + BitVec.ofNat 32 (decDigit c)) (BitVec.ofNat 32 a) =
      BitVec.ofNat 32 (ds.foldl (fun n c => n * 10 + decDigit c) a) := by
  induction ds generalizing a with
  | nil => rfl
  | cons c ds ih =>
      rw [List.foldl_cons, List.foldl_cons, ← ih, BitVec.ofNat_add, BitVec.ofNat_mul]

/-- Read as an `int`, from zero on. -/
theorem digitLoop_toInt (ds : CStr) :
    (ds.foldl (fun n c => n * 10#32 + BitVec.ofNat 32 (decDigit c)) 0#32).toInt =
      parsedInt (numeralValue ds) :=
  congrArg BitVec.toInt (digitLoop_eq ds 0)

/-- A numeral before a tail that starts with no digit is read whole. -/
theorem IsNumeral.takeWhile_append {ds suf : CStr} (hds : IsNumeral ds)
    (hsuf : suf.takeWhile isDecDigit = []) :
    (ds ++ suf).takeWhile isDecDigit = ds ∧ (ds ++ suf).dropWhile isDecDigit = suf := by
  have hsplit := List.takeWhile_append_dropWhile (p := isDecDigit) (l := suf)
  rw [hsuf, List.nil_append] at hsplit
  rw [List.takeWhile_append_of_pos hds.2, List.dropWhile_append_of_pos hds.2, hsuf, hsplit,
    List.append_nil]
  exact ⟨rfl, rfl⟩

/-- **What a topic parser accepts**: its own form of topic, with the number cut to an
`int`. -/
theorem parseIndexedTopic_eq_some_iff {base mid suf topic : CStr} {v : Int}
    (hsuf : suf.takeWhile isDecDigit = []) :
    parseIndexedTopic base mid suf topic = some v ↔
      ∃ n, IsIndexedTopic base mid suf topic n ∧ v = parsedInt n := by
  constructor
  · intro h
    unfold parseIndexedTopic at h
    split at h
    · cases h
    rename_i hlen
    split at h
    · cases h
    rename_i hbase
    split at h
    · cases h
    rename_i hmid
    dsimp only at h
    split at h
    · cases h
    rename_i hdigits
    split at h
    · cases h
    rename_i htail
    rw [not_not] at hbase hmid htail
    rw [Option.some.injEq] at h
    refine ⟨_, ⟨(topic.drop (base.length + mid.length)).takeWhile isDecDigit,
      ⟨hdigits, fun c hc => List.mem_takeWhile_imp hc⟩, rfl, ?_⟩, ?_⟩
    · calc topic = topic.take base.length ++ topic.drop base.length :=
            (List.take_append_drop ..).symm
        _ = base ++ ((topic.drop base.length).take mid.length ++
              (topic.drop base.length).drop mid.length) := by
            rw [hbase, List.take_append_drop]
        _ = _ := by
            rw [hmid, List.drop_drop]
            conv_rhs => rw [← htail, List.takeWhile_append_dropWhile]
    · rw [← h, digitLoop_toInt]
  · rintro ⟨n, ⟨ds, hds, rfl, rfl⟩, rfl⟩
    have hpos : 0 < ds.length := List.length_pos_iff.mpr hds.1
    obtain ⟨htake, hdrop⟩ := hds.takeWhile_append hsuf
    unfold parseIndexedTopic
    rw [if_neg (by simp only [List.length_append]; omega), List.take_left,
      if_neg (not_not.mpr rfl), List.drop_left, List.take_left, if_neg (not_not.mpr rfl),
      ← List.drop_drop, List.drop_left, List.drop_left]
    dsimp only
    rw [htake, hdrop, if_neg hds.1, if_neg (not_not.mpr rfl), digitLoop_toInt]

/-- A topic has one number, and one form. -/
theorem IsIndexedTopic.unique {base mid mid' suf suf' topic : CStr} {n n' : Nat}
    (h : IsIndexedTopic base mid suf topic n) (h' : IsIndexedTopic base mid' suf' topic n')
    (hmid : mid.length = mid'.length) (hsuf : suf.takeWhile isDecDigit = [])
    (hsuf' : suf'.takeWhile isDecDigit = []) : mid = mid' ∧ suf = suf' ∧ n = n' := by
  obtain ⟨ds, hds, rfl, rfl⟩ := h
  obtain ⟨ds', hds', rfl, heq⟩ := h'
  obtain ⟨hm, hrest⟩ := List.append_inj (List.append_cancel_left heq) hmid
  obtain ⟨htake, hdrop⟩ := hds.takeWhile_append hsuf
  obtain ⟨htake', hdrop'⟩ := hds'.takeWhile_append hsuf'
  rw [hrest] at htake hdrop
  exact ⟨hm, hdrop.symm.trans hdrop', congrArg numeralValue (htake.symm.trans htake')⟩

section Parsers

variable {base topic : CStr} {v : Int} {n n' : Nat}

/-- The parser of the switch topics takes exactly these. -/
theorem mqttAppParseRelaySet_eq_some_iff : mqttAppParseRelaySet base topic = some v ↔
    ∃ n, IsRelaySet base topic n ∧ v = parsedInt n :=
  parseIndexedTopic_eq_some_iff (by decide)

theorem mqttAppParseCoverSet_eq_some_iff : mqttAppParseCoverSet base topic = some v ↔
    ∃ n, IsCoverSet base topic n ∧ v = parsedInt n :=
  parseIndexedTopic_eq_some_iff (by decide)

theorem mqttAppParseRelayPulse_eq_some_iff : mqttAppParseRelayPulse base topic = some v ↔
    ∃ n, IsRelayPulse base topic n ∧ v = parsedInt n :=
  parseIndexedTopic_eq_some_iff (by decide)

/-- The three forms exclude each other. -/
theorem IsRelaySet.not_coverSet (h : IsRelaySet base topic n) : ¬IsCoverSet base topic n' := by
  intro h'
  exact absurd (h.unique h' (by decide +kernel) (by decide) (by decide)).1 (by decide +kernel)

theorem IsRelaySet.not_relayPulse (h : IsRelaySet base topic n) :
    ¬IsRelayPulse base topic n' := by
  intro h'
  exact absurd (h.unique h' rfl (by decide) (by decide)).2.1 (by decide)

theorem IsCoverSet.not_relayPulse (h : IsCoverSet base topic n) :
    ¬IsRelayPulse base topic n' := by
  intro h'
  exact absurd (h.unique h' (by decide +kernel) (by decide) (by decide)).1 (by decide +kernel)

end Parsers

/-- The `int` of a number, as a case on its low 32 bits. -/
theorem parsedInt_eq (n : Nat) : parsedInt n =
    if n % 2 ^ 32 < 2 ^ 31 then ((n % 2 ^ 32 : Nat) : Int)
    else ((n % 2 ^ 32 : Nat) : Int) - 2 ^ 32 := by
  rw [parsedInt, BitVec.toInt_eq_toNat_cond, BitVec.toNat_ofNat]
  split <;> split <;> omega

/-- A number below 2^31 is itself. -/
theorem parsedInt_of_lt {n : Nat} (h : n < 2 ^ 31) : parsedInt n = n := by
  rw [parsedInt_eq]
  split <;> omega

/-- The 16 bits of a number do not depend on its sign. -/
theorem toU16_parsedInt (n : Nat) : toU16 (parsedInt n) = n % 65536 := by
  rw [parsedInt_eq, toU16]
  split <;> omega

namespace Hub

/-! ## What an action may touch -/

/-- All relays, pulses and shutters are as they were. -/
structure Unchanged (h h' : Hub) : Prop where
  isOn : h'.chain.isOn = h.chain.isOn
  pulseMs : h'.pulseMs = h.pulseMs
  sh : h'.sh = h.sh

/-- At most relay `n`, its level and its pulse, is touched. -/
structure OnlyRelay (h h' : Hub) (n : Nat) : Prop where
  isOn : ∀ r, r ≠ n → h'.chain.isOn r = h.chain.isOn r
  pulseMs : ∀ r, r ≠ n → h'.pulseMs r = h.pulseMs r
  sh : h'.sh = h.sh

/-- At most shutter `i` and the levels of its two relays are touched. -/
structure OnlyShutter (h h' : Hub) (i : Nat) : Prop where
  isOn : ∀ r, (∀ d, r ≠ (h.sh i).relay d) → h'.chain.isOn r = h.chain.isOn r
  pulseMs : h'.pulseMs = h.pulseMs
  sh : ∀ j, j ≠ i → h'.sh j = h.sh j

/-- What a command on relay `n` may touch: the relay, or the shutter it is a member of. -/
def ActsOnRelay (h h' : Hub) (n : Nat) : Prop :=
  match h.outCfg.configShutterOfRelay n with
  | some (i, _) => OnlyShutter h h' i
  | none => OnlyRelay h h' n

variable {h₀ h h' : Hub} {i n : Nat}

theorem Unchanged.refl (h : Hub) : Unchanged h h := ⟨rfl, rfl, rfl⟩

/-- Nothing touched is within one relay. -/
theorem Unchanged.onlyRelay (hu : Unchanged h h') (n : Nat) : OnlyRelay h h' n where
  isOn r _ := congrFun hu.isOn r
  pulseMs r _ := congrFun hu.pulseMs r
  sh := hu.sh

theorem OnlyRelay.trans (h₁ : OnlyRelay h₀ h n) (h₂ : OnlyRelay h h' n) :
    OnlyRelay h₀ h' n where
  isOn r hr := (h₂.isOn r hr).trans (h₁.isOn r hr)
  pulseMs r hr := (h₂.pulseMs r hr).trans (h₁.pulseMs r hr)
  sh := h₂.sh.trans h₁.sh

theorem onlyRelay_setPulse (h : Hub) (n ms : Nat) : OnlyRelay h (h.setPulse n ms) n where
  isOn _ _ := rfl
  pulseMs _ hr := Function.update_of_ne hr ..
  sh := rfl

/-- Switching a relay touches no other. -/
theorem onlyRelay_mqttAppSetRelay (h : Hub) {n : Nat} (hn : n < 65536) (on : Bool) :
    OnlyRelay h (h.mqttAppSetRelay n on) n := by
  have htoU16 : toU16 n = n := by
    unfold toU16
    omega
  unfold mqttAppSetRelay
  split
  · exact (Unchanged.refl h).onlyRelay n
  · rw [htoU16]
    refine ⟨fun r hr => ?_, fun _ _ => rfl, rfl⟩
    rw [publish_chain, setRelay_chain, RelayChain.isOn_relayChainSet, if_neg fun h => hr h.1]

/-- A pulse touches no other relay. -/
theorem onlyRelay_relayPulseStart (h : Hub) {n : Nat} (hn : n < 65536) (ms : Nat) :
    OnlyRelay h (h.relayPulseStart n ms) n := by
  unfold relayPulseStart
  rw [Int.toNat_natCast]
  split
  · exact (Unchanged.refl h).onlyRelay n
  · split
    · exact onlyRelay_setPulse h n 0
    · exact (onlyRelay_mqttAppSetRelay h hn true).trans (onlyRelay_setPulse _ n ms)

/-- The state on the way through a command of shutter `i`: its relays are still the ones
it had. -/
structure Commanding (h₀ h : Hub) (i : Nat) : Prop extends OnlyShutter h₀ h i where
  relay : ∀ d, (h.sh i).relay d = (h₀.sh i).relay d

theorem Commanding.refl (h : Hub) (i : Nat) : Commanding h h i :=
  ⟨⟨fun _ _ => rfl, rfl, fun _ _ => rfl⟩, fun _ => rfl⟩

/-- The command may switch the relays of its own shutter. -/
theorem Commanding.setRelay (hc : Commanding h₀ h i) (d on : Bool) :
    Commanding h₀ (h.setRelay ((h.sh i).relay d) on) i where
  isOn r hr := by
    rw [setRelay_chain, RelayChain.isOn_relayChainSet, hc.relay d, if_neg fun h => hr d h.1]
    exact hc.isOn r hr
  pulseMs := hc.pulseMs
  sh := hc.sh
  relay := hc.relay

/-- It may change the runtime of its shutter, but for the pair. -/
theorem Commanding.modSh (hc : Commanding h₀ h i) {f : ShutterRt → ShutterRt}
    (hf : ∀ d, (f (h.sh i)).relay d = (h.sh i).relay d) : Commanding h₀ (h.modSh i f) i where
  isOn := hc.isOn
  pulseMs := hc.pulseMs
  sh j hj := (modSh_sh_of_ne h i f hj).trans (hc.sh j hj)
  relay d := by
    rw [modSh_sh_self, hf]
    exact hc.relay d

theorem Commanding.shPublish (hc : Commanding h₀ h i) (s : CoverState) :
    Commanding h₀ (h.shPublish i s) i :=
  let hc' := hc.modSh (f := fun p => { p with pcState := some s }) fun _ => rfl
  ⟨⟨hc'.isOn, hc'.pulseMs, hc'.sh⟩, hc'.relay⟩

theorem Commanding.shBothOff (hc : Commanding h₀ h i) : Commanding h₀ (h.shBothOff i) i :=
  (hc.setRelay true false).setRelay false false

theorem Commanding.shStop (hc : Commanding h₀ h i) : Commanding h₀ (h.shStop i) i :=
  (hc.shBothOff.modSh fun _ => rfl).shPublish .stopped

theorem Commanding.energise (hc : Commanding h₀ h i) (up : Bool) :
    Commanding h₀ (h.energise i up) i :=
  (((hc.setRelay (!up) false).setRelay up true).modSh fun _ => rfl).shPublish (movingCover up)

theorem Commanding.shReverse (hc : Commanding h₀ h i) (up : Bool) :
    Commanding h₀ (h.shReverse i up) i := by
  refine ((hc.shBothOff.modSh fun d => ?_).modSh fun _ => rfl).shPublish (movingCover up)
  split <;> rfl

theorem Commanding.shMove (hc : Commanding h₀ h i) (up : Bool) :
    Commanding h₀ (h.shMove i up) i := by
  unfold Hub.shMove
  split
  · exact hc.modSh fun _ => rfl
  · split
    · exact (hc.modSh fun _ => rfl).energise up
    · exact (hc.modSh fun _ => rfl).shReverse up

/-- **Every shutter command** stays within its shutter. -/
theorem Commanding.shCommand (hc : Commanding h₀ h i) (cmd : ShCmd) :
    Commanding h₀ (h.shCommand i cmd) i := by
  cases cmd with
  | stop => exact hc.shStop
  | «open» => exact hc.shMove true
  | close => exact hc.shMove false
  | up | down | toggle =>
      unfold Hub.shCommand
      dsimp only
      split
      · exact hc.shStop
      · exact hc.shMove _

/-- The same behind the guards of the interface. -/
theorem onlyShutter_outputCtrlShutter (h : Hub) (i : Nat) (cmd : ShCmd) :
    OnlyShutter h (h.outputCtrlShutter i cmd) i := by
  unfold outputCtrlShutter
  rw [Int.toNat_natCast]
  split
  · exact (Commanding.refl h i).toOnlyShutter
  · split
    · exact (Commanding.refl h i).toOnlyShutter
    · exact ((Commanding.refl h i).shCommand cmd).toOnlyShutter

/-- An output command goes to its relay, or to the shutter of the relay. -/
theorem actsOnRelay_outputCtrlCommand (h : Hub) {n : Nat} (hn : n < 65536) (cmd : OutCmd) :
    ActsOnRelay h (h.outputCtrlCommand n cmd) n := by
  unfold ActsOnRelay outputCtrlCommand
  cases h.outCfg.configShutterOfRelay n with
  | some p => exact onlyShutter_outputCtrlShutter h p.1 _
  | none =>
      dsimp only
      split
      · split
        · exact onlyRelay_relayPulseStart h hn _
        · exact (onlyRelay_relayPulseStart h hn 0).trans (onlyRelay_mqttAppSetRelay _ hn false)
      · exact onlyRelay_mqttAppSetRelay h hn _

/-! ## Dispatch -/

/-- From `h` to `h'`, `topic` moved nothing, or it names a relay or a shutter below the
current count and moved nothing else. -/
def DispatchExact (topic : CStr) (h h' : Hub) : Prop :=
  Unchanged h h' ∨
    (∃ n, IsRelaySet h.baseTopic topic n ∧ n < h.configGetRelayDevices * 8 ∧
      ActsOnRelay h h' n) ∨
    (∃ n, IsRelayPulse h.baseTopic topic n ∧ n < h.configGetRelayDevices * 8 ∧
      OnlyRelay h h' n) ∨
    ∃ n, IsCoverSet h.baseTopic topic n ∧ n < cfgMaxShutters ∧ OnlyShutter h h' n

/-- The number of the topic is past its bound, and is taken for one that is not: by its low
16 bits in a switch command, by its low 32 bits in a pulse or a cover command. -/
def Aliases (base topic : CStr) (count : Nat) : Prop :=
  (∃ n, IsRelaySet base topic n ∧ count ≤ n ∧ n % 65536 < count ∧ n % 2 ^ 32 < 2 ^ 31) ∨
    (∃ n, IsRelayPulse base topic n ∧ count ≤ n ∧ n % 2 ^ 32 < count) ∨
    ∃ n, IsCoverSet base topic n ∧ cfgMaxShutters ≤ n ∧ n % 2 ^ 32 < cfgMaxShutters

/-- A negative number reaches no output. -/
theorem outputCtrlCommand_of_neg (h : Hub) {iOut : Int} (hneg : iOut < 0) (cmd : OutCmd) :
    h.outputCtrlCommand iOut cmd = h := by
  have hnone : h.outCfg.configShutterOfRelay iOut = none := if_pos (.inl hneg)
  have hmode : h.outCfg.configOutMode iOut = outModeStandard := if_pos (.inl hneg)
  have hstandard : outModeStandard ≠ outModeTimed := by decide
  unfold outputCtrlCommand
  rw [hnone, hmode]
  dsimp only
  rw [if_neg hstandard, mqttAppSetRelay, if_pos (.inl hneg)]

/-- The bound of a switch command looks at 16 bits. -/
theorem relayOutOfRange_parsedInt (h : Hub) (n : Nat) :
    h.relayOutOfRange (parsedInt n) ↔ h.configGetRelayDevices * 8 ≤ n % 65536 := by
  unfold relayOutOfRange
  rw [toU16_parsedInt]

section Forms

variable {topic : CStr} (palStrToUl : StrToUl) (payload : List UInt8)

/-- What a switch topic comes to. -/
theorem productOnMqtt_relaySet (hform : IsRelaySet h.baseTopic topic n) :
    h.productOnMqtt palStrToUl topic payload =
      if h.configGetRelayDevices * 8 ≤ n % 65536 then h
      else h.outputCtrlCommand (parsedInt n) (relayPayloadCmd payload) := by
  have hparse := mqttAppParseRelaySet_eq_some_iff.mpr ⟨n, hform, rfl⟩
  unfold productOnMqtt
  rw [hparse]
  exact if_congr (h.relayOutOfRange_parsedInt n) rfl rfl

/-- What a cover topic comes to. -/
theorem productOnMqtt_coverSet (hform : IsCoverSet h.baseTopic topic n) :
    h.productOnMqtt palStrToUl topic payload =
      match coverPayloadCmd payload with
      | none => h
      | some cmd => h.outputCtrlShutter (parsedInt n) cmd := by
  have hset : mqttAppParseRelaySet h.baseTopic topic = none := by
    apply Option.eq_none_iff_forall_not_mem.mpr
    intro v hv
    obtain ⟨m, hm, _⟩ := mqttAppParseRelaySet_eq_some_iff.mp hv
    exact hm.not_coverSet hform
  have hparse := mqttAppParseCoverSet_eq_some_iff.mpr ⟨n, hform, rfl⟩
  cases hcmd : coverPayloadCmd payload with
  | none => simp only [productOnMqtt, hset, hparse, hcmd]
  | some cmd => simp only [productOnMqtt, hset, hparse, hcmd]

/-- What a pulse topic comes to. -/
theorem productOnMqtt_relayPulse (hform : IsRelayPulse h.baseTopic topic n) :
    h.productOnMqtt palStrToUl topic payload =
      if h.configGetRelayDevices * 8 ≤ n % 65536 then h
      else if h.outCfg.outputCtrlIsShutterMember (parsedInt n) then h
      else if pulseMaxMs < pulseDuration (palStrToUl (pulsePayload payload) 10) then h
      else h.relayPulseStart (parsedInt n)
        (pulseDuration (palStrToUl (pulsePayload payload) 10)) := by
  have hset : mqttAppParseRelaySet h.baseTopic topic = none := by
    apply Option.eq_none_iff_forall_not_mem.mpr
    intro v hv
    obtain ⟨m, hm, _⟩ := mqttAppParseRelaySet_eq_some_iff.mp hv
    exact hm.not_relayPulse hform
  have hcover : mqttAppParseCoverSet h.baseTopic topic = none := by
    apply Option.eq_none_iff_forall_not_mem.mpr
    intro v hv
    obtain ⟨m, hm, _⟩ := mqttAppParseCoverSet_eq_some_iff.mp hv
    exact hm.not_relayPulse hform
  have hparse := mqttAppParseRelayPulse_eq_some_iff.mpr ⟨n, hform, rfl⟩
  unfold productOnMqtt
  rw [hset, hcover, hparse]
  exact if_congr (h.relayOutOfRange_parsedInt n) rfl rfl

/-- A message on a topic of no form moves nothing. -/
theorem productOnMqtt_other (hset : ∀ n, ¬IsRelaySet h.baseTopic topic n)
    (hcover : ∀ n, ¬IsCoverSet h.baseTopic topic n)
    (hpulse : ∀ n, ¬IsRelayPulse h.baseTopic topic n) :
    h.productOnMqtt palStrToUl topic payload = h := by
  unfold productOnMqtt
  split
  · rename_i hparse
    obtain ⟨n, hn, _⟩ := mqttAppParseRelaySet_eq_some_iff.mp hparse
    exact absurd hn (hset n)
  · split
    · rename_i hparse
      obtain ⟨n, hn, _⟩ := mqttAppParseCoverSet_eq_some_iff.mp hparse
      exact absurd hn (hcover n)
    · split
      · rename_i hparse
        obtain ⟨n, hn, _⟩ := mqttAppParseRelayPulse_eq_some_iff.mp hparse
        exact absurd hn (hpulse n)
      · rfl

end Forms

/-- There are at most 15 relay devices. -/
theorem relayCount_le (h : Hub) : h.configGetRelayDevices * 8 ≤ 120 := by
  have hle := configGetRelayDevices_le h
  omega

/-- **A number that no bound mistakes** reaches exactly what it names. -/
theorem dispatchExact_of_not_aliases {topic : CStr}
    (hexact : ¬Aliases h.baseTopic topic (h.configGetRelayDevices * 8)) (palStrToUl : StrToUl)
    (payload : List UInt8) :
    DispatchExact topic h (h.productOnMqtt palStrToUl topic payload) := by
  unfold Aliases at hexact
  rw [not_or, not_or] at hexact
  obtain ⟨hset, hpulse, hcover⟩ := hexact
  have hcount := h.relayCount_le
  by_cases hrelay : ∃ n, IsRelaySet h.baseTopic topic n
  · obtain ⟨n, hform⟩ := hrelay
    rw [productOnMqtt_relaySet palStrToUl payload hform]
    by_cases hn : n < h.configGetRelayDevices * 8
    · refine .inr (.inl ⟨n, hform, hn, ?_⟩)
      rw [if_neg (by omega), parsedInt_of_lt (by omega)]
      exact actsOnRelay_outputCtrlCommand h (by omega) _
    · apply Or.inl
      split
      · exact .refl h
      · have hlow : ¬n % 2 ^ 32 < 2 ^ 31 :=
          fun hlow => hset ⟨n, hform, by omega, by omega, hlow⟩
        have hneg : parsedInt n < 0 := by
          rw [parsedInt_eq, if_neg hlow]
          omega
        rw [outputCtrlCommand_of_neg h hneg]
        exact .refl h
  by_cases hshutter : ∃ n, IsCoverSet h.baseTopic topic n
  · obtain ⟨n, hform⟩ := hshutter
    rw [productOnMqtt_coverSet palStrToUl payload hform]
    split
    · exact .inl (.refl h)
    · rename_i cmd _
      by_cases hn : n < cfgMaxShutters
      · refine .inr (.inr (.inr ⟨n, hform, hn, ?_⟩))
        rw [parsedInt_of_lt (by unfold cfgMaxShutters at hn; omega)]
        exact onlyShutter_outputCtrlShutter h n cmd
      · have hlow : ¬n % 2 ^ 32 < cfgMaxShutters :=
          fun hlow => hcover ⟨n, hform, by omega, hlow⟩
        have hout : parsedInt n < 0 ∨ (cfgMaxShutters : Int) ≤ parsedInt n := by
          rw [parsedInt_eq]
          split <;> omega
        rw [outputCtrlShutter, if_pos hout]
        exact .inl (.refl h)
  by_cases hrelayPulse : ∃ n, IsRelayPulse h.baseTopic topic n
  · obtain ⟨n, hform⟩ := hrelayPulse
    rw [productOnMqtt_relayPulse palStrToUl payload hform]
    split
    · exact .inl (.refl h)
    split
    · exact .inl (.refl h)
    split
    · exact .inl (.refl h)
    by_cases hn : n < h.configGetRelayDevices * 8
    · refine .inr (.inr (.inl ⟨n, hform, hn, ?_⟩))
      rw [parsedInt_of_lt (by omega)]
      exact onlyRelay_relayPulseStart h (by omega) _
    · rename_i hbound _ _
      have hlow : ¬n % 2 ^ 32 < h.configGetRelayDevices * 8 :=
        fun hlow => hpulse ⟨n, hform, by omega, hlow⟩
      have hout : parsedInt n < 0 ∨ (pulseMaxRelays : Int) ≤ parsedInt n := by
        rw [parsedInt_eq]
        unfold pulseMaxRelays
        split <;> omega
      rw [relayPulseStart, if_pos hout]
      exact .inl (.refl h)
  · push Not at hrelay hshutter hrelayPulse
    rw [productOnMqtt_other palStrToUl payload hrelay hshutter hrelayPulse]
    exact .inl (.refl h)

/-- A topic with its number past the bound is exact only when it moves nothing. -/
theorem DispatchExact.unchanged {topic : CStr} (he : DispatchExact topic h h')
    (hset : ∀ n, IsRelaySet h.baseTopic topic n → h.configGetRelayDevices * 8 ≤ n)
    (hpulse : ∀ n, IsRelayPulse h.baseTopic topic n → h.configGetRelayDevices * 8 ≤ n)
    (hcover : ∀ n, IsCoverSet h.baseTopic topic n → cfgMaxShutters ≤ n) : Unchanged h h' := by
  rcases he with hu | ⟨n, hform, hn, _⟩ | ⟨n, hform, hn, _⟩ | ⟨n, hform, hn, _⟩
  · exact hu
  · have hle := hset n hform
    omega
  · have hle := hpulse n hform
    omega
  · have hle := hcover n hform
    omega

/-- A hub at rest: all relays off, no pulse running, and `slot` the only shutter. -/
def atRest (base : CStr) (io slot : Nat) : Hub where
  chain := .relayChainSetDevices ((io >>> 4) &&& 0x0F)
  ioDevices := io
  outCfg :=
    { mode := fun _ => outModeStandard
      timedMs := fun _ => 1000
      shUp := fun i => if i = slot then 0 else shutterNone
      shDown := fun _ => 1
      shTravelMs := fun _ => 20000 }
  baseTopic := base
  sh i :=
    if i = slot then { ShutterRt.zero with valid := true, down := 1, travelMs := 20000 }
    else .zero
  pulseMs := fun _ => 0
  published := []

/-- Past the 32 slots of the table there is no shutter. -/
theorem configShutterOfRelay_atRest (base : CStr) (io : Nat) (iOut : Int) :
    (atRest base io cfgMaxShutters).outCfg.configShutterOfRelay iOut = none := by
  unfold OutputConfig.configShutterOfRelay
  split
  · rfl
  · apply List.findSome?_eq_none_iff.mpr
    intro i hi
    have hne : i ≠ cfgMaxShutters := (List.mem_range.mp hi).ne
    unfold OutputConfig.slotOfRelay
    rw [if_pos]
    exact if_neg hne

/-- Its chain is as long as its configuration says. -/
theorem relayChainCount_atRest (base : CStr) (io slot : Nat) :
    (atRest base io slot).chain.relayChainCount =
      (atRest base io slot).configGetRelayDevices * 8 := by
  have hle := configGetRelayDevices_le (atRest base io slot)
  have hfits : ¬relayMaxDevices < (atRest base io slot).configGetRelayDevices := by
    unfold relayMaxDevices
    omega
  exact congrArg (· * 8) (if_neg hfits)

/-- A relay number past the count whose low 16 bits are below it switches a relay. -/
theorem relaySet_moves {base topic : CStr} {io : Nat} (hform : IsRelaySet base topic n)
    (hlow : n % 65536 < (atRest base io cfgMaxShutters).configGetRelayDevices * 8)
    (hpos : n % 2 ^ 32 < 2 ^ 31) (palStrToUl : StrToUl) :
    ¬Unchanged (atRest base io cfgMaxShutters)
      ((atRest base io cfgMaxShutters).productOnMqtt palStrToUl topic (ascii "ON")) := by
  intro hu
  have hform' : IsRelaySet (atRest base io cfgMaxShutters).baseTopic topic n := hform
  have hcmd : relayPayloadCmd (ascii "ON") = .on := by decide
  have hmode : (atRest base io cfgMaxShutters).outCfg.configOutMode (parsedInt n) ≠
      outModeTimed := by
    have hstandard : (atRest base io cfgMaxShutters).outCfg.configOutMode (parsedInt n) =
        outModeStandard := ite_self _
    rw [hstandard]
    decide
  have hoff : (atRest base io cfgMaxShutters).chain.isOn (n % 65536) = false :=
    RelayChain.relayChainSetDevices_allOff _ _
  have hnonneg : 0 ≤ parsedInt n := by
    rw [parsedInt_eq, if_pos hpos]
    omega
  have hin : n % 65536 < (atRest base io cfgMaxShutters).chain.relayChainCount := by
    rw [relayChainCount_atRest]
    exact hlow
  have hon := ((atRest base io cfgMaxShutters).mqttAppSetRelay_effect (parsedInt n) true).2 _ hin
  rw [toU16_parsedInt, if_pos ⟨hnonneg, hlow, rfl⟩] at hon
  have hsame := congrFun hu.isOn (n % 65536)
  rw [productOnMqtt_relaySet palStrToUl _ hform', if_neg (not_le.mpr hlow), hcmd,
    outputCtrlCommand, configShutterOfRelay_atRest] at hsame
  dsimp only at hsame
  rw [if_neg hmode, hoff] at hsame
  exact absurd (hon.symm.trans hsame) (by decide)

/-- A pulse number whose low 32 bits are below the count starts a pulse. -/
theorem relayPulse_moves {base topic : CStr} {io : Nat} (hform : IsRelayPulse base topic n)
    (hlow : n % 2 ^ 32 < (atRest base io cfgMaxShutters).configGetRelayDevices * 8) :
    ¬Unchanged (atRest base io cfgMaxShutters)
      ((atRest base io cfgMaxShutters).productOnMqtt (fun _ _ => 0#32) topic []) := by
  intro hu
  have hform' : IsRelayPulse (atRest base io cfgMaxShutters).baseTopic topic n := hform
  have hcount := relayCount_le (atRest base io cfgMaxShutters)
  have hparsed : parsedInt n = ((n % 2 ^ 32 : Nat) : Int) := by
    rw [parsedInt_eq, if_pos (by omega)]
  have hmember : (atRest base io cfgMaxShutters).outCfg.outputCtrlIsShutterMember
      (parsedInt n) ≠ true := by
    rw [OutputConfig.outputCtrlIsShutterMember, configShutterOfRelay_atRest]
    decide
  have hms : pulseDuration 0#32 = 1000 := by decide
  have hrange : ¬(((n % 2 ^ 32 : Nat) : Int) < 0 ∨
      (pulseMaxRelays : Int) ≤ ((n % 2 ^ 32 : Nat) : Int)) := by
    unfold pulseMaxRelays
    omega
  have hpulse := congrFun hu.pulseMs (n % 2 ^ 32)
  rw [productOnMqtt_relayPulse _ _ hform', if_neg (by omega), if_neg hmember, hms,
    if_neg (by decide), hparsed, relayPulseStart, if_neg hrange, if_neg (by decide),
    Int.toNat_natCast] at hpulse
  have hset : (((atRest base io cfgMaxShutters).mqttAppSetRelay
      ((n % 2 ^ 32 : Nat) : Int) true).setPulse (n % 2 ^ 32) 1000).pulseMs (n % 2 ^ 32) = 1000 :=
    Function.update_self ..
  rw [hset] at hpulse
  cases hpulse

/-- A shutter at rest that is told to open leaves its rest. -/
theorem state_shMove_of_idle {h : Hub} {i : Nat} (hidle : (h.sh i).state = .idle) (up : Bool) :
    ((h.shMove i up).sh i).state = movingState up := by
  have hne : (h.sh i).state ≠ movingState up := by
    rw [hidle]
    cases up <;> decide
  rw [shMove, if_neg hne, if_pos hidle]
  simp [energise, shPublish]

/-- A cover number whose low 32 bits are the shutter sets it in motion. -/
theorem coverSet_moves {base topic : CStr} (io : Nat) (hform : IsCoverSet base topic n)
    (hlow : n % 2 ^ 32 < cfgMaxShutters) (palStrToUl : StrToUl) :
    ¬Unchanged (atRest base io (n % 2 ^ 32))
      ((atRest base io (n % 2 ^ 32)).productOnMqtt palStrToUl topic (ascii "OPEN")) := by
  intro hu
  have hform' : IsCoverSet (atRest base io (n % 2 ^ 32)).baseTopic topic n := hform
  have hcmd : coverPayloadCmd (ascii "OPEN") = some .open := by decide
  have hparsed : parsedInt n = ((n % 2 ^ 32 : Nat) : Int) := by
    unfold cfgMaxShutters at hlow
    rw [parsedInt_eq, if_pos (by omega)]
  have hslot : (atRest base io (n % 2 ^ 32)).sh (n % 2 ^ 32) =
      { ShutterRt.zero with valid := true, down := 1, travelMs := 20000 } := if_pos rfl
  have hvalid : ((atRest base io (n % 2 ^ 32)).sh (n % 2 ^ 32)).valid ≠ false := by
    rw [hslot]
    decide
  have hidle : ((atRest base io (n % 2 ^ 32)).sh (n % 2 ^ 32)).state = .idle := by
    rw [hslot]
    rfl
  have hstate := congrArg ShutterRt.state (congrFun hu.sh (n % 2 ^ 32))
  rw [productOnMqtt_coverSet palStrToUl _ hform', hcmd] at hstate
  dsimp only at hstate
  rw [hparsed, outputCtrlShutter, if_neg (by omega), Int.toNat_natCast, if_neg hvalid, shCommand,
    state_shMove_of_idle hidle, hidle] at hstate
  cases hstate

/-- **Exact dispatch.**  Whatever the hub and the payload, a message on the topic moves
only what the topic names, precisely when no bound mistakes its number. -/
theorem dispatchExact_iff_not_aliases (base topic : CStr) (io : Nat) :
    (∀ (palStrToUl : StrToUl) (h : Hub) (payload : List UInt8),
        h.baseTopic = base → h.ioDevices = io →
        DispatchExact topic h (h.productOnMqtt palStrToUl topic payload)) ↔
      ¬Aliases base topic (((io >>> 4) &&& 0x0F) * 8) := by
  constructor
  · intro hexact haliases
    rcases haliases with ⟨n, hform, hn, hlow, hpos⟩ | ⟨n, hform, hn, hlow⟩ |
      ⟨n, hform, hn, hlow⟩
    · apply relaySet_moves hform hlow hpos (fun _ _ => 0#32)
      apply (hexact _ _ _ rfl rfl).unchanged
      · intro m hm
        rw [(hm.unique hform rfl (by decide) (by decide)).2.2]
        exact hn
      · intro m hm
        exact absurd hm hform.not_relayPulse
      · intro m hm
        exact absurd hm hform.not_coverSet
    · apply relayPulse_moves hform hlow
      apply (hexact _ _ _ rfl rfl).unchanged
      · intro m hm
        exact absurd hform hm.not_relayPulse
      · intro m hm
        rw [(hm.unique hform rfl (by decide) (by decide)).2.2]
        exact hn
      · intro m hm
        exact absurd hform hm.not_relayPulse
    · apply coverSet_moves io hform hlow (fun _ _ => 0#32)
      apply (hexact _ _ _ rfl rfl).unchanged
      · intro m hm
        exact absurd hform hm.not_coverSet
      · intro m hm
        exact absurd hm hform.not_relayPulse
      · intro m hm
        rw [(hm.unique hform rfl (by decide) (by decide)).2.2]
        exact hn
  · intro hexact palStrToUl h payload hbase hio
    subst hbase hio
    exact dispatchExact_of_not_aliases hexact palStrToUl payload

/-- With one device, 8 relays, this topic names relay 65536 and switches on relay 0. -/
theorem stray_topic_moves_relay :
    ¬DispatchExact (ascii "home/relay/65536/set") (atRest (ascii "home") 0x10 cfgMaxShutters)
      ((atRest (ascii "home") 0x10 cfgMaxShutters).productOnMqtt ustrtoul
        (ascii "home/relay/65536/set") (ascii "ON")) := by
  have hform : IsRelaySet (ascii "home") (ascii "home/relay/65536/set") 65536 :=
    ⟨ascii "65536", ⟨by decide +kernel, by decide +kernel⟩, by decide +kernel,
      by decide +kernel⟩
  have hlow : 65536 % 65536 <
      (atRest (ascii "home") 0x10 cfgMaxShutters).configGetRelayDevices * 8 := by decide
  intro hexact
  apply relaySet_moves hform hlow (by decide) ustrtoul
  apply hexact.unchanged
  · intro m hm
    rw [(hm.unique hform rfl (by decide) (by decide)).2.2]
    decide
  · intro m hm
    exact absurd hm hform.not_relayPulse
  · intro m hm
    exact absurd hm hform.not_coverSet

end Hub

end HomeAuto
