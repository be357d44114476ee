import HomeAuto.BackupUpload
import HomeAuto.BackupNames
import HomeAuto.BackupTables

/-!
# What a restore leaves alone

The restore looks for the settings one by one, and a setting stays what it was, whatever it was,
exactly if nothing is taken for it from the text in the buffer (`sameAt_iff`).
-/

namespace HomeAuto

/-! ## The settings and their keys -/

/-- The key of a setting. -/
def PageInput.key : PageInput → CStr
  | .host => ascii "host"
  | .port => ascii "port"
  | .client => ascii "client"
  | .user => ascii "user"
  | .pass => ascii "pass"
  | .topic => ascii "topic"
  | .auth => ascii "auth"
  | .din => ascii "din"
  | .relay => ascii "relay"
  | .ntp => ascii "ntp"
  | .tz => ascii "tz"
  | .types => ascii "types"
  | .binds => ascii "binds"
  | .innames => ascii "innames"
  | .outnames => ascii "outnames"

namespace BackupSettings

/-- A setting is as it was. -/
def SameAt (s s' : BackupSettings) : PageInput → Prop
  | .host => s'.host.text = s.host.text
  | .port => s'.port = s.port
  | .client => s'.client.text = s.client.text
  | .user => s'.user.text = s.user.text
  | .pass => s'.pass.text = s.pass.text
  | .topic => s'.topic.text = s.topic.text
  | .auth => s'.useAuth = s.useAuth
  | .din => s'.din = s.din
  | .relay => s'.relay = s.relay
  | .ntp => s'.ntpServer.text = s.ntpServer.text
  | .tz => s'.tz = s.tz
  | .types => s'.inputType = s.inputType
  | .binds => s'.binds = s.binds
  | .innames => ∀ i, (s'.inName i).text = (s.inName i).text
  | .outnames => ∀ i, (s'.outName i).text = (s.outName i).text

/-- Every setting has a valid value. -/
structure Valid (s : BackupSettings) : Prop where
  texts : s.host.text.length < cfgHostLen ∧ s.client.text.length < cfgClientIDLen ∧
    s.user.text.length < cfgUserLen ∧ s.pass.text.length < cfgPassLen ∧
    s.topic.text.length < cfgTopicLen ∧ s.ntpServer.text.length < cfgNtpServerLen
  port : 0 < s.port.1 ∧ s.port.1 ≤ 65535
  devices : s.din.val ≤ dinMaxBytes ∧ s.relay.val ≤ 15
  tz : -12 ≤ s.tz.1 ∧ s.tz.1 ≤ 14
  binds : ∀ i k, (s.binds.1 i k).Stored
  names : ∀ i, (s.inName i).text.length < cfgNameLen ∧ (s.outName i).text.length < cfgNameLen

/-- The types of the settings leave no others. -/
theorem valid (s : BackupSettings) : s.Valid where
  texts := ⟨Nat.lt_succ_of_le s.host.fits, Nat.lt_succ_of_le s.client.fits,
    Nat.lt_succ_of_le s.user.fits, Nat.lt_succ_of_le s.pass.fits, Nat.lt_succ_of_le s.topic.fits,
    Nat.lt_succ_of_le s.ntpServer.fits⟩
  port := s.port.2
  devices := ⟨Nat.le_of_lt_succ s.din.isLt, Nat.le_of_lt_succ s.relay.isLt⟩
  tz := s.tz.2
  binds := s.binds.2
  names := fun i => ⟨Nat.lt_succ_of_le (s.inName i).fits, Nat.lt_succ_of_le (s.outName i).fits⟩

end BackupSettings

/-! ## What is found and taken -/

/-- The text has a value for a setting, where the search for its key ends up, that some device
takes: a string for a text, two digits for the types; a number in range, where one that is not
found is -1; three digits for the bindings, and a whole block that is not blank for the names,
as far as the device count in the text leaves any. -/
def Taken (ul : DecimalReader) (json : CStr) : PageInput → Prop
  | .host => (cfgJsonGetStr json (ascii "host") (cfgHostLen - 1)).isSome
  | .port => 0 < cfgJsonGetInt ul json (ascii "port") ∧ cfgJsonGetInt ul json (ascii "port") ≤ 65535
  | .client => (cfgJsonGetStr json (ascii "client") (cfgClientIDLen - 1)).isSome
  | .user => (cfgJsonGetStr json (ascii "user") (cfgUserLen - 1)).isSome
  | .pass => (cfgJsonGetStr json (ascii "pass") (cfgPassLen - 1)).isSome
  | .topic => (cfgJsonGetStr json (ascii "topic") (cfgTopicLen - 1)).isSome
  | .auth => 0 ≤ cfgJsonGetInt ul json (ascii "auth")
  | .din => 0 ≤ cfgJsonGetInt ul json (ascii "din")
  | .relay => 0 ≤ cfgJsonGetInt ul json (ascii "relay")
  | .ntp => (cfgJsonGetStr json (ascii "ntp") (cfgNtpServerLen - 1)).isSome
  | .tz => -12 ≤ cfgJsonGetInt ul json (ascii "tz") ∧ cfgJsonGetInt ul json (ascii "tz") ≤ 14
  | .types => ∃ p, cfgJsonGetStr json (ascii "types") 63 = some p ∧ 2 ≤ p.length
  | .binds => ∃ p, cfgJsonGetStr json (ascii "binds") 255 = some p ∧ 3 ≤ p.length ∧
      0 < (restoreDevices ul json (ascii "din") 15).val
  | .innames => ∃ p, cfgJsonGetStr json (ascii "innames") 255 = some p ∧
      ∃ i < min ((restoreDevices ul json (ascii "din") 15).val * 8) cfgNamesMaxInputs,
        (i + 1) * cfgNameLen ≤ p.length ∧ nameAt p i ≠ []
  | .outnames => ∃ p, cfgJsonGetStr json (ascii "outnames") 255 = some p ∧
      ∃ i < min ((restoreDevices ul json (ascii "relay") 15).val * 8) cfgNamesMaxOutputs,
        (i + 1) * cfgNameLen ≤ p.length ∧ nameAt p i ≠ []

/-! ## One setting -/

/-- A value that is replaced on a condition stays, whatever it was, exactly if that fails. -/
theorem replaced_same_iff {α : Type} {a b : α} (hab : a ≠ b) {c : Prop} [Decidable c]
    (new : c → α) : (∀ old : α, (if h : c then new h else old) = old) ↔ ¬c := by
  constructor
  · intro h hc
    have ha := h a
    have hb := h b
    rw [dif_pos hc] at ha hb
    exact hab (ha.symm.trans hb)
  · intro hc old
    exact dif_neg hc

/-- A text that is not another one. -/
theorem exists_other_text {room : Nat} (hroom : 0 < room) (t : CStr) :
    ∃ other : FieldStr room, other.text ≠ t := by
  by_cases hempty : t = []
  · refine ⟨⟨[120], by decide, hroom⟩, ?_⟩
    rw [hempty]
    exact List.cons_ne_nil _ _
  · exact ⟨⟨[], List.not_mem_nil, Nat.zero_le _⟩, fun h => hempty h.symm⟩

theorem restoreStr_same_iff (json key : CStr) {room : Nat} (hroom : 0 < room) :
    (∀ old : FieldStr room, (restoreStr json key old).text = old.text) ↔
      ¬(cfgJsonGetStr json key room).isSome := by
  unfold restoreStr
  cases cfgJsonGetStr json key room with
  | none => simp
  | some v =>
      constructor
      · intro h
        obtain ⟨other, hother⟩ := exists_other_text hroom (FieldStr.strncpy room v).text
        exact absurd (h other).symm hother
      · intro h
        exact absurd rfl h

theorem restoreDevices_same_iff (ul : DecimalReader) (json key : CStr) :
    (∀ old : Fin 16, restoreDevices ul json key old = old) ↔ ¬0 ≤ cfgJsonGetInt ul json key := by
  have hne : (0 : Fin 16) ≠ 1 := by decide
  exact replaced_same_iff hne fun _ => setDevices ((cfgJsonGetInt ul json key).toNat % 256)

/-- No device has more than the one with the most. -/
theorem restoreDevices_le (ul : DecimalReader) (json key : CStr) (old : Fin 16) :
    (restoreDevices ul json key old).val ≤ (restoreDevices ul json key 15).val := by
  unfold restoreDevices
  split
  · exact Nat.le_refl _
  · exact Nat.le_of_lt_succ old.isLt

/-- Types of later bytes are not touched. -/
theorem isPushbutton_typesLoop_of_lt (p : CStr) (b : Nat) (types : Nat → BitVec 8) {j : Nat}
    (hj : j < cfgMaxInputs) (hlt : j / 8 < b) :
    isPushbutton (HaMqtt.typesLoop p b types) j = isPushbutton types j := by
  fun_induction HaMqtt.typesLoop p b types with
  | case1 hi lo cs b types hb ih =>
      have hne : ¬j / 8 = b := by omega
      rw [ih (by omega), isPushbutton_setTypeByte _ _ _ hj, if_neg hne]
  | case2 => rfl
  | case3 => rfl

theorem typesLoop_same_iff (p : CStr) :
    (∀ types, HaMqtt.typesLoop p 0 types = types) ↔ ¬2 ≤ p.length := by
  match p with
  | [] => exact ⟨fun _ => by decide, fun _ _ => rfl⟩
  | [c] => exact ⟨fun _ => Nat.lt_irrefl 1, fun _ _ => rfl⟩
  | hi :: lo :: cs =>
      constructor
      · intro h
        have hzero : (0 : Nat) < cfgMaxInputs := by decide
        have hfirst (types : Nat → BitVec 8) : isPushbutton types 0 =
            ((HaMqtt.hexNibble hi <<< 4) ||| HaMqtt.hexNibble lo).getLsbD 0 := by
          have hsame : isPushbutton (HaMqtt.typesLoop (hi :: lo :: cs) 0 types) 0 =
              isPushbutton types 0 := by rw [h types]
          have hstep : HaMqtt.typesLoop (hi :: lo :: cs) 0 types = HaMqtt.typesLoop cs 1
              (HaMqtt.setTypeByte types 0 ((HaMqtt.hexNibble hi <<< 4) ||| HaMqtt.hexNibble lo)) :=
            if_pos (by decide)
          have hlater := isPushbutton_typesLoop_of_lt cs 1 (HaMqtt.setTypeByte types 0
            ((HaMqtt.hexNibble hi <<< 4) ||| HaMqtt.hexNibble lo)) hzero (by decide : 0 / 8 < 1)
          have hset := isPushbutton_setTypeByte types 0
            ((HaMqtt.hexNibble hi <<< 4) ||| HaMqtt.hexNibble lo) hzero
          rw [hstep, hlater, hset, if_pos (by decide)] at hsame
          exact hsame.symm
        have hoff := hfirst fun _ => 0#8
        have hon := hfirst fun _ => 255#8
        rw [← hon] at hoff
        exact absurd hoff (by decide)
      · intro h
        exact absurd (Nat.le_add_left 2 cs.length) h

/-- The loop over the bindings leaves every table as it is exactly if it takes no slot. -/
theorem restoreBindsLoop_same_iff {left : Nat} (hleft : left ≤ cfgMaxInputs * cfgBindSlots)
    (p : CStr) :
    (∀ t : { t : BindTable // ∀ i k, (t i k).Stored }, restoreBindsLoop left 0 p t.1 = t.1) ↔
      ¬(3 ≤ p.length ∧ 0 < left) := by
  constructor
  · rintro h ⟨hlen, hpos⟩
    obtain ⟨n, hn⟩ := Nat.exists_eq_add_of_lt hpos
    rw [Nat.zero_add] at hn
    match p, hlen with
    | a :: b :: c :: cs, _ =>
        have hfirst (t : { t : BindTable // ∀ i k, (t i k).Stored }) :
            t.1 ⟨0, by decide⟩ ⟨0, by decide⟩ = (restoreSlot (((webHexNibble a).toNat <<< 8) |||
              ((webHexNibble b).toNat <<< 4) ||| (webHexNibble c).toNat)).checked := by
          have hsame : restoreBindsLoop left 0 (a :: b :: c :: cs) t.1 ⟨0, by decide⟩
              ⟨0, by decide⟩ = t.1 ⟨0, by decide⟩ ⟨0, by decide⟩ := by rw [h t]
          rw [← hsame, hn, restoreBindsLoop, restoreBindsLoop_outside (by omega) _ _ _ _
            (.inl (by decide)), BindTable.configBindingSet_apply _ _ (by decide)]
          exact if_pos (Nat.zero_mul _)
        have hunused := hfirst ⟨fun _ _ => .unused, fun _ _ => BindSlot.stored_unused⟩
        have hused := hfirst ⟨fun _ _ => ⟨bindTrigChange, 0⟩, fun _ _ => stored_change⟩
        rw [← hused] at hunused
        exact absurd hunused (by decide)
  · intro h t
    cases left with
    | zero => rfl
    | succ left =>
        match p with
        | [] => rfl
        | [_] => rfl
        | [_, _] => rfl
        | a :: b :: c :: cs => exact absurd ⟨Nat.le_add_left 3 cs.length, Nat.succ_pos left⟩ h

/-- The loop over the blocks leaves every list of names as it is exactly if it takes none. -/
theorem foldl_restoreName_same_iff (p : CStr) (count : Nat) :
    (∀ (old : Nat → FieldStr (cfgNameLen - 1)) (i : Nat),
      ((List.range count).foldl (restoreName p) old i).text = (old i).text) ↔
      ¬∃ i < count, (i + 1) * cfgNameLen ≤ p.length ∧ nameAt p i ≠ [] := by
  constructor
  · rintro h ⟨i, hi, htaken⟩
    have hroom : 0 < cfgNameLen - 1 := by decide
    obtain ⟨other, hother⟩ := exists_other_text hroom
      (FieldStr.strncpy (cfgNameLen - 1) (nameAt p i)).text
    have hsame := h (fun _ => other) i
    rw [foldl_restoreName _ _ hi, if_pos htaken] at hsame
    exact hother hsame.symm
  · intro h old i
    by_cases hi : i < count
    · have hnone : ¬((i + 1) * cfgNameLen ≤ p.length ∧ nameAt p i ≠ []) := fun htaken =>
        h ⟨i, hi, htaken⟩
      rw [foldl_restoreName _ _ hi, if_neg hnone]
    · rw [foldl_restoreName_of_le _ _ (Nat.not_lt.mp hi)]

/-- A list of names behind its key, on devices of which the most that there may be is `most`. -/
theorem restoreNames_same_iff (json key : CStr) {limit : Nat} (most : Fin 16)
    (count : Fin 16 → Fin 16) (hle : ∀ d, (count d).val ≤ most.val) (hmost : ∃ d, count d = most) :
    (∀ (d : Fin 16) (old : Nat → FieldStr (cfgNameLen - 1)) (i : Nat),
      (restoreNames json key (min ((count d).val * 8) limit) old i).text = (old i).text) ↔
      ¬∃ p, cfgJsonGetStr json key 255 = some p ∧
        ∃ i < min (most.val * 8) limit, (i + 1) * cfgNameLen ≤ p.length ∧ nameAt p i ≠ [] := by
  unfold restoreNames
  cases cfgJsonGetStr json key 255 with
  | none => simp
  | some p =>
      have hsame (n : Nat) := foldl_restoreName_same_iff p n
      constructor
      · rintro h ⟨q, hq, i, hi, htaken⟩
        cases hq
        obtain ⟨d, hd⟩ := hmost
        have hnone := (hsame _).mp (h d)
        rw [hd] at hnone
        exact hnone ⟨i, hi, htaken⟩
      · intro h d
        apply (hsame _).mpr
        rintro ⟨i, hi, htaken⟩
        have hcount := hle d
        exact h ⟨p, rfl, i, by omega, htaken⟩

/-! ## All settings -/

/-- The types. -/
theorem restoreTypes_same_iff (ul : DecimalReader) (json : CStr) :
    (∀ old : Nat → BitVec 8,
      ({ plainSettings with inputType := old }.restoredFrom ul json).inputType = old) ↔
      ¬Taken ul json .types := by
  rw [Taken]
  unfold BackupSettings.restoredFrom
  dsimp only
  cases cfgJsonGetStr json (ascii "types") 63 with
  | none => simp
  | some p =>
      rw [typesLoop_same_iff]
      simp

/-- The bindings, for any device count that the restore finds. -/
theorem restoreBinds_same_iff (ul : DecimalReader) (json : CStr) :
    (∀ (d : Fin 16) (old : { t : BindTable // ∀ i k, (t i k).Stored }),
      restoreBinds json (restoreDevices ul json (ascii "din") d) old = old) ↔
      ¬Taken ul json .binds := by
  rw [Taken]
  unfold restoreBinds
  cases cfgJsonGetStr json (ascii "binds") 255 with
  | none => simp
  | some p =>
      have hsame (d : Fin 16) := restoreBindsLoop_same_iff
        (by unfold cfgMaxInputs cfgBindSlots; omega :
          min (d.val * 8) 16 * cfgBindSlots ≤ cfgMaxInputs * cfgBindSlots) p
      constructor
      · rintro h ⟨q, hq, hlen, hpos⟩
        cases hq
        refine (hsame (restoreDevices ul json (ascii "din") 15)).mp ?_ ⟨hlen, ?_⟩
        · exact fun t => congrArg Subtype.val (h 15 t)
        · unfold cfgBindSlots
          omega
      · intro h d old
        apply Subtype.ext
        apply (hsame (restoreDevices ul json (ascii "din") d)).mpr
        rintro ⟨hlen, hpos⟩
        have hle := restoreDevices_le ul json (ascii "din") d
        unfold cfgBindSlots at hpos
        exact h ⟨p, rfl, hlen, by omega⟩

/-- **A setting is left as it is, whatever it was, exactly if nothing is taken for it.** -/
theorem sameAt_iff (ul : DecimalReader) (json : CStr) (i : PageInput) :
    (∀ s : BackupSettings, s.SameAt (s.restoredFrom ul json) i) ↔ ¬Taken ul json i := by
  cases i with
  | host =>
      refine Iff.trans ⟨fun h old => ?_, fun h s => h s.host⟩
        (restoreStr_same_iff json _ (by decide))
      exact h { plainSettings with host := old }
  | client =>
      refine Iff.trans ⟨fun h old => ?_, fun h s => h s.client⟩
        (restoreStr_same_iff json _ (by decide))
      exact h { plainSettings with client := old }
  | user =>
      refine Iff.trans ⟨fun h old => ?_, fun h s => h s.user⟩
        (restoreStr_same_iff json _ (by decide))
      exact h { plainSettings with user := old }
  | pass =>
      refine Iff.trans ⟨fun h old => ?_, fun h s => h s.pass⟩
        (restoreStr_same_iff json _ (by decide))
      exact h { plainSettings with pass := old }
  | topic =>
      refine Iff.trans ⟨fun h old => ?_, fun h s => h s.topic⟩
        (restoreStr_same_iff json _ (by decide))
      exact h { plainSettings with topic := old }
  | ntp =>
      refine Iff.trans ⟨fun h old => ?_, fun h s => h s.ntpServer⟩
        (restoreStr_same_iff json _ (by decide))
      exact h { plainSettings with ntpServer := old }
  | din =>
      refine Iff.trans ⟨fun h old => ?_, fun h s => h s.din⟩ (restoreDevices_same_iff ul json _)
      exact h { plainSettings with din := old }
  | relay =>
      refine Iff.trans ⟨fun h old => ?_, fun h s => h s.relay⟩ (restoreDevices_same_iff ul json _)
      exact h { plainSettings with relay := old }
  | port =>
      have hne : (⟨1, by decide⟩ : { p : Nat // 0 < p ∧ p ≤ 65535 }) ≠ ⟨2, by decide⟩ := by decide
      rw [Taken]
      refine Iff.trans ⟨fun h old => ?_, fun h s => h s.port⟩ (replaced_same_iff hne _)
      exact h { plainSettings with port := old }
  | auth =>
      have hne : false ≠ true := by decide
      rw [Taken]
      refine Iff.trans ⟨fun h old => ?_, fun h s => h s.useAuth⟩
        (replaced_same_iff hne fun _ => decide (cfgJsonGetInt ul json (ascii "auth") ≠ 0))
      exact h { plainSettings with useAuth := old }
  | tz =>
      have hne : (⟨0, by decide⟩ : { z : Int // -12 ≤ z ∧ z ≤ 14 }) ≠ ⟨1, by decide⟩ := by decide
      rw [Taken]
      refine Iff.trans ⟨fun h old => ?_, fun h s => h s.tz⟩ (replaced_same_iff hne _)
      exact h { plainSettings with tz := old }
  | types =>
      refine Iff.trans ⟨fun h old => ?_, fun h s => h s.inputType⟩ (restoreTypes_same_iff ul json)
      exact h { plainSettings with inputType := old }
  | binds =>
      refine Iff.trans ⟨fun h d old => ?_, fun h s => h s.din s.binds⟩
        (restoreBinds_same_iff ul json)
      exact h { plainSettings with din := d, binds := old }
  | innames =>
      refine Iff.trans ⟨fun h d old => ?_, fun h s => h s.din s.inName⟩
        (restoreNames_same_iff json _ _ (restoreDevices ul json (ascii "din"))
          (restoreDevices_le ul json _) ⟨15, rfl⟩)
      exact h { plainSettings with din := d, inName := old }
  | outnames =>
      refine Iff.trans ⟨fun h d old => ?_, fun h s => h s.relay s.outName⟩
        (restoreNames_same_iff json _ _ (restoreDevices ul json (ascii "relay"))
          (restoreDevices_le ul json _) ⟨15, rfl⟩)
      exact h { plainSettings with relay := d, outName := old }

/-- Of a key that is not found, only that of the time zone is taken. -/
theorem taken_iff_of_not_found {ul : DecimalReader} {json : CStr} {i : PageInput}
    (h : findKey json i.key = none) :
    Taken ul json i ↔ i = .tz := by
  have hstr (room : Nat) : cfgJsonGetStr json i.key room = none := by
    unfold cfgJsonGetStr
    rw [h]
  have hint : cfgJsonGetInt ul json i.key = -1 := by
    unfold cfgJsonGetInt
    rw [h]
  cases i <;> simp only [PageInput.key] at hstr hint <;> simp [Taken, hstr, hint]

end HomeAuto
