import HomeAuto.HaPublish
import HomeAuto.Lib.Runs

/-!
# The SNTP client and the clock of the page (`sntp_client.c`)

A valid reply sets the Unix time of the last sync and clears a 32-bit counter of milliseconds,
which every tick advances.  `SntpGetTimeStr` adds the whole seconds of the counter and the time
zone, and prints the time of day.

`SntpWatch` records what the counter forgets: the seconds of the last accepted sync, and all
milliseconds of ticks since.  The counter starts anew after 2^32 ms without a reply, and the
offset of a negative time zone is not taken below 1970; `display_right_iff` says exactly when
the displayed time is right.
-/

namespace HomeAuto

/-- `NTP_EPOCH_DELTA`, `NTP_PACKET_SIZE`, `SNTP_RETRY_MS`, `SNTP_RESYNC_MS`. -/
def ntpEpochDelta : BitVec 32 := 2208988800#32
def ntpPacketSize : Nat := 48
def sntpRetryMs : BitVec 32 := 30000#32
def sntpResyncMs : BitVec 32 := 3600000#32

/-- `tSntpState`. -/
inductive SntpState
  | idle
  | dnsPending
  | waitReply
  | synced

/-- The variables of the client, and the time zone of the settings. -/
structure Sntp where
  eState : SntpState
  pcb : Bool
  elapsed : BitVec 32
  unixBase : BitVec 32
  msSinceSync : BitVec 32
  bSynced : Bool
  tzOffset : Int8

/-- The answers of `udp_new`, and of `dns_gethostbyname`: whether the address is cached. -/
structure SntpAnswers where
  udpNew : Bool
  cached : Bool

namespace Sntp

/-- At start-up, with the time zone that has been loaded. -/
def start (tz : Int8) : Sntp := ⟨.idle, false, 0#32, 0#32, 0#32, false, tz⟩

/-- `SntpInit`. -/
def sntpInit (s : Sntp) (ans : SntpAnswers) : Sntp :=
  if s.pcb = false ∧ ans.udpNew = false then s
  else
    { s with
      pcb := true
      eState := if ans.cached then .waitReply else .dnsPending
      elapsed := 0#32 }

/-- The transmit timestamp of a reply. -/
def timestamp (pkt : List UInt8) : BitVec 32 :=
  (BitVec.setWidth 32 (pkt.getD 40 0).toBitVec <<< 24) |||
    (BitVec.setWidth 32 (pkt.getD 41 0).toBitVec <<< 16) |||
    (BitVec.setWidth 32 (pkt.getD 42 0).toBitVec <<< 8) |||
    BitVec.setWidth 32 (pkt.getD 43 0).toBitVec

/-- `SntpRecvCB`, of the bytes in the chain of pbufs. -/
def sntpRecvCB (s : Sntp) (pkt : List UInt8) : Sntp :=
  if ntpPacketSize ≤ pkt.length then
    if timestamp pkt < ntpEpochDelta then { s with eState := .dnsPending, elapsed := 0#32 }
    else
      { s with
        unixBase := timestamp pkt - ntpEpochDelta
        msSinceSync := 0#32
        bSynced := true
        eState := .synced
        elapsed := 0#32 }
  else s

/-- `SntpDnsCB`. -/
def sntpDnsCB (s : Sntp) (found : Bool) : Sntp :=
  { s with eState := if found then .waitReply else .idle, elapsed := 0#32 }

/-- The two counters of `SntpTick`. -/
def advance (s : Sntp) (ms : BitVec 32) : Sntp :=
  { s with
    elapsed := s.elapsed + ms
    msSinceSync := if s.bSynced then s.msSinceSync + ms else s.msSinceSync }

/-- The state machine of `SntpTick`. -/
def service (s : Sntp) (ans : SntpAnswers) : Sntp :=
  match s.eState with
  | .idle =>
      if sntpRetryMs ≤ s.elapsed then { s with elapsed := 0#32 }.sntpInit ans else s
  | .dnsPending =>
      if sntpRetryMs ≤ s.elapsed then { s with eState := .idle, elapsed := 0#32 } else s
  | .waitReply =>
      if 5000#32 ≤ s.elapsed then { s with eState := .idle, elapsed := 0#32 } else s
  | .synced =>
      if sntpResyncMs ≤ s.elapsed then { s with elapsed := 0#32 }.sntpInit ans else s

/-- `SntpTick`. -/
def sntpTick (s : Sntp) (ms : BitVec 32) (ans : SntpAnswers) : Sntp :=
  (s.advance ms).service ans

/-- The local time of `SntpGetTimeStr`. -/
def localUnix (s : Sntp) : BitVec 32 :=
  let ui32Unix := s.unixBase + s.msSinceSync / 1000#32
  if 0 ≤ s.tzOffset.toInt then ui32Unix + BitVec.ofInt 32 s.tzOffset.toInt * 3600#32
  else
    let ui32Sub := BitVec.ofInt 32 (-s.tzOffset.toInt) * 3600#32
    if ui32Sub < ui32Unix then ui32Unix - ui32Sub else 0#32

/-- `SntpGetTimeStr`: what is written into a buffer of `iBufLen` bytes, if anything. -/
def sntpGetTimeStr (s : Sntp) (iBufLen : Int) : Option CStr :=
  if iBufLen < 9 then none
  else if s.bSynced = false then some (ascii "--:--:--")
  else
    some ((fmtDecimal2 (s.localUnix / 3600#32 % 24#32).toNat ++ ascii ":" ++
      fmtDecimal2 (s.localUnix / 60#32 % 60#32).toNat ++ ascii ":" ++
      fmtDecimal2 (s.localUnix % 60#32).toNat).take (iBufLen.toNat - 1))

end Sntp

/-- What happens to the client: a start, the callbacks of lwIP, a tick, and a change of the time
zone. -/
inductive SntpEvent
  | init (ans : SntpAnswers)
  | recv (pkt : List UInt8)
  | dns (found : Bool)
  | tick (ms : BitVec 32) (ans : SntpAnswers)
  | setTz (tz : Int8)

/-- One event. -/
def Sntp.step (s : Sntp) : SntpEvent → Sntp
  | .init ans => s.sntpInit ans
  | .recv pkt => s.sntpRecvCB pkt
  | .dns found => s.sntpDnsCB found
  | .tick ms ans => s.sntpTick ms ans
  | .setTz tz => { s with tzOffset := tz }

/-- A valid reply: long enough, and no time before 1970. -/
def Sntp.ValidReply (pkt : List UInt8) : Prop :=
  ntpPacketSize ≤ pkt.length ∧ ntpEpochDelta ≤ timestamp pkt

instance (pkt : List UInt8) : Decidable (Sntp.ValidReply pkt) :=
  inferInstanceAs (Decidable (_ ∧ _))

/-- The client, the UTC seconds of the last accepted sync, and the milliseconds of all ticks
since. -/
structure SntpWatch where
  sntp : Sntp
  utc : Option Nat
  ticks : Nat

namespace SntpWatch

/-- At start-up. -/
def start (tz : Int8) : SntpWatch := ⟨.start tz, none, 0⟩

/-- The UTC seconds of the last accepted sync, after an event. -/
def nextUtc (w : SntpWatch) : SntpEvent → Option Nat
  | .recv pkt =>
      if Sntp.ValidReply pkt then some ((Sntp.timestamp pkt).toNat - ntpEpochDelta.toNat)
      else w.utc
  | _ => w.utc

/-- The milliseconds of ticks since, after an event. -/
def nextTicks (w : SntpWatch) : SntpEvent → Nat
  | .recv pkt => if Sntp.ValidReply pkt then 0 else w.ticks
  | .tick ms _ => w.ticks + ms.toNat
  | _ => w.ticks

/-- One event, watched. -/
def step (w : SntpWatch) (e : SntpEvent) : SntpWatch :=
  ⟨w.sntp.step e, w.nextUtc e, w.nextTicks e⟩

/-! ## What the counter remembers -/

/-- The base is the last sync, and the counter holds the ticks since, modulo 2^32. -/
structure Tracked (w : SntpWatch) : Prop where
  synced : w.sntp.bSynced = w.utc.isSome
  base : ∀ utc, w.utc = some utc → w.sntp.unixBase.toNat = utc ∧ utc < 2 ^ 32 - 2208988800
  counter : ∀ utc, w.utc = some utc → w.sntp.msSinceSync.toNat = w.ticks % 2 ^ 32

theorem tracked_start (tz : Int8) : (start tz).Tracked := ⟨rfl, nofun, nofun⟩

/-- Client states with the same clock. -/
def SameClock (s s' : Sntp) : Prop :=
  s'.bSynced = s.bSynced ∧ s'.unixBase = s.unixBase ∧ s'.msSinceSync = s.msSinceSync

theorem sameClock_sntpInit (s : Sntp) (ans : SntpAnswers) : SameClock s (s.sntpInit ans) := by
  unfold Sntp.sntpInit
  split <;> exact ⟨rfl, rfl, rfl⟩

theorem sameClock_service (s : Sntp) (ans : SntpAnswers) : SameClock s (s.service ans) := by
  unfold Sntp.service
  split
  · split
    · exact sameClock_sntpInit _ ans
    · exact ⟨rfl, rfl, rfl⟩
  · split <;> exact ⟨rfl, rfl, rfl⟩
  · split <;> exact ⟨rfl, rfl, rfl⟩
  · split
    · exact sameClock_sntpInit _ ans
    · exact ⟨rfl, rfl, rfl⟩

/-- The time zone is a setting. -/
theorem tzOffset_service (s : Sntp) (ans : SntpAnswers) :
    (s.service ans).tzOffset = s.tzOffset := by
  have hinit (s : Sntp) : (s.sntpInit ans).tzOffset = s.tzOffset := by
    unfold Sntp.sntpInit
    split <;> rfl
  unfold Sntp.service
  split
  · split
    · exact hinit _
    · rfl
  · split <;> rfl
  · split <;> rfl
  · split
    · exact hinit _
    · rfl

/-- What is kept by an event that leaves the clock alone. -/
theorem Tracked.congr {w w' : SntpWatch} (h : w.Tracked) (hclock : SameClock w.sntp w'.sntp)
    (hutc : w'.utc = w.utc) (hticks : w'.ticks = w.ticks) : w'.Tracked := by
  obtain ⟨hsynced, hbase, hms⟩ := hclock
  refine ⟨?_, ?_, ?_⟩
  · rw [hsynced, hutc]
    exact h.synced
  · rw [hbase, hutc]
    exact h.base
  · rw [hms, hutc, hticks]
    exact h.counter

theorem tracked_recv {w : SntpWatch} (h : w.Tracked) (pkt : List UInt8) :
    (w.step (.recv pkt)).Tracked := by
  by_cases hvalid : Sntp.ValidReply pkt
  · have hlen := hvalid.1
    have htime := hvalid.2
    have hsntp : (w.step (.recv pkt)).sntp = { w.sntp with
        unixBase := Sntp.timestamp pkt - ntpEpochDelta
        msSinceSync := 0#32
        bSynced := true
        eState := .synced
        elapsed := 0#32 } := by
      change w.sntp.sntpRecvCB pkt = _
      rw [Sntp.sntpRecvCB, if_pos hlen, if_neg (BitVec.not_lt.mpr htime)]
    have hutc : (w.step (.recv pkt)).utc =
        some ((Sntp.timestamp pkt).toNat - ntpEpochDelta.toNat) := if_pos hvalid
    have hticks : (w.step (.recv pkt)).ticks = 0 := if_pos hvalid
    refine ⟨?_, ?_, ?_⟩
    · rw [hsntp, hutc]
      rfl
    · intro utc heq
      rw [hutc, Option.some.injEq] at heq
      rw [hsntp, ← heq]
      have hsub := BitVec.toNat_sub_of_le htime
      have hlt := (Sntp.timestamp pkt).isLt
      have hdelta : ntpEpochDelta.toNat = 2208988800 := rfl
      dsimp only
      omega
    · intro utc _
      rw [hsntp, hticks]
      rfl
  · have hutc : (w.step (.recv pkt)).utc = w.utc := if_neg hvalid
    have hticks : (w.step (.recv pkt)).ticks = w.ticks := if_neg hvalid
    refine h.congr ?_ hutc hticks
    change SameClock w.sntp (w.sntp.sntpRecvCB pkt)
    unfold Sntp.sntpRecvCB
    split
    · rename_i hlen
      have hearly : Sntp.timestamp pkt < ntpEpochDelta :=
        BitVec.not_le.mp fun htime => hvalid ⟨hlen, htime⟩
      rw [if_pos hearly]
      exact ⟨rfl, rfl, rfl⟩
    · exact ⟨rfl, rfl, rfl⟩

theorem tracked_tick {w : SntpWatch} (h : w.Tracked) (ms : BitVec 32) (ans : SntpAnswers) :
    (w.step (.tick ms ans)).Tracked := by
  obtain ⟨hsynced, hbase, hms⟩ := sameClock_service (w.sntp.advance ms) ans
  refine ⟨hsynced.trans h.synced, ?_, ?_⟩
  · intro utc hutc
    change ((w.sntp.advance ms).service ans).unixBase.toNat = utc ∧ _
    rw [hbase]
    exact h.base utc hutc
  · intro utc hutc
    change ((w.sntp.advance ms).service ans).msSinceSync.toNat = (w.ticks + ms.toNat) % 2 ^ 32
    have hon : w.sntp.bSynced = true := by
      have hutc' : w.utc = some utc := hutc
      rw [h.synced, hutc']
      rfl
    rw [hms, Sntp.advance, hon, if_pos rfl, BitVec.toNat_add, h.counter utc hutc,
      Nat.mod_add_mod]

/-- One event. -/
theorem tracked_step {w : SntpWatch} (h : w.Tracked) (e : SntpEvent) : (w.step e).Tracked := by
  cases e with
  | init ans => exact h.congr (sameClock_sntpInit w.sntp ans) rfl rfl
  | recv pkt => exact tracked_recv h pkt
  | dns found => exact h.congr ⟨rfl, rfl, rfl⟩ rfl rfl
  | tick ms ans => exact tracked_tick h ms ans
  | setTz tz => exact h.congr ⟨rfl, rfl, rfl⟩ rfl rfl

/-- A whole run. -/
theorem tracked_run (tz : Int8) (es : List SntpEvent) :
    (Runs.final step (start tz) es).Tracked := by
  have hrun : Runs.EveryState step Tracked (start tz) es := by
    refine Runs.invariant (fun _ e h => tracked_step h e) ?_ es
    exact tracked_start tz
  exact hrun.last

end SntpWatch

/-! ## The display -/

/-- The time of day, as it is displayed. -/
def clockText (t : Nat) : CStr :=
  fmtDecimal2 (t / 3600) ++ ascii ":" ++ fmtDecimal2 (t / 60 % 60) ++ ascii ":" ++
    fmtDecimal2 (t % 60)

theorem fmtDecimal2_eq : ∀ n < 100, fmtDecimal2 n =
    [UInt8.ofNat (48 + n / 10), UInt8.ofNat (48 + n % 10)] := by
  decide +kernel

theorem length_clockText {t : Nat} (h : t < 86400) : (clockText t).length = 8 := by
  rw [clockText, fmtDecimal2_eq _ (by omega), fmtDecimal2_eq _ (by omega),
    fmtDecimal2_eq _ (by omega)]
  rfl

theorem fmtDecimal2_injective {m n : Nat} (hm : m < 100) (hn : n < 100)
    (h : fmtDecimal2 m = fmtDecimal2 n) : m = n := by
  rw [fmtDecimal2_eq m hm, fmtDecimal2_eq n hn, List.cons.injEq, List.cons.injEq] at h
  have htens := congrArg UInt8.toNat h.1
  have hones := congrArg UInt8.toNat h.2.1
  simp only [UInt8.toNat_ofNat'] at htens hones
  omega

/-- Different times are displayed differently. -/
theorem clockText_injective {t u : Nat} (ht : t < 86400) (hu : u < 86400)
    (h : clockText t = clockText u) : t = u := by
  have hlen {n : Nat} (hn : n < 100) : (fmtDecimal2 n).length = 2 := by
    rw [fmtDecimal2_eq n hn]
    rfl
  unfold clockText at h
  simp only [List.append_assoc] at h
  obtain ⟨hhours, h⟩ := List.append_inj h (by rw [hlen (by omega), hlen (by omega)])
  have h := List.append_cancel_left h
  obtain ⟨hminutes, h⟩ := List.append_inj h (by rw [hlen (by omega), hlen (by omega)])
  have hseconds := List.append_cancel_left h
  have h₁ := fmtDecimal2_injective (by omega) (by omega) hhours
  have h₂ := fmtDecimal2_injective (by omega) (by omega) hminutes
  have h₃ := fmtDecimal2_injective (by omega) (by omega) hseconds
  omega

namespace Sntp

/-- The local time that is shown, in seconds since 1970, if it were never cut off. -/
def shownSeconds (s : Sntp) : Int :=
  s.unixBase.toNat + s.msSinceSync.toNat / 1000 + 3600 * s.tzOffset.toInt

/-- The seconds of a whole number of hours. -/
theorem toNat_hours {n : Nat} (h : n ≤ 128) :
    (BitVec.ofInt 32 (n : Int) * 3600#32).toNat = 3600 * n := by
  rw [BitVec.ofInt_natCast, BitVec.toNat_mul, BitVec.toNat_ofNat, BitVec.toNat_ofNat]
  omega

/-- Nothing wraps in the local time, but it does not go below 0. -/
theorem toNat_localUnix {s : Sntp} (hbase : s.unixBase.toNat < 2 ^ 32 - 2208988800) :
    (s.localUnix.toNat : Int) = max 0 s.shownSeconds := by
  have hms : s.msSinceSync.toNat / 1000 ≤ 4294967 := by
    have hlt := s.msSinceSync.isLt
    omega
  have hsum : (s.unixBase + s.msSinceSync / 1000#32).toNat =
      s.unixBase.toNat + s.msSinceSync.toNat / 1000 := by
    rw [BitVec.toNat_add, BitVec.toNat_udiv]
    exact Nat.mod_eq_of_lt (by change _ + s.msSinceSync.toNat / 1000 < _; omega)
  have hlow : -128 ≤ s.tzOffset.toInt := s.tzOffset.minValue_le_toInt
  have hhigh : s.tzOffset.toInt ≤ 127 := s.tzOffset.toInt_le
  unfold localUnix shownSeconds
  dsimp only
  split
  · rename_i hpos
    obtain ⟨n, hn⟩ := Int.eq_ofNat_of_zero_le hpos
    have hoff := toNat_hours (n := n) (by omega)
    rw [hn, BitVec.toNat_add, hsum, hoff, Nat.mod_eq_of_lt (by omega)]
    omega
  · rename_i hneg
    obtain ⟨n, hn⟩ := Int.eq_ofNat_of_zero_le (a := -s.tzOffset.toInt) (by omega)
    have hoff := toNat_hours (n := n) (by omega)
    rw [hn]
    split
    · rename_i hlt
      rw [BitVec.toNat_sub_of_le (BitVec.le_of_lt hlt), hsum, hoff]
      rw [BitVec.lt_def, hsum, hoff] at hlt
      omega
    · rename_i hge
      rw [BitVec.lt_def, hsum, hoff] at hge
      rw [BitVec.toNat_ofNat]
      omega

/-- What is written into a buffer that is large enough. -/
theorem sntpGetTimeStr_eq {s : Sntp} (hsynced : s.bSynced = true) {iBufLen : Int}
    (hbuf : 9 ≤ iBufLen) :
    s.sntpGetTimeStr iBufLen = some (clockText (s.localUnix.toNat % 86400)) := by
  have hhours : (s.localUnix / 3600#32 % 24#32).toNat = s.localUnix.toNat % 86400 / 3600 := by
    rw [BitVec.toNat_umod, BitVec.toNat_udiv]
    change s.localUnix.toNat / 3600 % 24 = _
    omega
  have hminutes : (s.localUnix / 60#32 % 60#32).toNat = s.localUnix.toNat % 86400 / 60 % 60 := by
    rw [BitVec.toNat_umod, BitVec.toNat_udiv]
    change s.localUnix.toNat / 60 % 60 = _
    omega
  have hseconds : (s.localUnix % 60#32).toNat = s.localUnix.toNat % 86400 % 60 := by
    rw [BitVec.toNat_umod]
    change s.localUnix.toNat % 60 = _
    omega
  have hlen := length_clockText (Nat.mod_lt s.localUnix.toNat (by decide : 86400 > 0))
  rw [sntpGetTimeStr, if_neg (by omega), if_neg (by simp [hsynced]), hhours, hminutes, hseconds]
  rw [← clockText, List.take_of_length_le (by omega)]

end Sntp

namespace SntpWatch

/-- The local seconds since 1970 that a clock would show. -/
def localSeconds (w : SntpWatch) (utc : Nat) : Int :=
  utc + (w.ticks / 1000 : Nat) + 3600 * w.sntp.tzOffset.toInt

/-- The same, of the milliseconds that a 32-bit counter holds. -/
def heldSeconds (w : SntpWatch) (utc : Nat) : Int :=
  utc + (w.ticks % 2 ^ 32 / 1000 : Nat) + 3600 * w.sntp.tzOffset.toInt

/-- The right time of day. -/
def rightTime (w : SntpWatch) (utc : Nat) : Nat := (w.localSeconds utc % 86400).toNat

/-- Once there was a sync, the right time of day is displayed. -/
def DisplayRight (w : SntpWatch) : Prop :=
  ∀ utc, w.utc = some utc → ∀ iBufLen : Int, 9 ≤ iBufLen →
    w.sntp.sntpGetTimeStr iBufLen = some (clockText (w.rightTime utc))

/-- What a 32-bit counter drops is a whole number of days; and before 1970 it is midnight. -/
def NothingLost (w : SntpWatch) : Prop :=
  ∀ utc, w.utc = some utc →
    (0 ≤ w.heldSeconds utc → w.ticks / 1000 % 86400 = w.ticks % 2 ^ 32 / 1000 % 86400) ∧
    (w.heldSeconds utc < 0 → w.rightTime utc = 0)

/-- What is displayed after a sync. -/
theorem Tracked.display_eq {w : SntpWatch} (h : w.Tracked) {utc : Nat} (hutc : w.utc = some utc)
    {iBufLen : Int} (hbuf : 9 ≤ iBufLen) :
    w.sntp.sntpGetTimeStr iBufLen =
      some (clockText ((max 0 (w.heldSeconds utc)).toNat % 86400)) := by
  obtain ⟨hbase, hlt⟩ := h.base utc hutc
  have hsynced : w.sntp.bSynced = true := by rw [h.synced, hutc, Option.isSome_some]
  have hheld : w.sntp.shownSeconds = w.heldSeconds utc := by
    rw [Sntp.shownSeconds, hbase, h.counter utc hutc]
    rfl
  have hlocal := Sntp.toNat_localUnix (s := w.sntp) (by omega)
  rw [hheld] at hlocal
  rw [Sntp.sntpGetTimeStr_eq hsynced hbuf, ← hlocal, Int.toNat_natCast]

/-- The exact condition, in one state. -/
theorem Tracked.right_iff {w : SntpWatch} (htracked : w.Tracked) :
    w.DisplayRight ↔ w.NothingLost := by
  refine forall₂_congr fun utc hutc => ?_
  have hright : w.rightTime utc < 86400 := by
    unfold rightTime
    omega
  have hshown : (∀ iBufLen : Int, 9 ≤ iBufLen →
      w.sntp.sntpGetTimeStr iBufLen = some (clockText (w.rightTime utc))) ↔
      (max 0 (w.heldSeconds utc)).toNat % 86400 = w.rightTime utc := by
    constructor
    · intro h
      have heq := h 9 (Int.le_refl 9)
      rw [htracked.display_eq hutc (Int.le_refl 9), Option.some.injEq] at heq
      exact clockText_injective (Nat.mod_lt _ (by decide)) hright heq
    · intro h iBufLen hbuf
      rw [htracked.display_eq hutc hbuf, h]
  rw [hshown]
  unfold rightTime localSeconds heldSeconds
  -- Only the seconds matter that have been ticked, and those that the counter holds.
  generalize w.ticks / 1000 = ticked, w.ticks % 2 ^ 32 / 1000 = held
  generalize 3600 * w.sntp.tzOffset.toInt = offset
  rcases Int.le_total 0 (utc + held + offset) with hpos | hneg
  · rw [max_eq_right hpos]
    constructor
    · intro h
      exact ⟨fun _ => by omega, fun _ => by omega⟩
    · intro h
      have hsame := h.1 hpos
      omega
  · rw [max_eq_left hneg]
    constructor
    · intro h
      exact ⟨fun _ => by omega, fun _ => h.symm⟩
    · intro h
      omega

/-- **The display.**  After every run, the displayed time of day is right exactly when the
counter has lost no part of a day, and the offset did not lead before 1970. -/
theorem display_right_iff (tz : Int8) (es : List SntpEvent) :
    (Runs.final step (start tz) es).DisplayRight ↔
      (Runs.final step (start tz) es).NothingLost :=
  (tracked_run tz es).right_iff

/-- In particular the display is right for 2^32 ms after a sync, where it is no time before
1970. -/
theorem display_right (tz : Int8) (es : List SntpEvent)
    (hticks : (Runs.final step (start tz) es).ticks < 2 ^ 32)
    (hpos : ∀ utc, (Runs.final step (start tz) es).utc = some utc →
      0 ≤ (Runs.final step (start tz) es).localSeconds utc) :
    (Runs.final step (start tz) es).DisplayRight := by
  rw [(tracked_run tz es).right_iff]
  intro utc hutc
  have hheld : (Runs.final step (start tz) es).heldSeconds utc =
      (Runs.final step (start tz) es).localSeconds utc := by
    rw [heldSeconds, Nat.mod_eq_of_lt hticks]
    rfl
  refine ⟨fun _ => by rw [Nat.mod_eq_of_lt hticks], fun hneg => ?_⟩
  have h := hpos utc hutc
  omega

/-- A stretch of ticks. -/
theorem final_ticks (w : SntpWatch) (ms : BitVec 32) (ans : SntpAnswers) (n : Nat) :
    (Runs.final step w (List.replicate n (.tick ms ans))).utc = w.utc ∧
    (Runs.final step w (List.replicate n (.tick ms ans))).ticks = w.ticks + n * ms.toNat ∧
    (Runs.final step w (List.replicate n (.tick ms ans))).sntp.tzOffset = w.sntp.tzOffset := by
  induction n generalizing w with
  | zero => exact ⟨rfl, by simp, rfl⟩
  | succ n ih =>
      obtain ⟨hutc, hticks, htz⟩ := ih (w.step (.tick ms ans))
      rw [List.replicate_succ, Runs.final_cons]
      refine ⟨hutc, ?_, htz.trans (tzOffset_service (w.sntp.advance ms) ans)⟩
      rw [hticks, Nat.succ_mul]
      change w.ticks + ms.toNat + _ = _
      omega

/-- A reply of the first second of 25 June 2026. -/
def midnightReply : List UInt8 := List.replicate 40 0 ++ [237, 230, 238, 0] ++ List.replicate 4 0

/-- Ticks of 10 ms for 49.7 days without another reply: it is 17:02:47, and 00:00:00 is
displayed. -/
theorem counter_wraps : ¬ ∀ tz es, (Runs.final step (start tz) es).DisplayRight := by
  intro h
  have hright := h 0 ([.init ⟨true, true⟩, .recv midnightReply] ++
    List.replicate 429496730 (.tick 10#32 ⟨true, false⟩))
  have htracked := tracked_run 0 ([.init ⟨true, true⟩, .recv midnightReply] ++
    List.replicate 429496730 (.tick 10#32 ⟨true, false⟩))
  rw [Runs.final_append] at hright htracked
  obtain ⟨hutc, hticks, htz⟩ := final_ticks
    (Runs.final step (start 0) [.init ⟨true, true⟩, .recv midnightReply]) 10#32 ⟨true, false⟩
    429496730
  generalize Runs.final step (Runs.final step (start 0) [.init ⟨true, true⟩,
    .recv midnightReply]) (List.replicate 429496730 (.tick 10#32 ⟨true, false⟩)) = w at *
  have hsync : w.utc = some 1782345600 := hutc.trans (by decide +kernel)
  have hcount : w.ticks = 4294967300 := hticks.trans (by decide +kernel)
  have hzone : w.sntp.tzOffset = 0 := htz.trans (by decide +kernel)
  have hshown := hright _ hsync 9 (Int.le_refl 9)
  rw [htracked.display_eq hsync (Int.le_refl 9), Option.some.injEq] at hshown
  have heq := clockText_injective (Nat.mod_lt _ (by decide)) (by unfold rightTime; omega) hshown
  rw [rightTime, localSeconds, heldSeconds, hcount, hzone] at heq
  exact absurd heq (by decide)

end SntpWatch

end HomeAuto
