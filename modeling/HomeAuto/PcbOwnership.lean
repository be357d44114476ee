import HomeAuto.Lib.Runs
import HomeAuto.MqttLink

/-!
# The connection the client owns

The client is meant to hold every live pcb it has created, so at most one, and to hold
one exactly in the states that need a connection.  Three callbacks break this: a DNS
answer that comes while a pcb is held overwrites it; an accepting CONNACK that follows a
refusing one in the same delivery makes the client ready without a pcb; and an error on
a pcb the client no longer holds makes it forget the one it does.

`owned_iff_keepsOwnership` says that these are the only ways, over every run.
-/

namespace HomeAuto

/-- Neither aborted, nor closed, nor freed by lwIP. -/
def PcbState.live : PcbState → Bool
  | .connecting | .established => true
  | .free | .closing => false

/-- The states in which the client needs a pcb. -/
def MqttCliState.needsPcb : MqttCliState → Bool
  | .tcp | .connect | .ready => true
  | .idle | .dns => false

namespace Link

/-- Every live pcb is the one held, and one is held exactly in the states that need
one. -/
structure Owned (l : Link) : Prop where
  live : ∀ p, (l.pcb p).live → l.psPcb = some p
  held : l.psPcb ≠ none ↔ l.eState.needsPcb

/-- What holds in every state: the pcb held is live, and pcbs not yet created are free. -/
structure Sound (l : Link) : Prop where
  held_live : ∀ p, l.psPcb = some p → (l.pcb p).live
  fresh : ∀ p, l.created ≤ p → l.pcb p = .free

/-! ## Soundness -/

theorem Sound.become {l : Link} (h : l.Sound) (st : MqttCliState) : (l.become st).Sound :=
  ⟨h.held_live, h.fresh⟩

theorem Sound.forget {l : Link} (h : l.Sound) : l.forget.Sound :=
  ⟨nofun, h.fresh⟩

theorem Sound.lt_created {l : Link} (h : l.Sound) {p : Nat} (hp : l.pcb p ≠ .free) :
    p < l.created := by
  by_contra hge
  exact hp (h.fresh p (by omega))

/-- A pcb that has been created may change its phase. -/
theorem Sound.fresh_move {l : Link} (h : l.Sound) {p : Nat} (hp : l.pcb p ≠ .free)
    (st : PcbState) (q : Nat) (hq : l.created ≤ q) : (l.move p st).pcb q = .free := by
  have hlt := h.lt_created hp
  have hqp : q ≠ p := by omega
  simpa [Link.move, hqp] using h.fresh q hq

/-- A pcb that is not held, or stays live, may change its phase. -/
theorem Sound.move {l : Link} (h : l.Sound) {p : Nat} {st : PcbState} (hp : l.pcb p ≠ .free)
    (hheld : l.psPcb = some p → st.live) : (l.move p st).Sound where
  held_live := by
    intro q hq
    by_cases hqp : q = p
    · subst hqp
      simpa [Link.move] using hheld hq
    · simpa [Link.move, hqp] using h.held_live q hq
  fresh := h.fresh_move hp st

theorem Sound.free {l : Link} (h : l.Sound) (p : Nat) : ((l.move p .free).forget).Sound where
  held_live := nofun
  fresh := by
    intro q hq
    by_cases hqp : q = p
    · simp [Link.move, Link.forget, hqp]
    · simpa [Link.move, Link.forget, hqp] using h.fresh q hq

theorem Sound.drop {l : Link} (h : l.Sound) : l.drop.Sound := by
  rw [Link.drop]
  cases hp : l.psPcb with
  | none =>
      rw [abort_of_none hp]
      exact h.become .idle
  | some p =>
      rw [abort_of_some hp]
      exact (h.free p).become .idle

theorem Sound.opened {l : Link} (h : l.Sound) : l.opened.Sound where
  held_live := by
    rintro p ⟨⟩
    simp [Link.opened, PcbState.live]
  fresh := by
    intro p hp
    have hne : p ≠ l.created := by
      rintro rfl
      exact Nat.not_succ_le_self _ hp
    simpa [Link.opened, hne] using h.fresh p (Nat.le_of_succ_le hp)

/-! ## Ownership -/

/-- Without a pcb, ownership says that none is live and that none is needed. -/
theorem owned_of_none {l : Link} (h : l.psPcb = none) :
    l.Owned ↔ (∀ p, (l.pcb p).live = false) ∧ l.eState.needsPcb = false := by
  constructor
  · intro ho
    refine ⟨fun p => ?_, ?_⟩
    · by_contra hlive
      have := ho.live p (by simpa using hlive)
      rw [h] at this
      cases this
    · by_contra hneeds
      exact ho.held.mpr (by simpa using hneeds) h
  · rintro ⟨hdead, hneeds⟩
    refine ⟨fun p hp => ?_, ?_⟩
    · rw [hdead p] at hp
      cases hp
    · simp [h, hneeds]

/-- A held pcb that is forgotten while it is live is lost. -/
theorem not_owned_of_lost {l : Link} {p : Nat} (hlive : (l.pcb p).live)
    (hp : l.psPcb ≠ some p) : ¬l.Owned := fun h => hp (h.live p hlive)

theorem Owned.become {l : Link} (h : l.Owned) {st : MqttCliState}
    (hst : st.needsPcb = l.eState.needsPcb) : (l.become st).Owned where
  live := h.live
  held := by
    rw [become_eState, become_psPcb, hst]
    exact h.held

/-- With every pcb but the held one dead, freeing the held one leaves none. -/
theorem Owned.drop {l : Link} (h : l.Owned) : l.drop.Owned := by
  rw [owned_of_none l.drop_psPcb]
  refine ⟨fun p => ?_, rfl⟩
  rw [Link.drop]
  cases hheld : l.psPcb with
  | none =>
      rw [abort_of_none hheld]
      exact ((owned_of_none hheld).mp h).1 p
  | some q =>
      rw [abort_of_some hheld]
      by_cases hpq : p = q
      · simp [Link.move, hpq, PcbState.live]
      · have hdead : (l.pcb p).live = false := by
          by_contra hlive
          have := h.live p (by simpa using hlive)
          rw [hheld] at this
          exact hpq (Option.some.inj this).symm
        simpa [Link.move, hpq] using hdead

/-- Going idle without letting go of a pcb. -/
theorem owned_become_idle_iff {l : Link} (h : l.Owned) :
    (l.become .idle).Owned ↔ l.psPcb = none := by
  constructor
  · intro ho
    by_contra hne
    have := ho.held.mp hne
    cases this
  · intro hnone
    exact (owned_of_none (by simpa using hnone)).mpr ⟨((owned_of_none hnone).mp h).1, rfl⟩

theorem owned_forget_iff {l : Link} (hs : l.Sound) (h : l.Owned) :
    (l.forget.become .idle).Owned ↔ l.psPcb = none := by
  constructor
  · intro ho
    cases hp : l.psPcb with
    | none => rfl
    | some p => exact absurd ho (not_owned_of_lost (p := p) (hs.held_live p hp) (by simp))
  · intro hnone
    exact (owned_of_none rfl).mpr ⟨((owned_of_none hnone).mp h).1, rfl⟩

/-- A new pcb over one already held loses that one. -/
theorem owned_opened_iff {l : Link} (hs : l.Sound) (h : l.Owned) :
    l.opened.Owned ↔ l.psPcb = none := by
  constructor
  · intro ho
    cases hp : l.psPcb with
    | none => rfl
    | some p =>
        have hlive := hs.held_live p hp
        have hlt : p < l.created := hs.lt_created fun hfree => by
          rw [hfree] at hlive
          cases hlive
        refine absurd ho (not_owned_of_lost (p := p) ?_ ?_)
        · simpa [Link.opened, Nat.ne_of_lt hlt] using hlive
        · simpa [Link.opened] using (Nat.ne_of_lt hlt).symm
  · intro hnone
    refine ⟨fun p hp => ?_, by simp [Link.opened, MqttCliState.needsPcb]⟩
    by_cases hpc : p = l.created
    · rw [hpc]
      rfl
    · have hdead := ((owned_of_none hnone).mp h).1 p
      simp [Link.opened, hpc, hdead] at hp

theorem owned_opened_drop_iff {l : Link} (hs : l.Sound) (h : l.Owned) :
    l.opened.drop.Owned ↔ l.psPcb = none := by
  constructor
  · intro ho
    cases hp : l.psPcb with
    | none => rfl
    | some p =>
        have hlive := hs.held_live p hp
        have hlt : p < l.created := hs.lt_created fun hfree => by
          rw [hfree] at hlive
          cases hlive
        refine absurd ho (not_owned_of_lost (p := p) ?_ (by simp))
        rw [Link.drop, abort_of_some (l := l.opened) (p := l.created) rfl]
        simpa [Link.move, Link.opened, Nat.ne_of_lt hlt] using hlive
  · intro hnone
    exact ((owned_opened_iff hs h).mpr hnone).drop

/-- An accepting CONNACK last, after a refusing one: the client believes itself ready
without a pcb. -/
def ReadyAfterRefusal (verdicts : List Bool) : Prop :=
  false ∈ verdicts ∧ verdicts.getLast? = some true

theorem owned_believed_iff {l : Link} (h : l.Owned) (hheld : l.psPcb ≠ none)
    (verdicts : List Bool) :
    ((if false ∈ verdicts then l.drop else l).become (believed l.eState verdicts)).Owned ↔
      ¬ReadyAfterRefusal verdicts := by
  have hneeds := h.held.mp hheld
  by_cases hmem : false ∈ verdicts
  · simp only [hmem, if_true, ReadyAfterRefusal, true_and]
    cases hlast : verdicts.getLast? with
    | none =>
        rw [List.getLast?_eq_none_iff.mp hlast] at hmem
        cases hmem
    | some v =>
        cases v with
        | true =>
            refine iff_of_false (fun ho => ?_) (by simp)
            have := ho.held.mpr (by simp [believed, hlast, MqttCliState.needsPcb])
            simp at this
        | false =>
            refine iff_of_true ?_ (by simp)
            rw [believed, hlast]
            exact h.drop
  · simp only [hmem, if_false, ReadyAfterRefusal, false_and, not_false_iff, iff_true]
    refine h.become ?_
    cases hlast : verdicts.getLast? with
    | none => rw [believed, hlast]
    | some v =>
        cases v with
        | true =>
            rw [believed, hlast, hneeds]
            rfl
        | false => exact absurd (List.mem_of_getLast? hlast) hmem

/-- An error on pcb `p`. -/
theorem owned_err_iff {l : Link} (hs : l.Sound) (h : l.Owned) (p : Nat) :
    (((l.move p .free).forget).become .idle).Owned ↔ l.psPcb = none ∨ l.psPcb = some p := by
  have hkeep (q : Nat) (hqp : q ≠ p) :
      ((((l.move p .free).forget).become .idle).pcb q) = l.pcb q := by
    simp [Link.move, hqp]
  constructor
  · intro ho
    cases hq : l.psPcb with
    | none => exact .inl rfl
    | some q =>
        by_cases hqp : q = p
        · exact .inr (by rw [hqp])
        · refine absurd ho (not_owned_of_lost (p := q) ?_ (by simp))
          rw [hkeep q hqp]
          exact hs.held_live q hq
  · intro hor
    refine (owned_of_none rfl).mpr ⟨fun q => ?_, rfl⟩
    by_cases hqp : q = p
    · simp [Link.move, hqp, PcbState.live]
    · rw [hkeep q hqp]
      by_contra hlive
      have hq := h.live q (by simpa using hlive)
      rcases hor with hnone | hp
      · rw [hnone] at hq
        cases hq
      · rw [hp] at hq
        exact hqp (Option.some.inj hq).symm

/-- An idle client holds nothing, so an attempt keeps ownership. -/
theorem Attempt.owned {l l' : Link} (ha : Attempt l l') (hs : l.Sound) (h : l.Owned)
    (hidle : l.eState = .idle) : l'.Owned := by
  have hnone : l.psPcb = none := by
    by_contra hne
    have := h.held.mp hne
    rw [hidle] at this
    cases this
  cases ha with
  | untouched => exact h
  | lookup => exact h.become (by rw [hidle]; rfl)
  | failed => exact (owned_become_idle_iff h).mpr hnone
  | noPcb => exact (owned_forget_iff hs h).mpr hnone
  | opened => exact (owned_opened_iff hs h).mpr hnone
  | refused => exact (owned_opened_drop_iff hs h).mpr hnone

theorem Attempt.sound {l l' : Link} (ha : Attempt l l') (hs : l.Sound) : l'.Sound := by
  cases ha with
  | untouched => exact hs
  | lookup => exact hs.become .dns
  | failed => exact hs.become .idle
  | noPcb => exact hs.forget.become .idle
  | opened => exact hs.opened
  | refused => exact hs.opened.drop

end Link

namespace Mqtt

open Link

variable (ipaddrAton : CStr → Option (BitVec 32))

/-! ## Steps -/

theorem sound_mqttDNSFoundCB {s : Mqtt} (h : s.link.Sound) (ip : Option (BitVec 32))
    (ans : Answers) : (s.mqttDNSFoundCB ip ans).link.Sound := by
  rw [link_mqttDNSFoundCB]
  split
  · exact h.become .idle
  · split
    · exact h.forget.become .idle
    · split
      · exact h.opened
      · exact h.opened.drop

theorem sound_mqttRecvCB {s : Mqtt} (h : s.link.Sound) {p : Nat}
    (hp : s.net.pcb p = .established) (buf : Option (List (List UInt8))) (eErr : LwipErr)
    (ans : Answers) : (s.mqttRecvCB p buf eErr ans).link.Sound := by
  have hclosed : (s.recvClosed p).link.Sound := by
    rw [link_recvClosed]
    split
    · exact ⟨nofun, h.fresh_move (by simp [hp]) .closing⟩
    · rename_i hheld
      exact h.move (by simp [hp]) fun hq => absurd hq hheld
  unfold mqttRecvCB
  cases buf with
  | none => exact hclosed
  | some segs =>
      dsimp only
      split
      · exact hclosed
      · rw [link_recvData]
        split
        · exact h.drop.become _
        · exact h.become _

/-- **Soundness is kept by every event.** -/
theorem sound_step (s : Mqtt) (e : MqttEvent) (h : s.link.Sound) :
    (s.step ipaddrAton e).link.Sound := by
  unfold step
  split
  · rename_i hcan
    cases e with
    | setWill topic msg retain => exact h
    | start host port clientID user pass =>
        rw [perform, link_mqttClientStart]
        exact h.drop
    | stop =>
        rw [perform, link_mqttClientStop]
        exact h.drop
    | publish topic payload retain ans =>
        rw [perform, (sendsOnly_mqttClientPublish s topic payload retain ans).link]
        exact h
    | subscribe topic ans =>
        rw [perform, (sendsOnly_mqttClientSubscribe s topic ans).link]
        exact h
    | tick ms ans =>
        rw [perform]
        rcases link_mqttClientTick ipaddrAton s ms ans with hsame | ⟨_, ha⟩ | hdrop
        · rw [hsame]
          exact h
        · exact Attempt.sound ha h
        · rw [hdrop]
          exact h.drop
    | dnsFound ip ans => exact sound_mqttDNSFoundCB h ip ans
    | connected p eErr ans =>
        have hp : s.net.pcb p = .connecting := hcan
        have hlive : s.link.pcb p ≠ .free := by
          simp [hp]
        have hmove := h.move hlive fun _ => (rfl : PcbState.established.live)
        rw [perform, link_mqttConnectedCB, link_movePcb]
        split
        · exact hmove.become .connect
        · exact hmove
    | recv p buf eErr ans => exact sound_mqttRecvCB h hcan buf eErr ans
    | err p =>
        rw [perform, link_mqttErrCB, link_movePcb]
        exact (h.free p).become .idle
  · exact h

/-- An event that leaves the client owning its connection: no DNS answer while a pcb is
held, no acceptance after a refusal in one delivery, no error on another pcb than the
one held. -/
def KeepsOwnership (s : Mqtt) (e : MqttEvent) : Prop :=
  s.net.CanDeliver e →
    match e with
    | .dnsFound _ _ => s.cli.psPcb = none
    | .recv _ (some segs) .ok _ => ¬ReadyAfterRefusal (connackVerdicts s.cli.rx segs)
    | .err p => s.cli.psPcb = none ∨ s.cli.psPcb = some p
    | _ => True

/-- Ownership of a state. -/
def Owned (s : Mqtt) : Prop := s.link.Owned

theorem owned_mqttDNSFoundCB_iff {s : Mqtt} (hs : s.link.Sound) (h : s.link.Owned)
    (ip : Option (BitVec 32)) (ans : Answers) :
    (s.mqttDNSFoundCB ip ans).link.Owned ↔ s.cli.psPcb = none := by
  rw [link_mqttDNSFoundCB]
  split
  · exact owned_become_idle_iff h
  · split
    · exact owned_forget_iff hs h
    · split
      · exact owned_opened_iff hs h
      · exact owned_opened_drop_iff hs h

theorem owned_recvClosed {s : Mqtt} (h : s.link.Owned) {p : Nat}
    (hheld : s.cli.psPcb = some p) : (s.recvClosed p).link.Owned := by
  rw [link_recvClosed, if_pos hheld]
  refine (owned_of_none rfl).mpr ⟨fun q => ?_, rfl⟩
  by_cases hqp : q = p
  · simp [Link.move, hqp, PcbState.live]
  · by_contra hlive
    have hq := h.live q (by simpa [Link.move, hqp] using hlive)
    exact hqp (Option.some.inj (hq.symm.trans hheld))

theorem owned_mqttConnectedCB {s : Mqtt} (h : s.link.Owned) {p : Nat}
    (hheld : s.cli.psPcb = some p) (eErr : LwipErr) (ans : Answers) :
    ((s.movePcb p .established).mqttConnectedCB eErr ans).1.link.Owned := by
  have hmove : (s.link.move p .established).Owned := by
    refine ⟨fun q hq => ?_, h.held⟩
    by_cases hqp : q = p
    · rw [hqp]
      exact hheld
    · exact h.live q (by simpa [Link.move, hqp] using hq)
  rw [link_mqttConnectedCB, link_movePcb]
  split
  · have hneeds := h.held.mp (by simp [hheld])
    exact hmove.become (by rw [move_eState, hneeds]; rfl)
  · exact hmove

/-- **One event, exactly.** -/
theorem owned_step_iff (s : Mqtt) (e : MqttEvent) (hs : s.link.Sound) (h : s.Owned) :
    (s.step ipaddrAton e).Owned ↔ s.KeepsOwnership e := by
  unfold step KeepsOwnership Owned
  by_cases hcan : s.net.CanDeliver e
  · rw [if_pos hcan]
    simp only [hcan, true_implies]
    cases e with
    | setWill topic msg retain => exact iff_of_true h trivial
    | start host port clientID user pass =>
        rw [perform, link_mqttClientStart]
        exact iff_of_true (Owned.drop h) trivial
    | stop =>
        rw [perform, link_mqttClientStop]
        exact iff_of_true (Owned.drop h) trivial
    | publish topic payload retain ans =>
        rw [perform, (sendsOnly_mqttClientPublish s topic payload retain ans).link]
        exact iff_of_true h trivial
    | subscribe topic ans =>
        rw [perform, (sendsOnly_mqttClientSubscribe s topic ans).link]
        exact iff_of_true h trivial
    | tick ms ans =>
        refine iff_of_true ?_ trivial
        rw [perform]
        rcases link_mqttClientTick ipaddrAton s ms ans with hsame | ⟨hidle, ha⟩ | hdrop
        · rw [hsame]
          exact h
        · exact Attempt.owned ha hs h hidle
        · rw [hdrop]
          exact Owned.drop h
    | dnsFound ip ans => exact owned_mqttDNSFoundCB_iff hs h ip ans
    | connected p eErr ans =>
        have hp : s.net.pcb p = .connecting := hcan
        have hheld : s.cli.psPcb = some p := h.live p (by simp [hp, PcbState.live])
        exact iff_of_true (owned_mqttConnectedCB h hheld eErr ans) trivial
    | recv p buf eErr ans =>
        have hp : s.net.pcb p = .established := hcan
        have hheld : s.cli.psPcb = some p := h.live p (by simp [hp, PcbState.live])
        simp only [perform, mqttRecvCB]
        cases buf with
        | none => exact iff_of_true (owned_recvClosed h hheld) trivial
        | some segs =>
            cases eErr with
            | ok =>
                simp only [ne_eq, not_true_eq_false, if_false]
                rw [link_recvData]
                exact owned_believed_iff h (by simp [hheld]) _
            | abrt => exact iff_of_true (owned_recvClosed h hheld) trivial
            | other => exact iff_of_true (owned_recvClosed h hheld) trivial
    | err p =>
        rw [perform, link_mqttErrCB, link_movePcb]
        exact owned_err_iff hs h p
  · rw [if_neg hcan]
    exact iff_of_true h fun hdel => absurd hdel hcan

theorem sound_init : init.link.Sound := ⟨nofun, fun _ _ => rfl⟩

theorem owned_init : init.Owned := (owned_of_none rfl).mpr ⟨fun _ => rfl, rfl⟩

/-- **Ownership over whole runs, exactly.**  The client owns its connection in every
state of a run precisely when every event of the run keeps ownership. -/
theorem owned_iff_keepsOwnership (es : List MqttEvent) :
    Runs.EveryState (step ipaddrAton) Owned init es ↔
      Runs.EveryStep (step ipaddrAton) KeepsOwnership init es :=
  Runs.everyState_iff_everyStep (I := fun s => s.link.Sound)
    (fun s e hs _ => sound_step ipaddrAton s e hs)
    (fun s e hs h => owned_step_iff ipaddrAton s e hs h) sound_init owned_init es

/-! ## A late answer -/

/-- Two lookups for the same broker, because the client was restarted during the first,
and both are answered. -/
def twoLookups : List MqttEvent :=
  [.start (some (ascii "broker")) 1883#16 none none none, .tick 100#32 .obliging,
    .start (some (ascii "broker")) 1883#16 none none none, .tick 100#32 .obliging,
    .dnsFound (some 0x0A000002#32) .obliging, .dnsFound (some 0x0A000002#32) .obliging]

/-- After the second answer two pcbs are connecting, and the client holds the second. -/
theorem late_dns_answer_leaks_pcb :
    ∃ s, s = Runs.final (step fun _ => none) init twoLookups ∧
      s.net.pcb 0 = .connecting ∧ s.net.pcb 1 = .connecting ∧ s.cli.psPcb = some 1 ∧
      ¬Runs.EveryState (step fun _ => none) Owned init twoLookups := by
  refine ⟨_, rfl, by decide +kernel, by decide +kernel, by decide +kernel, fun h => ?_⟩
  have hheld := h.last.live 0 (by decide +kernel)
  exact absurd hheld (by decide +kernel)

end Mqtt

end HomeAuto
