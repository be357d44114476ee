import HomeAuto.Lib.Runs
import HomeAuto.MqttLink

/-!
# The abort contract of lwIP

A callback of lwIP returns `ERR_ABRT` exactly if it has called `tcp_abort` on the pcb it was
invoked for, and does not touch that pcb afterwards.  Here the calls that `MQTTConnectedCB` and
`MQTTRecvCB` make on pcbs are written down in their order, next to the state they leave.

A delivery aborts nothing but on a refusing CONNACK, and then the client has forgotten its pcb,
so that the abort is the last call of all (`handOnsCalls_eq`).  What the callbacks return does
not follow: a CONNECT that cannot be sent is reported as an abort that has not happened, and a
refused one is aborted without a report.
-/

namespace HomeAuto

/-- What is called on a pcb. -/
inductive PcbOp
  | arg
  | close
  | recved
  | write
  | output
  | abort
  deriving DecidableEq, Repr

/-- A call of lwIP: the pcb and what is called on it. -/
abbrev PcbCall := Nat × PcbOp

/-- The contract of a callback for a pcb: `ERR_ABRT` is returned exactly if the pcb was aborted,
and after an abort it is not touched. -/
structure AbortContract (p : Nat) (ret : LwipErr) (calls : List PcbCall) : Prop where
  returned : ret = .abrt ↔ (p, PcbOp.abort) ∈ calls
  untouched : ∀ before after, calls = before ++ (p, PcbOp.abort) :: after → ∀ c ∈ after, c.1 ≠ p

namespace Mqtt

/-! ## The calls, in their order -/

/-- `MQTTSendRaw`: `tcp_write`, and `tcp_output` if it was taken. -/
def sendRawCalls (ans : Answers) (s : Mqtt) : List PcbCall :=
  match s.cli.psPcb with
  | none => []
  | some p =>
      if beforeConnect s.cli.eState then []
      else if ans.tcpWrite s.net.writeCalls then [(p, .write), (p, .output)]
      else [(p, .write)]

/-- `MQTTClientPublish` and `MQTTClientSubscribe`, called by the application. -/
def appCallCalls (ans : Answers) (s : Mqtt) : AppCall → List PcbCall
  | .publish topic payload _ =>
      if s.cli.eState ≠ .ready then []
      else if mqttTxbufSize < mqttPublishRem topic payload + 5 then []
      else s.sendRawCalls ans
  | .subscribe _ => if s.cli.eState ≠ .ready then [] else s.sendRawCalls ans

/-- `tcp_abort` on the pcb the client holds. -/
def abortCalls (s : Mqtt) : List PcbCall := s.cli.psPcb.toList.map fun p => (p, .abort)

/-- `MQTTHandlePacket`. -/
def handlePacketCalls (ans : Answers) (s : Mqtt) (pkt : RxHeader × List UInt8) :
    List PcbCall :=
  match connackVerdict pkt with
  | some accepted => if accepted then [] else s.abortCalls
  | none =>
      if charAt pkt.2 0 &&& 0xF0 = 0x30 then
        match publishBody (pkt.2.drop pkt.1.hdrLen) pkt.1.remLen with
        | some (topic, payload) =>
            Runs.outputs (appCall ans) (appCallCalls ans) s (ans.react topic payload)
        | none => []
      else []

/-- `MQTTRecvCB` when the peer has closed. -/
def recvClosedCalls (p : Nat) : List PcbCall := [(p, .arg), (p, .close)]

/-- `MQTTRecvCB` with data: the window is opened, then the packets are handed on. -/
def recvDataCalls (s : Mqtt) (p : Nat) (segs : List (List UInt8)) (ans : Answers) :
    List PcbCall :=
  (p, .recved) :: Runs.outputs (handOn ans) (handlePacketCalls ans) s (rxParse s.cli.rx segs).1

/-- `MQTTRecvCB`. -/
def recvCBCalls (s : Mqtt) (p : Nat) (buf : Option (List (List UInt8))) (eErr : LwipErr)
    (ans : Answers) : List PcbCall :=
  match buf with
  | none => recvClosedCalls p
  | some segs => if eErr ≠ .ok then recvClosedCalls p else s.recvDataCalls p segs ans

/-- What `MQTTRecvCB` returns: each of its two returns is `ERR_OK`. -/
def recvCBReturn : LwipErr := .ok

/-- `MQTTConnectedCB`. -/
def connectedCBCalls (s : Mqtt) (eErr : LwipErr) (ans : Answers) : List PcbCall :=
  if eErr ≠ .ok then [] else s.enterConnect.sendRawCalls ans

/-! ## Sends -/

theorem sendRawCalls_not_abort (ans : Answers) (s : Mqtt) :
    ∀ c ∈ s.sendRawCalls ans, c.2 ≠ .abort := by
  unfold sendRawCalls
  cases s.cli.psPcb with
  | none => simp
  | some p =>
      dsimp only
      split
      · simp
      · split <;> simp

theorem appCallCalls_not_abort (ans : Answers) (s : Mqtt) (c : AppCall) :
    ∀ o ∈ appCallCalls ans s c, o.2 ≠ .abort := by
  cases c with
  | publish topic payload retain =>
      rw [appCallCalls]
      split
      · simp
      · split
        · simp
        · exact s.sendRawCalls_not_abort ans
  | subscribe topic =>
      rw [appCallCalls]
      split
      · simp
      · exact s.sendRawCalls_not_abort ans

theorem appCallCalls_of_none (ans : Answers) (s : Mqtt) (c : AppCall)
    (h : s.cli.psPcb = none) : appCallCalls ans s c = [] := by
  have hraw : s.sendRawCalls ans = [] := by
    rw [sendRawCalls, h]
  cases c with
  | publish topic payload retain => simp [appCallCalls, hraw]
  | subscribe topic => simp [appCallCalls, hraw]

/-! ## Packets -/

/-- A packet that is no CONNACK aborts nothing, and without a pcb it calls nothing. -/
theorem handlePacketCalls_of_none {ans : Answers} {s : Mqtt} {pkt : RxHeader × List UInt8}
    (h : connackVerdict pkt = none) :
    (∀ c ∈ handlePacketCalls ans s pkt, c.2 ≠ .abort) ∧
      (s.cli.psPcb = none → handlePacketCalls ans s pkt = []) := by
  unfold handlePacketCalls
  rw [h]
  dsimp only
  split
  · cases publishBody (pkt.2.drop pkt.1.hdrLen) pkt.1.remLen with
    | none => exact ⟨by simp, fun _ => rfl⟩
    | some m =>
        refine ⟨Runs.forall_mem_outputs (fun t c => appCallCalls_not_abort ans t c) s _, ?_⟩
        intro hnone
        refine Runs.outputs_eq_nil (fun t c ht => ?_)
          (fun t c => appCallCalls_of_none ans t c) hnone _
        exact ((sendsOnly_appCall ans t c).silent ht).1
  · exact ⟨by simp, fun _ => rfl⟩

/-- **The calls of any number of packets**: some sends, none of them without a pcb, and then, if
a CONNACK refuses, the abort of the pcb held. -/
theorem handOnsCalls_eq (ans : Answers) (pkts : List (RxHeader × List UInt8)) (s : Mqtt) :
    ∃ sends : List PcbCall, (∀ c ∈ sends, c.2 ≠ .abort) ∧ (s.cli.psPcb = none → sends = []) ∧
      Runs.outputs (handOn ans) (handlePacketCalls ans) s pkts =
        sends ++ if false ∈ pkts.filterMap connackVerdict then s.abortCalls else [] := by
  induction pkts generalizing s with
  | nil => exact ⟨[], by simp, fun _ => rfl, rfl⟩
  | cons pkt pkts ih =>
      obtain ⟨sends, hsends, hquiet, hcalls⟩ := ih (handOn ans s pkt)
      have hlink := link_handOn ans s pkt
      rw [Runs.outputs_cons, hcalls]
      cases hv : connackVerdict pkt with
      | none =>
          rw [hv] at hlink
          have hpcb : (handOn ans s pkt).cli.psPcb = s.cli.psPcb := congrArg Link.psPcb hlink
          obtain ⟨hfirst, hnone⟩ := @handlePacketCalls_of_none ans s pkt hv
          refine ⟨handlePacketCalls ans s pkt ++ sends, ?_, ?_, ?_⟩
          · intro c hc
            rcases List.mem_append.mp hc with hc | hc
            · exact hfirst c hc
            · exact hsends c hc
          · intro h
            rw [hnone h, hquiet (hpcb.trans h), List.nil_append]
          · rw [List.filterMap_cons_none hv, abortCalls, abortCalls, hpcb, List.append_assoc]
      | some accepted =>
          rw [hv] at hlink
          cases accepted with
          | true =>
              have hpcb : (handOn ans s pkt).cli.psPcb = s.cli.psPcb :=
                congrArg Link.psPcb hlink
              have hfirst : handlePacketCalls ans s pkt = [] := by
                rw [handlePacketCalls, hv]
                rfl
              have hmem : false ∈ true :: pkts.filterMap connackVerdict ↔
                  false ∈ pkts.filterMap connackVerdict := by simp
              refine ⟨sends, hsends, fun h => hquiet (hpcb.trans h), ?_⟩
              simp only [hfirst, List.nil_append, List.filterMap_cons_some hv, hmem, abortCalls,
                hpcb]
          | false =>
              have hpcb : (handOn ans s pkt).cli.psPcb = none :=
                (congrArg Link.psPcb hlink).trans (Link.drop_psPcb _)
              have hfirst : handlePacketCalls ans s pkt = s.abortCalls := by
                rw [handlePacketCalls, hv]
                rfl
              have hrest : (handOn ans s pkt).abortCalls = [] := by
                rw [abortCalls, hpcb]
                rfl
              refine ⟨[], by simp, fun _ => rfl, ?_⟩
              rw [hfirst, hquiet hpcb, hrest, List.filterMap_cons_some hv]
              simp

/-! ## The contract -/

/-- Calls without an abort keep the contract exactly if no abort is reported. -/
theorem abortContract_of_no_abort {p : Nat} {ret : LwipErr} {calls : List PcbCall}
    (h : ∀ c ∈ calls, c.2 ≠ .abort) : AbortContract p ret calls ↔ ret ≠ .abrt := by
  have hmem : (p, PcbOp.abort) ∉ calls := fun hmem => h _ hmem rfl
  constructor
  · intro hc hret
    exact hmem (hc.returned.mp hret)
  · intro hret
    refine ⟨iff_of_false hret hmem, ?_⟩
    intro before after heq
    rw [heq] at hmem
    exact absurd (List.mem_append_right _ List.mem_cons_self) hmem

/-- Whether the CONNECT packet of `MQTTConnectedCB` goes out: the client holds a pcb and
`tcp_write` takes it. -/
theorem mqttSendConnect_enterConnect (s : Mqtt) (ans : Answers) :
    (s.enterConnect.mqttSendConnect ans).2 = true ↔
      s.cli.psPcb ≠ none ∧ ans.tcpWrite s.net.writeCalls = true := by
  have hpcb : s.enterConnect.cli.psPcb = s.cli.psPcb := rfl
  have hst : beforeConnect s.enterConnect.cli.eState = false := rfl
  have hcount : s.enterConnect.net.writeCalls = s.net.writeCalls := rfl
  rw [mqttSendConnect, mqttSendRaw, hpcb]
  cases s.cli.psPcb with
  | none => simp
  | some p =>
      dsimp only
      rw [hst, hcount]
      by_cases hw : ans.tcpWrite s.net.writeCalls = true
      · simp [hw]
      · simp [hw]

/-- **The contract of `MQTTConnectedCB`**: no abort is handed in, and the CONNECT goes out. -/
theorem abortContract_connectedCB_iff (s : Mqtt) (p : Nat) (eErr : LwipErr) (ans : Answers) :
    AbortContract p (s.mqttConnectedCB eErr ans).2 (s.connectedCBCalls eErr ans) ↔
      eErr ≠ .abrt ∧
        (eErr = .ok → s.cli.psPcb ≠ none ∧ ans.tcpWrite s.net.writeCalls = true) := by
  have hcalls : ∀ c ∈ s.connectedCBCalls eErr ans, c.2 ≠ .abort := by
    unfold connectedCBCalls
    split
    · simp
    · exact sendRawCalls_not_abort ans _
  rw [abortContract_of_no_abort hcalls, mqttConnectedCB]
  cases eErr with
  | ok =>
      rw [← mqttSendConnect_enterConnect]
      simp
  | abrt => simp
  | other => simp

/-- The calls of a delivery: some sends, and at most one abort, which is the last call. -/
theorem recvDataCalls_eq (s : Mqtt) (p : Nat) (segs : List (List UInt8)) (ans : Answers) :
    ∃ sends : List PcbCall, (∀ c ∈ sends, c.2 ≠ .abort) ∧
      s.recvDataCalls p segs ans =
        sends ++ if false ∈ connackVerdicts s.cli.rx segs then s.abortCalls else [] := by
  obtain ⟨sends, hsends, -, hcalls⟩ := handOnsCalls_eq ans (rxParse s.cli.rx segs).1 s
  refine ⟨(p, .recved) :: sends, ?_, ?_⟩
  · intro c hc
    rcases List.mem_cons.mp hc with rfl | hc
    · exact nofun
    · exact hsends c hc
  · rw [recvDataCalls, hcalls, connackVerdicts, List.cons_append]

/-- **What a delivery aborts**: the pcb held, if a CONNACK refuses. -/
theorem abort_mem_recvDataCalls (s : Mqtt) (p q : Nat) (segs : List (List UInt8))
    (ans : Answers) :
    (q, PcbOp.abort) ∈ s.recvDataCalls p segs ans ↔
      s.cli.psPcb = some q ∧ false ∈ connackVerdicts s.cli.rx segs := by
  obtain ⟨sends, hsends, hcalls⟩ := s.recvDataCalls_eq p segs ans
  have hnot : (q, PcbOp.abort) ∉ sends := fun h => hsends _ h rfl
  rw [hcalls, List.mem_append, or_iff_right hnot, abortCalls]
  by_cases hrefused : false ∈ connackVerdicts s.cli.rx segs
  · simp [hrefused]
  · simp [hrefused]

/-- After an abort a delivery calls nothing any more. -/
theorem nothing_after_abort (s : Mqtt) (p q : Nat) (segs : List (List UInt8)) (ans : Answers)
    (before after : List PcbCall)
    (h : s.recvDataCalls p segs ans = before ++ (q, PcbOp.abort) :: after) : after = [] := by
  obtain ⟨sends, hsends, hcalls⟩ := s.recvDataCalls_eq p segs ans
  have hlen : (if false ∈ connackVerdicts s.cli.rx segs then s.abortCalls else []).length ≤
      1 := by
    split
    · rw [abortCalls, List.length_map]
      cases s.cli.psPcb <;> simp
    · simp
  rw [hcalls] at h
  -- the abort is not among the sends, and what follows them has at most one element
  rcases List.append_eq_append_iff.mp h with ⟨mid, -, htail⟩ | ⟨mid, hsplit, htail⟩
  · rw [htail, List.length_append, List.length_cons] at hlen
    exact List.eq_nil_of_length_eq_zero (by omega)
  · cases mid with
    | nil =>
        rw [List.nil_append] at htail
        rw [← htail, List.length_cons] at hlen
        exact List.eq_nil_of_length_eq_zero (by omega)
    | cons c mid =>
        obtain ⟨rfl, -⟩ := List.cons.inj htail
        refine absurd rfl (hsends (q, .abort) ?_)
        rw [hsplit]
        exact List.mem_append_right _ List.mem_cons_self

/-- A delivery that a callback for `p` takes in which the client's own pcb is refused. -/
def RefusedDelivery (s : Mqtt) (p : Nat) (buf : Option (List (List UInt8))) (eErr : LwipErr) :
    Prop :=
  eErr = .ok ∧ s.cli.psPcb = some p ∧ ∃ segs ∈ buf, false ∈ connackVerdicts s.cli.rx segs

/-- **The contract of `MQTTRecvCB`**: no CONNACK refuses the pcb it was invoked for. -/
theorem abortContract_recvCB_iff (s : Mqtt) (p : Nat) (buf : Option (List (List UInt8)))
    (eErr : LwipErr) (ans : Answers) :
    AbortContract p recvCBReturn (s.recvCBCalls p buf eErr ans) ↔
      ¬s.RefusedDelivery p buf eErr := by
  have hclosed : AbortContract p recvCBReturn (recvClosedCalls p) := by
    refine (abortContract_of_no_abort ?_).mpr (by decide)
    simp [recvClosedCalls]
  unfold recvCBCalls RefusedDelivery
  cases buf with
  | none => exact iff_of_true hclosed (by simp)
  | some segs =>
      by_cases herr : eErr = .ok
      · have habort := s.abort_mem_recvDataCalls p p segs ans
        simp only [herr, ne_eq, not_true_eq_false, if_false, true_and, Option.mem_def,
          Option.some.injEq, exists_eq_left']
        rw [← habort]
        constructor
        · intro hc hmem
          exact absurd (hc.returned.mpr hmem) (by decide)
        · intro hmem
          refine ⟨iff_of_false (by decide) hmem, ?_⟩
          intro before after h c hc
          rw [s.nothing_after_abort p p segs ans before after h] at hc
          exact absurd hc List.not_mem_nil
      · simpa [herr] using hclosed

/-- **The abort contract, exactly.**  In every client state, for every delivery and every result
of the sends, `MQTTConnectedCB` keeps lwIP's contract if and only if no abort is handed in and,
without an error, the client holds a pcb and `tcp_write` takes the CONNECT; `MQTTRecvCB` if and
only if it does not bring a refusing CONNACK to the pcb it was invoked for. -/
theorem abortContract_iff (s : Mqtt) (p : Nat) (buf : Option (List (List UInt8)))
    (eErr : LwipErr) (ans : Answers) :
    (AbortContract p (s.mqttConnectedCB eErr ans).2 (s.connectedCBCalls eErr ans) ↔
      eErr ≠ .abrt ∧
        (eErr = .ok → s.cli.psPcb ≠ none ∧ ans.tcpWrite s.net.writeCalls = true)) ∧
    (AbortContract p recvCBReturn (s.recvCBCalls p buf eErr ans) ↔
      ¬s.RefusedDelivery p buf eErr) :=
  ⟨s.abortContract_connectedCB_iff p eErr ans, s.abortContract_recvCB_iff p buf eErr ans⟩

/-- The client after a start and a tick that finds the broker's address at once. -/
def dialling : Mqtt :=
  [MqttEvent.start (some (ascii "10.0.0.2")) 1883#16 none none none,
    .tick 100#32 .obliging].foldl (step fun _ => some 0x0A000002#32) init

/-- A CONNECT that `tcp_write` does not take is reported as an abort, and none has happened; a
refused one is aborted, and `ERR_OK` is returned. -/
theorem aborts_not_reported :
    ¬AbortContract 0 (dialling.mqttConnectedCB .ok { Answers.obliging with
        tcpWrite := fun _ => false }).2
      (dialling.connectedCBCalls .ok { Answers.obliging with tcpWrite := fun _ => false }) ∧
    ¬AbortContract 0 recvCBReturn
      ((dialling.mqttConnectedCB .ok .obliging).1.recvCBCalls 0 (some [[0x20, 2, 0, 5]]) .ok
        .obliging) := by
  constructor
  · intro h
    exact absurd (h.returned.mp (by decide +kernel)) (by decide +kernel)
  · intro h
    exact absurd (h.returned.mpr (by decide +kernel)) (by decide)

end Mqtt

end HomeAuto
