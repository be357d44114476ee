import HomeAuto.PublishCalls

/-!
# Where nested publishes do no harm

Handlers before the choice of the payload, and after the copy, leave every packet right.  So do
handlers in the call for an input before its topic leaves the others.  At any other point there
is a message that leaves the packet of the call with another topic or with a state that is no
longer the one of its item.

`nested_publish_pairs_iff` is exact in the points, and in the messages: one that misnames a relay
has a packet of its own that names the wrong one, whenever it comes.
-/

namespace HomeAuto

/-! ## What handlers keep -/

namespace Publisher

open TextBuffer

/-- The base topic is the one of the call, the call's slot is defined, every packet so far is
right, and the buffer begins with `held`. -/
structure Sound (base : CStr) (call : StateCall) (held : CStr) (s : Publisher) : Prop where
  baseTopic : s.hub.baseTopic = base
  defined : call.Defined s.hub
  topics : ∀ packet ∈ s.packets, packet.topic = packet.item.topic base
  payloads : ∀ packet ∈ s.packets, packet.payload = packet.state
  held : Holds s.scratchTopic held

variable {b : BaseTopic} {call : StateCall} {held : CStr} {s : Publisher}

/-- A buffer that holds the topic of an item, and its NUL. -/
theorem read_topic {buffer : Nat → UInt8} {item : StateItem}
    (h : Holds buffer (item.topic b.text ++ [0])) : read 0 80 buffer = item.topic b.text :=
  (read_eq_iff (item.zero_notMem_topic b) (item.length_topic b.text)).mpr h

/-- A packet that is handed over from a buffer with its topic, and with the state of its item. -/
theorem Sound.handOver (h : Sound b.text call held s) {item : StateItem} {msg : CStr}
    (htopic : Holds s.scratchTopic (item.topic b.text ++ [0]))
    (hmsg : msg = item.state s.hub s.levels) : Sound b.text call held (s.handOver item msg) where
  baseTopic := h.baseTopic
  defined := h.defined
  topics := by
    intro packet hpacket
    rcases List.mem_append.mp hpacket with hold | hnew
    · exact h.topics packet hold
    · rw [List.mem_singleton] at hnew
      rw [hnew]
      exact read_topic htopic
  payloads := by
    intro packet hpacket
    rcases List.mem_append.mp hpacket with hold | hnew
    · exact h.payloads packet hold
    · rw [List.mem_singleton] at hnew
      rw [hnew]
      exact hmsg
  held := h.held

/-- A publish that is not interrupted, of the state of an item under its topic. -/
theorem Sound.publishState (h : Sound b.text call held s) (hheld : held <+: b.text ++ [47])
    {item : StateItem} {msg : CStr} (hmsg : msg = item.state s.hub s.levels) :
    Sound b.text call held (s.publishState item (item.topic b.text) msg) := by
  have hholds := holds_writeFrom (item.topic b.text ++ [0]) s.scratchTopic
  obtain ⟨tail, htail⟩ := item.topic_split b
  obtain ⟨more, hmore⟩ := hheld
  have hkept : Holds (writeFrom 0 (item.topic b.text ++ [0]) s.scratchTopic) held := by
    rw [htail, ← hmore] at hholds ⊢
    exact hholds.left.left.left
  exact Sound.handOver
    (s := { s with scratchTopic := writeFrom 0 (item.topic b.text ++ [0]) s.scratchTopic })
    ⟨h.baseTopic, h.defined, h.topics, h.payloads, hkept⟩ hholds hmsg

/-- **What a handler keeps**: anything that its publishes keep, which are right, and its other
assignments to the hub. -/
theorem serve_keeps {I : Publisher → Prop} (palStrToUl : StrToUl) {message : Message}
    (hname : ¬Misnames s.hub.baseTopic message.1)
    (hhub : ∀ hub : Hub, hub.baseTopic = s.hub.baseTopic →
      (∀ i, (hub.sh i).valid = (s.hub.sh i).valid) → I { s with hub := hub })
    (hpublish : ∀ (s : Publisher) (p : Publish), p.Right s.hub → I s →
      I (s.publishState p.item (p.item.topic s.hub.baseTopic) p.msg)) :
    I (s.serve palStrToUl message) := by
  have hcalls (calls : List Publish) (s : Publisher) (hright : ∀ p ∈ calls, p.Right s.hub)
      (hs : I s) :
      I (calls.foldl (fun s p => s.publishState p.item (p.topic s.hub.baseTopic) p.msg) s) := by
    induction calls generalizing s with
    | nil => exact hs
    | cons p calls ih =>
        have hp := hright p List.mem_cons_self
        rw [List.foldl_cons, hp.topic]
        apply ih
        · intro q hq
          exact hright q (List.mem_cons_of_mem p hq)
        · exact hpublish s p hp hs
  apply hcalls
  · exact Hub.publishesRight_productOnMqtt (h := { s.hub with published := [] }) rfl palStrToUl
      message.2 hname
  · apply hhub
    · exact Hub.baseTopic_productOnMqtt palStrToUl _ message.1 message.2
    · intro i
      have hpairs := Hub.keepsPairs_productOnMqtt palStrToUl
        (h := { s.hub with published := [] }) message.1 message.2
      exact congrArg Prod.fst (congrFun hpairs.slotPair i)

/-- A call of a slot that is still defined. -/
theorem defined_of_valid {hub hub' : Hub} (h : ∀ i, (hub'.sh i).valid = (hub.sh i).valid)
    (hdefined : call.Defined hub) : call.Defined hub' := by
  cases call with
  | publishRelayState relay => trivial
  | publishInput input => trivial
  | publishCoverState shutter => trivial
  | shPublish shutter state =>
      unfold StateCall.Defined at hdefined ⊢
      dsimp only at hdefined ⊢
      rw [h]
      exact hdefined

/-- What a handler finds sound, it leaves sound, up to the slash after the base topic. -/
theorem Sound.serve (h : Sound b.text call held s) (hheld : held <+: b.text ++ [47])
    (palStrToUl : StrToUl) {message : Message} (hname : ¬Misnames b.text message.1) :
    Sound b.text call held (s.serve palStrToUl message) := by
  apply serve_keeps palStrToUl
  · rw [h.baseTopic]
    exact hname
  · intro hub hbase hvalid
    exact ⟨hbase.trans h.baseTopic, defined_of_valid hvalid h.defined, h.topics, h.payloads, h.held⟩
  · intro s p hp hs
    rw [hs.baseTopic]
    exact hs.publishState hheld (hp.msg s.levels)

/-- A packet of the item has been sent. -/
structure Done (base : CStr) (call : StateCall) (s : Publisher) : Prop extends
    Sound base call [] s where
  own : ∃ packet ∈ s.packets, packet.item = call.item

theorem Done.serve (h : Done b.text call s) (palStrToUl : StrToUl) {message : Message}
    (hname : ¬Misnames b.text message.1) : Done b.text call (s.serve palStrToUl message) := by
  apply serve_keeps palStrToUl
  · rw [h.baseTopic]
    exact hname
  · intro hub hbase hvalid
    exact ⟨⟨hbase.trans h.baseTopic, defined_of_valid hvalid h.defined, h.topics, h.payloads,
      h.held⟩, h.own⟩
  · intro s p hp hs
    obtain ⟨packet, hmem, hitem⟩ := hs.own
    rw [hs.baseTopic]
    exact ⟨hs.toSound.publishState List.nil_prefix (hp.msg s.levels), packet,
      List.mem_append_left _ hmem, hitem⟩

/-- The payload that the call has chosen is the state of its item. -/
structure Ready (base : CStr) (call : StateCall) (held : CStr) (s : Publisher) : Prop extends
    Sound base call held s where
  msg : s.pcMsg = call.item.state s.hub s.levels

/-- The payload of an input stays what it is. -/
theorem Ready.serve (h : Ready b.text call held s) {input : Nat} (hinput : call.item = .input input)
    (hheld : held <+: b.text ++ [47]) (palStrToUl : StrToUl) {message : Message}
    (hname : ¬Misnames b.text message.1) :
    Ready b.text call held (s.serve palStrToUl message) := by
  apply serve_keeps palStrToUl
  · rw [h.baseTopic]
    exact hname
  · intro hub hbase hvalid
    have hmsg := h.msg
    rw [hinput] at hmsg
    refine ⟨⟨hbase.trans h.baseTopic, defined_of_valid hvalid h.defined, h.topics, h.payloads,
      h.held⟩, ?_⟩
    rw [hinput]
    exact hmsg
  · intro s p hp hs
    rw [hs.baseTopic]
    exact ⟨hs.toSound.publishState hheld (hp.msg s.levels), hs.msg⟩

/-- **The choice of the payload.** -/
theorem Sound.choose (h : Sound b.text call held s) :
    Ready b.text call held (s.exec (.chooseMsg call)) := by
  have hbase : (call.remember s.hub).baseTopic = s.hub.baseTopic := by
    cases call <;> rfl
  have hvalid (i : Nat) : ((call.remember s.hub).sh i).valid = (s.hub.sh i).valid := by
    cases call with
    | shPublish shutter state =>
        change (Function.update s.hub.sh shutter _ i).valid = _
        by_cases hi : i = shutter
        · subst hi
          rw [Function.update_self]
        · rw [Function.update_of_ne hi]
    | publishRelayState relay => rfl
    | publishInput input => rfl
    | publishCoverState shutter => rfl
  refine ⟨⟨hbase.trans h.baseTopic, defined_of_valid hvalid h.defined, h.topics, h.payloads,
    h.held⟩, ?_⟩
  cases call with
  | publishRelayState relay =>
      have hrelay : toU16 (relay : Nat) = relay := by
        have hlt := relay.isLt
        unfold cfgMaxOutputs at hlt
        unfold toU16
        omega
      change levelStr (s.hub.chain.relayChainGet (toU16 (relay : Nat))) = _
      rw [hrelay]
      rfl
  | publishInput input => rfl
  | publishCoverState shutter => rfl
  | shPublish shutter state =>
      exact (congrArg CoverState.str (Hub.outputCtrlCoverState_remember h.defined state)).symm

/-! ## The operations -/

theorem putOps_append (k : Nat) (xs ys : CStr) :
    putOps k (xs ++ ys) = putOps k xs ++ putOps (k + xs.length) ys := by
  induction xs generalizing k with
  | nil => rfl
  | cons x xs ih =>
      rw [List.cons_append, putOps, putOps, ih, List.cons_append, List.length_cons,
        Nat.add_right_comm, Nat.add_assoc]

theorem length_putOps (k : Nat) (xs : CStr) : (putOps k xs).length = xs.length := by
  induction xs generalizing k with
  | nil => rfl
  | cons x xs ih => rw [putOps, List.length_cons, ih, List.length_cons]

theorem getElem?_putOps (k i : Nat) (xs : CStr) :
    (putOps k xs)[i]? = xs[i]?.map fun c => .putByte (k + i) c := by
  induction xs generalizing k i with
  | nil => rfl
  | cons x xs ih =>
      cases i with
      | zero => rfl
      | succ i =>
          rw [putOps, List.getElem?_cons_succ, List.getElem?_cons_succ, ih, Nat.add_right_comm,
            Nat.add_assoc]

/-- Printing writes the buffer, and nothing else. -/
theorem foldl_putOps (k : Nat) (xs : CStr) (s : Publisher) :
    (putOps k xs).foldl exec s = { s with scratchTopic := writeFrom k xs s.scratchTopic } := by
  induction xs generalizing k s with
  | nil =>
      rw [writeFrom_nil]
      rfl
  | cons x xs ih =>
      rw [putOps, List.foldl_cons, ih, writeFrom_cons]
      rfl

/-- **A call that is not interrupted** is the publish of its item. -/
theorem foldl_ops (s : Publisher) (call : StateCall) :
    (call.ops s.hub.baseTopic).foldl exec s =
      { s with
        hub := call.remember s.hub
        pcMsg := call.msg s.hub s.levels }.publishState call.item
          (call.item.topic s.hub.baseTopic) (call.msg s.hub s.levels) := by
  unfold StateCall.ops
  rw [List.cons_append, List.foldl_cons, List.foldl_append, foldl_putOps]
  rfl

/-! ## Handlers at harmless points -/

theorem length_ops (base : CStr) (call : StateCall) :
    (call.ops base).length = (call.item.topic base).length + 3 := by
  rw [StateCall.ops, List.length_append, List.length_cons, length_putOps, List.length_append,
    List.length_singleton, List.length_singleton]

/-- What is left of a call when the buffer holds the first part of its topic. -/
def endOps (call : StateCall) (held rest : CStr) : List PublishOp :=
  putOps held.length rest ++ [.send call.item]

theorem ops_split {base rest : CStr} (h : call.item.topic base ++ [0] = held ++ rest) :
    call.ops base = [.chooseMsg call] ++ (putOps 0 held ++ endOps call held rest) := by
  unfold StateCall.ops endOps
  rw [h, putOps_append, Nat.zero_add]
  simp only [List.cons_append, List.append_assoc, List.nil_append]

/-- What is left of a call, without handlers. -/
theorem Ready.done {rest : CStr} (hrest : call.item.topic b.text ++ [0] = held ++ rest)
    (h : Ready b.text call held s) : Done b.text call ((endOps call held rest).foldl exec s) := by
  have hholds := h.held.append rest
  rw [← hrest] at hholds
  unfold endOps
  rw [List.foldl_append, foldl_putOps]
  have hstart : Sound b.text call []
      { s with scratchTopic := writeFrom held.length rest s.scratchTopic } :=
    ⟨h.baseTopic, h.defined, h.topics, h.payloads, holds_nil _⟩
  exact ⟨hstart.handOver hholds h.msg, _, List.mem_append_right _ List.mem_cons_self, rfl⟩

/-- One more byte of the topic. -/
theorem Ready.put {text : CStr} {k : Nat} {c : UInt8} (hc : text[k]? = some c)
    (h : Ready b.text call (text.take k) s) :
    Ready b.text call (text.take (k + 1)) (s.exec (.putByte k c)) := by
  have hk := (List.getElem?_eq_some_iff.mp hc).1
  have hheld := h.held.snoc c
  rw [List.length_take_of_le (Nat.le_of_lt hk)] at hheld
  refine ⟨⟨h.baseTopic, h.defined, h.topics, h.payloads, ?_⟩, h.msg⟩
  rw [List.take_add_one, hc]
  exact hheld

variable {palStrToUl : StrToUl} {sched : Nat → List Message}
  (hnames : ∀ i, ∀ message ∈ sched i, ¬Misnames b.text message.1)
include hnames

/-- Handlers before the choice of the payload. -/
theorem ready_chosen (hs : Sound b.text call [] s) :
    Ready b.text call [] (Interrupts.upTo exec (serve palStrToUl) sched 0 [.chooseMsg call] s) := by
  apply Sound.choose
  exact Interrupts.served_keeps (I := Sound b.text call [])
    (fun s message hmem h => h.serve List.nil_prefix palStrToUl (hnames 0 message hmem)) hs

/-- Handlers in the call for an input, before the base topic is complete. -/
theorem ready_begun {input : Nat} (hinput : call.item = .input input) (i : Nat)
    (hs : Ready b.text call [] s) :
    Ready b.text call (b.text ++ [47])
      (Interrupts.upTo exec (serve palStrToUl) sched i (putOps 0 (b.text ++ [47])) s) := by
  have hbegun : Ready b.text call ((b.text ++ [47]).take (putOps 0 (b.text ++ [47])).length)
      (Interrupts.upTo exec (serve palStrToUl) sched i (putOps 0 (b.text ++ [47])) s) := by
    refine Interrupts.upTo_keeps (I := fun k => Ready b.text call ((b.text ++ [47]).take k))
      ?_ ?_ hs i
    · intro k s j message hmem h
      exact h.serve hinput (List.take_prefix _ _) palStrToUl (hnames j message hmem)
    · intro k op s hop h
      rw [getElem?_putOps, Nat.zero_add, Option.map_eq_some_iff] at hop
      obtain ⟨c, hc, hput⟩ := hop
      subst hput
      exact h.put hc
  rw [length_putOps, List.take_length] at hbegun
  exact hbegun

/-- A call with handlers before the choice of its payload only. -/
theorem done_of_first (hquiet : ∀ j, 0 < j → j < (call.ops b.text).length → sched j = [])
    (hs : Sound b.text call [] s) :
    Done b.text call (Interrupts.upTo exec (serve palStrToUl) sched 0 (call.ops b.text) s) := by
  have hwhole : call.ops b.text =
      .chooseMsg call :: endOps call [] (call.item.topic b.text ++ [0]) := rfl
  apply Interrupts.upTo_part (I := Sound b.text call []) (J := Done b.text call)
  · rw [hwhole]
    exact List.cons_ne_nil _ _
  · intro j hlo hhi
    rw [Nat.zero_add] at hhi
    exact hquiet j hlo hhi
  · intro s message hmem h
    exact h.serve List.nil_prefix palStrToUl (hnames 0 message hmem)
  · intro s h
    rw [hwhole, List.foldl_cons]
    exact h.choose.done rfl
  · exact hs

/-- The call for an input with handlers up to the slash after the base topic. -/
theorem done_of_begin {input : Nat} (hinput : call.item = .input input)
    (hquiet : ∀ j, b.text.length + 2 < j → j < (call.ops b.text).length → sched j = [])
    (hs : Sound b.text call [] s) :
    Done b.text call (Interrupts.upTo exec (serve palStrToUl) sched 0 (call.ops b.text) s) := by
  obtain ⟨tail, htail⟩ := call.item.topic_split b
  have hrest : call.item.topic b.text ++ [0] =
      (b.text ++ [47]) ++ (call.item.letter :: tail ++ [0]) := by
    rw [htail, List.append_assoc]
  rw [ops_split hrest] at hquiet ⊢
  rw [Interrupts.upTo_append, Interrupts.upTo_append]
  apply Interrupts.upTo_part (I := Ready b.text call (b.text ++ [47])) (J := Done b.text call)
  · simp [endOps]
  · intro j hlo hhi
    apply hquiet j
    · rw [length_putOps, List.length_append, List.length_singleton, List.length_singleton] at hlo
      omega
    · rw [List.length_append, List.length_append, ← Nat.add_assoc]
      simpa using hhi
  · intro s message hmem h
    exact h.serve hinput (List.prefix_refl _) palStrToUl (hnames _ message hmem)
  · intro s h
    exact h.done hrest
  · exact ready_begun hnames hinput _ (ready_chosen hnames hs)

/-- **Harmless points.** -/
theorem paired_of_harmless {hub : Hub} (hbase : hub.baseTopic = b.text)
    (hdefined : call.Defined hub) (levels : Nat → Bool) (scratchTopic : Nat → UInt8)
    (hsafe : ∀ i, sched i ≠ [] → HarmlessPoint b.text call.item i) :
    (interruptedPublish palStrToUl hub levels scratchTopic call sched).Paired b.text
      call.item := by
  have hquiet (j : Nat) (hlo : call.item.lastOpenPoint b.text < j)
      (hhi : j < (call.ops b.text).length) : sched j = [] := by
    by_contra hne
    rw [length_ops] at hhi
    rcases hsafe j hne with hbefore | hafter
    · omega
    · omega
  have hstart : Sound b.text call [] ⟨hub, levels, scratchTopic, [], []⟩ :=
    ⟨hbase, hdefined, fun _ hpacket => absurd hpacket List.not_mem_nil,
      fun _ hpacket => absurd hpacket List.not_mem_nil, holds_nil _⟩
  have hdone : Done b.text call (Interrupts.upTo exec (serve palStrToUl) sched 0
      (call.ops b.text) ⟨hub, levels, scratchTopic, [], []⟩) := by
    cases call with
    | publishInput input => exact done_of_begin hnames rfl hquiet hstart
    | publishRelayState relay => exact done_of_first hnames hquiet hstart
    | publishCoverState shutter => exact done_of_first hnames hquiet hstart
    | shPublish shutter state => exact done_of_first hnames hquiet hstart
  have hend := Interrupts.served_keeps (I := Done b.text call)
    (fun s message hmem h => h.serve palStrToUl (hnames (call.ops b.text).length message hmem))
    hdone
  unfold interruptedPublish Interrupts.routine
  rw [hbase]
  exact ⟨hend.topics, hend.payloads, hend.own⟩

omit hnames

/-! ## Handlers at other points -/

/-- What the publishes of a handler leave alone. -/
theorem serve_eq (palStrToUl : StrToUl) (s : Publisher) (message : Message) :
    (s.serve palStrToUl message).hub =
        { s.hub with published := [] }.productOnMqtt palStrToUl message.1 message.2 ∧
      (s.serve palStrToUl message).levels = s.levels ∧
      (s.serve palStrToUl message).pcMsg = s.pcMsg := by
  have hcalls (calls : List Publish) (s : Publisher) :
      (calls.foldl (fun s p => s.publishState p.item (p.topic s.hub.baseTopic) p.msg) s).hub =
          s.hub ∧
        (calls.foldl (fun s p => s.publishState p.item (p.topic s.hub.baseTopic) p.msg) s).levels =
          s.levels ∧
        (calls.foldl (fun s p => s.publishState p.item (p.topic s.hub.baseTopic) p.msg) s).pcMsg =
          s.pcMsg := by
    induction calls generalizing s with
    | nil => exact ⟨rfl, rfl, rfl⟩
    | cons p calls ih => exact ih (s.publishState p.item _ p.msg)
  exact hcalls _ _

variable {hub : Hub} {levels : Nat → Bool} {scratchTopic : Nat → UInt8} {message : Message}

variable (palStrToUl levels scratchTopic message) in
/-- **One handler after the choice of the payload**, and before the copy: what the call does
before it and after it. -/
theorem run_once (hbase : hub.baseTopic = b.text) {j : Nat}
    (hj : j + 1 < (call.item.topic b.text).length + 3) :
    ∃ before : Publisher, before.hub = call.remember hub ∧ before.levels = levels ∧
      before.pcMsg = call.msg hub levels ∧
      interruptedPublish palStrToUl hub levels scratchTopic call
          (Interrupts.once (j + 1) message) =
        (putOps j ((call.item.topic b.text ++ [0]).drop j) ++
          [PublishOp.send call.item]).foldl exec (before.serve palStrToUl message) := by
  have hlen : ((call.item.topic b.text ++ [0]).take j).length = j := by
    apply List.length_take_of_le
    rw [List.length_append, List.length_singleton]
    omega
  have hsplit : call.ops b.text =
      (.chooseMsg call :: putOps 0 ((call.item.topic b.text ++ [0]).take j)) ++
        (putOps j ((call.item.topic b.text ++ [0]).drop j) ++ [.send call.item]) := by
    have hput := putOps_append 0 ((call.item.topic b.text ++ [0]).take j)
      ((call.item.topic b.text ++ [0]).drop j)
    rw [List.take_append_drop, hlen, Nat.zero_add] at hput
    rw [StateCall.ops, hput, List.cons_append, List.cons_append, List.append_assoc]
  have hcut : (PublishOp.chooseMsg call ::
      putOps 0 ((call.item.topic b.text ++ [0]).take j)).length = j + 1 := by
    rw [List.length_cons, length_putOps, hlen]
  obtain ⟨before, hhub, hlevels, hmsg, hbefore⟩ : ∃ before : Publisher,
      before.hub = call.remember hub ∧ before.levels = levels ∧
        before.pcMsg = call.msg hub levels ∧
        (PublishOp.chooseMsg call :: putOps 0 ((call.item.topic b.text ++ [0]).take j)).foldl exec
          ⟨hub, levels, scratchTopic, [], []⟩ = before := by
    refine ⟨_, ?_, ?_, ?_, rfl⟩
    all_goals
      rw [List.foldl_cons, foldl_putOps]
      rfl
  refine ⟨before, hhub, hlevels, hmsg, ?_⟩
  unfold interruptedPublish
  rw [hbase, Interrupts.routine_once (by rw [length_ops]; omega), hsplit, List.take_left' hcut,
    List.drop_left' hcut, hbefore]

/-- **A stale payload.**  The handler changes the state that the call has taken for its
payload. -/
theorem not_paired_of_stale (hbase : hub.baseTopic = b.text) {j : Nat}
    (hj : j + 1 < (call.item.topic b.text).length + 3)
    (hstale : call.item.state
      ({ call.remember hub with published := [] }.productOnMqtt palStrToUl message.1 message.2)
      levels ≠ call.msg hub levels) :
    ¬(interruptedPublish palStrToUl hub levels scratchTopic call
      (Interrupts.once (j + 1) message)).Paired b.text call.item := by
  intro h
  obtain ⟨before, hhub, hlevels, hmsg, hrun⟩ := run_once palStrToUl levels scratchTopic message hbase hj
  obtain ⟨hafter, hlevelsAfter, hmsgAfter⟩ := serve_eq palStrToUl before message
  rw [hrun, List.foldl_append, foldl_putOps] at h
  have hpayload := h.payloads _ (List.mem_append_right _ List.mem_cons_self)
  dsimp only at hpayload
  rw [hafter, hlevelsAfter, hmsgAfter, hhub, hlevels, hmsg] at hpayload
  exact hstale hpayload.symm

/-- The cell that tells the items apart. -/
theorem cell_of_holds {buffer : Nat → UInt8} {item : StateItem}
    (h : Holds buffer (item.topic b.text ++ [0])) :
    buffer (b.text ++ [47]).length = item.letter := by
  obtain ⟨tail, htail⟩ := item.topic_split b
  apply h
  rw [htail, List.append_assoc, List.getElem?_append_right (Nat.le_refl _), Nat.sub_self]
  rfl

/-- A handler that publishes one state. -/
theorem serve_single {p : Publish}
    (h : ({ s.hub with published := [] }.productOnMqtt palStrToUl message.1
      message.2).published = [p]) :
    s.serve palStrToUl message =
      { s with
        hub := { s.hub with published := [] }.productOnMqtt palStrToUl message.1
          message.2 }.publishState p.item (p.topic s.hub.baseTopic) p.msg := by
  have hbase := Hub.baseTopic_productOnMqtt palStrToUl { s.hub with published := [] } message.1
    message.2
  unfold Publisher.serve
  dsimp only
  rw [h, List.foldl_cons, List.foldl_nil]
  dsimp only
  rw [hbase]

/-- **Another topic.**  The handler publishes an item of another kind while the topic of the call
is printed after the slash, or before it is copied. -/
theorem not_paired_of_other {p : Publish} (hbase : hub.baseTopic = b.text) {j : Nat}
    (hj : j + 1 < (call.item.topic b.text).length + 3) (hslash : b.text.length + 1 < j)
    (hp : ({ call.remember hub with published := [] }.productOnMqtt palStrToUl message.1
      message.2).published = [p])
    (htopic : p.topic b.text = p.item.topic b.text)
    (hletter : p.item.letter ≠ call.item.letter) :
    ¬(interruptedPublish palStrToUl hub levels scratchTopic call
      (Interrupts.once (j + 1) message)).Paired b.text call.item := by
  intro h
  obtain ⟨before, hhub, -, -, hrun⟩ := run_once palStrToUl levels scratchTopic message hbase hj
  rw [← hhub] at hp
  have hbefore : before.hub.baseTopic = b.text := by
    rw [hhub, ← hbase]
    cases call <;> rfl
  have hserve := serve_single hp
  rw [hbefore, htopic] at hserve
  rw [hrun, hserve, List.foldl_append, foldl_putOps] at h
  have hread := h.topics _ (List.mem_append_right _ List.mem_cons_self)
  have hown := cell_of_holds ((read_eq_iff (call.item.zero_notMem_topic b)
    (call.item.length_topic b.text)).mp hread)
  have hkept : (b.text ++ [47]).length < j := by
    rw [List.length_append, List.length_singleton]
    exact hslash
  dsimp only at hown
  rw [writeFrom_of_lt hkept] at hown
  exact hletter ((cell_of_holds (holds_writeFrom _ _)).symm.trans hown)

end Publisher

/-! ## Handlers that do harm -/

/-- A shutter at rest that is told to move announces the motion. -/
theorem Hub.published_shMove_of_idle {h : Hub} {i : Nat} (hidle : (h.sh i).state = .idle)
    (up : Bool) :
    (h.shMove i up).published = h.published ++ [.coverState i (movingCover up)] := by
  have hne : (h.sh i).state ≠ movingState up := by
    rw [hidle]
    cases up <;> decide
  rw [shMove, if_neg hne, if_pos hidle]
  rfl

/-- It reports the motion from then on. -/
theorem Hub.outputCtrlCoverState_shMove_of_idle {h : Hub} {i : Nat}
    (hvalid : (h.sh i).valid ≠ false) (hidle : (h.sh i).state = .idle) (up : Bool) :
    (h.shMove i up).outputCtrlCoverState i = movingCover up := by
  have hne : (h.sh i).state ≠ movingState up := by
    rw [hidle]
    cases up <;> decide
  rw [shMove, if_neg hne, if_pos hidle]
  apply outputCtrlCoverState_remember
  simpa using hvalid

/-- `<base>/relay/<n>/set` with ON, and `<base>/cover/<n>/set` with OPEN or CLOSE. -/
def switchMessage (base : CStr) (n : Nat) : Message :=
  (base ++ (ascii "/relay/" ++ (fmtDecimal n ++ ascii "/set")), ascii "ON")
def moveMessage (base : CStr) (n : Nat) (up : Bool) : Message :=
  (base ++ (ascii "/cover/" ++ (fmtDecimal n ++ ascii "/set")),
    if up then ascii "OPEN" else ascii "CLOSE")

theorem isRelaySet_switchMessage (base : CStr) (n : Nat) :
    IsRelaySet base (switchMessage base n).1 n :=
  ⟨fmtDecimal n, isNumeral_fmtDecimal n, numeralValue_fmtDecimal n, rfl⟩

theorem isCoverSet_moveMessage (base : CStr) (n : Nat) (up : Bool) :
    IsCoverSet base (moveMessage base n up).1 n :=
  ⟨fmtDecimal n, isNumeral_fmtDecimal n, numeralValue_fmtDecimal n, rfl⟩

/-- A message that moves a defined shutter. -/
theorem Hub.productOnMqtt_moveMessage {h : Hub} {i : Nat} (hi : i < cfgMaxShutters)
    (hvalid : (h.sh i).valid ≠ false) (palStrToUl : StrToUl) (up : Bool) :
    h.productOnMqtt palStrToUl (moveMessage h.baseTopic i up).1 (moveMessage h.baseTopic i up).2 =
      h.shMove i up := by
  have hcmd : coverPayloadCmd (moveMessage h.baseTopic i up).2 =
      some (if up then ShCmd.open else ShCmd.close) := by
    cases up
    · exact (by decide : coverPayloadCmd (ascii "CLOSE") = some .close)
    · exact (by decide : coverPayloadCmd (ascii "OPEN") = some .open)
  have hparsed : parsedInt i = i := by
    apply parsedInt_of_lt
    unfold cfgMaxShutters at hi
    omega
  rw [productOnMqtt_coverSet palStrToUl _ (isCoverSet_moveMessage h.baseTopic i up), hcmd]
  dsimp only
  rw [hparsed, outputCtrlShutter, if_neg (by omega), Int.toNat_natCast, if_neg hvalid]
  cases up <;> rfl

/-- A message that does not misname its item. -/
theorem not_misnames_moveMessage (base : CStr) (i : Nat) (up : Bool) :
    ¬Misnames base (moveMessage base i up).1 := by
  rintro ⟨n, hform, -⟩
  exact hform.not_coverSet (isCoverSet_moveMessage base i up)

theorem not_misnames_switchMessage (base : CStr) {i : Nat} (hi : i < cfgMaxOutputs) :
    ¬Misnames base (switchMessage base i).1 := by
  rintro ⟨n, hform, -, hlarge, -⟩
  have hnumber := (hform.unique (isRelaySet_switchMessage base i) rfl (by decide) (by decide)).2.2
  unfold cfgMaxOutputs at hi
  omega

variable (b : BaseTopic) (palStrToUl : StrToUl)

/-- A relay number that the whole chain has, and that no slot holds. -/
theorem outputCtrlCommand_atRest {slot : Nat} {iOut : Int}
    (hfree : (Hub.atRest b.text 0xF0 slot).outCfg.configShutterOfRelay iOut = none)
    (cmd : OutCmd) :
    (Hub.atRest b.text 0xF0 slot).outputCtrlCommand iOut cmd =
      (Hub.atRest b.text 0xF0 slot).mqttAppSetRelay iOut
        ((Hub.atRest b.text 0xF0 slot).commandLevel iOut cmd) := by
  have hstandard : (Hub.atRest b.text 0xF0 slot).outCfg.configOutMode iOut = outModeStandard :=
    ite_self _
  rw [Hub.outputCtrlCommand, hfree]
  dsimp only
  rw [hstandard, if_neg (by decide)]

/-- The slot of a hub at rest. -/
theorem atRest_slot (base : CStr) (io slot : Nat) :
    ((Hub.atRest base io slot).sh slot).valid ≠ false ∧
      ((Hub.atRest base io slot).sh slot).state = .idle ∧
      (Hub.atRest base io slot).outputCtrlCoverState slot = .stopped := by
  simp [Hub.atRest, ShutterRt.zero, Hub.outputCtrlCoverState]

theorem configGetRelayDevices_atRest (slot : Nat) :
    (Hub.atRest b.text 0xF0 slot).configGetRelayDevices = 15 :=
  (by decide : (0xF0 >>> 4) &&& 0x0F = 15)

/-- A relay of the chain that is switched on. -/
theorem isOn_switchMessage {n : Nat} (hn : n < cfgMaxOutputs) :
    ((Hub.atRest b.text 0xF0 cfgMaxShutters).productOnMqtt palStrToUl (switchMessage b.text n).1
      (switchMessage b.text n).2).chain.isOn n = true := by
  have hcount := configGetRelayDevices_atRest b cfgMaxShutters
  have hchain := Hub.relayChainCount_atRest b.text 0xF0 cfgMaxShutters
  have hcmd : relayPayloadCmd (switchMessage b.text n).2 = .on :=
    (by decide : relayPayloadCmd (ascii "ON") = .on)
  unfold cfgMaxOutputs at hn
  have htoU16 : toU16 (n : Int) = n := by
    unfold toU16
    omega
  rw [Hub.productOnMqtt_relaySet palStrToUl _
      (h := Hub.atRest b.text 0xF0 cfgMaxShutters) (isRelaySet_switchMessage b.text n),
    hcount, if_neg (by omega), parsedInt_of_lt (by omega), hcmd,
    outputCtrlCommand_atRest b (Hub.configShutterOfRelay_atRest b.text 0xF0 n)]
  have heffect := (Hub.mqttAppSetRelay_effect (Hub.atRest b.text 0xF0 cfgMaxShutters) n true).2 n
    (by rw [hchain, hcount]; omega)
  rw [hcount, htoU16, if_pos ⟨by omega, by omega, rfl⟩] at heffect
  exact heffect

theorem CoverState.str_ne {s t : CoverState} (h : s ≠ t) : s.str ≠ t.str := by
  cases s <;> cases t <;> first | exact absurd rfl h | decide

/-- The state of a cover that a message has set in motion. -/
theorem state_moveMessage {h : Hub} {i : Nat} (hi : i < cfgMaxShutters)
    (hvalid : (h.sh i).valid ≠ false) (hidle : (h.sh i).state = .idle) (palStrToUl : StrToUl)
    (up : Bool) (levels : Nat → Bool) :
    StateItem.state (h.productOnMqtt palStrToUl (moveMessage h.baseTopic i up).1
      (moveMessage h.baseTopic i up).2) levels (.cover i) = (movingCover up).str := by
  rw [Hub.productOnMqtt_moveMessage hi hvalid]
  exact congrArg CoverState.str (Hub.outputCtrlCoverState_shMove_of_idle hvalid hidle up)

/-- **At every other point** a message that misnames no relay does harm. -/
theorem exists_harm (call : StateCall) {i : Nat} (hi : ¬HarmlessPoint b.text call.item i) :
    ∃ hub levels scratchTopic message, hub.baseTopic = b.text ∧ call.Defined hub ∧
      ¬Misnames b.text message.1 ∧
      ¬(interruptedPublish palStrToUl hub levels scratchTopic call
        (Interrupts.once i message)).Paired b.text call.item := by
  unfold HarmlessPoint at hi
  rw [not_or, Nat.not_le, Nat.not_le] at hi
  obtain ⟨hopen, hcopy⟩ := hi
  obtain ⟨j, hj⟩ : ∃ j, i = j + 1 := ⟨i - 1, by omega⟩
  subst hj
  cases call with
  | publishRelayState relay =>
      refine ⟨Hub.atRest b.text 0xF0 cfgMaxShutters, fun _ => false, fun _ => 0,
        switchMessage b.text relay, rfl, trivial, not_misnames_switchMessage b.text relay.isLt,
        Publisher.not_paired_of_stale rfl hcopy ?_⟩
      have hon := isOn_switchMessage b palStrToUl relay.isLt
      have hoff := RelayChain.relayChainSetDevices_allOff ((0xF0 >>> 4) &&& 0x0F)
        (toU16 ((relay : Nat) : Int))
      intro hsame
      have hlevels : levelStr true = levelStr false :=
        (congrArg levelStr hon).symm.trans (hsame.trans (congrArg levelStr hoff))
      exact absurd hlevels (by decide)
  | publishInput input =>
      have hlong : b.text.length + 1 < j := by
        change b.text.length + 2 < j + 1 at hopen
        omega
      refine ⟨Hub.atRest b.text 0 0, fun _ => false, fun _ => 0, moveMessage b.text 0 true, rfl,
        trivial, not_misnames_moveMessage b.text 0 true,
        Publisher.not_paired_of_other (p := .coverState 0 .opening) rfl hcopy hlong ?_ rfl
          (by decide : (99 : UInt8) ≠ 105)⟩
      have hmove := Hub.productOnMqtt_moveMessage (h := Hub.atRest b.text 0 0) (i := 0) (by decide)
        Bool.noConfusion palStrToUl true
      exact (congrArg Hub.published hmove).trans (Hub.published_shMove_of_idle rfl true)
  | publishCoverState shutter =>
      obtain ⟨hvalid, hidle, hstopped⟩ := atRest_slot b.text 0 shutter
      refine ⟨Hub.atRest b.text 0 shutter, fun _ => false, fun _ => 0,
        moveMessage b.text shutter true, rfl, trivial, not_misnames_moveMessage b.text shutter true,
        Publisher.not_paired_of_stale rfl hcopy ?_⟩
      intro hsame
      have hstate := state_moveMessage shutter.isLt hvalid hidle palStrToUl true fun _ => false
      have hstr := hstate.symm.trans (hsame.trans (congrArg CoverState.str hstopped))
      exact CoverState.str_ne (by decide : CoverState.opening ≠ .stopped) hstr
  | shPublish shutter state =>
      obtain ⟨hvalid, hidle, -⟩ := atRest_slot b.text 0 shutter
      obtain ⟨up, hup⟩ : ∃ up, movingCover up ≠ state := by
        by_cases hopening : state = .opening
        · exact ⟨false, by rw [hopening]; decide⟩
        · exact ⟨true, Ne.symm hopening⟩
      refine ⟨Hub.atRest b.text 0 shutter, fun _ => false, fun _ => 0,
        moveMessage b.text shutter up, rfl, hvalid, not_misnames_moveMessage b.text shutter up,
        Publisher.not_paired_of_stale rfl hcopy ?_⟩
      intro hsame
      have hstate := state_moveMessage
        (h := (Hub.atRest b.text 0 shutter).modSh shutter fun p => { p with pcState := some state })
        shutter.isLt (by rw [Hub.modSh_sh_self]; exact hvalid)
        (by rw [Hub.modSh_sh_self]; exact hidle) palStrToUl up fun _ => false
      exact CoverState.str_ne hup (hstate.symm.trans hsame)

/-- Topics of two relays differ. -/
theorem StateItem.topic_relay_ne {m n : Nat} (hm : m < 10 ^ 10) (hn : n < 10 ^ 10) (hne : m ≠ n) :
    StateItem.topic b.text (.relay m) ≠ StateItem.topic b.text (.relay n) := by
  have hwhole {k : Nat} (hk : k < 10 ^ 10) : StateItem.topic b.text (.relay k) =
      b.text ++ (ascii "/relay/" ++ (fmtDecimal k ++ ascii "/state")) := by
    have hfits := b.fits
    have hdigits := length_fmtDecimal_le (k := 10) (by decide) hk
    have hmid : (ascii "/relay/").length = 7 := by decide
    have hstate : (ascii "/state").length = 6 := by decide
    unfold cfgTopicLen at hfits
    rw [StateItem.topic_eq, List.take_of_length_le]
    · rfl
    · simp only [List.length_append, StateItem.mid, StateItem.number, hmid, hstate]
      omega
  rw [hwhole hm, hwhole hn]
  intro h
  have hdigits := List.append_cancel_right (List.append_cancel_left (List.append_cancel_left h))
  have hvalue := congrArg numeralValue hdigits
  rw [numeralValue_fmtDecimal, numeralValue_fmtDecimal] at hvalue
  exact hne hvalue

/-- What has been handed over stays so. -/
theorem Publisher.mem_exec {packet : StatePacket} {s : Publisher} (h : packet ∈ s.packets)
    (ops : List PublishOp) : packet ∈ (ops.foldl Publisher.exec s).packets := by
  refine Interrupts.foldl_keeps (I := fun s : Publisher => packet ∈ s.packets) ?_ h
  intro s op _ hs
  cases op with
  | chooseMsg call => exact hs
  | putByte k c => exact hs
  | send item => exact List.mem_append_left _ hs

/-- **A message that misnames a relay** does harm before any call. -/
theorem not_paired_of_misnames (call : StateCall) {message : Message}
    (hname : Misnames b.text message.1) :
    ¬(interruptedPublish palStrToUl (Hub.atRest b.text 0xF0 call.item.number) (fun _ => false)
      (fun _ => 0) call (Interrupts.once 0 message)).Paired b.text call.item := by
  obtain ⟨n, hform, hlow, hlarge, hint⟩ := hname
  have hparsed : parsedInt n = (n % 2 ^ 32 : Nat) := by
    rw [parsedInt_eq, if_pos hint]
  have hfree : (Hub.atRest b.text 0xF0 call.item.number).outCfg.configShutterOfRelay
      (parsedInt n) = none := by
    apply if_pos
    unfold cfgMaxOutputs
    omega
  have hcount := configGetRelayDevices_atRest b call.item.number
  have htoU16 := toU16_parsedInt n
  unfold cfgMaxOutputs at hlow
  obtain ⟨on, hpublished⟩ : ∃ on, ((Hub.atRest b.text 0xF0 call.item.number).productOnMqtt
      palStrToUl message.1 message.2).published = [.relayState (parsedInt n) on] := by
    rw [Hub.productOnMqtt_relaySet palStrToUl _
        (h := Hub.atRest b.text 0xF0 call.item.number) hform,
      hcount, if_neg (by omega), outputCtrlCommand_atRest b hfree, Hub.mqttAppSetRelay, hcount,
      if_neg (by omega)]
    exact ⟨_, rfl⟩
  intro h
  have hrun : interruptedPublish palStrToUl (Hub.atRest b.text 0xF0 call.item.number)
      (fun _ => false) (fun _ => 0) call (Interrupts.once 0 message) =
        (call.ops b.text).foldl Publisher.exec (Publisher.serve palStrToUl
          ⟨Hub.atRest b.text 0xF0 call.item.number, fun _ => false, fun _ => 0, [], []⟩
          message) :=
    Interrupts.routine_once (by rw [Publisher.length_ops]; omega) _ _
  have hfirst : Publisher.serve palStrToUl
      ⟨Hub.atRest b.text 0xF0 call.item.number, fun _ => false, fun _ => 0, [], []⟩ message = _ :=
    Publisher.serve_single hpublished
  obtain ⟨packet, hmem, hitem, htopic⟩ : ∃ packet ∈
      (interruptedPublish palStrToUl (Hub.atRest b.text 0xF0 call.item.number) (fun _ => false)
        (fun _ => 0) call (Interrupts.once 0 message)).packets,
      packet.item = .relay (toU16 (parsedInt n)) ∧
        packet.topic = StateItem.topic b.text (.relay (parsedInt n).toNat) := by
    rw [hrun, hfirst]
    exact ⟨_, Publisher.mem_exec (List.mem_append_right _ List.mem_cons_self) _, rfl,
      Publisher.read_topic (TextBuffer.holds_writeFrom _ _)⟩
  have hown := h.topics packet hmem
  rw [hitem, htopic] at hown
  refine StateItem.topic_relay_ne b ?_ ?_ ?_ hown
  · omega
  · omega
  · omega

end HomeAuto
