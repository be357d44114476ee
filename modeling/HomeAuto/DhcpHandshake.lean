import HomeAuto.DhcpRange

/-!
# From the offer to the acknowledgement

A client discovers, is offered an address, and requests it; in between the server may hear of any
other clients.  The address that a client is given is the first gap in front of its own lease, so
at that time all addresses below are taken (`Settled`).  As long as nobody releases anything, or
comes with an address of its own, this stays so, and with it the address: the request for it is
acknowledged, and one for any other address is refused (`offer_is_kept`).
-/

namespace HomeAuto.Dhcp

open FirstGap

/-! ## Settled clients -/

/-- The client has the lease of `a`, and all addresses of the range below are on lease. -/
structure Dhcps.Settled (d : Dhcps) (bssid : CStr) (a : IpAddr) : Prop where
  lease : ∃ p ∈ d.plist, p.mac = bssid ∧ p.ip = a
  full : ∀ k, d.dhcpsLease.startIp.number ≤ k → k < a.number → k ∈ numbers d.plist

theorem exists_of_mem_numbers {ps : List DhcpsPool} {k : Nat} (h : k ∈ numbers ps) :
    ∃ q ∈ ps, q.ip.number = k := by
  obtain ⟨a, ha, rfl⟩ := List.mem_map.mp h
  obtain ⟨q, hq, rfl⟩ := List.mem_map.mp ha
  exact ⟨q, hq, rfl⟩

section Updates

variable {d : Dhcps} {bssid : CStr}

/-- Where all addresses below that of a client are on lease, the free address is its own. -/
theorem free_own (h : d.Ranged) (hok : d.Ok) {p : DhcpsPool} (hp : p ∈ d.plist)
    (hmac : p.mac = bssid)
    (hfull : ∀ k, d.dhcpsLease.startIp.number ≤ k → k < p.ip.number → k ∈ numbers d.plist) :
    d.free bssid = p.ip := by
  obtain ⟨hnet, hnumber⟩ := free_number h bssid
  have hown := h.inRange p.ip (List.mem_map_of_mem hp)
  refine (hnet.eq_iff hown.toInNet).mpr (le_antisymm (free_le_own h hp hmac hok) ?_)
  refine not_lt.mp fun hlt => ?_
  have hstart : d.dhcpsLease.startIp.number ≤ (d.free bssid).number := by
    rw [hnumber]
    exact le_firstGap _ _
  obtain ⟨q, hq, hsame⟩ := exists_of_mem_numbers (hfull _ hstart hlt)
  by_cases hqmac : q.mac = bssid
  · obtain ⟨i, hi, rfl⟩ := List.getElem_of_mem hp
    obtain ⟨j, hj, rfl⟩ := List.getElem_of_mem hq
    obtain rfl : i = j := mac_inj hok.oneEach (List.getElem?_eq_getElem hi)
      (List.getElem?_eq_getElem hj) (hmac.trans hqmac.symm)
    omega
  · exact free_not_taken h q hq hqmac hsame

/-- All addresses below the free one are on lease to others. -/
theorem full_below_free (h : d.Ranged) (k : Nat) (hstart : d.dhcpsLease.startIp.number ≤ k)
    (hk : k < (d.free bssid).number) : ∃ q ∈ d.plist, q.mac ≠ bssid ∧ q.ip.number = k := by
  rw [(free_number h bssid).2] at hk
  obtain ⟨q, hq, hnumber⟩ := exists_of_mem_numbers (mem_of_lt_firstGap hstart hk)
  have hne := List.mem_takeWhile_imp hq
  exact ⟨q, (List.takeWhile_sublist _).subset hq, by simpa using hne, hnumber⟩

/-- A client that has a lease, and comes without an address, is given the free one. -/
theorem holder_update (h : d.Ranged) (hok : d.Ok) {p : DhcpsPool} (hp : p ∈ d.plist)
    (hmac : p.mac = bssid) : (d.clientUpdate bssid .any).1 = d.free bssid := by
  have hfinds : Finds bssid none d.plist 0 _ (d.find bssid none) :=
    findLoop_finds bssid none d.plist 0 _
  have hpip := find_pipNode d bssid
  have hfound : ({ d with renew := false } : Dhcps).find bssid none = d.find bssid none := rfl
  have hfree : (d.find bssid none).startIp = d.free bssid := rfl
  have hend := h.range.endNet.addr_lt_iff (free_number h bssid).1
  have hown := (h.inRange p.ip (List.mem_map_of_mem hp)).le_end
  have hle := free_le_own h hp hmac hok
  have hroom : ¬d.dhcpsLease.endIp.number < (d.free bssid).number := by omega
  have hnot : ¬IpAddr.any = .broadcast := by decide
  cases hpmac : (d.find bssid none).pmacNode with
  | none => exact absurd hmac ((hfinds.pmac_none hpmac).2 p hp)
  | some i =>
      have hi : ∃ q, d.plist[i]? = some q := by
        rcases hfinds.pmac_some i hpmac with hs | ⟨j, q, rfl, hq, -⟩
        · exact absurd hs (by simp)
        · exact ⟨q, by rwa [Nat.zero_add]⟩
      obtain ⟨q, hq⟩ := hi
      unfold Dhcps.clientUpdate
      rw [if_neg hnot, if_pos rfl]
      simp only [hfound, Dhcps.updateFound, hpmac, hpip, hq, hfree, Option.getD_none, hend]
      rw [if_neg (fun h => hroom h.2)]

theorem clientUpdate_same (d : Dhcps) (bssid : CStr) (ip : IpAddr) (hok : d.Ok) :
    (d.clientUpdate bssid ip).2.dhcpsLease = d.dhcpsLease := by
  have hupdated := clientUpdate_updated hok bssid ip
  generalize d.clientUpdate bssid ip = u at hupdated
  cases hupdated <;> rfl

/-- **A client that is given an address is settled**, if it came without one. -/
theorem given_settled (h : d.Ranged) (hok : d.Ok)
    (hgiven : (d.clientUpdate bssid .any).1 ≠ .any) :
    (d.clientUpdate bssid .any).2.Settled bssid (d.clientUpdate bssid .any).1 := by
  have hfree : (d.clientUpdate bssid .any).1 = d.free bssid := by
    by_cases hown : ∃ p ∈ d.plist, p.mac = bssid
    · obtain ⟨p, hp, hmac⟩ := hown
      exact holder_update h hok hp hmac
    · have hnew := newcomer_update h fun q hq hmac => hown ⟨q, hq, hmac⟩
      split at hnew
      · exact absurd hnew hgiven
      · exact hnew
  rcases (clientUpdate_updated hok bssid .any).gives hok with ⟨-, hany⟩ | hgives
  · exact absurd hany hgiven
  · refine ⟨hgives.lease, fun k hstart hk => ?_⟩
    rw [clientUpdate_same d bssid .any hok] at hstart
    rw [hfree] at hk
    obtain ⟨q, hq, hmac, rfl⟩ := full_below_free h k hstart hk
    exact mem_numbers ((hgives.sameOthers q hmac).mpr hq)

/-- Another client that comes without an address leaves a settled one settled. -/
theorem Dhcps.Settled.update {m : CStr} {a : IpAddr} (hs : d.Settled m a) (h : d.Ranged)
    (hok : d.Ok) (hm : m ≠ bssid) : (d.clientUpdate bssid .any).2.Settled m a := by
  have hsame := clientUpdate_same d bssid .any hok
  obtain ⟨p, hp, hmac, rfl⟩ := hs.lease
  rcases (clientUpdate_updated hok bssid .any).gives hok with ⟨hplist, -⟩ | hgives
  · refine ⟨⟨p, by rw [hplist]; exact hp, hmac, rfl⟩, fun k hstart hk => ?_⟩
    rw [hplist]
    rw [hsame] at hstart
    exact hs.full k hstart hk
  · have hothers := hgives.sameOthers
    refine ⟨⟨p, (hothers p (by rw [hmac]; exact hm)).mpr hp, hmac, rfl⟩, fun k hstart hk => ?_⟩
    rw [hsame] at hstart
    obtain ⟨q, hq, rfl⟩ := exists_of_mem_numbers (hs.full k hstart hk)
    by_cases hqmac : q.mac = bssid
    · -- the client itself had an address below: everything below that is taken, so it keeps it
      have hown : d.free bssid = q.ip :=
        free_own h hok hq hqmac fun j hj hlt => hs.full j hj (hlt.trans hk)
      obtain ⟨r, hr, -, hrip⟩ := hgives.lease
      rw [holder_update h hok hq hqmac, hown] at hrip
      rw [← hrip]
      exact mem_numbers hr
    · exact mem_numbers ((hothers q hqmac).mpr hq)

/-- A settled client that comes without an address is given its own. -/
theorem Dhcps.Settled.update_own {a : IpAddr} (hs : d.Settled bssid a) (h : d.Ranged)
    (hok : d.Ok) : (d.clientUpdate bssid .any).1 = a := by
  obtain ⟨p, hp, hmac, rfl⟩ := hs.lease
  rw [holder_update h hok hp hmac, free_own h hok hp hmac hs.full]

end Updates

/-! ## Packets -/

/-- The options of a packet, as the server walks over them for some client. -/
def Packet.walked (p : Packet) (client : IpAddr) : Options :=
  Tlv.walk 255 (Options.note client) (p.totLen - 240) (p.totLen - 240) (p.memory.drop 240) ⟨0, .idle⟩

/-- The type of a packet. -/
def Packet.type (p : Packet) : UInt8 := (p.walked .any).type

theorem note_type (client client' : IpAddr) {s s' : Options} (h : s.type = s'.type) (code : UInt8)
    (value : CStr) : (s.note client code value).type = (s'.note client' code value).type := by
  unfold Options.note
  split_ifs <;> simp [h]

theorem walk_type (client client' : IpAddr) (fuel left : Nat) (memory : CStr) {s s' : Options}
    (h : s.type = s'.type) :
    (Tlv.walk 255 (Options.note client) fuel left memory s).type =
      (Tlv.walk 255 (Options.note client') fuel left memory s').type := by
  induction fuel generalizing left memory s s' with
  | zero => exact h
  | succ fuel ih =>
      rw [Tlv.walk, Tlv.walk]
      split
      · exact h
      · exact ih _ _ (note_type client client' h _ _)

theorem note_state (client : IpAddr) {s : Options} (h : s.state ≠ .release) (code : UInt8)
    (value : CStr) : (s.note client code value).state ≠ .release := by
  unfold Options.note
  split_ifs <;> simp [h]

theorem walk_state (client : IpAddr) (fuel left : Nat) (memory : CStr) {s : Options}
    (h : s.state ≠ .release) :
    (Tlv.walk 255 (Options.note client) fuel left memory s).state ≠ .release := by
  induction fuel generalizing left memory s with
  | zero => exact h
  | succ fuel ih =>
      rw [Tlv.walk]
      split
      · exact h
      · exact ih _ _ (note_state client h _ _)

/-- Only a packet of this type releases a lease. -/
theorem asked_ne_release {d : Dhcps} {p : Packet} (h : p.type ≠ 7) : d.asked p ≠ .release := by
  have htype : (p.walked (d.clientUpdate p.mac p.ciaddr).1).type ≠ 7 := by
    rw [Packet.walked, walk_type _ .any _ _ _ rfl]
    exact h
  have hstate : (p.walked (d.clientUpdate p.mac p.ciaddr).1).state ≠ .release :=
    walk_state _ _ _ _ (by simp)
  have hasked : d.asked p = (p.walked (d.clientUpdate p.mac p.ciaddr).1).answer
      (d.clientUpdate p.mac p.ciaddr).2.renew := rfl
  rw [hasked, Options.answer]
  split_ifs <;> simp_all

/-- The client comes without an address, and releases nothing. -/
structure Packet.Plain (p : Packet) : Prop where
  ciaddr : p.ciaddr = .any
  type : p.type ≠ 7

/-- The event is such a packet. -/
def Event.Plain : Event → Prop
  | .restart _ _ => False
  | .packet _ p => p.Plain

/-- What a plain packet does to the leases. -/
theorem handleDhcp_plain {d : Dhcps} {m : Memory} {p : Packet} (h : p.Plain) :
    (d.handleDhcp m p).1 = d ∨ (d.handleDhcp m p).1 = d.updated p := by
  by_cases hcopy : p.totLen < 2 ^ 15 ∧ m.copy = true
  · by_cases hcookie : p.cookie = magicCookie
    · right
      rw [handleDhcp_eq hcopy hcookie (asked_ne_release h.type)]
    · left
      rw [Dhcps.handleDhcp, if_pos hcopy, Dhcps.parseMsg, if_neg hcookie]
  · left
    rw [Dhcps.handleDhcp, if_neg hcopy]

theorem Dhcps.Settled.answered {d : Dhcps} {m : CStr} {a : IpAddr} (hs : d.Settled m a)
    (c : IpAddr) : ({ d with clientAddress := c } : Dhcps).Settled m a := ⟨hs.lease, hs.full⟩

/-- A plain packet leaves a settled client settled. -/
theorem Dhcps.Settled.packet {d : Dhcps} {bssid : CStr} {a : IpAddr} (hs : d.Settled bssid a)
    (h : d.Ranged) (hok : d.Ok) (m : Memory) {p : Packet} (hp : p.Plain) (ha : a ≠ .any) :
    (d.handleDhcp m p).1.Settled bssid a := by
  rcases handleDhcp_plain (d := d) (m := m) hp with hsame | hupdated
  · rw [hsame]
    exact hs
  · rw [hupdated, Dhcps.updated, hp.ciaddr]
    refine Dhcps.Settled.answered ?_ _
    by_cases hm : bssid = p.mac
    · subst hm
      have hown := hs.update_own h hok
      have hgiven := @given_settled d p.mac h hok (by rw [hown]; exact ha)
      rwa [hown] at hgiven
    · exact hs.update h hok hm

/-! ## The request -/

/-- The packet is a request for the address `b`. -/
structure Packet.Requests (p : Packet) (b : IpAddr) : Prop where
  short : p.totLen < 2 ^ 15
  cookie : p.cookie = magicCookie
  options : ∃ os tail, p.memory.drop 240 = Tlv.encode os ++ 255 :: tail ∧ Tlv.Proper 255 os ∧
    (Tlv.encode os).length < p.totLen - 240 ∧
    (∃ o ∈ os, o.1 = 53) ∧ (∀ o ∈ os, o.1 = 53 → o.2 = [3]) ∧
    (∃ o ∈ os, o.1 = 50) ∧ ∀ o ∈ os, o.1 = 50 → o.2 = b.bytes

theorem foldl_note_type (client : IpAddr) {os : Tlv.Row} (h : ∀ o ∈ os, o.1 = 53 → o.2 = [3])
    (s : Options) : (os.foldl (fun s o => s.note client o.1 o.2) s).type =
      if ∃ o ∈ os, o.1 = 53 then 3 else s.type := by
  refine Tlv.foldl_set (g := Options.type) (fun o ho hcode s => ?_) (fun o ho hcode s => ?_) s
  · rw [Options.note, if_pos hcode, h o ho hcode]
    rfl
  · rw [Options.note, if_neg hcode]
    split <;> rfl

theorem ofBytes_bytes (b : IpAddr) (more : CStr) : IpAddr.ofBytes (b.bytes ++ more) = b := rfl

theorem foldl_note_state (client : IpAddr) {b : IpAddr} {os : Tlv.Row}
    (h : ∀ o ∈ os, o.1 = 50 → o.2 = b.bytes) (s : Options) :
    (os.foldl (fun s o => s.note client o.1 o.2) s).state =
      if ∃ o ∈ os, o.1 = 50 then if b = client then .ack else .nak else s.state := by
  refine Tlv.foldl_set (g := Options.state) (fun o ho hcode s => ?_) (fun o ho hcode s => ?_) s
  · have hother : ¬o.1 = 53 := by rw [hcode]; decide
    have hvalue : IpAddr.ofBytes o.2 = b := by
      rw [h o ho hcode]
      rfl
    rw [Options.note, if_neg hother, if_pos hcode, hvalue]
  · rw [Options.note, if_neg hcode]
    split <;> rfl

/-- **A request is read as one**: the walk over its options finds the type and the address. -/
theorem Packet.Requests.walked {p : Packet} {b : IpAddr} (h : p.Requests b) (client : IpAddr) :
    p.walked client = ⟨3, if b = client then .ack else .nak⟩ := by
  obtain ⟨os, tail, hmemory, hproper, hlen, htype, h53, haddr, h50⟩ := h.options
  have hnote (o : UInt8 × CStr) (ho : o ∈ os) (s : Options) (more : CStr) :
      s.note client o.1 (o.2 ++ more) = s.note client o.1 o.2 := by
    unfold Options.note
    by_cases hcode : o.1 = 53
    · rw [if_pos hcode, if_pos hcode, h53 o ho hcode]
      rfl
    · rw [if_neg hcode, if_neg hcode]
      by_cases hcode : o.1 = 50
      · rw [if_pos hcode, if_pos hcode, h50 o ho hcode, ofBytes_bytes]
        rfl
      · rw [if_neg hcode, if_neg hcode]
  have hfuel : os.length < p.totLen - 240 := (Tlv.length_le_encode os).trans_lt hlen
  have hwalk := Tlv.walk_encode hproper hnote hfuel hlen tail ⟨0, .idle⟩
  rw [Packet.walked, hmemory, hwalk]
  have h1 := foldl_note_type client h53 ⟨0, .idle⟩
  have h2 := foldl_note_state client h50 ⟨0, .idle⟩
  rw [if_pos htype] at h1
  rw [if_pos haddr] at h2
  exact congrArg₂ Options.mk h1 h2

theorem Packet.Requests.plain {p : Packet} {b : IpAddr} (h : p.Requests b)
    (hciaddr : p.ciaddr = .any) : p.Plain := by
  refine ⟨hciaddr, ?_⟩
  rw [Packet.type, h.walked]
  exact (by decide : (3 : UInt8) ≠ 7)

/-- A request for the address which the update gives is acknowledged, any other is refused. -/
theorem handleDhcp_request {d : Dhcps} {p : Packet} {b : IpAddr} (h : p.Requests b)
    (hciaddr : p.ciaddr = .any) : ∃ r, (d.handleDhcp .plenty p).2 = some r ∧
      r.yiaddr = (d.clientUpdate p.mac p.ciaddr).1 ∧
      r.options.take 7 = magicCookie ++
        [53, 1, if b = (d.clientUpdate p.mac p.ciaddr).1 then 5 else 6] := by
  have hasked : d.asked p = if b = (d.clientUpdate p.mac p.ciaddr).1 then .ack else .nak := by
    have hwalked : d.asked p = (p.walked (d.clientUpdate p.mac p.ciaddr).1).answer
        (d.clientUpdate p.mac p.ciaddr).2.renew := rfl
    rw [hwalked, h.walked]
    split <;> rfl
  have hanswer := handleDhcp_eq (m := .plenty) ⟨h.short, rfl⟩ h.cookie
    (asked_ne_release (d := d) (h.plain hciaddr).type)
  rw [hanswer, hasked]
  by_cases hsame : b = (d.clientUpdate p.mac p.ciaddr).1
  · rw [if_pos hsame, if_pos hsame]
    exact ⟨_, rfl, rfl, rfl⟩
  · rw [if_neg hsame, if_neg hsame]
    exact ⟨_, rfl, rfl, rfl⟩

/-! ## Runs -/

theorem plain_run {d : Dhcps} (h : d.Ranged) (hok : d.Ok) {m : CStr} {a : IpAddr}
    (hs : d.Settled m a) (ha : a ≠ .any) {es : List Event} (hes : ∀ e ∈ es, e.Plain) :
    (Runs.final Dhcps.step d es).Ranged ∧ (Runs.final Dhcps.step d es).Ok ∧
      (Runs.final Dhcps.step d es).Settled m a := by
  induction es generalizing d with
  | nil => exact ⟨h, hok, hs⟩
  | cons e es ih =>
      rw [List.forall_mem_cons] at hes
      rw [Runs.final_cons]
      cases e with
      | restart addr gw => exact absurd hes.1 id
      | packet memory p =>
          have hfair : (Event.packet memory p).Fair d := .inl hes.1.ciaddr
          exact ih (step_ranged hok h hfair) (step_ok d (.packet memory p) hok)
            (hs.packet h hok memory hes.1 ha) hes.2

/-- **What is offered is kept.**  A client without an address is named an address.  Then, as long
as the server hears of clients without an address only, and none releases its lease, the request
of that client for this address is acknowledged, and a request for another one is refused, if
there is memory for the request and for the answer to it. -/
theorem offer_is_kept (addr gw : IpAddr) (es₁ es₂ : List Event)
    (hfair : Runs.EveryStep Dhcps.step (fun d e => e.Fair d) (.start addr gw) es₁)
    (hplain : ∀ e ∈ es₂, e.Plain) (m : Memory) (discover request : Packet)
    (hmac : request.mac = discover.mac) (hdiscover : discover.Plain)
    (hrequest : request.ciaddr = .any) (b : IpAddr) (hb : request.Requests b)
    (offer : DhcpsMsg) (hany : offer.yiaddr ≠ .any)
    (hoffer : ((Runs.final Dhcps.step (.start addr gw) es₁).handleDhcp m discover).2 =
      some offer) :
    ∃ r, ((Runs.final Dhcps.step (.start addr gw) (es₁ ++ .packet m discover :: es₂)).handleDhcp
        .plenty request).2 = some r ∧
      r.yiaddr = offer.yiaddr ∧
      r.options.take 7 = magicCookie ++ [53, 1, if b = offer.yiaddr then 5 else 6] := by
  obtain ⟨hok, hranged⟩ := run_ranged addr gw es₁ hfair
  rw [Runs.final_append, Runs.final_cons]
  generalize Runs.final Dhcps.step (.start addr gw) es₁ = d at hok hranged hoffer ⊢
  obtain ⟨hupdated, hyiaddr⟩ := handleDhcp_answer hoffer
  rw [hdiscover.ciaddr] at hyiaddr
  have hsettled : (d.step (.packet m discover)).Settled discover.mac offer.yiaddr := by
    have hgiven := @given_settled d discover.mac hranged hok (by rw [← hyiaddr]; exact hany)
    have hstep : d.step (.packet m discover) = d.updated discover := hupdated
    rw [hstep, Dhcps.updated, hdiscover.ciaddr, hyiaddr]
    exact hgiven.answered _
  have hfair' : (Event.packet m discover).Fair d := .inl hdiscover.ciaddr
  obtain ⟨hranged', hok', hs⟩ := plain_run (step_ranged hok hranged hfair')
    (step_ok d (.packet m discover) hok) hsettled hany hplain
  obtain ⟨r, hr, hry, hoptions⟩ := handleDhcp_request (d := Runs.final Dhcps.step
    (d.step (.packet m discover)) es₂) hb hrequest
  have hown : ((Runs.final Dhcps.step (d.step (.packet m discover)) es₂).clientUpdate request.mac
      request.ciaddr).1 = offer.yiaddr := by
    rw [hrequest, hmac]
    exact hs.update_own hranged' hok'
  rw [hown] at hry hoptions
  exact ⟨r, hr, hry, hoptions⟩

/-- A phone requests the address `b`. -/
def requestOf (n : UInt8) (b : IpAddr) : Packet :=
  bootRequest .any (phone n) ([53, 1, 3, 50, 4] ++ (b.bytes ++ [255]))

theorem requests_third : (requestOf 2 ⟨192, 168, 4, 3⟩).Requests ⟨192, 168, 4, 3⟩ where
  short := by decide +kernel
  cookie := by decide +kernel
  options := by
    refine ⟨[(53, [3]), (50, [192, 168, 4, 3])], List.replicate 298 0, by decide +kernel,
      fun o ho => ?_, by decide +kernel, ⟨_, List.mem_cons_self .., rfl⟩, fun o ho hcode => ?_,
      ⟨_, List.mem_cons_of_mem _ (List.mem_cons_self ..), rfl⟩, fun o ho hcode => ?_⟩
    all_goals rcases List.mem_pair.mp ho with rfl | rfl
    · exact ⟨by decide, by decide⟩
    · exact ⟨by decide, by decide⟩
    · rfl
    · exact absurd hcode (by decide)
    · exact absurd hcode (by decide)
    · rfl

/-- The second phone asks for what it was offered, after a third one has joined. -/
theorem offer_is_kept_second :
    ∃ r, ((Runs.final Dhcps.step (.start ownAddress ownAddress)
        (joins [1] ++ .packet .plenty (discoverOf 2) :: joins [3])).handleDhcp .plenty
          (requestOf 2 ⟨192, 168, 4, 3⟩)).2 = some r ∧
      r.yiaddr = ⟨192, 168, 4, 3⟩ ∧ r.options.take 7 = magicCookie ++ [53, 1, 5] := by
  have hoffer : ((Runs.final Dhcps.step (.start ownAddress ownAddress) (joins [1])).handleDhcp
      .plenty (discoverOf 2)).2.map (·.yiaddr) = some ⟨192, 168, 4, 3⟩ := by
    decide +kernel
  obtain ⟨offer, hsome, hyiaddr⟩ := Option.map_eq_some_iff.mp hoffer
  have hkept := offer_is_kept ownAddress ownAddress (joins [1]) (joins [3]) (fair_joins _ _)
    (List.forall_mem_singleton.mpr ⟨rfl, by decide +kernel⟩) .plenty (discoverOf 2)
    (requestOf 2 ⟨192, 168, 4, 3⟩) (by decide +kernel) ⟨rfl, by decide +kernel⟩ rfl
    ⟨192, 168, 4, 3⟩ requests_third offer (by rw [hyiaddr]; decide) hsome
  rw [hyiaddr, if_pos rfl] at hkept
  exact hkept

end HomeAuto.Dhcp
