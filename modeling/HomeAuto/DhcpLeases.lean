import HomeAuto.DhcpServer
import HomeAuto.Lib.Runs
import Mathlib.Data.List.Perm.Basic
import Mathlib.Data.List.Nodup
import Mathlib.Tactic.Common

/-!
# Who holds which lease

A packet can do four things to the list of leases (`Updated`): nothing, renew the lease of the
client that sent it, move it to another address, or add one; and a release removes it.  So a
client has at most one lease, no client changes the lease of another, and an answer that names an
address names the one which the client has a lease of (`packet_isolated`).
-/

namespace HomeAuto.Dhcp

/-! ## The list -/

/-- A lease that is put into the list in order is only added to it. -/
theorem nodeInsertToList_perm (p : DhcpsPool) (ps : List DhcpsPool) :
    (nodeInsertToList p ps).Perm (p :: ps) := by
  induction ps with
  | nil => exact .refl _
  | cons q qs ih =>
      rw [nodeInsertToList]
      split
      · exact .refl _
      · exact (ih.cons q).trans (.swap p q qs)

/-- What `findLoop` says of a piece of the list, met from index `i` on. -/
structure Finds (bssid : CStr) (ip : Option IpAddr) (ps : List DhcpsPool) (i : Nat) (s r : Found) :
    Prop where
  pmac_some : ∀ k, r.pmacNode = some k → s.pmacNode = some k ∨
    ∃ j p, k = i + j ∧ ps[j]? = some p ∧ p.mac = bssid
  pmac_none : r.pmacNode = none → s.pmacNode = none ∧ ∀ p ∈ ps, p.mac ≠ bssid
  pip_some : ∀ k, r.pipNode = some k → s.pipNode = some k ∨
    ∃ j p, k = i + j ∧ ps[j]? = some p ∧ ip = some p.ip
  pip_none : r.pipNode = none → s.pipNode = none ∧ ∀ p ∈ ps, ip ≠ some p.ip

/-- A look at the address finds no client. -/
theorem look_pmacNode (s : Found) (ip : Option IpAddr) (i : Nat) (p : DhcpsPool) :
    (s.look ip i p).pmacNode = s.pmacNode := by
  unfold Found.look
  cases ip with
  | some ip => simp only; split <;> rfl
  | none => simp only; split_ifs <;> rfl

/-- A look at the address finds the lease of that address. -/
theorem look_pipNode (s : Found) (ip : Option IpAddr) (i : Nat) (p : DhcpsPool) :
    (s.look ip i p).pipNode = if ip = some p.ip then some i else s.pipNode := by
  unfold Found.look
  cases ip with
  | some ip =>
      simp only [Option.some_inj, eq_comm (a := ip)]
      split <;> rfl
  | none =>
      simp only [reduceCtorEq, if_false]
      split_ifs <;> rfl

/-- The loop finds the client and the address where the list has them, and misses neither. -/
theorem findLoop_finds (bssid : CStr) (ip : Option IpAddr) (ps : List DhcpsPool) (i : Nat)
    (s : Found) : Finds bssid ip ps i s (findLoop bssid ip ps i s) := by
  induction ps generalizing i s with
  | nil =>
      exact ⟨fun _ h => .inl h, fun h => ⟨h, by simp⟩, fun _ h => .inl h, fun h => ⟨h, by simp⟩⟩
  | cons p ps ih =>
      rw [findLoop]
      by_cases hstop : p.mac = bssid ∧ ip = none
      · rw [if_pos hstop]
        refine ⟨fun k h => .inr ⟨0, p, (Option.some.inj h).symm, rfl, hstop.1⟩,
          fun h => absurd h (by simp), fun k h => .inl h, fun h => ⟨h, fun q _ => ?_⟩⟩
        rw [hstop.2]
        simp
      · rw [if_neg hstop]
        have hrest := ih (i + 1) (Found.look
          (if p.mac = bssid then { s with pmacNode := some i } else s) ip i p)
        refine ⟨fun k h => ?_, fun h => ?_, fun k h => ?_, fun h => ?_⟩
        · rcases hrest.pmac_some k h with hs | ⟨j, q, hk, hq, hmac⟩
          · rw [look_pmacNode] at hs
            by_cases hmac : p.mac = bssid
            · rw [if_pos hmac] at hs
              exact .inr ⟨0, p, (Option.some.inj hs).symm, rfl, hmac⟩
            · rw [if_neg hmac] at hs
              exact .inl hs
          · exact .inr ⟨j + 1, q, by omega, hq, hmac⟩
        · obtain ⟨hs, hps⟩ := hrest.pmac_none h
          rw [look_pmacNode] at hs
          by_cases hmac : p.mac = bssid
          · rw [if_pos hmac] at hs
            exact absurd hs (by simp)
          · rw [if_neg hmac] at hs
            exact ⟨hs, List.forall_mem_cons.mpr ⟨hmac, hps⟩⟩
        · rcases hrest.pip_some k h with hs | ⟨j, q, hk, hq, hip⟩
          · rw [look_pipNode] at hs
            by_cases hip : ip = some p.ip
            · rw [if_pos hip] at hs
              exact .inr ⟨0, p, (Option.some.inj hs).symm, rfl, hip⟩
            · rw [if_neg hip] at hs
              refine .inl ?_
              by_cases hmac : p.mac = bssid
              · rwa [if_pos hmac] at hs
              · rwa [if_neg hmac] at hs
          · exact .inr ⟨j + 1, q, by omega, hq, hip⟩
        · obtain ⟨hs, hps⟩ := hrest.pip_none h
          rw [look_pipNode] at hs
          by_cases hip : ip = some p.ip
          · rw [if_pos hip] at hs
            exact absurd hs (by simp)
          · rw [if_neg hip] at hs
            refine ⟨?_, List.forall_mem_cons.mpr ⟨hip, hps⟩⟩
            by_cases hmac : p.mac = bssid
            · rwa [if_pos hmac] at hs
            · rwa [if_neg hmac] at hs

/-! ## What an update does -/

/-- What holds of the leases at any time. -/
structure Dhcps.Ok (d : Dhcps) : Prop where
  online : ∀ p ∈ d.plist, p.state = .online
  oneEach : (d.plist.map (·.mac)).Nodup

/-- The address which a client without one gets. -/
def Dhcps.free (d : Dhcps) (bssid : CStr) : IpAddr := (d.find bssid none).startIp

/-- **What an update can do** for the client `bssid`, which has the address `ip` or none: nothing,
or the client gets an address. -/
inductive Updated (d : Dhcps) (bssid : CStr) (ip : Option IpAddr) : IpAddr × Dhcps → Prop where
  | refused (b : Bool) : Updated d bssid ip (.any, { d with renew := b })
  | renewed (i : Nat) (q : DhcpsPool) (hq : d.plist[i]? = some q) (hmac : q.mac = bssid)
      (hip : ip = some q.ip) :
      Updated d bssid ip
        (q.ip, { d with plist := d.plist.set i (q.lease .dynamic), renew := true })
  | moved (i : Nat) (p : DhcpsPool) (type : DhcpsType) (hp : d.plist[i]? = some p)
      (hmac : p.mac = bssid) (hfree : ∀ q ∈ d.plist, ip ≠ some q.ip) :
      Updated d bssid ip
        (ip.getD (d.free bssid), { d with
          plist := nodeInsertToList ({ p with ip := ip.getD (d.free bssid) }.lease type)
            (d.plist.eraseIdx i)
          renew := false })
  | added (type : DhcpsType) (hnew : ∀ q ∈ d.plist, q.mac ≠ bssid)
      (hfree : ∀ q ∈ d.plist, ip ≠ some q.ip)
      (hend : (ip.getD (d.free bssid)).addr ≤ d.dhcpsLease.endIp.addr) :
      Updated d bssid ip
        (ip.getD (d.free bssid), { d with
          plist := nodeInsertToList ⟨ip.getD (d.free bssid), bssid, dhcpsLeaseTime, type, .online⟩
            d.plist
          renew := false })

/-- A client with one lease has it in one place of the list. -/
theorem mac_inj {ps : List DhcpsPool} (h : (ps.map (·.mac)).Nodup) {i j : Nat} {p q : DhcpsPool}
    (hp : ps[i]? = some p) (hq : ps[j]? = some q) (hmac : p.mac = q.mac) : i = j := by
  obtain ⟨hi, rfl⟩ := List.getElem?_eq_some_iff.mp hp
  obtain ⟨hj, rfl⟩ := List.getElem?_eq_some_iff.mp hq
  have hi' : i < (ps.map (·.mac)).length := by rwa [List.length_map]
  have hj' : j < (ps.map (·.mac)).length := by rwa [List.length_map]
  have hsame : (ps.map (·.mac))[i] = (ps.map (·.mac))[j] := by
    rw [List.getElem_map, List.getElem_map]
    exact hmac
  exact (List.Nodup.getElem_inj_iff h).mp hsame

/-- The search hands out the same free address, whatever address it looks for. -/
theorem getD_free {d : Dhcps} {bssid : CStr} {ip : Option IpAddr} :
    ip.getD (d.find bssid ip).startIp = ip.getD (d.free bssid) := by
  cases ip with
  | some ip => rfl
  | none => rfl

/-- Behind the search, each way through the update is one of the four. -/
theorem updateFound_updated {d : Dhcps} (hok : d.Ok) (bssid : CStr) (ip : Option IpAddr)
    (type : DhcpsType) :
    Updated d bssid ip
      ({ d with renew := false }.updateFound bssid ip type (d.find bssid ip)) := by
  have hfinds : Finds bssid ip d.plist 0 _ (d.find bssid ip) := findLoop_finds bssid ip d.plist 0 _
  have hpmac (i : Nat) (h : (d.find bssid ip).pmacNode = some i) :
      ∃ p, d.plist[i]? = some p ∧ p.mac = bssid := by
    rcases hfinds.pmac_some i h with hs | ⟨j, p, rfl, hp, hmac⟩
    · exact absurd hs (by simp)
    · exact ⟨p, by rwa [Nat.zero_add], hmac⟩
  have hpip (i : Nat) (h : (d.find bssid ip).pipNode = some i) :
      ∃ p, d.plist[i]? = some p ∧ ip = some p.ip := by
    rcases hfinds.pip_some i h with hs | ⟨j, p, rfl, hp, hip⟩
    · exact absurd hs (by simp)
    · exact ⟨p, by rwa [Nat.zero_add], hip⟩
  have honline {j : Nat} {q : DhcpsPool} (hq : d.plist[j]? = some q) : q.state ≠ .offline := by
    rw [hok.online q (List.mem_of_getElem? hq)]
    simp
  rw [Dhcps.updateFound]
  cases hmac : (d.find bssid ip).pmacNode with
  | some i =>
      obtain ⟨p, hp, hpbssid⟩ := hpmac i hmac
      cases hip : (d.find bssid ip).pipNode with
      | some j =>
          obtain ⟨q, hq, hqip⟩ := hpip j hip
          simp only [hq]
          by_cases hsame : j = i
          · subst hsame
            obtain rfl : p = q := Option.some.inj (hp.symm.trans hq)
            rw [if_neg (not_not.mpr rfl)]
            exact .renewed j p hp hpbssid hqip
          · rw [if_pos hsame, if_pos (honline hq)]
            exact .refused false
      | none =>
          simp only [hp, getD_free]
          exact .moved i p type hp hpbssid (hfinds.pip_none hip).2
  | none =>
      have hnew := (hfinds.pmac_none hmac).2
      cases hip : (d.find bssid ip).pipNode with
      | some j =>
          obtain ⟨q, hq, -⟩ := hpip j hip
          simp only [hq]
          rw [if_pos (honline hq)]
          exact .refused false
      | none =>
          simp only [getD_free]
          split
          · exact .refused false
          · next hend => exact .added type hnew (hfinds.pip_none hip).2 (not_lt.mp hend)

/-- The address that a client has, as the server takes it from a packet. -/
def wanted (ip : IpAddr) : Option IpAddr := if ip = .any then none else some ip

/-- **Every update is one of the four**, with the address that the packet brings. -/
theorem clientUpdate_updated {d : Dhcps} (hok : d.Ok) (bssid : CStr) (ip : IpAddr) :
    Updated d bssid (wanted ip) (d.clientUpdate bssid ip) := by
  unfold Dhcps.clientUpdate wanted
  by_cases hbroadcast : ip = .broadcast
  · rw [if_pos hbroadcast]
    exact .refused d.renew
  · rw [if_neg hbroadcast]
    by_cases hany : ip = .any
    · rw [if_pos hany, if_pos hany]
      simp only
      split
      · exact .refused false
      · exact updateFound_updated hok bssid none .dynamic
    · rw [if_neg hany, if_neg hany]
      exact updateFound_updated hok bssid (some ip) .static

/-! ## Leases of others -/

/-- The client `bssid` has one lease, on `a`, in the place of the one it may have had; the leases
of others are as they were. -/
def Gives (d d' : Dhcps) (bssid : CStr) (a : IpAddr) : Prop :=
  ∃ old rest new, d.plist.Perm (old ++ rest) ∧ (∀ p ∈ old, p.mac = bssid) ∧
    (∀ p ∈ rest, p.mac ≠ bssid) ∧ d'.plist.Perm (new :: rest) ∧ new.mac = bssid ∧ new.ip = a ∧
    new.state = .online

/-- A list is one of its entries and the others. -/
theorem eraseIdx_perm {ps : List DhcpsPool} {i : Nat} {p : DhcpsPool} (hp : ps[i]? = some p) :
    ps.Perm ([p] ++ ps.eraseIdx i) := by
  obtain ⟨hi, rfl⟩ := List.getElem?_eq_some_iff.mp hp
  exact (List.getElem_cons_eraseIdx_perm hi).symm

/-- Once the lease of a client is removed, all that are left are of others. -/
theorem mac_ne_of_eraseIdx {ps : List DhcpsPool} (h : (ps.map (·.mac)).Nodup) {i : Nat}
    {p : DhcpsPool} (hp : ps[i]? = some p) : ∀ q ∈ ps.eraseIdx i, q.mac ≠ p.mac := by
  have hperm := (eraseIdx_perm hp).map (·.mac)
  have hnodup := hperm.nodup_iff.mp h
  rw [List.singleton_append, List.map_cons, List.nodup_cons] at hnodup
  intro q hq hmac
  exact hnodup.1 (List.mem_map.mpr ⟨q, hq, hmac⟩)

/-- An update changes no lease, or gives the client one on the address it answers with. -/
theorem Updated.gives {d : Dhcps} {bssid : CStr} {ip : Option IpAddr} {u : IpAddr × Dhcps}
    (h : Updated d bssid ip u) (hok : d.Ok) :
    u.2.plist = d.plist ∧ u.1 = .any ∨ Gives d u.2 bssid u.1 := by
  cases h with
  | refused b => exact .inl ⟨rfl, rfl⟩
  | renewed i q hq hmac hip =>
      refine .inr ⟨[q], d.plist.eraseIdx i, q.lease .dynamic, eraseIdx_perm hq, ?_, ?_, ?_, hmac,
        rfl, rfl⟩
      · simpa using hmac
      · rw [← hmac]
        exact mac_ne_of_eraseIdx hok.oneEach hq
      · exact List.set_perm_cons_eraseIdx (List.getElem?_eq_some_iff.mp hq).1 _
  | moved i p type hp hmac hfree =>
      refine .inr ⟨[p], d.plist.eraseIdx i, _, eraseIdx_perm hp, ?_, ?_,
        nodeInsertToList_perm _ _, hmac, rfl, rfl⟩
      · simpa using hmac
      · rw [← hmac]
        exact mac_ne_of_eraseIdx hok.oneEach hp
  | added type hnew hfree hend =>
      exact .inr ⟨[], d.plist, _, .refl _, by simp, hnew, nodeInsertToList_perm _ _, rfl, rfl, rfl⟩

/-- A lease that is given replaces the one the client had, so each client still has at most one. -/
theorem Gives.ok {d d' : Dhcps} {bssid : CStr} {a : IpAddr} (h : Gives d d' bssid a)
    (hok : d.Ok) : d'.Ok := by
  obtain ⟨old, rest, new, hold, -, hrest, hnew, hmac, -, honline⟩ := h
  refine ⟨fun p hp => ?_, ?_⟩
  · rcases List.mem_cons.mp (hnew.mem_iff.mp hp) with rfl | hp
    · exact honline
    · exact hok.online p (hold.mem_iff.mpr (List.mem_append_right _ hp))
  · have hnodup := (hold.map (·.mac)).nodup_iff.mp hok.oneEach
    rw [List.map_append, List.nodup_append] at hnodup
    refine (hnew.map (·.mac)).nodup_iff.mpr (List.nodup_cons.mpr ⟨?_, hnodup.2.1⟩)
    intro hin
    obtain ⟨p, hp, hsame⟩ := List.mem_map.mp hin
    exact hrest p hp (hsame.trans hmac)

/-- The leases of other clients are as they were. -/
def SameOthers (d d' : Dhcps) (bssid : CStr) : Prop :=
  ∀ q, q.mac ≠ bssid → (q ∈ d'.plist ↔ q ∈ d.plist)

/-- It is no lease of anybody else. -/
theorem Gives.sameOthers {d d' : Dhcps} {bssid : CStr} {a : IpAddr} (h : Gives d d' bssid a) :
    SameOthers d d' bssid := by
  obtain ⟨old, rest, new, hold, holdMac, -, hnew, hmac, -, -⟩ := h
  intro q hq
  rw [hnew.mem_iff, hold.mem_iff, List.mem_cons, List.mem_append]
  constructor
  · rintro (rfl | hin)
    · exact absurd hmac hq
    · exact .inr hin
  · rintro (hin | hin)
    · exact absurd (holdMac q hin) hq
    · exact .inr hin

/-- The client has the address now. -/
theorem Gives.lease {d d' : Dhcps} {bssid : CStr} {a : IpAddr} (h : Gives d d' bssid a) :
    ∃ p ∈ d'.plist, p.mac = bssid ∧ p.ip = a := by
  obtain ⟨old, rest, new, -, -, -, hnew, hmac, hip, -⟩ := h
  exact ⟨new, hnew.mem_iff.mpr (List.mem_cons_self ..), hmac, hip⟩

/-! ## Leaving -/

/-- What a release does: nothing, or it removes a lease of the client. -/
inductive Left (d : Dhcps) (bssid : CStr) (ip : IpAddr) : Dhcps → Prop where
  | nothing (h : ∀ p ∈ d.plist, ¬(p.mac = bssid ∧ p.ip = ip)) : Left d bssid ip d
  | removed (i : Nat) (p : DhcpsPool) (hp : d.plist[i]? = some p) (hmac : p.mac = bssid)
      (hip : p.ip = ip) : Left d bssid ip { d with plist := d.plist.eraseIdx i }

/-- **A release is one of the two**: nothing, or the lease of the sender on its own address goes. -/
theorem clientLeave_left (d : Dhcps) (bssid : CStr) (ip : IpAddr) :
    Left d bssid ip (d.clientLeave bssid ip true) := by
  unfold Dhcps.clientLeave
  cases hfind : d.plist.findIdx? fun p => p.mac = bssid ∧ p.ip = ip with
  | none =>
      refine .nothing fun p hp h => ?_
      have hnone := List.findIdx?_eq_none_iff.mp hfind p hp
      exact absurd h (of_decide_eq_false hnone)
  | some i =>
      obtain ⟨hi, htrue, -⟩ := List.findIdx?_eq_some_iff_getElem.mp hfind
      obtain ⟨hmac, hip⟩ := of_decide_eq_true htrue
      have hp : d.plist[i]? = some d.plist[i] := List.getElem?_eq_getElem hi
      simp only [hp, or_true, if_true]
      exact .removed i _ hp hmac hip

/-- A list with one lease less is still in order. -/
theorem Left.ok {d d' : Dhcps} {bssid : CStr} {ip : IpAddr} (h : Left d bssid ip d') (hok : d.Ok) :
    d'.Ok := by
  cases h with
  | nothing h => exact hok
  | removed i p hp hmac hip =>
      have hsub := List.eraseIdx_sublist d.plist i
      exact ⟨fun q hq => hok.online q (hsub.subset hq), (hsub.map _).nodup hok.oneEach⟩

/-- A release does nothing to the leases of others. -/
theorem Left.sameOthers {d d' : Dhcps} {bssid : CStr} {ip : IpAddr} (h : Left d bssid ip d') :
    SameOthers d d' bssid := by
  cases h with
  | nothing h => exact fun q _ => Iff.rfl
  | removed i p hp hmac hip =>
      intro q hq
      rw [(eraseIdx_perm hp).mem_iff, List.singleton_append, List.mem_cons]
      constructor
      · exact .inr
      · rintro (rfl | hin)
        · exact absurd hmac hq
        · exact hin

/-! ## A packet -/

/-- What a packet does to the leases. -/
structure Handled (d : Dhcps) (p : Packet) (x : Dhcps × Option DhcpsMsg) : Prop where
  ok : x.1.Ok
  others : SameOthers d x.1 p.mac
  answer : ∀ r, x.2 = some r → r.chaddr = p.chaddr ∧ r.xid = p.xid ∧
    (r.yiaddr = .any ∨ ∃ q ∈ x.1.plist, q.mac = p.mac ∧ q.ip = r.yiaddr)

/-- What is sent is the message that was built, if there was a buffer for it. -/
theorem Memory.sendto_eq {m : Memory} {msg r : DhcpsMsg} (h : m.sendto msg = some r) :
    msg = r := by
  unfold Memory.sendto at h
  split at h
  · exact Option.some.inj h
  · cases h

/-- An answer goes to the sender of the packet, and names the client address. -/
theorem send_fields {d : Dhcps} {m : Memory} {p : Packet} {a : Answer} {r : DhcpsMsg}
    (h : d.send m p a = some r) :
    r.chaddr = p.chaddr ∧ r.xid = p.xid ∧ r.yiaddr = d.clientAddress ∧ a ≠ .release := by
  cases a with
  | offer | ack | nak =>
      obtain rfl := Memory.sendto_eq h
      exact ⟨rfl, rfl, rfl, by simp⟩
  | idle | release => exact absurd h (by simp [Dhcps.send])

/-- After the leases have been seen to, the answer tells of the client address. -/
theorem Handled.of_send {d d' : Dhcps} {m : Memory} {p : Packet} {a : Answer} (hok : d'.Ok)
    (hothers : SameOthers d d' p.mac)
    (hlease : a ≠ .release → d'.clientAddress = .any ∨
      ∃ q ∈ d'.plist, q.mac = p.mac ∧ q.ip = d'.clientAddress) :
    Handled d p (d', d'.send m p a) := by
  refine ⟨hok, hothers, fun r h => ?_⟩
  obtain ⟨hchaddr, hxid, hyiaddr, hrelease⟩ := send_fields h
  refine ⟨hchaddr, hxid, ?_⟩
  rw [hyiaddr]
  exact hlease hrelease

/-- A packet with the cookie: an update, then a release if the packet is one, then the answer. -/
theorem parseMsg_handled {d : Dhcps} (hok : d.Ok) (m : Memory) (p : Packet)
    (hcookie : p.cookie = magicCookie) :
    Handled d p ((d.parseMsg p).2, (d.parseMsg p).2.send m p (d.parseMsg p).1) := by
  have hupdated := clientUpdate_updated hok p.mac p.ciaddr
  unfold Dhcps.parseMsg
  rw [if_pos hcookie]
  simp only
  generalize d.clientUpdate p.mac p.ciaddr = u at hupdated ⊢
  have hmid : u.2.Ok ∧ SameOthers d u.2 p.mac ∧
      (u.1 = .any ∨ ∃ q ∈ u.2.plist, q.mac = p.mac ∧ q.ip = u.1) := by
    rcases hupdated.gives hok with ⟨hsame, hany⟩ | hgives
    · refine ⟨⟨?_, ?_⟩, fun q _ => by rw [hsame], .inl hany⟩
      · rw [hsame]
        exact hok.online
      · rw [hsame]
        exact hok.oneEach
    · exact ⟨hgives.ok hok, hgives.sameOthers, .inr hgives.lease⟩
  obtain ⟨hok', hothers, hlease⟩ := hmid
  generalize parseOptions u.1 u.2.renew (p.memory.drop 240) (p.totLen - 240) = ret
  by_cases hrelease : ret = .release
  · rw [if_pos hrelease]
    have hleft := clientLeave_left u.2 p.mac p.ciaddr
    generalize u.2.clientLeave p.mac p.ciaddr true = left at hleft ⊢
    have hleftOk := hleft.ok hok'
    exact .of_send ⟨hleftOk.online, hleftOk.oneEach⟩
      (fun q hq => (hleft.sameOthers q hq).trans (hothers q hq)) fun h => absurd hrelease h
  · rw [if_neg hrelease]
    exact .of_send ⟨hok'.online, hok'.oneEach⟩ hothers fun _ => hlease

/-- **Every packet is handled so**, also one that there is no memory for. -/
theorem handleDhcp_handled {d : Dhcps} (hok : d.Ok) (m : Memory) (p : Packet) :
    Handled d p (d.handleDhcp m p) := by
  unfold Dhcps.handleDhcp
  split
  · by_cases hcookie : p.cookie = magicCookie
    · exact parseMsg_handled hok m p hcookie
    · have hidle : d.parseMsg p = (.idle, d) := if_neg hcookie
      simp only [hidle]
      exact ⟨hok, fun q _ => Iff.rfl, fun r h => absurd h (by simp [Dhcps.send])⟩
  · exact ⟨hok, fun q _ => Iff.rfl, fun r h => absurd h (by simp)⟩

/-! ## Runs -/

/-- A restart drops all leases. -/
theorem restart_plist (d : Dhcps) (addr gw : IpAddr) : (d.restart addr gw).plist = [] := rfl

/-- No leases are in order. -/
theorem restart_ok (d : Dhcps) (addr gw : IpAddr) : (d.restart addr gw).Ok := by
  constructor <;> rw [restart_plist]
  · exact fun p hp => absurd hp List.not_mem_nil
  · exact List.nodup_nil

/-- One event keeps the leases in order. -/
theorem step_ok (d : Dhcps) (e : Event) (hok : d.Ok) : (d.step e).Ok := by
  cases e with
  | restart addr gw => exact restart_ok d addr gw
  | packet m p => exact (handleDhcp_handled hok m p).ok

/-- So they are in order after any run. -/
theorem run_ok (addr gw : IpAddr) (es : List Event) :
    (Runs.final Dhcps.step (.start addr gw) es).Ok :=
  (Runs.invariant step_ok (restart_ok _ addr gw) es).last

/-- **Leases are kept apart.**  However the server got where it is, no client has two leases; a
packet leaves the leases of all other clients as they are; and an answer goes back to the client
that sent the packet, and if it names an address, that client has the lease of it. -/
theorem packet_isolated (addr gw : IpAddr) (es : List Event) (m : Memory) (p : Packet) :
    let d := Runs.final Dhcps.step (.start addr gw) es
    (d.plist.map (·.mac)).Nodup ∧
      (∀ q, q.mac ≠ p.mac → (q ∈ (d.handleDhcp m p).1.plist ↔ q ∈ d.plist)) ∧
      ∀ r, (d.handleDhcp m p).2 = some r → r.chaddr = p.chaddr ∧ r.xid = p.xid ∧
        (r.yiaddr = .any ∨ ∃ q ∈ (d.handleDhcp m p).1.plist, q.mac = p.mac ∧ q.ip = r.yiaddr) := by
  intro d
  have hok : d.Ok := run_ok addr gw es
  have hhandled := handleDhcp_handled hok m p
  exact ⟨hok.oneEach, hhandled.others, hhandled.answer⟩

end HomeAuto.Dhcp
