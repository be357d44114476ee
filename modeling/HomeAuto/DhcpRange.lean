import HomeAuto.DhcpLeases
import HomeAuto.Lib.FirstGap
import Mathlib.Data.List.TakeWhile

/-!
# Which addresses are given out

The list of leases is ordered by the word `addr`, and a client without an address is given the
first one that the list leaves out (`free_number`).  As long as clients come with no address or
with one of the range, no two of them get the same, and none gets that of the server
(`addresses_distinct`); a newcomer gets the first address that is free, and none only if all are
taken (`newcomer_first_fit`).

A client that comes with an address below the range spoils this: from then on every newcomer is
given the first address of the range.
-/

namespace HomeAuto.Dhcp

open FirstGap

/-- The number of a host in its network. -/
def IpAddr.number (ip : IpAddr) : Nat := ip.o4.toNat

/-- The address belongs to the network of the range. -/
structure DhcpsLease.InNet (l : DhcpsLease) (ip : IpAddr) : Prop where
  o1 : ip.o1 = l.startIp.o1
  o2 : ip.o2 = l.startIp.o2
  o3 : ip.o3 = l.startIp.o3

/-- The address belongs to the range. -/
structure DhcpsLease.InRange (l : DhcpsLease) (ip : IpAddr) : Prop extends l.InNet ip where
  start_le : l.startIp.number ≤ ip.number
  le_end : ip.number ≤ l.endIp.number

section Net

variable {l : DhcpsLease} {x y : IpAddr}

theorem DhcpsLease.InNet.eq_iff (hx : l.InNet x) (hy : l.InNet y) : x = y ↔ x.number = y.number := by
  constructor
  · rintro rfl
    rfl
  · intro h
    cases x
    cases y
    simp only [IpAddr.mk.injEq]
    exact ⟨hx.o1.trans hy.o1.symm, hx.o2.trans hy.o2.symm, hx.o3.trans hy.o3.symm,
      UInt8.toNat_inj.mp h⟩

theorem DhcpsLease.InNet.addr_lt_iff (hx : l.InNet x) (hy : l.InNet y) :
    x.addr < y.addr ↔ x.number < y.number := by
  unfold IpAddr.addr IpAddr.number
  rw [hx.o1, hx.o2, hx.o3, hy.o1, hy.o2, hy.o3]
  omega

theorem DhcpsLease.InNet.next (hx : l.InNet x) (h : x.number < 255) :
    l.InNet x.next ∧ x.next.number = x.number + 1 := by
  have h1 := x.o1.toNat_lt
  have h2 := x.o2.toNat_lt
  have h3 := x.o3.toNat_lt
  unfold IpAddr.number at h ⊢
  unfold IpAddr.next IpAddr.htonl IpAddr.ntohl
  refine ⟨⟨?_, ?_, ?_⟩, ?_⟩
  · rw [← hx.o1, ← UInt8.toNat_inj, UInt8.toNat_ofNat']
    omega
  · rw [← hx.o2, ← UInt8.toNat_inj, UInt8.toNat_ofNat']
    omega
  · rw [← hx.o3, ← UInt8.toNat_inj, UInt8.toNat_ofNat']
    omega
  · rw [UInt8.toNat_ofNat']
    omega

end Net

/-! ## The free address -/

/-- The first address from `s` on that the row leaves out, as the loop counts. -/
def gapFrom : IpAddr → List IpAddr → IpAddr
  | s, [] => s
  | s, x :: xs => if x ≠ s then s else gapFrom s.next xs

theorem findLoop_flag (bssid : CStr) (ps : List DhcpsPool) (i : Nat) (s : Found)
    (h : s.flag = true) : (findLoop bssid none ps i s).startIp = s.startIp := by
  induction ps generalizing i s with
  | nil => rfl
  | cons p ps ih =>
      rw [findLoop]
      by_cases hmac : p.mac = bssid
      · rw [if_pos ⟨hmac, rfl⟩]
      · have hlook : s.look none i p = s := if_pos h
        rw [if_neg (fun h => hmac h.1), if_neg hmac, hlook]
        exact ih (i + 1) s h

theorem findLoop_startIp (bssid : CStr) (ps : List DhcpsPool) (i : Nat) (s : Found)
    (h : s.flag = false) : (findLoop bssid none ps i s).startIp =
      gapFrom s.startIp ((ps.takeWhile (·.mac ≠ bssid)).map (·.ip)) := by
  induction ps generalizing i s with
  | nil => rfl
  | cons p ps ih =>
      rw [findLoop]
      by_cases hmac : p.mac = bssid
      · rw [if_pos ⟨hmac, rfl⟩, List.takeWhile_cons_of_neg (by simp [hmac])]
        rfl
      · have hflag : ¬s.flag = true := by simp [h]
        rw [if_neg (fun h => hmac h.1), if_neg hmac, List.takeWhile_cons_of_pos (by simp [hmac]),
          List.map_cons, gapFrom, Found.look]
        simp only [if_neg hflag]
        by_cases hip : p.ip ≠ s.startIp
        · rw [if_pos hip, if_pos hip]
          exact findLoop_flag bssid ps (i + 1) _ rfl
        · rw [if_neg hip, if_neg hip]
          exact ih (i + 1) _ h

/-- The leases in front of that of a client. -/
def Dhcps.before (d : Dhcps) (bssid : CStr) : List DhcpsPool := d.plist.takeWhile (·.mac ≠ bssid)

theorem gapFrom_number {l : DhcpsLease} {s : IpAddr} {xs : List IpAddr} (hs : l.InNet s)
    (hxs : ∀ x ∈ xs, l.InNet x ∧ x.number < 255) :
    l.InNet (gapFrom s xs) ∧ (gapFrom s xs).number = firstGap s.number (xs.map IpAddr.number) := by
  induction xs generalizing s with
  | nil => exact ⟨hs, rfl⟩
  | cons x xs ih =>
      rw [List.forall_mem_cons] at hxs
      rw [gapFrom, List.map_cons, firstGap]
      by_cases hx : x = s
      · subst hx
        obtain ⟨hnext, hnumber⟩ := hs.next hxs.1.2
        rw [if_neg (not_not.mpr rfl), if_pos rfl, ← hnumber]
        exact ih hnext hxs.2
      · have hne : ¬x.number = s.number := fun h => hx ((hxs.1.1.eq_iff hs).mpr h)
        rw [if_pos hx, if_neg hne]
        exact ⟨hs, rfl⟩

/-! ## Leases in the range -/

/-- The range lies in one network, which is that of the server, and leaves out its address. -/
structure DhcpsLease.RangeOk (l : DhcpsLease) (server : IpAddr) : Prop where
  serverNet : l.InNet server
  endNet : l.InNet l.endIp
  start_le : l.startIp.number ≤ l.endIp.number
  end_lt : l.endIp.number < 255
  server : ¬l.InRange server

/-- The addresses on lease. -/
def Dhcps.ips (d : Dhcps) : List IpAddr := d.plist.map (·.ip)

/-- All leases are of addresses in the range, in rising order. -/
structure Dhcps.Ranged (d : Dhcps) : Prop where
  range : d.dhcpsLease.RangeOk d.serverAddress
  inRange : ∀ a ∈ d.ips, d.dhcpsLease.InRange a
  rising : (d.ips.map IpAddr.number).Pairwise (· < ·)

theorem Dhcps.Ranged.start_le {d : Dhcps} (h : d.Ranged) :
    ∀ n ∈ d.ips.map IpAddr.number, d.dhcpsLease.startIp.number ≤ n := by
  intro n hn
  obtain ⟨a, ha, rfl⟩ := List.mem_map.mp hn
  exact (h.inRange a ha).start_le

theorem startNet (l : DhcpsLease) : l.InNet l.startIp := ⟨rfl, rfl, rfl⟩

/-- **The free address** is the first gap among the leases in front of the client's own. -/
theorem free_number {d : Dhcps} (h : d.Ranged) (bssid : CStr) :
    d.dhcpsLease.InNet (d.free bssid) ∧ (d.free bssid).number = firstGap d.dhcpsLease.startIp.number
      (((d.before bssid).map (·.ip)).map IpAddr.number) := by
  have hstart : d.free bssid = gapFrom d.dhcpsLease.startIp ((d.before bssid).map (·.ip)) :=
    findLoop_startIp bssid d.plist 0 _ rfl
  rw [hstart]
  refine gapFrom_number (startNet d.dhcpsLease) fun x hx => ?_
  have hsub : ((d.before bssid).map (·.ip)).Sublist d.ips := (List.takeWhile_sublist _).map _
  have hin := h.inRange x (hsub.subset hx)
  exact ⟨hin.toInNet, hin.le_end.trans_lt h.range.end_lt⟩

/-- The list at the lease of a client. -/
theorem plist_split {d : Dhcps} {bssid : CStr} {p : DhcpsPool} (hp : p ∈ d.plist)
    (hmac : p.mac = bssid) : ∃ q post, d.plist = d.before bssid ++ q :: post ∧ q.mac = bssid := by
  have hsplit : d.before bssid ++ d.plist.dropWhile (·.mac ≠ bssid) = d.plist :=
    List.takeWhile_append_dropWhile
  cases hdrop : d.plist.dropWhile (·.mac ≠ bssid) with
  | nil =>
      have hall := List.dropWhile_eq_nil_iff.mp hdrop p hp
      exact absurd hmac (by simpa using hall)
  | cons q post =>
      have hfirst := List.head_dropWhile_not (·.mac ≠ bssid) (l := d.plist) (by rw [hdrop]; simp)
      simp only [hdrop, List.head_cons] at hfirst
      exact ⟨q, post, by rw [← hdrop, hsplit], by simpa using hfirst⟩

/-- Without a lease of the client the whole list is in front of it. -/
theorem before_eq {d : Dhcps} {bssid : CStr} (h : ∀ q ∈ d.plist, q.mac ≠ bssid) :
    d.before bssid = d.plist :=
  List.takeWhile_eq_self_iff.mpr fun q hq => by simpa using h q hq

/-- A lease that goes into a rising list. -/
theorem nodeInsertToList_rising {l : DhcpsLease} {p : DhcpsPool} {ps : List DhcpsPool}
    (hp : l.InNet p.ip) (hps : ∀ q ∈ ps, l.InNet q.ip)
    (hfresh : ∀ q ∈ ps, q.ip.number ≠ p.ip.number)
    (hrise : ((ps.map (·.ip)).map IpAddr.number).Pairwise (· < ·)) :
    (((nodeInsertToList p ps).map (·.ip)).map IpAddr.number).Pairwise (· < ·) := by
  induction ps with
  | nil => exact List.pairwise_singleton _ _
  | cons q qs ih =>
      rw [List.forall_mem_cons] at hps hfresh
      rw [List.map_cons, List.map_cons, List.pairwise_cons] at hrise
      rw [nodeInsertToList]
      by_cases hlt : p.ip.addr < q.ip.addr
      · rw [if_pos hlt, List.map_cons, List.map_cons, List.pairwise_cons, List.map_cons,
          List.map_cons, List.pairwise_cons]
        have hnumber := (hp.addr_lt_iff hps.1).mp hlt
        refine ⟨fun n hn => ?_, hrise⟩
        rcases List.mem_cons.mp hn with rfl | hn
        · exact hnumber
        · exact hnumber.trans (hrise.1 n hn)
      · rw [if_neg hlt, List.map_cons, List.map_cons, List.pairwise_cons]
        have hnumber := (not_congr (hp.addr_lt_iff hps.1)).mp hlt
        refine ⟨fun n hn => ?_, ih hps.2 hfresh.2 hrise.2⟩
        obtain ⟨a, ha, rfl⟩ := List.mem_map.mp hn
        obtain ⟨r, hr, rfl⟩ := List.mem_map.mp ha
        rcases List.mem_cons.mp ((nodeInsertToList_perm p qs).mem_iff.mp hr) with rfl | hr
        · have := hfresh.1
          omega
        · exact hrise.1 _ (List.mem_map_of_mem (List.mem_map_of_mem hr))

/-- The numbers of some leases. -/
def numbers (ps : List DhcpsPool) : List Nat := (ps.map (·.ip)).map IpAddr.number

theorem mem_numbers {ps : List DhcpsPool} {q : DhcpsPool} (hq : q ∈ ps) :
    q.ip.number ∈ numbers ps :=
  List.mem_map_of_mem (List.mem_map_of_mem hq)

theorem numbers_append (ps qs : List DhcpsPool) : numbers (ps ++ qs) = numbers ps ++ numbers qs := by
  simp [numbers]

section Ranged

variable {d : Dhcps} {bssid : CStr}

/-- The free address is not on lease to another client. -/
theorem free_not_taken (h : d.Ranged) :
    ∀ q ∈ d.plist, q.mac ≠ bssid → q.ip.number ≠ (d.free bssid).number := by
  intro q hq hmac
  rw [(free_number h bssid).2]
  intro heq
  have hrise : (numbers d.plist).Pairwise (· < ·) := h.rising
  have hstart : ∀ n ∈ numbers d.plist, d.dhcpsLease.startIp.number ≤ n := h.start_le
  by_cases hown : ∃ p ∈ d.plist, p.mac = bssid
  · obtain ⟨p, hp, hpmac⟩ := hown
    obtain ⟨r, post, hsplit, hr⟩ := plist_split hp hpmac
    rw [hsplit, numbers_append] at hrise hstart
    refine firstGap_not_mem_around hrise hstart ?_
    rw [hsplit] at hq
    have hin : q ∈ d.before bssid ++ post := by
      rcases List.mem_append.mp hq with hq | hq
      · exact List.mem_append_left _ hq
      · rcases List.mem_cons.mp hq with rfl | hq
        · exact absurd hr hmac
        · exact List.mem_append_right _ hq
    have hnumber := mem_numbers hin
    rw [numbers_append, heq] at hnumber
    exact hnumber
  · have hall : d.before bssid = d.plist :=
      before_eq fun p hp hpmac => hown ⟨p, hp, hpmac⟩
    refine firstGap_not_mem hrise hstart ?_
    have hnumber := mem_numbers hq
    rw [heq, hall] at hnumber
    exact hnumber

/-- The free address is no later than the one that the client has. -/
theorem free_le_own (h : d.Ranged) {p : DhcpsPool} (hp : p ∈ d.plist) (hmac : p.mac = bssid)
    (hok : d.Ok) : (d.free bssid).number ≤ p.ip.number := by
  obtain ⟨r, post, hsplit, hr⟩ := plist_split hp hmac
  obtain ⟨i, hi, rfl⟩ := List.getElem_of_mem hp
  have hrmem : r ∈ d.plist := by rw [hsplit]; simp
  obtain ⟨j, hj, rfl⟩ := List.getElem_of_mem hrmem
  have hsame : i = j := mac_inj hok.oneEach (List.getElem?_eq_getElem hi)
    (List.getElem?_eq_getElem hj) (hmac.trans hr.symm)
  subst hsame
  have hrise : (numbers d.plist).Pairwise (· < ·) := h.rising
  have hstart : ∀ n ∈ numbers d.plist, d.dhcpsLease.startIp.number ≤ n := h.start_le
  have hcut : numbers d.plist =
      numbers (d.before bssid) ++ d.plist[i].ip.number :: numbers post := by
    conv_lhs => rw [hsplit, numbers_append]
    rfl
  rw [hcut] at hrise hstart
  rw [(free_number h bssid).2]
  exact firstGap_le hrise hstart

/-- The address which an update gives is in the range, and not on lease to another. -/
theorem given_ranged (h : d.Ranged) {ip : Option IpAddr}
    (hip : ∀ a, ip = some a → d.dhcpsLease.InRange a) (hfree : ∀ q ∈ d.plist, ip ≠ some q.ip) :
    d.dhcpsLease.InNet (ip.getD (d.free bssid)) ∧
      d.dhcpsLease.startIp.number ≤ (ip.getD (d.free bssid)).number ∧
      ∀ q ∈ d.plist, q.mac ≠ bssid → q.ip.number ≠ (ip.getD (d.free bssid)).number := by
  cases ip with
  | none =>
      obtain ⟨hnet, hnumber⟩ := free_number h bssid
      exact ⟨hnet, by rw [Option.getD_none, hnumber]; exact le_firstGap _ _, free_not_taken h⟩
  | some a =>
      have hin := hip a rfl
      refine ⟨hin.toInNet, hin.start_le, fun q hq _ heq => hfree q hq ?_⟩
      have hqin := h.inRange q.ip (List.mem_map_of_mem hq)
      rw [(hin.toInNet.eq_iff hqin.toInNet).mpr heq.symm]

/-- A lease in the range that goes into the list. -/
theorem Dhcps.Ranged.insert (h : d.Ranged) {d' : Dhcps} {p : DhcpsPool} {ps : List DhcpsPool}
    (hlease : d'.dhcpsLease = d.dhcpsLease) (hserver : d'.serverAddress = d.serverAddress)
    (hplist : d'.plist = nodeInsertToList p ps) (hsub : ps.Sublist d.plist)
    (hp : d.dhcpsLease.InRange p.ip) (hfresh : ∀ q ∈ ps, q.ip.number ≠ p.ip.number) :
    d'.Ranged := by
  have hnet : ∀ q ∈ ps, d.dhcpsLease.InRange q.ip := fun q hq =>
    h.inRange q.ip (List.mem_map_of_mem (hsub.subset hq))
  have hrise : (numbers ps).Pairwise (· < ·) :=
    List.Pairwise.sublist ((hsub.map _).map _) h.rising
  refine ⟨by rw [hlease, hserver]; exact h.range, fun a ha => ?_, ?_⟩
  · obtain ⟨q, hq, rfl⟩ := List.mem_map.mp ha
    rw [hplist] at hq
    rw [hlease]
    rcases List.mem_cons.mp ((nodeInsertToList_perm p ps).mem_iff.mp hq) with rfl | hq
    · exact hp
    · exact hnet q hq
  · rw [Dhcps.ips, hplist]
    exact nodeInsertToList_rising hp.toInNet (fun q hq => (hnet q hq).toInNet) hfresh hrise

/-- The list with some leases left out, or with one written anew on the same address. -/
theorem Dhcps.Ranged.of_ips (h : d.Ranged) {d' : Dhcps} (hlease : d'.dhcpsLease = d.dhcpsLease)
    (hserver : d'.serverAddress = d.serverAddress) (hsub : d'.ips.Sublist d.ips) : d'.Ranged :=
  ⟨by rw [hlease, hserver]; exact h.range,
    fun a ha => by rw [hlease]; exact h.inRange a (hsub.subset ha),
    h.rising.sublist (hsub.map _)⟩

theorem Updated.ranged {ip : Option IpAddr} {u : IpAddr × Dhcps} (hu : Updated d bssid ip u)
    (hok : d.Ok) (hip : ∀ a, ip = some a → d.dhcpsLease.InRange a) (h : d.Ranged) :
    u.2.Ranged := by
  cases hu with
  | refused b => exact h.of_ips rfl rfl (.refl _)
  | renewed i q hq hmac hqip =>
      obtain ⟨hi, rfl⟩ := List.getElem?_eq_some_iff.mp hq
      have hlen : i < (d.plist.map (·.ip)).length := by rwa [List.length_map]
      have hkeeps : (d.plist[i].lease .dynamic).ip = (d.plist.map (·.ip))[i] := by
        rw [List.getElem_map]
        rfl
      have hsame : ((d.plist.set i (d.plist[i].lease .dynamic)).map (·.ip)).Sublist d.ips := by
        rw [List.map_set, hkeeps, List.set_getElem_self]
        exact .refl _
      exact h.of_ips rfl rfl hsame
  | moved i p type hp hmac hfree =>
      obtain ⟨hnet, hstart, hfresh⟩ := @given_ranged d bssid h _ hip hfree
      have hsub := List.eraseIdx_sublist d.plist i
      have hpmem := List.mem_of_getElem? hp
      refine h.insert rfl rfl rfl hsub ⟨hnet, hstart, ?_⟩ fun q hq => ?_
      · cases ip with
        | none =>
            have hown := h.inRange p.ip (List.mem_map_of_mem hpmem)
            exact (free_le_own h hpmem hmac hok).trans hown.le_end
        | some a => exact (hip a rfl).le_end
      · refine hfresh q (hsub.subset hq) ?_
        rw [← hmac]
        exact mac_ne_of_eraseIdx hok.oneEach hp q hq
  | added type hnew hfree hend =>
      obtain ⟨hnet, hstart, hfresh⟩ := @given_ranged d bssid h _ hip hfree
      refine h.insert rfl rfl rfl (.refl _) ⟨hnet, hstart, ?_⟩ fun q hq => hfresh q hq (hnew q hq)
      exact not_lt.mp fun hlt => absurd ((h.range.endNet.addr_lt_iff hnet).mpr hlt) (not_lt.mpr hend)

end Ranged

/-! ## Runs -/

/-- The client comes without an address, or with one of the range. -/
def Packet.Fair (l : DhcpsLease) (p : Packet) : Prop :=
  p.ciaddr = .any ∨ p.ciaddr = .broadcast ∨ l.InRange p.ciaddr

/-- A packet of a fair client, or a restart. -/
def Event.Fair (d : Dhcps) : Event → Prop
  | .restart _ _ => True
  | .packet _ p => p.Fair d.dhcpsLease

theorem restart_ranged (d : Dhcps) (addr gw : IpAddr) : (d.restart addr gw).Ranged := by
  have hlt := addr.o4.toNat_lt
  have hlease : (d.restart addr gw).dhcpsLease =
      { enable := true
        startIp := { addr with o4 := UInt8.ofNat (firstLocal addr.o4.toNat) }
        endIp := { addr with o4 := UInt8.ofNat (firstLocal addr.o4.toNat + dhcpsMaxLease - 1) } } := by
    rw [Dhcps.restart, initDhcpsLease, if_neg (fun h => absurd h.1 (by simp))]
  have hfirst : firstLocal addr.o4.toNat < 156 ∧
      (firstLocal addr.o4.toNat + 99 < addr.o4.toNat ∨ addr.o4.toNat < firstLocal addr.o4.toNat) := by
    unfold firstLocal dhcpsMaxLease
    split <;> omega
  have hstart : (d.restart addr gw).dhcpsLease.startIp.number = firstLocal addr.o4.toNat := by
    rw [hlease, IpAddr.number, UInt8.toNat_ofNat']
    omega
  have hend : (d.restart addr gw).dhcpsLease.endIp.number = firstLocal addr.o4.toNat + 99 := by
    rw [hlease, IpAddr.number, UInt8.toNat_ofNat', dhcpsMaxLease]
    omega
  have hserver : (d.restart addr gw).serverAddress = addr := rfl
  refine ⟨⟨?_, ?_, by omega, by omega, fun h => ?_⟩, ?_, ?_⟩
  · rw [hserver, hlease]
    exact ⟨rfl, rfl, rfl⟩
  · rw [hlease]
    exact ⟨rfl, rfl, rfl⟩
  · have h1 := h.start_le
    have h2 := h.le_end
    rw [hserver, hstart] at h1
    rw [hserver, hend] at h2
    unfold IpAddr.number at h1 h2
    omega
  · rw [Dhcps.ips, restart_plist]
    exact fun a ha => absurd ha List.not_mem_nil
  · rw [Dhcps.ips, restart_plist]
    exact List.Pairwise.nil

theorem Left.ranged {d d' : Dhcps} {bssid : CStr} {ip : IpAddr} (h : Left d bssid ip d')
    (hd : d.Ranged) : d'.Ranged := by
  cases h with
  | nothing h => exact hd
  | removed i p hp hmac hip => exact hd.of_ips rfl rfl ((List.eraseIdx_sublist d.plist i).map _)

theorem clientUpdate_ranged {d : Dhcps} (hok : d.Ok) (h : d.Ranged) {p : Packet}
    (hfair : p.Fair d.dhcpsLease) : (d.clientUpdate p.mac p.ciaddr).2.Ranged := by
  by_cases hbroadcast : p.ciaddr = .broadcast
  · have hsame : d.clientUpdate p.mac p.ciaddr = (.any, d) := if_pos hbroadcast
    rw [hsame]
    exact h
  · refine (clientUpdate_updated hok p.mac p.ciaddr).ranged hok (fun a ha => ?_) h
    unfold wanted at ha
    by_cases hany : p.ciaddr = .any
    · rw [if_pos hany] at ha
      exact absurd ha (by simp)
    · rw [if_neg hany] at ha
      obtain rfl := Option.some.inj ha
      exact (hfair.resolve_left hany).resolve_left hbroadcast

/-- The client address is not one of the leases. -/
theorem Dhcps.Ranged.answered {d : Dhcps} (h : d.Ranged) (a : IpAddr) :
    ({ d with clientAddress := a } : Dhcps).Ranged := h.of_ips rfl rfl (.refl _)

theorem parseMsg_ranged {d : Dhcps} (hok : d.Ok) (h : d.Ranged) {p : Packet}
    (hfair : p.Fair d.dhcpsLease) : (d.parseMsg p).2.Ranged := by
  have hupdate := clientUpdate_ranged hok h hfair
  unfold Dhcps.parseMsg
  by_cases hcookie : p.cookie = magicCookie
  · rw [if_pos hcookie]
    simp only
    generalize parseOptions _ _ _ _ = ret
    by_cases hrelease : ret = .release
    · rw [if_pos hrelease]
      exact ((clientLeave_left _ p.mac p.ciaddr).ranged hupdate).answered _
    · rw [if_neg hrelease]
      exact hupdate.answered _
  · rw [if_neg hcookie]
    exact h

theorem step_ranged {d : Dhcps} {e : Event} (hok : d.Ok) (h : d.Ranged) (hfair : e.Fair d) :
    (d.step e).Ranged := by
  cases e with
  | restart addr gw => exact restart_ranged d addr gw
  | packet m p =>
      unfold Dhcps.step Dhcps.handleDhcp
      simp only
      split
      · exact parseMsg_ranged hok h hfair
      · exact h

theorem run_ranged (addr gw : IpAddr) (es : List Event)
    (hfair : Runs.EveryStep Dhcps.step (fun d e => e.Fair d) (.start addr gw) es) :
    (Runs.final Dhcps.step (.start addr gw) es).Ok ∧
      (Runs.final Dhcps.step (.start addr gw) es).Ranged := by
  have hstep (d : Dhcps) (e : Event) (hd : d.Ok ∧ d.Ranged) (he : e.Fair d) :
      (d.step e).Ok ∧ (d.step e).Ranged := ⟨step_ok d e hd.1, step_ranged hd.1 hd.2 he⟩
  exact (hfair.invariant hstep ⟨restart_ok _ addr gw, restart_ranged _ addr gw⟩).last

/-- **No address is given twice**, none outside the range, and not that of the server itself, if
every client comes without an address or with one of the range. -/
theorem addresses_distinct (addr gw : IpAddr) (es : List Event)
    (hfair : Runs.EveryStep Dhcps.step (fun d e => e.Fair d) (.start addr gw) es) :
    let d := Runs.final Dhcps.step (.start addr gw) es
    (d.plist.map (·.ip)).Nodup ∧
      ∀ p ∈ d.plist, d.dhcpsLease.InRange p.ip ∧ p.ip ≠ d.serverAddress := by
  intro d
  obtain ⟨-, hranged⟩ : d.Ok ∧ d.Ranged := run_ranged addr gw es hfair
  refine ⟨?_, fun p hp => ?_⟩
  · exact List.Nodup.of_map IpAddr.number (hranged.rising.imp fun h => Nat.ne_of_lt h)
  · have hin := hranged.inRange p.ip (List.mem_map_of_mem hp)
    refine ⟨hin, fun heq => hranged.range.server ?_⟩
    rw [← heq]
    exact hin

/-- A packet as clients send it. -/
def bootRequest (ciaddr : IpAddr) (mac options : CStr) : Packet where
  first := [1, 1, 6, 0] ++ (List.replicate 8 0 ++ (ciaddr.bytes ++ (List.replicate 12 0 ++ (mac ++
    (List.replicate 202 0 ++ (magicCookie ++ options))))))
  second := []
  others := 0
  behind := []

/-- The hardware address of a phone. -/
def phone (n : UInt8) : CStr := [2, 0, 0, 0, 0, n]

/-- A phone looks for an address. -/
def discoverOf (n : UInt8) : Packet := bootRequest .any (phone n) [53, 1, 1, 255]

def joins (ns : List UInt8) : List Event := ns.map fun n => .packet .plenty (discoverOf n)

theorem fair_joins (ns : List UInt8) (d : Dhcps) :
    Runs.EveryStep Dhcps.step (fun d e => e.Fair d) d (joins ns) := by
  induction ns generalizing d with
  | nil => exact trivial
  | cons n ns ih => exact ⟨.inl rfl, ih _⟩

def ownAddress : IpAddr := ⟨192, 168, 4, 1⟩

theorem addresses_distinct_two :
    let d := Runs.final Dhcps.step (.start ownAddress ownAddress) (joins [1, 2])
    d.ips = [⟨192, 168, 4, 2⟩, ⟨192, 168, 4, 3⟩] ∧ (d.plist.map (·.ip)).Nodup ∧
      ∀ p ∈ d.plist, d.dhcpsLease.InRange p.ip ∧ p.ip ≠ d.serverAddress :=
  ⟨by decide +kernel, addresses_distinct ownAddress ownAddress (joins [1, 2]) (fair_joins _ _)⟩

/-- Once a client has come with an address below the range, two phones get the same address. -/
example : (Runs.final Dhcps.step (.start ownAddress ownAddress)
    (.packet .plenty (bootRequest ⟨10, 0, 0, 1⟩ (phone 9) [53, 1, 3, 255]) :: joins [1, 2])).ips =
      [⟨10, 0, 0, 1⟩, ⟨192, 168, 4, 2⟩, ⟨192, 168, 4, 2⟩] := by
  decide +kernel

/-! ## Newcomers -/

/-- What the options of a packet ask for, once the leases are updated. -/
def Dhcps.asked (d : Dhcps) (p : Packet) : Answer :=
  parseOptions (d.clientUpdate p.mac p.ciaddr).1 (d.clientUpdate p.mac p.ciaddr).2.renew
    (p.memory.drop 240) (p.totLen - 240)

/-- The state behind an update. -/
def Dhcps.updated (d : Dhcps) (p : Packet) : Dhcps :=
  { (d.clientUpdate p.mac p.ciaddr).2 with clientAddress := (d.clientUpdate p.mac p.ciaddr).1 }

/-- A packet that does not release anything. -/
theorem handleDhcp_eq {d : Dhcps} {m : Memory} {p : Packet}
    (hcopy : p.totLen < 2 ^ 15 ∧ m.copy = true) (hcookie : p.cookie = magicCookie)
    (hkeep : d.asked p ≠ .release) :
    d.handleDhcp m p = (d.updated p, (d.updated p).send m p (d.asked p)) := by
  have hparse : d.parseMsg p = (d.asked p, d.updated p) := by
    unfold Dhcps.parseMsg
    rw [if_pos hcookie]
    exact if_neg hkeep
  rw [Dhcps.handleDhcp, if_pos hcopy, hparse]

/-- A packet that is answered. -/
theorem handleDhcp_answer {d : Dhcps} {m : Memory} {p : Packet} {r : DhcpsMsg}
    (h : (d.handleDhcp m p).2 = some r) :
    (d.handleDhcp m p).1 = d.updated p ∧ r.yiaddr = (d.clientUpdate p.mac p.ciaddr).1 := by
  by_cases hcopy : p.totLen < 2 ^ 15 ∧ m.copy = true
  · by_cases hcookie : p.cookie = magicCookie
    · by_cases hrelease : d.asked p = .release
      · have hparse : (d.parseMsg p).1 = .release := by
          have hasked : parseOptions (d.clientUpdate p.mac p.ciaddr).1
              (d.clientUpdate p.mac p.ciaddr).2.renew (p.memory.drop 240) (p.totLen - 240) =
              .release := hrelease
          rw [Dhcps.parseMsg, if_pos hcookie]
          simp only [hasked, if_true]
        rw [Dhcps.handleDhcp, if_pos hcopy] at h
        simp only [hparse, Dhcps.send] at h
        exact absurd h (by simp)
      · rw [handleDhcp_eq hcopy hcookie hrelease] at h ⊢
        simp only at h
        exact ⟨rfl, (send_fields h).2.2.1⟩
    · rw [Dhcps.handleDhcp, if_pos hcopy, Dhcps.parseMsg, if_neg hcookie] at h
      exact absurd h (by simp [Dhcps.send])
  · rw [Dhcps.handleDhcp, if_neg hcopy] at h
    exact absurd h (by simp)

/-- For a client without an address, no node with its address is found. -/
theorem find_pipNode (d : Dhcps) (bssid : CStr) : (d.find bssid none).pipNode = none := by
  have hfinds : Finds bssid none d.plist 0 _ (d.find bssid none) :=
    findLoop_finds bssid none d.plist 0 _
  refine Option.eq_none_iff_forall_ne_some.mpr fun k hk => ?_
  rcases hfinds.pip_some k hk with hs | ⟨j, q, -, -, hip⟩
  · exact absurd hs (by simp)
  · exact absurd hip (by simp)

/-- What a client without a lease and without an address is given. -/
theorem newcomer_update {d : Dhcps} (h : d.Ranged) {bssid : CStr}
    (hnew : ∀ q ∈ d.plist, q.mac ≠ bssid) :
    (d.clientUpdate bssid .any).1 =
      if d.dhcpsLease.endIp.number < (d.free bssid).number then .any else d.free bssid := by
  have hfinds : Finds bssid none d.plist 0 _ (d.find bssid none) :=
    findLoop_finds bssid none d.plist 0 _
  have hpmac : (d.find bssid none).pmacNode = none := by
    refine Option.eq_none_iff_forall_ne_some.mpr fun k hk => ?_
    rcases hfinds.pmac_some k hk with hs | ⟨j, q, -, hq, hmac⟩
    · exact absurd hs (by simp)
    · exact hnew q (List.mem_of_getElem? hq) hmac
  have hpip := find_pipNode d bssid
  have hend := h.range.endNet.addr_lt_iff (free_number h bssid).1
  have hfound : ({ d with renew := false } : Dhcps).find bssid none = d.find bssid none := rfl
  have hfree : (d.find bssid none).startIp = d.free bssid := rfl
  have hnot : ¬IpAddr.any = .broadcast := by decide
  unfold Dhcps.clientUpdate
  rw [if_neg hnot, if_pos rfl]
  simp only [hfound, Dhcps.updateFound, hpmac, hpip, hfree, Option.getD_none, hend]
  by_cases hfull : d.dhcpsLease.endIp.number < (d.free bssid).number
  · rw [if_pos hfull, if_pos hfull]
    split <;> rfl
  · rw [if_neg hfull, if_neg hfull, if_neg (fun h => hfull h.2)]

/-- **A newcomer gets the first free address** of the range; it is told no address only if all of
them are on lease. -/
theorem newcomer_first_fit (addr gw : IpAddr) (es : List Event)
    (hfair : Runs.EveryStep Dhcps.step (fun d e => e.Fair d) (.start addr gw) es) (m : Memory)
    (p : Packet) (hnone : p.ciaddr = .any) (r : DhcpsMsg) :
    let d := Runs.final Dhcps.step (.start addr gw) es
    (∀ q ∈ d.plist, q.mac ≠ p.mac) → (d.handleDhcp m p).2 = some r →
      r.yiaddr = .any ∧ (∀ a, d.dhcpsLease.InRange a → a ∈ d.ips) ∨
      d.dhcpsLease.InRange r.yiaddr ∧ r.yiaddr ∉ d.ips ∧
        ∀ a, d.dhcpsLease.InRange a → a.number < r.yiaddr.number → a ∈ d.ips := by
  intro d hnew hanswer
  obtain ⟨-, h⟩ : d.Ok ∧ d.Ranged := run_ranged addr gw es hfair
  have hall : d.before p.mac = d.plist := before_eq hnew
  obtain ⟨hnet, hnumber⟩ := free_number h p.mac
  rw [hall] at hnumber
  have htaken (a : IpAddr) (ha : d.dhcpsLease.InRange a) (hlt : a.number < (d.free p.mac).number) :
      a ∈ d.ips := by
    rw [hnumber] at hlt
    obtain ⟨b, hb, hsame⟩ := List.mem_map.mp (mem_of_lt_firstGap ha.start_le hlt)
    rw [((h.inRange b hb).toInNet.eq_iff ha.toInNet).mpr hsame] at hb
    exact hb
  have hgiven : r.yiaddr = if d.dhcpsLease.endIp.number < (d.free p.mac).number then .any
      else d.free p.mac := by
    rw [(handleDhcp_answer hanswer).2, hnone]
    exact newcomer_update h hnew
  by_cases hfull : d.dhcpsLease.endIp.number < (d.free p.mac).number
  · rw [if_pos hfull] at hgiven
    exact .inl ⟨hgiven, fun a ha => htaken a ha (ha.le_end.trans_lt hfull)⟩
  · rw [if_neg hfull] at hgiven
    rw [hgiven]
    refine .inr ⟨⟨hnet, ?_, not_lt.mp hfull⟩, fun hin => ?_, htaken⟩
    · rw [hnumber]
      exact le_firstGap _ _
    · obtain ⟨q, hq, hip⟩ := List.mem_map.mp hin
      exact free_not_taken h q hq (hnew q hq) (congrArg IpAddr.number hip)

theorem newcomer_first_fit_third :
    let d := Runs.final Dhcps.step (.start ownAddress ownAddress) (joins [1, 2])
    ∃ r, (d.handleDhcp .plenty (discoverOf 3)).2 = some r ∧
      (r.yiaddr = .any ∧ (∀ a, d.dhcpsLease.InRange a → a ∈ d.ips) ∨
        d.dhcpsLease.InRange r.yiaddr ∧ r.yiaddr ∉ d.ips ∧
          ∀ a, d.dhcpsLease.InRange a → a.number < r.yiaddr.number → a ∈ d.ips) := by
  intro d
  have hanswer : (d.handleDhcp .plenty (discoverOf 3)).2.isSome := by decide +kernel
  have hnew : ∀ q ∈ d.plist, q.mac ≠ (discoverOf 3).mac := by decide +kernel
  obtain ⟨r, hr⟩ := Option.isSome_iff_exists.mp hanswer
  exact ⟨r, hr, newcomer_first_fit ownAddress ownAddress (joins [1, 2]) (fair_joins _ _)
    .plenty (discoverOf 3) rfl r hnew hr⟩

end HomeAuto.Dhcp
