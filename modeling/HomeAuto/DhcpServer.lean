import HomeAuto.CStrings
import HomeAuto.Lib.Tlv

/-!
# The DHCP server of the setup network (`dhcpserver.c`)

While the CC35x1 is being set up it is an access point, and gives the phones that join it their
addresses.  The server keeps a list of leases ordered by address.  Every packet with a magic
cookie first updates the list for the client that sent it, whatever the packet asks for; then
its options decide on the answer.

Nothing in the repository calls the lease timer, or sets a range, a lease time or the offered
options; the functions for these are left out, and the values are the ones at boot.  The results
of `calloc` for a new lease are not checked, and are taken to be memory.
-/

namespace HomeAuto.Dhcp

/-! ## Addresses -/

/-- `struct dhcps_ip_addr`: the octets of an address, in the order of the wire. -/
structure IpAddr where
  o1 : UInt8
  o2 : UInt8
  o3 : UInt8
  o4 : UInt8
deriving DecidableEq

namespace IpAddr

/-- The word `addr`: the CPU is little-endian, so the last octet counts most. -/
def addr (ip : IpAddr) : Nat :=
  ((ip.o4.toNat * 256 + ip.o3.toNat) * 256 + ip.o2.toNat) * 256 + ip.o1.toNat

/-- `ntohl(ip.addr)`. -/
def ntohl (ip : IpAddr) : Nat :=
  ((ip.o1.toNat * 256 + ip.o2.toNat) * 256 + ip.o3.toNat) * 256 + ip.o4.toNat

/-- The address with this `ntohl`, modulo `2 ^ 32`. -/
def htonl (n : Nat) : IpAddr :=
  ⟨UInt8.ofNat (n / 2 ^ 24), UInt8.ofNat (n / 2 ^ 16), UInt8.ofNat (n / 2 ^ 8), UInt8.ofNat n⟩

/-- `htonl(ntohl(start_ip) + 1)`. -/
def next (ip : IpAddr) : IpAddr := htonl (ip.ntohl + 1)

/-- The octets of an address. -/
def bytes (ip : IpAddr) : CStr := [ip.o1, ip.o2, ip.o3, ip.o4]

/-- The address in four bytes of a message. -/
def ofBytes (s : CStr) : IpAddr := ⟨charAt s 0, charAt s 1, charAt s 2, charAt s 3⟩

/-- `IPADDR_ANY`. -/
def any : IpAddr := ⟨0, 0, 0, 0⟩

/-- `IPADDR_BROADCAST`. -/
def broadcast : IpAddr := ⟨255, 255, 255, 255⟩

end IpAddr

/-! ## Leases -/

/-- `DHCPS_MAX_LEASE`. -/
def dhcpsMaxLease : Nat := 100

/-- `struct dhcps_lease`: the range of addresses. -/
structure DhcpsLease where
  enable : Bool
  startIp : IpAddr
  endIp : IpAddr

/-- The checks which a range must pass that was set before the server starts. -/
def DhcpsLease.Fits (lease : DhcpsLease) (ip : IpAddr) : Prop :=
  ¬(lease.startIp.ntohl ≤ ip.ntohl ∧ ip.ntohl ≤ lease.endIp.ntohl) ∧
    lease.startIp.ntohl / 2 ^ 8 = ip.ntohl / 2 ^ 8 ∧ lease.endIp.ntohl / 2 ^ 8 = ip.ntohl / 2 ^ 8 ∧
    (lease.endIp.ntohl + 2 ^ 32 - lease.startIp.ntohl) % 2 ^ 32 ≤ dhcpsMaxLease

instance (lease : DhcpsLease) (ip : IpAddr) : Decidable (lease.Fits ip) :=
  inferInstanceAs (Decidable (_ ∧ _ ∧ _ ∧ _))

/-- The first number of the default range. -/
def firstLocal (local_ : Nat) : Nat := if 128 ≤ local_ then local_ - dhcpsMaxLease else local_ + 1

/-- `wifi_softap_init_dhcps_lease`. -/
def initDhcpsLease (lease : DhcpsLease) (ip : IpAddr) : DhcpsLease :=
  if lease.enable ∧ lease.Fits ip then lease
  else
    { enable := false
      startIp := { ip with o4 := UInt8.ofNat (firstLocal ip.o4.toNat) }
      endIp := { ip with o4 := UInt8.ofNat (firstLocal ip.o4.toNat + dhcpsMaxLease - 1) } }

inductive DhcpsType where
  | dynamic
  | static
deriving DecidableEq

inductive DhcpsState where
  | online
  | offline
deriving DecidableEq

/-- `struct dhcps_pool`: one lease. -/
structure DhcpsPool where
  ip : IpAddr
  mac : CStr
  leaseTimer : Nat
  type : DhcpsType
  state : DhcpsState

/-- The file-scope variables of `dhcpserver.c`. -/
structure Dhcps where
  serverAddress : IpAddr
  gw : IpAddr
  dhcpsLease : DhcpsLease
  plist : List DhcpsPool
  clientAddress : IpAddr
  renew : Bool

/-- `dhcps_lease_time`, in minutes. -/
def dhcpsLeaseTime : Nat := 120

/-- `node_insert_to_list`. -/
def nodeInsertToList (p : DhcpsPool) : List DhcpsPool → List DhcpsPool
  | [] => [p]
  | q :: qs => if p.ip.addr < q.ip.addr then p :: q :: qs else q :: nodeInsertToList p qs

/-! ## Updating the leases -/

/-- What the loop of `wifi_softap_dhcps_client_update` finds: the node of the client, the node of
the address it has, and the first address that is not taken. -/
structure Found where
  pmacNode : Option Nat
  pipNode : Option Nat
  flag : Bool
  startIp : IpAddr

/-- The loop looks at the address of a node. -/
def Found.look (s : Found) (ip : Option IpAddr) (i : Nat) (p : DhcpsPool) : Found :=
  match ip with
  | some ip => if p.ip = ip then { s with pipNode := some i } else s
  | none =>
      if s.flag then s
      else if p.ip ≠ s.startIp then { s with flag := true }
      else { s with startIp := s.startIp.next }

/-- The loop of `wifi_softap_dhcps_client_update`; `ip` is the address which the client has, if
any. -/
def findLoop (bssid : CStr) (ip : Option IpAddr) : List DhcpsPool → Nat → Found → Found
  | [], _, s => s
  | p :: ps, i, s =>
      if p.mac = bssid ∧ ip = none then { s with pmacNode := some i, flag := true }
      else
        findLoop bssid ip ps (i + 1)
          (Found.look (if p.mac = bssid then { s with pmacNode := some i } else s) ip i p)

/-- The loop on the whole list. -/
def Dhcps.find (d : Dhcps) (bssid : CStr) (ip : Option IpAddr) : Found :=
  findLoop bssid ip d.plist 0 ⟨none, none, false, d.dhcpsLease.startIp⟩

/-- A lease that is written anew. -/
def DhcpsPool.lease (p : DhcpsPool) (type : DhcpsType) : DhcpsPool :=
  { p with leaseTimer := dhcpsLeaseTime, type := type, state := .online }

/-- `wifi_softap_dhcps_client_update` once the loop is done: `ip` is the address the client has,
`type` goes with it, and the flag of `s` is set if there is an address to give. -/
def Dhcps.updateFound (d : Dhcps) (bssid : CStr) (ip : Option IpAddr) (type : DhcpsType)
    (s : Found) : IpAddr × Dhcps :=
  match s.pmacNode, s.pipNode with
  | some i, some j =>
      match d.plist[j]? with
      | none => (.any, d)
      | some q =>
          if j ≠ i then
            if q.state ≠ .offline then (.any, d)
            else
              (q.ip, { d with
                plist := (d.plist.set j ({ q with mac := bssid }.lease type)).eraseIdx i })
          else (q.ip, { d with plist := d.plist.set j (q.lease .dynamic), renew := true })
  | some i, none =>
      match d.plist[i]? with
      | none => (.any, d)
      | some p =>
          (ip.getD s.startIp, { d with
            plist := nodeInsertToList ({ p with ip := ip.getD s.startIp }.lease type)
              (d.plist.eraseIdx i) })
  | none, some j =>
      match d.plist[j]? with
      | none => (.any, d)
      | some q =>
          if q.state ≠ .offline then (.any, d)
          else (q.ip, { d with plist := d.plist.set j ({ q with mac := bssid }.lease type) })
  | none, none =>
      if d.dhcpsLease.endIp.addr < (ip.getD s.startIp).addr then (.any, d)
      else
        (ip.getD s.startIp, { d with
          plist := nodeInsertToList ⟨ip.getD s.startIp, bssid, dhcpsLeaseTime, type, .online⟩
            d.plist })

/-- `wifi_softap_dhcps_client_update`: the address of the client, or `IPADDR_ANY`. -/
def Dhcps.clientUpdate (d : Dhcps) (bssid : CStr) (ip : IpAddr) : IpAddr × Dhcps :=
  if ip = .broadcast then (.any, d)
  else
    let d := { d with renew := false }
    if ip = .any then
      let s := d.find bssid none
      if s.flag = false ∧ d.dhcpsLease.endIp.addr < s.startIp.addr then (.any, d)
      else d.updateFound bssid none .dynamic s
    else d.updateFound bssid (some ip) .static (d.find bssid (some ip))

/-- `wifi_softap_dhcps_client_leave`. -/
def Dhcps.clientLeave (d : Dhcps) (bssid : CStr) (ip : IpAddr) (force : Bool) : Dhcps :=
  match d.plist.findIdx? fun p => p.mac = bssid ∧ p.ip = ip with
  | none => d
  | some i =>
      match d.plist[i]? with
      | none => d
      | some p =>
          if p.type = .static ∨ force then { d with plist := d.plist.eraseIdx i }
          else { d with plist := d.plist.set i { p with state := .offline } }

/-! ## Messages -/

/-- `struct dhcps_msg`; the zeroed fields `sname` and `file` are left out. -/
structure DhcpsMsg where
  op : UInt8
  htype : UInt8
  hlen : UInt8
  hops : UInt8
  xid : CStr
  secs : Nat
  flags : Nat
  ciaddr : IpAddr
  yiaddr : IpAddr
  siaddr : IpAddr
  giaddr : IpAddr
  chaddr : CStr
  options : CStr

def magicCookie : CStr := [0x63, 0x82, 0x53, 0x63]

/-- What `parse_options` decides. -/
inductive Answer where
  | idle
  | offer
  | ack
  | nak
  | release
deriving DecidableEq

/-- What `parse_options` has read. -/
structure Options where
  type : UInt8
  state : Answer

/-- One option, and the memory from its value on. -/
def Options.note (client : IpAddr) (s : Options) (code : UInt8) (value : CStr) : Options :=
  if code = 53 then { s with type := charAt value 0 }
  else if code = 50 then
    { s with state := if IpAddr.ofBytes value = client then .ack else .nak }
  else s

/-- What follows the walk over the options. -/
def Options.answer (s : Options) (renew : Bool) : Answer :=
  if s.type = 1 then .offer
  else if s.type = 3 then
    if s.state = .ack ∨ s.state = .nak then s.state else if renew then .ack else .nak
  else if s.type = 4 then .idle
  else if s.type = 7 then .release
  else s.state

/-- `parse_options`: `memory` begins with the options, `len` bytes of which were received. -/
def parseOptions (client : IpAddr) (renew : Bool) (memory : CStr) (len : Nat) : Answer :=
  (Tlv.walk 255 (Options.note client) len len memory ⟨0, .idle⟩).answer renew

/-- A packet: the payloads of its first two buffers, which are copied, the length of the others,
which are not, and the memory behind the copy. -/
structure Packet where
  first : CStr
  second : CStr
  others : Nat
  behind : CStr

def Packet.totLen (p : Packet) : Nat := p.first.length + p.second.length + p.others

/-- The memory at `pmsg_dhcps`: the copy, zeros up to the length of it, and what lies behind. -/
def Packet.memory (p : Packet) : CStr :=
  p.first ++ (p.second ++
    (List.replicate (max 548 p.totLen - (p.first.length + p.second.length)) 0 ++ p.behind))

/-- The fields of the message that are read. -/
def Packet.ciaddr (p : Packet) : IpAddr := .ofBytes (p.memory.drop 12)
def Packet.xid (p : Packet) : CStr := (p.memory.drop 4).take 4
def Packet.chaddr (p : Packet) : CStr := (p.memory.drop 28).take 16
def Packet.mac (p : Packet) : CStr := p.chaddr.take 6
def Packet.cookie (p : Packet) : CStr := (p.memory.drop 236).take 4

/-- `parse_msg`. -/
def Dhcps.parseMsg (d : Dhcps) (p : Packet) : Answer × Dhcps :=
  if p.cookie = magicCookie then
    let u := d.clientUpdate p.mac p.ciaddr
    let ret := parseOptions u.1 u.2.renew (p.memory.drop 240) (p.totLen - 240)
    if ret = .release then
      (ret, { u.2.clientLeave p.mac p.ciaddr true with clientAddress := p.ciaddr })
    else (ret, { u.2 with clientAddress := u.1 })
  else (.idle, d)

/-! ## Answers -/

/-- `DHCPS_LEASE_TIMER * 60`, as four bytes. -/
def leaseSeconds : CStr :=
  let n := dhcpsLeaseTime * 60
  [UInt8.ofNat (n / 2 ^ 24), UInt8.ofNat (n / 2 ^ 16), UInt8.ofNat (n / 2 ^ 8), UInt8.ofNat n]

/-- `add_offer_options`; the router is offered, as `offer` is `0xFF`. -/
def Dhcps.offerOptions (d : Dhcps) : Tlv.Row :=
  [(1, [255, 255, 255, 0]), (51, leaseSeconds), (54, d.serverAddress.bytes), (3, d.gw.bytes),
    (28, [d.serverAddress.o1, d.serverAddress.o2, d.serverAddress.o3, 255]), (26, [0x02, 0x40]),
    (31, [0]), (43, [0x01, 4, 0, 0, 0, 2])]

/-- `create_msg`, `add_msg_type`, the options and `add_end`. -/
def Dhcps.reply (d : Dhcps) (p : Packet) (type : UInt8) (options : Tlv.Row) : DhcpsMsg :=
  let used := magicCookie ++ (Tlv.encode ((53, [type]) :: options) ++ [255])
  { op := 2
    htype := 1
    hlen := 6
    hops := 0
    xid := p.xid
    secs := 0
    flags := 0x8000
    ciaddr := .any
    yiaddr := d.clientAddress
    siaddr := .any
    giaddr := .any
    chaddr := p.chaddr
    options := used ++ List.replicate (312 - used.length) 0 }

/-- What the allocators answer while a packet is handled: `malloc` for the copy of it, and
`dhcps_pbuf_alloc` for the buffer of the answer. -/
structure Memory where
  copy : Bool
  buffer : Bool

/-- Both have memory. -/
def Memory.plenty : Memory := ⟨true, true⟩

/-- The end of `send_offer`, `send_ack` and `send_nak`. -/
def Memory.sendto (m : Memory) (msg : DhcpsMsg) : Option DhcpsMsg :=
  if m.buffer then some msg else none

/-- `send_offer`, `send_ack` and `send_nak`. -/
def Dhcps.send (d : Dhcps) (m : Memory) (p : Packet) (a : Answer) : Option DhcpsMsg :=
  match a with
  | .offer => m.sendto (d.reply p 2 d.offerOptions)
  | .ack => m.sendto (d.reply p 5 d.offerOptions)
  | .nak => m.sendto (d.reply p 6 [])
  | .idle => none
  | .release => none

/-- `handle_dhcp`.  The length of a packet is kept in an `int16_t`; memory for a longer one is not
to be had. -/
def Dhcps.handleDhcp (d : Dhcps) (m : Memory) (p : Packet) : Dhcps × Option DhcpsMsg :=
  if p.totLen < 2 ^ 15 ∧ m.copy = true then
    let r := d.parseMsg p
    (r.2, r.2.send m p r.1)
  else (d, none)

/-! ## The life of the server -/

/-- What happens to the server: the link of the access point goes down and up again, or a packet
comes in, with more or less memory at hand. -/
inductive Event where
  | restart (addr gw : IpAddr)
  | packet (m : Memory) (p : Packet)

/-- `dhcps_stop` and then `dhcps_start`. -/
def Dhcps.restart (d : Dhcps) (addr gw : IpAddr) : Dhcps :=
  { d with
    serverAddress := addr
    gw := gw
    plist := []
    dhcpsLease :=
      { initDhcpsLease { d.dhcpsLease with enable := false } addr with enable := true } }

def Dhcps.step (d : Dhcps) : Event → Dhcps
  | .restart addr gw => d.restart addr gw
  | .packet m p => (d.handleDhcp m p).1

/-- The variables at boot, and then `dhcps_start`. -/
def Dhcps.start (addr gw : IpAddr) : Dhcps :=
  ({ serverAddress := .any
     gw := .any
     dhcpsLease := ⟨false, .any, .any⟩
     plist := []
     clientAddress := .any
     renew := false } : Dhcps).restart addr gw

end HomeAuto.Dhcp
