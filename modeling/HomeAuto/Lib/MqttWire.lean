import Mathlib.Data.List.Basic

/-!
# Packets of MQTT 3.1.1

A reader for the packets that a client sends: the fixed header with its remaining length, the
strings with their 16-bit lengths, and the fields of CONNECT, PUBLISH and SUBSCRIBE.  A packet
is read only if its remaining length is the number of bytes that follow, if its reserved bits
are as the standard has them, and if nothing is left over.

The reader does not look into strings: whether a topic is one that a broker takes is not a
matter of the format.
-/

namespace MqttWire

/-! ## Parts of a packet -/

/-- A remaining length of at most `groups` bytes, least significant seven bits first, and what
is left of the text. -/
def takeLength : (groups : Nat) → List UInt8 → Option (Nat × List UInt8)
  | 0, _ => none
  | _ + 1, [] => none
  | groups + 1, b :: bs =>
      if b.toNat < 128 then some (b.toNat, bs)
      else (takeLength groups bs).map fun r => (b.toNat - 128 + 128 * r.1, r.2)

/-- A 16-bit number, the high byte first. -/
def takeWord : List UInt8 → Option (Nat × List UInt8)
  | hi :: lo :: bs => some (hi.toNat * 256 + lo.toNat, bs)
  | _ => none

/-- The next `n` bytes. -/
def takeBytes (n : Nat) (bs : List UInt8) : Option (List UInt8 × List UInt8) :=
  if n ≤ bs.length then some (bs.take n, bs.drop n) else none

/-- A string with its length in front. -/
def takeString (bs : List UInt8) : Option (List UInt8 × List UInt8) :=
  (takeWord bs).bind fun r => takeBytes r.1 r.2

/-- A string that is there if a flag says so. -/
def takeIf (flag : Bool) (bs : List UInt8) : Option (Option (List UInt8) × List UInt8) :=
  if flag then (takeString bs).map fun r => (some r.1, r.2) else some (none, bs)

/-- The first byte and the body of a packet. -/
def split : List UInt8 → Option (UInt8 × List UInt8)
  | [] => none
  | b :: bs => (takeLength 4 bs).bind fun r => if r.2.length = r.1 then some (b, r.2) else none

/-! ## The packets -/

/-- The last will in a CONNECT. -/
structure Will where
  topic : List UInt8
  message : List UInt8
  qos : Nat
  retain : Bool
  deriving DecidableEq

/-- The fields of a CONNECT. -/
structure Connect where
  cleanSession : Bool
  keepAlive : Nat
  clientID : List UInt8
  will : Option Will
  user : Option (List UInt8)
  password : Option (List UInt8)
  deriving DecidableEq

/-- The connect flags are consistent: the reserved bit is clear, a will flag that is clear
comes with no other bit of the will, there is no quality of service 3, and no password without
a user name. -/
def flagsValid (flags : Nat) : Bool :=
  !flags.testBit 0 && (flags.testBit 2 || flags / 8 % 8 = 0) && decide (flags / 8 % 4 ≠ 3) &&
    (flags.testBit 7 || !flags.testBit 6)

/-- The will, if the will flag is set. -/
def takeWill (flags : Nat) (bs : List UInt8) : Option (Option Will × List UInt8) :=
  if flags.testBit 2 then
    (takeString bs).bind fun t => (takeString t.2).map fun m =>
      (some ⟨t.1, m.1, flags / 8 % 4, flags.testBit 5⟩, m.2)
  else some (none, bs)

/-- The payload of a CONNECT with these flags. -/
def connectPayload (flags keepAlive : Nat) (bs : List UInt8) : Option Connect :=
  (takeString bs).bind fun c => (takeWill flags c.2).bind fun w =>
    (takeIf (flags.testBit 7) w.2).bind fun u => (takeIf (flags.testBit 6) u.2).bind fun p =>
      if p.2 = [] then some ⟨flags.testBit 1, keepAlive, c.1, w.1, u.1, p.1⟩ else none

/-- The body of a CONNECT behind the protocol name: the level, the flags, the keep-alive time
in seconds, and the payload. -/
def connectFields : List UInt8 → Option Connect
  | level :: flags :: bs =>
      if level = 4 ∧ flagsValid flags.toNat then
        (takeWord bs).bind fun k => connectPayload flags.toNat k.1 k.2
      else none
  | _ => none

/-- A CONNECT packet; the protocol name is `MQTT`. -/
def decodeConnect (packet : List UInt8) : Option Connect :=
  (split packet).bind fun r =>
    if r.1 = 0x10 then
      (takeString r.2).bind fun n =>
        if n.1 = [77, 81, 84, 84] then connectFields n.2 else none
    else none

/-- The fields of a PUBLISH of quality of service 0. -/
structure Publish where
  dup : Bool
  retain : Bool
  topic : List UInt8
  payload : List UInt8
  deriving DecidableEq

/-- A PUBLISH packet of quality of service 0, which has no packet identifier. -/
def decodePublish (packet : List UInt8) : Option Publish :=
  (split packet).bind fun r =>
    if r.1.toNat / 16 = 3 ∧ r.1.toNat / 2 % 4 = 0 then
      (takeString r.2).map fun t => ⟨r.1.toNat.testBit 3, r.1.toNat.testBit 0, t.1, t.2⟩
    else none

/-- The fields of a SUBSCRIBE for one topic filter. -/
structure Subscribe where
  packetID : Nat
  filter : List UInt8
  qos : Nat
  deriving DecidableEq

/-- A SUBSCRIBE packet with one topic filter; its packet identifier is not zero. -/
def decodeSubscribe (packet : List UInt8) : Option Subscribe :=
  (split packet).bind fun r =>
    if r.1 = 0x82 then
      (takeWord r.2).bind fun i => (takeString i.2).bind fun t =>
        match t.2 with
        | [qos] => if i.1 ≠ 0 ∧ qos.toNat ≤ 2 then some ⟨i.1, t.1, qos.toNat⟩ else none
        | _ => none
    else none

/-! ## Reading what stands in front -/

theorem takeBytes_append (xs rest : List UInt8) :
    takeBytes xs.length (xs ++ rest) = some (xs, rest) := by
  simp [takeBytes]

/-- What is no length, or not yet one: all the bytes that count say that it goes on. -/
theorem takeLength_eq_none_iff {groups : Nat} {bs : List UInt8} :
    takeLength groups bs = none ↔ ∀ b ∈ bs.take groups, 128 ≤ b.toNat := by
  induction groups generalizing bs with
  | zero => simp [takeLength]
  | succ groups ih =>
      cases bs with
      | nil => simp [takeLength]
      | cons b bs =>
          rw [takeLength, List.take_succ_cons, List.forall_mem_cons]
          by_cases hlast : b.toNat < 128
          · rw [if_pos hlast]
            exact ⟨nofun, fun h => absurd h.1 (Nat.not_le.mpr hlast)⟩
          · rw [if_neg hlast, Option.map_eq_none_iff, ih]
            exact ⟨fun h => ⟨Nat.le_of_not_lt hlast, h⟩, fun h => h.2⟩

/-- A string is read off the front. -/
theorem takeString_cons {hi lo : UInt8} {xs rest : List UInt8}
    (h : hi.toNat * 256 + lo.toNat = xs.length) :
    takeString (hi :: lo :: (xs ++ rest)) = some (xs, rest) := by
  rw [takeString, takeWord, Option.bind_some, h]
  exact takeBytes_append xs rest

/-- A packet is split behind its length. -/
theorem split_of_takeLength {b : UInt8} {field body : List UInt8}
    (h : takeLength 4 (field ++ body) = some (body.length, body)) :
    split (b :: (field ++ body)) = some (b, body) := by
  rw [split, h, Option.bind_some, if_pos rfl]

end MqttWire
