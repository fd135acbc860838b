import Networks.Library.ByteFields
import Networks.Ctcp.Segment

/-! Ethernet frames as byte strings, the header fields that the router reads in them, and its
checksum. A 32-bit field is the number that a little-endian host reads from its four bytes.
-/

namespace Networks.Router

open ByteFields OnesComplement
open Ctcp (htons fieldBytes16 fieldBytes32)

/-- A frame, Ethernet header included. -/
abbrev Frame := List UInt8

/-- A 16-bit field, converted by `ntohs`. -/
def halfAt (packet : Frame) (index : Nat) : Nat :=
  (byteAt packet index).toNat * 256 + (byteAt packet (index + 1)).toNat

/-- An Ethernet address. -/
abbrev Mac := Vector UInt8 6

/-- An Ethernet address in a frame. -/
def macAt (packet : Frame) (index : Nat) : Mac :=
  Vector.ofFn (fun offset => byteAt packet (index + offset))

/-- `ethertype`. -/
def ethertype (packet : Frame) : Nat := halfAt packet 12

/-- `ethertype_arp`. -/
def ethertypeArp : Nat := 0x0806

/-- `ethertype_ip`. -/
def ethertypeIp : Nat := 0x0800

/-- `sizeof(sr_ethernet_hdr_t)`. -/
def ethernetHdrSize : Nat := 14

/-- `sizeof(sr_ip_hdr_t)`. -/
def ipHdrSize : Nat := 20

/-- `sizeof(sr_arp_hdr_t)`. -/
def arpHdrSize : Nat := 28

/-- `ICMP_DATA_SIZE`. -/
def icmpDataSize : Nat := 28

/-- `iphdr->ip_hl`. -/
def ipHl (packet : Frame) : Nat := (byteAt packet 14).toNat % 16

/-- `ntohs(iphdr->ip_len)`. -/
def ipLen (packet : Frame) : Nat := halfAt packet 16

/-- `iphdr->ip_ttl`. -/
def ipTtl (packet : Frame) : UInt8 := byteAt packet 22

/-- `iphdr->ip_p`. -/
def ipP (packet : Frame) : UInt8 := byteAt packet 23

/-- `iphdr->ip_sum`. -/
def ipSum (packet : Frame) : UInt16 := shortAt packet 24

/-- `iphdr->ip_src`. -/
def ipSrc (packet : Frame) : UInt32 := wordAt packet 26

/-- `iphdr->ip_dst`. -/
def ipDst (packet : Frame) : UInt32 := wordAt packet 30

/-- `icmp_hdr->icmp_type`. -/
def icmpType (packet : Frame) : UInt8 := byteAt packet 34

/-- `icmp_hdr->icmp_sum`. -/
def icmpSum (packet : Frame) : UInt16 := shortAt packet 36

/-- `ntohs(arp_hdr->ar_op)`. -/
def arOp (packet : Frame) : Nat := halfAt packet 20

/-- `arp_hdr->ar_sha`. -/
def arSha (packet : Frame) : Mac := macAt packet 22

/-- `arp_hdr->ar_sip`. -/
def arSip (packet : Frame) : UInt32 := wordAt packet 28

/-- `arp_hdr->ar_tha`. -/
def arTha (packet : Frame) : Mac := macAt packet 32

/-- `arp_hdr->ar_tip`. -/
def arTip (packet : Frame) : UInt32 := wordAt packet 38

/-- `ether_shost` is the address. -/
def etherShost (packet : Frame) : Mac := macAt packet 6

/-- `ether_dhost`. -/
def etherDhost (packet : Frame) : Mac := macAt packet 0

/-- `cksum`, over the first `len` bytes. No byte is summed when `len` is negative. -/
def cksum (data : List UInt8) (len : Int) : UInt16 :=
  let sum := foldCarries 2 (Ctcp.cksumLoop 0 (data.take len.toNat))
  let complemented := htons (.ofNat (65535 - sum % 65536))
  if complemented ≠ 0 then complemented else 0xffff

/-- The checksum depends on the bytes it covers. -/
theorem cksum_congr {data other : List UInt8} {len : Int}
    (same : data.take len.toNat = other.take len.toNat)
    : cksum data len = cksum other len := by
  simp only [cksum, same]

/-- The IP header with its checksum field zeroed, as `ip_checksum` leaves it. -/
def clearIpSum (packet : Frame) : Frame := overwrite 24 [0, 0] packet

/-- `ip_checksum`. -/
def ipChecksum (packet : Frame) : Bool :=
  ipSum packet == cksum ((clearIpSum packet).drop ethernetHdrSize) ipHdrSize

/-- The ICMP header with its checksum field zeroed, as `icmp_checksum` leaves it. -/
def clearIcmpSum (packet : Frame) : Frame := overwrite 36 [0, 0] packet

/-- `icmp_checksum`. -/
def icmpChecksum (packet : Frame) : Bool :=
  icmpSum packet
    == cksum ((clearIcmpSum packet).drop (ethernetHdrSize + ipHdrSize))
      ((ipLen packet : Int) - ipHdrSize)

/-- Two packets of one length agree outside the bytes from `start` to `stop`. -/
structure AgreeOutside (start stop : Nat) (packet other : Frame) : Prop where
  length : other.length = packet.length
  byte : ∀ index, index < start ∨ stop ≤ index → byteAt other index = byteAt packet index

theorem agreeOutside_overwrite {offset : Nat} {field packet : Frame}
    (inside : offset + field.length ≤ packet.length)
    : AgreeOutside offset (offset + field.length) packet (overwrite offset field packet) :=
  ⟨length_overwrite inside, fun _ outside => byteAt_overwrite_outside inside outside⟩

namespace AgreeOutside

variable {start stop : Nat} {packet other : Frame}

theorem trans {third : Frame} (first : AgreeOutside start stop packet other)
    (second : AgreeOutside start stop other third)
    : AgreeOutside start stop packet third :=
  ⟨second.length.trans first.length,
    fun index outside => (second.byte index outside).trans (first.byte index outside)⟩

theorem widen {low high : Nat} (agree : AgreeOutside start stop packet other)
    (below : low ≤ start) (above : stop ≤ high)
    : AgreeOutside low high packet other :=
  ⟨agree.length, fun index outside => agree.byte index (by omega)⟩

theorem half (agree : AgreeOutside start stop packet other) (index : Nat)
    (outside : index + 2 ≤ start ∨ stop ≤ index)
    : halfAt other index = halfAt packet index := by
  rw [halfAt, halfAt, agree.byte index (by omega), agree.byte (index + 1) (by omega)]

theorem word (agree : AgreeOutside start stop packet other) (index : Nat)
    (outside : index + 4 ≤ start ∨ stop ≤ index)
    : wordAt other index = wordAt packet index := by
  rw [wordAt, wordAt, agree.byte index (by omega), agree.byte (index + 1) (by omega),
    agree.byte (index + 2) (by omega), agree.byte (index + 3) (by omega)]

theorem headerLength (agree : AgreeOutside start stop packet other)
    (outside : 14 < start ∨ stop ≤ 14)
    : ipHl other = ipHl packet := by
  rw [ipHl, ipHl, agree.byte 14 outside]

/-- In front of the bytes that differ the two packets are the same. -/
theorem take (agree : AgreeOutside start stop packet other) {index : Nat}
    (before : index ≤ start)
    : other.take index = packet.take index := by
  refine List.ext_getElem (by simp [agree.length]) fun offset inside _ => ?_
  rw [List.length_take] at inside
  have same := agree.byte offset (by omega)
  have length := agree.length
  have within : offset < other.length := by omega
  have withinPacket : offset < packet.length := by omega
  simp only [byteAt, List.getD_eq_getElem?_getD, List.getElem?_eq_getElem within,
    List.getElem?_eq_getElem withinPacket, Option.getD_some] at same
  simpa using same

/-- Behind the bytes that differ the two packets are the same. -/
theorem drop (agree : AgreeOutside start stop packet other) {index : Nat}
    (behind : stop ≤ index)
    : other.drop index = packet.drop index := by
  refine List.ext_getElem (by simp [agree.length]) fun offset inside _ => ?_
  have same := agree.byte (index + offset) (by omega)
  have length := agree.length
  rw [List.length_drop] at inside
  have within : index + offset < other.length := by omega
  have withinPacket : index + offset < packet.length := by omega
  simp only [byteAt, List.getD_eq_getElem?_getD, List.getElem?_eq_getElem within,
    List.getElem?_eq_getElem withinPacket, Option.getD_some] at same
  simpa using same

end AgreeOutside

end Networks.Router
