import Networks.Library.CheckedBytes
import Networks.Router.Handling

/-! The handling of frames with every access checked. The definitions follow the source load
by load and store by store: a frame has the bytes that were received, a new packet the bytes
that `malloc` returned, and an access outside yields nothing.
-/

namespace Networks.Router.Checked

open ByteFields CheckedBytes OnesComplement
open Ctcp (htons fieldBytes16 fieldBytes32)

-----------------------------------------------------------------------------------------
-- Fields
-----------------------------------------------------------------------------------------

/-- A 16-bit field, converted by `ntohs`. -/
def half (packet : Frame) (index : Nat) : Option Nat := do
  let high ← load packet index
  let low ← load packet (index + 1)
  return high.toNat * 256 + low.toNat

/-- A 16-bit field as it lies in memory. -/
def short (packet : Frame) (index : Nat) : Option UInt16 := do
  let low ← load packet index
  let high ← load packet (index + 1)
  return field16 low high

/-- A 32-bit field as it lies in memory. -/
def word (packet : Frame) (index : Nat) : Option UInt32 := do
  let first ← load packet index
  let second ← load packet (index + 1)
  let third ← load packet (index + 2)
  let fourth ← load packet (index + 3)
  return field32 first second third fourth

/-- An Ethernet address. -/
def mac (packet : Frame) (index : Nat) : Option Mac := do
  let first ← load packet index
  let second ← load packet (index + 1)
  let third ← load packet (index + 2)
  let fourth ← load packet (index + 3)
  let fifth ← load packet (index + 4)
  let sixth ← load packet (index + 5)
  return #v[first, second, third, fourth, fifth, sixth]

section Fields

variable {packet : Frame} {index : Nat}

end Fields

-----------------------------------------------------------------------------------------
-- Checksums
-----------------------------------------------------------------------------------------

/-- The summing loop of `cksum`, over `len` bytes from `data` on. -/
def cksumLoop (bytes : List UInt8) (sum : Nat) : Nat → Nat → Option Nat
  | data, len + 2 => do
      let high ← load bytes data
      let low ← load bytes (data + 1)
      cksumLoop bytes ((sum + (high.toNat * 256 + low.toNat)) % 4294967296) (data + 2) len
  | data, 1 => do
      let high ← load bytes data
      return (sum + high.toNat * 256) % 4294967296
  | _, 0 => some sum

/-- `cksum`, over `len` bytes from `data` on. -/
def cksum (bytes : List UInt8) (data : Nat) (len : Int) : Option UInt16 := do
  let sum ← cksumLoop bytes 0 data len.toNat
  let complemented := htons (.ofNat (65535 - foldCarries 2 sum % 65536))
  return if complemented ≠ 0 then complemented else 0xffff

/-- `ip_checksum`: the result, and the packet with its checksum field zeroed. -/
def ipChecksum (packet : Frame) : Option (Bool × Frame) := do
  let recved ← short packet 24
  let packet ← storeBytes 24 [0, 0] packet
  let expected ← cksum packet 14 ipHdrSize
  return (recved == expected, packet)

/-- `icmp_checksum`: the result, and the packet with its checksum field zeroed. -/
def icmpChecksum (packet : Frame) : Option (Bool × Frame) := do
  let recved ← short packet 36
  let packet ← storeBytes 36 [0, 0] packet
  let ipLen ← half packet 16
  let expected ← cksum packet 34 ((ipLen : Int) - ipHdrSize)
  return (recved == expected, packet)

/-- The memory that `malloc` returns for a packet. -/
def malloc (outside : Outside) (sr : SrInstance) (len : Nat) : Frame :=
  (List.range len).map (outside.heap sr.mallocs)

/-- A copy of a packet, made by `malloc` and `memcpy`. -/
def copied (outside : Outside) (packet : Frame) (sr : SrInstance) : Option Frame := do
  let bytes ← loadBytes packet 0 packet.length
  storeBytes 0 bytes (malloc outside sr packet.length)

/-- A new message with its Ethernet header, and with its IP checksum zeroed. -/
def icmpHeader (message : Frame) : Option Frame := do
  let message ← storeBytes 12 (fieldBytes16 (htons 0x0800)) message
  let message ← storeBytes 6 (List.replicate 6 0x00) message
  let message ← storeBytes 0 (List.replicate 6 0x00) message
  storeBytes 24 [0x00, 0x00] message

/-- The echo reply, written into `reply`. -/
def icmpEchoMessage (code : UInt8) (packet : Frame) (ipLen : Nat) (reply : Frame)
    : Option Frame := do
  let reply ← icmpHeader reply
  let datagram ← loadBytes packet 14 ipLen
  let reply ← storeBytes 14 datagram reply
  let source ← word packet 26
  let reply ← storeBytes 30 (fieldBytes32 source) reply
  let target ← word packet 30
  let reply ← storeBytes 26 (fieldBytes32 target) reply
  let ipSum ← cksum reply 14 ipHdrSize
  let reply ← storeBytes 24 (fieldBytes16 ipSum) reply
  let reply ← storeBytes 34 [0] reply
  let reply ← storeBytes 35 [code] reply
  let reply ← storeBytes 36 [0x00, 0x00] reply
  let icmpSum ← cksum reply 34 ((ipLen : Int) - ipHdrSize)
  storeBytes 36 (fieldBytes16 icmpSum) reply

/-- `sr_icmp_make_packet` for an echo reply to a route. -/
def icmpEcho (outside : Outside) (code : UInt8) (packet : Frame) (ipLen : Nat)
    (nexthop : SrRt) (sr : SrInstance)
    : Option SrInstance := do
  let reply ← icmpEchoMessage code packet ipLen (malloc outside sr (ethernetHdrSize + ipLen))
  return srForwardPacket .icmpMakePacket reply nexthop.gw (sr.srGetInterface nexthop.interface)
    sr

/-- The IP header of an error message up to its destination, written into `message`. -/
def icmpErrorHeader (packet message : Frame) : Option Frame := do
  let message ← icmpHeader message
  let message ← storeBytes 16 (fieldBytes16 (htons 56)) message
  -- `ip_hl` and `ip_v` are the halves of one byte
  let message ← storeBytes 14 [0x45] message
  let id ← short packet 18
  let message ← storeBytes 18 (fieldBytes16 id) message
  let tos ← load packet 15
  let message ← storeBytes 15 [tos] message
  let message ← storeBytes 20 [0x00, 0x00] message
  let message ← storeBytes 22 [64] message
  let message ← storeBytes 23 [1] message
  let target ← word packet 26
  storeBytes 30 (fieldBytes32 target) message

/-- The rest of an error message, from its source on, written into `message`. -/
def icmpErrorMessage (type code : UInt8) (packet : Frame) (source : UInt32)
    (message : Frame)
    : Option Frame := do
  let message ← storeBytes 26 (fieldBytes32 source) message
  let ipSum ← cksum message 14 ipHdrSize
  let message ← storeBytes 24 (fieldBytes16 ipSum) message
  let message ← storeBytes 34 [type] message
  let message ← storeBytes 35 [code] message
  let datagram ← loadBytes packet 14 icmpDataSize
  let message ← storeBytes 42 datagram message
  let message ← storeBytes 36 [0x00, 0x00] message
  let icmpSum ← cksum message 34 36
  storeBytes 36 (fieldBytes16 icmpSum) message

/-- An error message with a source is completed and passed on. -/
def icmpErrorFrom (type code : UInt8) (packet : Frame) (nexthop : SrRt) (source : UInt32)
    (header : Frame) (sr : SrInstance)
    : Option SrInstance := do
  let message ← icmpErrorMessage type code packet source header
  return srForwardPacket .icmpMakePacket message nexthop.gw
    (sr.srGetInterface nexthop.interface) { sr with mallocs := sr.mallocs + 1 }

/-- `sr_icmp_make_packet` for an error message to a route. -/
def icmpError (outside : Outside) (type code : UInt8) (packet : Frame) (nexthop : SrRt)
    (sr : SrInstance)
    : Option SrInstance := do
  let header ← icmpErrorHeader packet (malloc outside sr (ethernetHdrSize + ipHdrSize + 36))
  if code = 3 then
    let source ← word packet 30
    icmpErrorFrom type code packet nexthop source header sr
  else
    match sr.srGetInterface nexthop.interface with
    | none => return sr.fail .nullPointer
    | some interface => icmpErrorFrom type code packet nexthop interface.ip header sr

/-- `sr_icmp_make_packet`. -/
def srIcmpMakePacket (outside : Outside) (packet : Frame) (type code : UInt8)
    (sr : SrInstance)
    : Option SrInstance := do
  let sr := sr.record (.icmpMakePacket type code packet)
  let ipLen ← half packet 16
  if type ≠ 0 ∧ type ≠ 11 ∧ type ≠ 3 then
    return sr
  else
    let source ← word packet 26
    match sr.longestprefixmatch source with
    | none => return sr
    | some nexthop =>
        if type = 0 then
          icmpEcho outside code packet ipLen nexthop sr
        else
          icmpError outside type code packet nexthop sr

-----------------------------------------------------------------------------------------
-- Frames
-----------------------------------------------------------------------------------------

/-- ARP reply. -/
def arpReply (outside : Outside) (packet : Frame) (interface : String) (targetIp : UInt32)
    (sr : SrInstance)
    : Option SrInstance :=
  match sr.ipCheck targetIp with
  | some foundInterface => do
      let tha ← mac packet 32
      if strncmpEqual foundInterface.addr.toList tha.toList then
        let sha ← mac packet 22
        let sip ← word packet 28
        return srArpcacheinsert outside sha sip sr
      else
        return sr
  | none =>
      match sr.longestprefixmatch targetIp with
      | none => some sr
      | some nexthop => do
          let buf ← copied outside packet sr
          return srForwardPacket .handlepacket buf nexthop.gw (sr.srGetInterface interface) sr

/-- ARP request. -/
def arpRequested (outside : Outside) (packet : Frame) (interface : String)
    (targetIp : UInt32) (sr : SrInstance)
    : Option SrInstance := do
  let sinterface := sr.srGetInterface interface
  if (sr.ipCheck targetIp).isSome then
    let sha ← mac packet 22
    let sip ← word packet 28
    let replied := srArpMakePacket sinterface sip (.reply sha) sr
    if replied.fault.isSome then
      return replied
    else
      return srArpcacheinsert outside sha sip replied
  else
    match srArpcacheLookup sr.entries targetIp with
    | some entry =>
        let sip ← word packet 28
        return srArpMakePacket sinterface sip (.reply entry.mac) sr
    | none =>
        match sr.longestprefixmatch targetIp with
        | none => return sr
        | some nexthop =>
            let buf ← copied outside packet sr
            let waiting ← loadBytes buf 0 (ethernetHdrSize + arpHdrSize)
            return srArpcacheQueuereq nexthop.gw ⟨waiting, nexthop.interface⟩ sr

/-- The ARP branch. -/
def handleArp (outside : Outside) (packet : Frame) (interface : String) (sr : SrInstance)
    : Option SrInstance :=
  if packet.length < ethernetHdrSize + arpHdrSize then
    some sr
  else do
    let targetIp ← word packet 38
    let op ← half packet 20
    if op = 2 then
      arpReply outside packet interface targetIp sr
    else if op = 1 then
      arpRequested outside packet interface targetIp sr
    else
      return sr

/-- An ICMP packet for the router. -/
def handleIcmp (outside : Outside) (packet : Frame) (sr : SrInstance)
    : Option SrInstance := do
  let (valid, packet) ← icmpChecksum packet
  if !valid then
    return sr
  else
    let type ← load packet 34
    if type = 8 then srIcmpMakePacket outside packet 0 0 sr else return sr

/-- A packet for the router. -/
def handleLocal (outside : Outside) (packet : Frame) (sr : SrInstance)
    : Option SrInstance := do
  let protocol ← load packet 23
  if protocol = 1 then
    handleIcmp outside packet sr
  else if protocol = 17 ∨ protocol = 6 then
    srIcmpMakePacket outside packet 3 3 sr
  else
    return sr

/-- `iphdr->ip_sum = 0; iphdr->ip_sum = cksum(iphdr,iphdr->ip_hl*4)`. -/
def rewriteIpSum (packet : Frame) : Option Frame := do
  let packet ← storeBytes 24 [0, 0] packet
  let hl ← load packet 14
  let sum ← cksum packet 14 (hl.toNat % 16 * 4 : Nat)
  storeBytes 24 (fieldBytes16 sum) packet

/-- A packet for somebody else. -/
def handleTransit (outside : Outside) (packet : Frame) (sr : SrInstance)
    : Option SrInstance := do
  let ttl ← load packet 22
  if ttl = 1 then
    srIcmpMakePacket outside packet 11 0 sr
  else
    let packet ← storeBytes 22 [ttl - 2] packet
    let packet ← rewriteIpSum packet
    let target ← word packet 30
    match sr.longestprefixmatch target with
    | none => srIcmpMakePacket outside packet 3 0 sr
    | some nexthop =>
        let buf ← copied outside packet sr
        return srForwardPacket .handlepacket buf nexthop.gw
          (sr.srGetInterface nexthop.interface) sr

/-- The IP branch. -/
def handleIp (outside : Outside) (packet : Frame) (sr : SrInstance)
    : Option SrInstance :=
  if packet.length < 20 then
    some sr
  else do
    let (valid, packet) ← ipChecksum packet
    if !valid then
      return sr
    else
      let target ← word packet 30
      if (sr.ipCheck target).isSome then
        handleLocal outside packet sr
      else
        handleTransit outside packet sr

/-- `sr_handlepacket`. -/
def srHandlepacket (outside : Outside) (packet : Frame) (interface : String)
    (sr : SrInstance)
    : Option SrInstance := do
  let type ← half packet 12
  if type = 2054 then
    handleArp outside packet interface sr
  else if type = ethertypeIp then
    handleIp outside packet sr
  else
    return sr

end Networks.Router.Checked
