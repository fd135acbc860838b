import Networks.Router.State

/-! Building and sending packets. Definitions follow `sr_send_packet`, `sr_ForwardPacket`,
`sr_arp_make_packet`, `sr_arp_request` and `sr_icmp_make_packet`. A handler that reads or
writes behind the end of a packet, or dereferences `NULL`, leaves a fault behind.
-/

namespace Networks.Router

open ByteFields
open Ctcp (htons fieldBytes16 fieldBytes32)

/-- `sr_ether_addrs_match_interface`. -/
def SrInstance.srEtherAddrsMatchInterface (sr : SrInstance) (buf : Frame) (name : String)
    : Bool :=
  match sr.srGetInterface name with
  | none => false
  | some iface => etherShost buf == iface.addr

/-- Whether `sr_send_packet` writes the packet to the server. -/
def SrInstance.accepted (sr : SrInstance) (buf : Frame) (iface : String) : Bool :=
  ethernetHdrSize ≤ buf.length && sr.srEtherAddrsMatchInterface buf iface

/-- `sr_send_packet`. -/
def srSendPacket (buf : Frame) (iface : String) (sr : SrInstance) : SrInstance :=
  sr.record (.sendPacket buf iface sr.entries)

/-- The frame with both Ethernet addresses written. -/
def addressed (dhost shost : Mac) (packet : Frame) : Frame :=
  overwrite 0 (dhost.toList ++ shost.toList) packet

/-- `sr_ForwardPacket`, for a packet with room for its Ethernet header. -/
def srForwardPacket (caller : Caller) (packet : Frame) (nexthopIp : UInt32)
    (interface : Option SrIf) (sr : SrInstance)
    : SrInstance :=
  let sr := sr.record (.forwardPacket caller packet nexthopIp)
  match interface with
  | none => sr.fail .nullPointer
  | some interface =>
      match srArpcacheLookup sr.entries nexthopIp with
      | some entry =>
          srSendPacket (addressed entry.mac interface.addr packet) interface.name sr
      | none => srArpcacheQueuereq nexthopIp ⟨packet, interface.name⟩ sr

/-- The packet that `sr_arp_make_packet` builds: destination, operation, and target address
differ between a reply and a request.
-/
def arpPacket (dhost : Mac) (op : UInt16) (interface : SrIf) (tha : Mac) (targetIp : UInt32)
    : Frame :=
  dhost.toList ++ interface.addr.toList ++ fieldBytes16 (htons 0x0806)
    ++ fieldBytes16 (htons 0x0001) ++ fieldBytes16 (htons 0x0800) ++ [0x06, 0x04]
    ++ fieldBytes16 (htons op) ++ interface.addr.toList ++ fieldBytes32 interface.ip
    ++ tha.toList ++ fieldBytes32 targetIp

/-- The modes of `sr_arp_make_packet`; a reply is sent to a hardware address. -/
inductive ArpMode
  | reply (tha : Mac)
  | request

/-- `sr_arp_make_packet`. -/
def srArpMakePacket (interface : Option SrIf) (targetIp : UInt32) (mode : ArpMode)
    (sr : SrInstance)
    : SrInstance :=
  match interface with
  | none => sr.fail .nullPointer
  | some interface =>
      let packet :=
        match mode with
        | .reply tha => arpPacket tha 0x0002 interface tha targetIp
        | .request =>
            arpPacket (Vector.replicate 6 0xff) 0x0001 interface (Vector.replicate 6 0x00)
              targetIp
      srSendPacket packet interface.name sr

/-- `sr_arp_request`. -/
def srArpRequest (targetIp : UInt32) (sr : SrInstance) : SrInstance :=
  match sr.longestprefixmatch targetIp with
  | none => sr
  | some nexthop =>
      srArpMakePacket (sr.srGetInterface nexthop.interface) targetIp .request sr

/-- The Ethernet header of a new ICMP message: both addresses are zero. -/
def icmpEthernetHeader : Frame :=
  List.replicate 12 0x00 ++ fieldBytes16 (htons 0x0800)

theorem length_icmpEthernetHeader : icmpEthernetHeader.length = 14 := rfl

/-- The IP header of an ICMP error message. -/
def icmpIpHeader (packet : Frame) (source : UInt32) (sum : UInt16) : List UInt8 :=
  [0x45, byteAt packet 15] ++ fieldBytes16 (htons 56)
    ++ [byteAt packet 18, byteAt packet 19] ++ [0x00, 0x00] ++ [64, 1] ++ fieldBytes16 sum
    ++ fieldBytes32 source ++ fieldBytes32 (ipSrc packet)

/-- The ICMP part of an error message. The four bytes before the quoted datagram are not
initialised.
-/
def icmpErrorBody (type code : UInt8) (unused : Nat → UInt8) (packet : Frame)
    (sum : UInt16)
    : List UInt8 :=
  [type, code] ++ fieldBytes16 sum
    ++ [unused 38, unused 39, unused 40, unused 41]
    ++ (packet.drop ethernetHdrSize).take icmpDataSize

/-- The error message that quotes the packet. -/
def icmpErrorPacket (type code : UInt8) (unused : Nat → UInt8) (packet : Frame)
    (source : UInt32)
    : Frame :=
  let ipHeader := icmpIpHeader packet source
  let body := icmpErrorBody type code unused packet
  icmpEthernetHeader ++ ipHeader (cksum (ipHeader 0) ipHdrSize)
    ++ body (cksum (body 0) 36)

/-- The echo reply to the packet: the datagram with its addresses swapped. -/
def icmpEchoPacket (code : UInt8) (packet : Frame) : Frame :=
  let reply := icmpEthernetHeader ++ (packet.drop ethernetHdrSize).take (ipLen packet)
  let reply := overwrite 30 (fieldBytes32 (ipSrc packet)) reply
  let reply := overwrite 26 (fieldBytes32 (ipDst packet)) reply
  let reply := overwrite 24 (fieldBytes16 (cksum (reply.drop ethernetHdrSize) ipHdrSize)) reply
  let reply := overwrite 34 [0, code, 0, 0] reply
  let sum := cksum (reply.drop (ethernetHdrSize + ipHdrSize)) ((ipLen packet : Int) - ipHdrSize)
  overwrite 36 (fieldBytes16 sum) reply

/-- `sr_icmp_make_packet` for an echo reply to a route, in a packet of `ip_len` bytes behind
the Ethernet header.
-/
def icmpEcho (code : UInt8) (packet : Frame) (nexthop : SrRt) (sr : SrInstance)
    : SrInstance :=
  if packet.length < ethernetHdrSize + ipLen packet then
    sr.fail .outOfBounds
  -- The new packet is written up to the end of its ICMP checksum
  else if ipLen packet < 24 then
    sr.fail .outOfBounds
  else
    srForwardPacket .icmpMakePacket (icmpEchoPacket code packet) nexthop.gw
      (sr.srGetInterface nexthop.interface) sr

/-- `sr_icmp_make_packet` for an error message to a route. The address of the interface is
read before the datagram is quoted, unless the code is 3.
-/
def icmpError (outside : Outside) (type code : UInt8) (packet : Frame) (nexthop : SrRt)
    (sr : SrInstance)
    : SrInstance :=
  let interface := sr.srGetInterface nexthop.interface
  if code ≠ 3 ∧ interface = none then
    sr.fail .nullPointer
  else if packet.length < ethernetHdrSize + icmpDataSize then
    sr.fail .outOfBounds
  else
    let source := if code = 3 then ipDst packet else (interface.elim 0 SrIf.ip)
    let message := icmpErrorPacket type code (outside.heap sr.mallocs) packet source
    srForwardPacket .icmpMakePacket message nexthop.gw interface
      { sr with mallocs := sr.mallocs + 1 }

/-- `sr_icmp_make_packet`, for the frame around the IP header it gets. It reads `ip_len`
first, and `ip_src` once the type is known to be supported.
-/
def srIcmpMakePacket (outside : Outside) (packet : Frame) (type code : UInt8)
    (sr : SrInstance)
    : SrInstance :=
  let sr := sr.record (.icmpMakePacket type code packet)
  if packet.length < 18 then
    sr.fail .outOfBounds
  else if type ≠ 0 ∧ type ≠ 11 ∧ type ≠ 3 then
    sr
  else if packet.length < 30 then
    sr.fail .outOfBounds
  else
    match sr.longestprefixmatch (ipSrc packet) with
    | none => sr
    | some nexthop =>
        if type = 0 then
          icmpEcho code packet nexthop sr
        else
          icmpError outside type code packet nexthop sr

end Networks.Router
