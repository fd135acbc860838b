import Networks.Router.Packets

/-! The input handler of the router. Definitions follow the branches of `sr_handlepacket`;
the packet is changed in place, as in the source, before it is passed on.
-/

namespace Networks.Router

open ByteFields
open Ctcp (fieldBytes16)

/-- Whether `strncmp` finds two arrays of the same length equal: it stops at a zero byte. -/
def strncmpEqual : List UInt8 → List UInt8 → Bool
  | left :: lefts, right :: rights =>
      left == right && (left == 0 || strncmpEqual lefts rights)
  | _, _ => true

/-- ARP reply. -/
def arpReply (outside : Outside) (packet : Frame) (interface : String) (sr : SrInstance)
    : SrInstance :=
  match sr.ipCheck (arTip packet) with
  | some foundInterface =>
      if strncmpEqual foundInterface.addr.toList (arTha packet).toList then
        srArpcacheinsert outside (arSha packet) (arSip packet) sr
      else
        sr
  | none =>
      match sr.longestprefixmatch (arTip packet) with
      | none => sr
      | some nexthop =>
          srForwardPacket .handlepacket packet nexthop.gw (sr.srGetInterface interface) sr

/-- ARP request. -/
def arpRequested (outside : Outside) (packet : Frame) (interface : String)
    (sr : SrInstance)
    : SrInstance :=
  let sinterface := sr.srGetInterface interface
  if (sr.ipCheck (arTip packet)).isSome then
    let replied := srArpMakePacket sinterface (arSip packet) (.reply (arSha packet)) sr
    if replied.fault.isSome then
      replied
    else
      srArpcacheinsert outside (arSha packet) (arSip packet) replied
  else
    match srArpcacheLookup sr.entries (arTip packet) with
    | some entry => srArpMakePacket sinterface (arSip packet) (.reply entry.mac) sr
    | none =>
        match sr.longestprefixmatch (arTip packet) with
        | none => sr
        | some nexthop =>
            srArpcacheQueuereq nexthop.gw
              ⟨packet.take (ethernetHdrSize + arpHdrSize), nexthop.interface⟩ sr

/-- The ARP branch. -/
def handleArp (outside : Outside) (packet : Frame) (interface : String) (sr : SrInstance)
    : SrInstance :=
  if packet.length < ethernetHdrSize + arpHdrSize then
    sr
  else if arOp packet = 2 then
    arpReply outside packet interface sr
  else if arOp packet = 1 then
    arpRequested outside packet interface sr
  else
    sr

/-- An ICMP packet for the router. The checksum covers what `ip_len` leaves behind the IP
header, and the type is read after the checksum was cleared.
-/
def handleIcmp (outside : Outside) (packet : Frame) (sr : SrInstance) : SrInstance :=
  if packet.length < 38 ∨ packet.length < ethernetHdrSize + ipLen packet then
    sr.fail .outOfBounds
  else if !icmpChecksum packet then
    sr
  else
    let packet := clearIcmpSum packet
    if icmpType packet = 8 then srIcmpMakePacket outside packet 0 0 sr else sr

/-- A packet for the router. -/
def handleLocal (outside : Outside) (packet : Frame) (sr : SrInstance) : SrInstance :=
  if ipP packet = 1 then
    handleIcmp outside packet sr
  else if ipP packet = 17 ∨ ipP packet = 6 then
    srIcmpMakePacket outside packet 3 3 sr
  else
    sr

/-- `iphdr->ip_ttl-=2`. -/
def decrementTtl (packet : Frame) : Frame := overwrite 22 [ipTtl packet - 2] packet

/-- `iphdr->ip_sum = 0; iphdr->ip_sum = cksum(iphdr,iphdr->ip_hl*4)`. -/
def rewriteIpSum (packet : Frame) : Frame :=
  let packet := clearIpSum packet
  overwrite 24 (fieldBytes16 (cksum (packet.drop ethernetHdrSize) (ipHl packet * 4 : Nat))) packet

/-- A packet for somebody else. -/
def handleTransit (outside : Outside) (packet : Frame) (sr : SrInstance) : SrInstance :=
  if ipTtl packet = 1 then
    srIcmpMakePacket outside packet 11 0 sr
  else if packet.length < ethernetHdrSize + ipHl packet * 4 then
    sr.fail .outOfBounds
  else
    let packet := rewriteIpSum (decrementTtl packet)
    match sr.longestprefixmatch (ipDst packet) with
    | none => srIcmpMakePacket outside packet 3 0 sr
    | some nexthop =>
        srForwardPacket .handlepacket packet nexthop.gw (sr.srGetInterface nexthop.interface) sr

/-- The IP branch. The length is only compared with the size of an IP header. -/
def handleIp (outside : Outside) (packet : Frame) (sr : SrInstance) : SrInstance :=
  if packet.length < 20 then
    sr
  else if packet.length < ethernetHdrSize + ipHdrSize then
    sr.fail .outOfBounds
  else if !ipChecksum packet then
    sr
  else
    let packet := clearIpSum packet
    if (sr.ipCheck (ipDst packet)).isSome then
      handleLocal outside packet sr
    else
      handleTransit outside packet sr

/-- `sr_handlepacket`. -/
def srHandlepacket (outside : Outside) (packet : Frame) (interface : String)
    (sr : SrInstance)
    : SrInstance :=
  if packet.length < ethernetHdrSize then
    sr.fail .outOfBounds
  else if ethertype packet = 2054 then
    handleArp outside packet interface sr
  else if ethertype packet = ethertypeIp then
    handleIp outside packet sr
  else
    sr

theorem ne_arp_of_ip {packet : Frame} (ip : ethertype packet = ethertypeIp)
    : ethertype packet ≠ 2054 := by
  rw [ip]
  decide

/-- What becomes of an IP packet that is long enough for both headers. -/
theorem srHandlepacket_ip (outside : Outside) {packet : Frame} (interface : String)
    (sr : SrInstance) (long : 34 ≤ packet.length) (ip : ethertype packet = ethertypeIp)
    : srHandlepacket outside packet interface sr
      = if !ipChecksum packet then
          sr
        else if (sr.ipCheck (ipDst (clearIpSum packet))).isSome then
          handleLocal outside (clearIpSum packet) sr
        else
          handleTransit outside (clearIpSum packet) sr := by
  have ethernet : ¬ packet.length < ethernetHdrSize := by
    unfold ethernetHdrSize
    omega
  have header : ¬ packet.length < ethernetHdrSize + ipHdrSize := Nat.not_lt.mpr long
  rw [srHandlepacket, if_neg ethernet, if_neg (ne_arp_of_ip ip), if_pos ip, handleIp,
    if_neg (by omega), if_neg header]

end Networks.Router
