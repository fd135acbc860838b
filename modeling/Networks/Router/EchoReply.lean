import Networks.Router.HeaderChecksum
import Networks.Router.TimeToLive

/-! Echo replies. The reply is a copy of a request whose checksum fields the verification has
zeroed; swapping the addresses and writing the ICMP header leave everything else as it was
received, and both checksums are computed anew.
-/

namespace Networks.Router

open ByteFields
open Ctcp (fieldBytes16 fieldBytes32)

/-- `icmp_hdr->icmp_code`. -/
def icmpCode (packet : Frame) : UInt8 := byteAt packet 35

/-- `reply` answers the echo request `packet`. -/
structure EchoReply (packet reply : Frame) : Prop where
  ip : ethertype reply = ethertypeIp
  length : reply.length = ethernetHdrSize + ipLen packet
  version : byteAt reply 14 = byteAt packet 14
  ipLen : ipLen reply = ipLen packet
  src : ipSrc reply = ipDst packet
  dst : ipDst reply = ipSrc packet
  type : icmpType reply = 0
  code : icmpCode reply = 0
  data : reply.drop 38 = (packet.take (ethernetHdrSize + Router.ipLen packet)).drop 38
  ipSum : ipChecksum reply = true
  icmpSum : icmpChecksum reply = true

-----------------------------------------------------------------------------------------
-- The fields of the reply
-----------------------------------------------------------------------------------------

section Reply

variable {code : UInt8} {packet : Frame}

/-- Behind the new Ethernet header the copy holds the datagram. -/
theorem byteAt_copiedDatagram {index : Nat} (behind : 14 ≤ index)
    (within : index < ethernetHdrSize + ipLen packet)
    : byteAt (copiedDatagram packet) index = byteAt packet index := by
  simp only [ethernetHdrSize] at within
  simp only [copiedDatagram, ethernetHdrSize, byteAt, List.getD_eq_getElem?_getD]
  rw [List.getElem?_append_right (length_icmpEthernetHeader.le.trans behind),
    length_icmpEthernetHeader, List.getElem?_take_of_lt (by omega), List.getElem?_drop,
    Nat.add_sub_cancel' behind]

/-- The reply differs from the copy in checksums, addresses and ICMP header. -/
theorem icmpEchoPacket_agree_copied (fits : ethernetHdrSize + ipLen packet ≤ packet.length)
    (written : 24 ≤ ipLen packet)
    : AgreeOutside 24 38 (copiedDatagram packet) (icmpEchoPacket code packet) := by
  obtain ⟨ip, destination⟩ := swappedDatagram_agree fits written
  exact (destination.widen (by decide) (by decide)).trans
    ((ip.widen (Nat.le_refl 24) (by decide)).trans
      ((icmpEchoPacket_agree fits written).widen (by decide) (Nat.le_refl 38)))

theorem byteAt_icmpEchoPacket (fits : ethernetHdrSize + ipLen packet ≤ packet.length)
    (written : 24 ≤ ipLen packet) {index : Nat} (behind : 14 ≤ index)
    (within : index < ethernetHdrSize + ipLen packet) (outside : index < 24 ∨ 38 ≤ index)
    : byteAt (icmpEchoPacket code packet) index = byteAt packet index :=
  ((icmpEchoPacket_agree_copied fits written).byte index outside).trans
    (byteAt_copiedDatagram behind within)

theorem ipLen_icmpEchoPacket (fits : ethernetHdrSize + ipLen packet ≤ packet.length)
    (written : 24 ≤ ipLen packet)
    : ipLen (icmpEchoPacket code packet) = ipLen packet := by
  have within : 18 ≤ ethernetHdrSize + ipLen packet := by
    simp only [ethernetHdrSize]
    omega
  rw [ipLen, halfAt,
    byteAt_icmpEchoPacket fits written (by decide) (by omega) (Or.inl (by decide)),
    byteAt_icmpEchoPacket fits written (by decide) (by omega) (Or.inl (by decide))]
  rfl

theorem icmpCode_icmpEchoPacket (fits : ethernetHdrSize + ipLen packet ≤ packet.length)
    (written : 24 ≤ ipLen packet)
    : icmpCode (icmpEchoPacket code packet) = code := by
  obtain ⟨long, sum⟩ := icmpEchoPacket_written fits written
  have inside : 34 + [0, code, 0, 0].length ≤ (swappedDatagram packet).length := long
  exact (sum.byte 35 (by decide)).trans (byteAt_overwrite_inside 1 inside (by simp))

/-- Identifier, sequence number and data are those of the packet. -/
theorem drop_icmpEchoPacket (fits : ethernetHdrSize + ipLen packet ≤ packet.length)
    (written : 24 ≤ ipLen packet)
    : (icmpEchoPacket code packet).drop 38
      = (packet.drop 38).take (ethernetHdrSize + ipLen packet - 38) := by
  have copied : (copiedDatagram packet).drop 14
      = (packet.drop ethernetHdrSize).take (ipLen packet) := by
    rw [copiedDatagram, ← length_icmpEthernetHeader, List.drop_left]
  have behind := congrArg (List.drop 24) copied
  rw [List.drop_drop, List.drop_take, List.drop_drop] at behind
  have count : ipLen packet - 24 = ethernetHdrSize + ipLen packet - 38 := by
    simp only [ethernetHdrSize]
    omega
  rw [(icmpEchoPacket_agree_copied fits written).drop (Nat.le_refl 38), behind, count]
  rfl

theorem ethertype_icmpEchoPacket (fits : ethernetHdrSize + ipLen packet ≤ packet.length)
    (written : 24 ≤ ipLen packet)
    : ethertype (icmpEchoPacket code packet) = ethertypeIp := by
  have high : byteAt (copiedDatagram packet) 12 = 0x08 := rfl
  have low : byteAt (copiedDatagram packet) 13 = 0x00 := rfl
  rw [ethertype, (icmpEchoPacket_agree_copied fits written).half 12 (by decide), halfAt, high,
    low]
  decide

/-- The copy with its addresses swapped and its checksums still zero. -/
def readdressedDatagram (packet : Frame) : Frame :=
  overwrite 26 (fieldBytes32 (ipDst packet))
    (overwrite 30 (fieldBytes32 (ipSrc packet)) (copiedDatagram packet))

theorem readdressedDatagram_agree (fits : ethernetHdrSize + ipLen packet ≤ packet.length)
    (written : 24 ≤ ipLen packet)
    : AgreeOutside 26 34 (copiedDatagram packet) (readdressedDatagram packet)
      ∧ wordAt (readdressedDatagram packet) 26 = ipDst packet := by
  obtain ⟨-, destination⟩ := swappedDatagram_agree fits written
  have length := length_copiedDatagram fits
  simp only [ethernetHdrSize] at length
  have inside : 26 + (fieldBytes32 (ipDst packet)).length
      ≤ (overwrite 30 (fieldBytes32 (ipSrc packet)) (copiedDatagram packet)).length := by
    rw [length_fieldBytes32, destination.length, length]
    omega
  have source := agreeOutside_overwrite inside
  exact ⟨(destination.widen (by decide) (Nat.le_refl 34)).trans
      (source.widen (Nat.le_refl 26) (by simp)),
    wordAt_overwrite _ inside⟩

/-- Writing the checksum of the header completes the IP part. -/
theorem swappedDatagram_written (fits : ethernetHdrSize + ipLen packet ≤ packet.length)
    (written : 24 ≤ ipLen packet)
    : AgreeOutside 24 26 (readdressedDatagram packet) (swappedDatagram packet) := by
  obtain ⟨agree, -⟩ := readdressedDatagram_agree fits written
  have length := length_copiedDatagram fits
  simp only [ethernetHdrSize] at length
  have inside : ∀ sum : UInt16,
      24 + (fieldBytes16 sum).length ≤ (readdressedDatagram packet).length := by
    intro sum
    rw [length_fieldBytes16, agree.length, length]
    omega
  exact agreeOutside_overwrite (inside _)

theorem ipSrc_icmpEchoPacket (fits : ethernetHdrSize + ipLen packet ≤ packet.length)
    (written : 24 ≤ ipLen packet)
    : ipSrc (icmpEchoPacket code packet) = ipDst packet := by
  obtain ⟨-, source⟩ := readdressedDatagram_agree fits written
  rw [ipSrc, (icmpEchoPacket_agree fits written).word 26 (by decide),
    (swappedDatagram_written fits written).word 26 (by decide), source]

/-- The header of the reply is accepted when the field that was copied was zero. -/
theorem ipChecksum_icmpEchoPacket (fits : ethernetHdrSize + ipLen packet ≤ packet.length)
    (written : 24 ≤ ipLen packet) (zero : halfAt packet 24 = 0)
    : ipChecksum (icmpEchoPacket code packet) = true := by
  have length := length_copiedDatagram fits
  simp only [ethernetHdrSize] at length
  obtain ⟨agree, -⟩ := readdressedDatagram_agree fits written
  have icmp : AgreeOutside 34 38 (swappedDatagram packet) (icmpEchoPacket code packet) :=
    icmpEchoPacket_agree fits written
  have swapped : ipChecksum (swappedDatagram packet) = true := by
    have long : 34 ≤ (readdressedDatagram packet).length := by
      rw [agree.length, length]
      omega
    have within : 26 ≤ ethernetHdrSize + ipLen packet := by
      simp only [ethernetHdrSize]
      omega
    have zeroField : halfAt (readdressedDatagram packet) 24 = 0 := by
      rw [agree.half 24 (by decide), halfAt, byteAt_copiedDatagram (by decide) (by omega),
        byteAt_copiedDatagram (by decide) (by omega)]
      exact zero
    exact ipChecksum_written long zeroField
  have long : 34 ≤ (swappedDatagram packet).length := by
    rw [(swappedDatagram_written fits written).length, agree.length, length]
    omega
  rw [icmp.ipChecksum_eq (Nat.le_refl 34) long]
  exact swapped

/-- The ICMP message of the reply is accepted. -/
theorem icmpChecksum_icmpEchoPacket (fits : ethernetHdrSize + ipLen packet ≤ packet.length)
    (written : 24 ≤ ipLen packet)
    : icmpChecksum (icmpEchoPacket code packet) = true := by
  have swappedLong : 34 + [0, code, 0, 0].length ≤ (swappedDatagram packet).length := by
    obtain ⟨ip, destination⟩ := swappedDatagram_agree fits written
    have length := length_copiedDatagram fits
    simp only [ethernetHdrSize] at length
    rw [ip.length, destination.length, length, List.length_cons, List.length_cons,
      List.length_cons, List.length_singleton]
    omega
  have header := agreeOutside_overwrite swappedLong
  have reply : AgreeOutside 34 38 (swappedDatagram packet) (icmpEchoPacket code packet) :=
    icmpEchoPacket_agree fits written
  have replyLen : ipLen (icmpEchoPacket code packet) = ipLen packet :=
    ipLen_icmpEchoPacket fits written
  have sameLen : ipLen (overwrite 34 [0, code, 0, 0] (swappedDatagram packet)) = ipLen packet := by
    rw [← replyLen, ipLen, header.half 16 (Or.inl (by decide)), ipLen,
      reply.half 16 (Or.inl (by decide))]
  have zero : halfAt (overwrite 34 [0, code, 0, 0] (swappedDatagram packet)) 36 = 0 := by
    rw [halfAt, byteAt_overwrite_inside 2 swappedLong (by simp),
      byteAt_overwrite_inside 3 swappedLong (by simp)]
    simp [byteAt]
  have accepted : icmpChecksum
      (overwrite 36
        (fieldBytes16
          (cksum
            ((overwrite 34 [0, code, 0, 0] (swappedDatagram packet)).drop
              (ethernetHdrSize + ipHdrSize))
            ((ipLen (overwrite 34 [0, code, 0, 0] (swappedDatagram packet)) : Int) - ipHdrSize)))
        (overwrite 34 [0, code, 0, 0] (swappedDatagram packet)))
      = true := by
    refine icmpChecksum_written (by rw [sameLen]; exact written) ?_ zero
    rw [sameLen, header.length, ← reply.length, length_icmpEchoPacket fits written]
  rw [sameLen] at accepted
  exact accepted

end Reply

-----------------------------------------------------------------------------------------
-- Requests
-----------------------------------------------------------------------------------------

/-- The packets handed to `sr_ForwardPacket`. -/
def Event.built : Event → Option Frame
  | .forwardPacket _ packet _ => some packet
  | _ => none

/-- The packets that the router has built or copied and handed to `sr_ForwardPacket`. -/
def SrInstance.built (sr : SrInstance) : List Frame := sr.log.filterMap Event.built

theorem srForwardPacket_built (caller : Caller) (packet : Frame) (nexthopIp : UInt32)
    (interface : Option SrIf) (sr : SrInstance)
    : (srForwardPacket caller packet nexthopIp interface sr).built = sr.built ++ [packet] := by
  obtain ⟨sent, log, -, onlySends⟩ := srForwardPacket_log caller packet nexthopIp interface sr
  have others : sent.filterMap Event.built = [] := by
    refine List.filterMap_eq_nil_iff.mpr fun event member => ?_
    obtain ⟨frame, iface, rfl⟩ := onlySends event member
    rfl
  simp [SrInstance.built, log, Event.built, others]

/-- An echo request that is addressed to the router, carries no options, fits its frame, and
has correct checksums.
-/
structure SrInstance.EchoRequest (sr : SrInstance) (packet : Frame) : Prop where
  ip : ethertype packet = ethertypeIp
  plain : ipHl packet = 5
  header : 28 ≤ ipLen packet
  fits : ethernetHdrSize + ipLen packet ≤ packet.length
  ours : (sr.ipCheck (ipDst packet)).isSome
  icmp : ipP packet = 1
  type : icmpType packet = 8
  ipSum : ipChecksum packet = true
  icmpSum : icmpChecksum packet = true

/-- The request with both checksum fields zeroed, as the verification leaves it. -/
def verified (packet : Frame) : Frame := clearIcmpSum (clearIpSum packet)

/-- Verification changes nothing but the checksum fields. -/
theorem verified_agree {packet : Frame} (long : 38 ≤ packet.length)
    : AgreeOutside 24 26 packet (clearIpSum packet)
      ∧ AgreeOutside 36 38 (clearIpSum packet) (verified packet) := by
  have header : 34 ≤ packet.length := by omega
  have cleared := clearIpSum_agree header
  exact ⟨cleared, clearIcmpSum_agree (cleared.length ▸ long)⟩

/-- The input handler treats a valid datagram for the router as a local one. -/
theorem srHandlepacket_local (outside : Outside) {packet : Frame} (interface : String)
    {sr : SrInstance} (long : 34 ≤ packet.length) (ip : ethertype packet = ethertypeIp)
    (valid : ipChecksum packet = true) (ours : (sr.ipCheck (ipDst packet)).isSome)
    : srHandlepacket outside packet interface sr
      = handleLocal outside (clearIpSum packet) sr := by
  have sameDst : ipDst (clearIpSum packet) = ipDst packet :=
    (clearIpSum_agree long).word 30 (by decide)
  have accepted : ¬ (!ipChecksum packet) = true := by simp [valid]
  have oursStill : (sr.ipCheck (ipDst (clearIpSum packet))).isSome := sameDst ▸ ours
  rw [srHandlepacket_ip outside interface sr long ip, if_neg accepted, if_pos oursStill]

/-- An echo request for the router makes it build an ICMP message of type zero. -/
theorem srHandlepacket_echo (outside : Outside) {packet : Frame} (interface : String)
    {sr : SrInstance} (request : sr.EchoRequest packet)
    : srHandlepacket outside packet interface sr
      = srIcmpMakePacket outside (verified packet) 0 0 sr := by
  obtain ⟨ip, -, header, fits, ours, icmp, type, ipSum, icmpSum⟩ := request
  have long : 42 ≤ packet.length := by
    simp only [ethernetHdrSize] at fits
    omega
  have icmpHeader : 38 ≤ packet.length := by omega
  obtain ⟨cleared, clearedIcmp⟩ := verified_agree icmpHeader
  have sameP : ipP (clearIpSum packet) = 1 := (cleared.byte 23 (by decide)).trans icmp
  have sameLen : ipLen (clearIpSum packet) = ipLen packet := cleared.half 16 (by decide)
  have sameType : icmpType (verified packet) = 8 :=
    (clearedIcmp.byte 34 (by decide)).trans ((cleared.byte 34 (by decide)).trans type)
  have inside : ¬ ((clearIpSum packet).length < 38
      ∨ (clearIpSum packet).length < ethernetHdrSize + ipLen (clearIpSum packet)) := by
    rw [cleared.length, sameLen]
    omega
  have accepted : ¬ (!icmpChecksum (clearIpSum packet)) = true := by
    rw [cleared.icmpChecksum_eq (by decide) (by decide) (by omega) fits]
    simp [icmpSum]
  rw [srHandlepacket_local outside interface (by omega) ip ipSum ours, handleLocal,
    if_pos sameP, handleIcmp, if_neg inside, if_neg accepted]
  exact if_pos sameType

/-- With a route to the source of an echo request, the reply is forwarded there. -/
theorem srIcmpMakePacket_echo (outside : Outside) {packet : Frame} {sr : SrInstance}
    {nexthop : SrRt} (header : 28 ≤ ipLen packet)
    (fits : ethernetHdrSize + ipLen packet ≤ packet.length)
    (route : sr.longestprefixmatch (ipSrc packet) = some nexthop)
    : srIcmpMakePacket outside packet 0 0 sr
      = srForwardPacket .icmpMakePacket (icmpEchoPacket 0 packet) nexthop.gw
          (sr.srGetInterface nexthop.interface) (sr.record (.icmpMakePacket 0 0 packet)) := by
  have long : 42 ≤ packet.length := by
    simp only [ethernetHdrSize] at fits
    omega
  have sameRoute : (sr.record (.icmpMakePacket 0 0 packet)).longestprefixmatch (ipSrc packet)
      = some nexthop := route
  have supported : ¬ ((0 : UInt8) ≠ 0 ∧ (0 : UInt8) ≠ 11 ∧ (0 : UInt8) ≠ 3) := by decide
  rw [srIcmpMakePacket, if_neg (by omega), if_neg supported, if_neg (by omega)]
  simp only [sameRoute, if_true]
  rw [icmpEcho, if_neg (by omega), if_neg (by omega)]
  rfl

/-- The reply to the zeroed copy of a request answers the request. -/
theorem icmpEchoPacket_answers {sr : SrInstance} {packet : Frame}
    (request : sr.EchoRequest packet)
    : EchoReply packet (icmpEchoPacket 0 (verified packet)) := by
  obtain ⟨ip, -, header, fits, ours, icmp, type, ipSum, icmpSum⟩ := request
  have long : 38 ≤ packet.length := by
    simp only [ethernetHdrSize] at fits
    omega
  obtain ⟨cleared, clearedIcmp⟩ := verified_agree long
  have sameLen : ipLen (verified packet) = ipLen packet :=
    (clearedIcmp.half 16 (by decide)).trans (cleared.half 16 (by decide))
  have length : (verified packet).length = packet.length :=
    clearedIcmp.length.trans cleared.length
  have copyFits : ethernetHdrSize + ipLen (verified packet) ≤ (verified packet).length := by
    rw [sameLen, length]
    exact fits
  have written : 24 ≤ ipLen (verified packet) := by omega
  have sameSrc : ipSrc (verified packet) = ipSrc packet :=
    (clearedIcmp.word 26 (by decide)).trans (cleared.word 26 (by decide))
  have sameDst : ipDst (verified packet) = ipDst packet :=
    (clearedIcmp.word 30 (by decide)).trans (cleared.word 30 (by decide))
  have zero : halfAt (verified packet) 24 = 0 := by
    have inside : 24 + [(0 : UInt8), 0].length ≤ packet.length := by
      simp only [List.length_cons, List.length_nil]
      omega
    rw [clearedIcmp.half 24 (by decide), clearIpSum, halfAt,
      byteAt_overwrite_inside 0 inside (by decide), byteAt_overwrite_inside 1 inside (by decide)]
    decide
  refine
    { ip := ethertype_icmpEchoPacket copyFits written
      length := (length_icmpEchoPacket copyFits written).trans (by rw [sameLen])
      version := ?_
      ipLen := (ipLen_icmpEchoPacket copyFits written).trans sameLen
      src := (ipSrc_icmpEchoPacket copyFits written).trans sameDst
      dst := (ipDst_icmpEchoPacket copyFits written).trans sameSrc
      type := icmpType_icmpEchoPacket copyFits written
      code := ?_
      data := ?_
      ipSum := ipChecksum_icmpEchoPacket copyFits written zero
      icmpSum := icmpChecksum_icmpEchoPacket copyFits written }
  · have within : 14 < ethernetHdrSize + ipLen (verified packet) := by
      simp only [ethernetHdrSize]
      omega
    rw [byteAt_icmpEchoPacket copyFits written (Nat.le_refl 14) within (by decide),
      clearedIcmp.byte 14 (by decide), cleared.byte 14 (by decide)]
  · exact icmpCode_icmpEchoPacket copyFits written
  · rw [drop_icmpEchoPacket copyFits written, sameLen, clearedIcmp.drop (Nat.le_refl 38),
      cleared.drop (by decide), ← List.drop_take]

/-- Every well-formed echo request with a route back to its source makes the router build
exactly one packet, a correct reply, which it hands to `sr_ForwardPacket`.
-/
theorem srHandlepacket_echoReply (outside : Outside) {packet : Frame} (interface : String)
    {sr : SrInstance} (request : sr.EchoRequest packet) {nexthop : SrRt} {iface : SrIf}
    (route : sr.longestprefixmatch (ipSrc packet) = some nexthop)
    (attached : sr.srGetInterface nexthop.interface = some iface)
    : ∃ reply,
        EchoReply packet reply
        ∧ srHandlepacket outside packet interface sr
          = srForwardPacket .icmpMakePacket reply nexthop.gw (some iface)
              (sr.record (.icmpMakePacket 0 0 (verified packet)))
        ∧ (srHandlepacket outside packet interface sr).built = sr.built ++ [reply] := by
  have long : 38 ≤ packet.length := by
    have fits := request.fits
    have header := request.header
    simp only [ethernetHdrSize] at fits
    omega
  obtain ⟨cleared, clearedIcmp⟩ := verified_agree long
  have sameLen : ipLen (verified packet) = ipLen packet :=
    (clearedIcmp.half 16 (by decide)).trans (cleared.half 16 (by decide))
  have sameSrc : ipSrc (verified packet) = ipSrc packet :=
    (clearedIcmp.word 26 (by decide)).trans (cleared.word 26 (by decide))
  have handled := srHandlepacket_echo outside interface request
  rw [srIcmpMakePacket_echo outside (sameLen.symm ▸ request.header)
    (by rw [sameLen, clearedIcmp.length, cleared.length]; exact request.fits)
    (sameSrc.symm ▸ route), attached] at handled
  refine ⟨icmpEchoPacket 0 (verified packet), icmpEchoPacket_answers request, handled, ?_⟩
  rw [handled, srForwardPacket_built]
  simp [SrInstance.built, SrInstance.record, Event.built]

/-- A ping of 192.168.2.1 from 10.0.1.100 with one byte of data. -/
def pingFrame : Frame :=
  List.replicate 12 0 ++ [0x08, 0x00]
    ++ [0x45, 0x00, 0x00, 0x1d, 0x00, 0x01, 0x00, 0x00, 0x40, 0x01, 0xac, 0xd2]
    ++ [0x0a, 0x00, 0x01, 0x64, 0xc0, 0xa8, 0x02, 0x01]
    ++ [0x08, 0x00, 0x84, 0xca, 0x12, 0x34, 0x00, 0x01, 0x61]

/-- A router with the address 192.168.2.1 and a default route. -/
def pingedRouter : SrInstance :=
  srInit [⟨"eth1", Vector.replicate 6 1, 16951488⟩] [⟨0, 1677787146, 0, "eth1"⟩]

theorem pingFrame_request : pingedRouter.EchoRequest pingFrame := by
  constructor <;> decide +kernel

theorem srHandlepacket_echoReply_ping
    : ∃ reply,
        EchoReply pingFrame reply
        ∧ srHandlepacket ⟨fun _ => 0, fun _ _ => 0⟩ pingFrame "eth1" pingedRouter
          = srForwardPacket .icmpMakePacket reply 1677787146
              (some ⟨"eth1", Vector.replicate 6 1, 16951488⟩)
              (pingedRouter.record (.icmpMakePacket 0 0 (verified pingFrame)))
        ∧ (srHandlepacket ⟨fun _ => 0, fun _ _ => 0⟩ pingFrame "eth1" pingedRouter).built
          = pingedRouter.built ++ [reply] := by
  have route : pingedRouter.longestprefixmatch (ipSrc pingFrame)
      = some ⟨0, 1677787146, 0, "eth1"⟩ := by
    decide +kernel
  have attached : pingedRouter.srGetInterface "eth1"
      = some ⟨"eth1", Vector.replicate 6 1, 16951488⟩ := by
    decide +kernel
  exact srHandlepacket_echoReply _ "eth1" pingFrame_request route attached

end Networks.Router
