import Networks.Router.EchoReply
import Networks.Router.Resolved

/-! What ICMP error messages quote. Every message is addressed to the source of the datagram
and carries valid checksums, but the handler changes the datagram in place before it is
quoted: its checksum is zeroed, or its TTL is taken down and its checksum computed anew.
-/

namespace Networks.Router

open ByteFields
open Ctcp (fieldBytes16)

-----------------------------------------------------------------------------------------
-- Messages
-----------------------------------------------------------------------------------------

/-- The ICMP messages that the router has built. -/
def Event.message : Event → Option Frame
  | .forwardPacket .icmpMakePacket packet _ => some packet
  | _ => none

/-- The ICMP messages that the router has handed to `sr_ForwardPacket`. -/
def SrInstance.messages (sr : SrInstance) : List Frame := sr.log.filterMap Event.message

/-- From `sr` to `next` only messages of the given kind were built. -/
def Building (kind : Frame → Prop) (sr next : SrInstance) : Prop :=
  ∃ built, next.messages = sr.messages ++ built ∧ ∀ message ∈ built, kind message

theorem Building.of_log {kind : Frame → Prop} {sr next : SrInstance}
    (same : next.messages = sr.messages)
    : Building kind sr next :=
  ⟨[], by rw [same, List.append_nil], by simp⟩

theorem Building.mono {kind other : Frame → Prop} {sr next : SrInstance}
    (building : Building kind sr next) (implies : ∀ message, kind message → other message)
    : Building other sr next := by
  obtain ⟨built, messages, kinds⟩ := building
  exact ⟨built, messages, fun message member => implies message (kinds message member)⟩

/-- Nothing is built before. -/
theorem Building.of_silent {kind : Frame → Prop} {sr middle next : SrInstance}
    (before : middle.messages = sr.messages) (building : Building kind middle next)
    : Building kind sr next := by
  obtain ⟨built, messages, kinds⟩ := building
  exact ⟨built, by rw [messages, before], kinds⟩

/-- The bytes a message quotes. -/
def quoted (message : Frame) : List UInt8 := (message.drop 42).take icmpDataSize

/-- The first bytes of the datagram in a frame. -/
def datagramFront (packet : Frame) : List UInt8 := (packet.drop ethernetHdrSize).take icmpDataSize

/-- A message goes back to the source of a datagram, with checksums that are accepted. -/
structure ReturnsTo (packet message : Frame) : Prop where
  dst : ipDst message = ipSrc packet
  ipSum : ipChecksum message = true
  icmpSum : icmpChecksum message = true

/-- A message about a datagram as it should be. -/
def QuotesAsReceived (packet message : Frame) : Prop :=
  ReturnsTo packet message ∧ quoted message = datagramFront packet

section ErrorMessage

variable {type code : UInt8} {unused : Nat → UInt8} {packet : Frame} {source : UInt32}

theorem quoted_icmpErrorPacket
    : quoted (icmpErrorPacket type code unused packet source) = datagramFront packet := by
  have behind : (icmpErrorPacket type code unused packet source).drop 42
      = datagramFront packet := rfl
  rw [quoted, behind, datagramFront, List.take_take, Nat.min_self]

/-- The frame of an error message, from its IP header and its ICMP part. -/
def errorFrame (header body : List UInt8) : Frame := icmpEthernetHeader ++ header ++ body

theorem icmpErrorPacket_eq
    : icmpErrorPacket type code unused packet source
      = errorFrame
          (icmpIpHeader packet source (cksum (icmpIpHeader packet source 0) ipHdrSize))
          (icmpErrorBody type code unused packet
            (cksum (icmpErrorBody type code unused packet 0) 36)) := rfl

/-- The header checksum of an error message is written into a zero field. -/
theorem ipChecksum_icmpErrorPacket
    : ipChecksum (icmpErrorPacket type code unused packet source) = true := by
  have written : ∀ sum body,
      errorFrame (icmpIpHeader packet source sum) body
      = overwrite 24 (fieldBytes16 sum) (errorFrame (icmpIpHeader packet source 0) body) :=
    fun _ _ => rfl
  have covered : ∀ body,
      cksum (icmpIpHeader packet source 0) ipHdrSize
      = cksum ((errorFrame (icmpIpHeader packet source 0) body).drop ethernetHdrSize)
          ipHdrSize :=
    fun _ => cksum_congr rfl
  have zero : ∀ body, halfAt (errorFrame (icmpIpHeader packet source 0) body) 24 = 0 := by
    intro body
    have high : byteAt (errorFrame (icmpIpHeader packet source 0) body) 24 = 0 := rfl
    have low : byteAt (errorFrame (icmpIpHeader packet source 0) body) 25 = 0 := rfl
    rw [halfAt, high, low]
    rfl
  have long : ∀ body, 34 ≤ (errorFrame (icmpIpHeader packet source 0) body).length := by
    intro body
    simp [errorFrame, icmpEthernetHeader, icmpIpHeader]
    omega
  rw [icmpErrorPacket_eq, written, covered]
  exact ipChecksum_written (long _) (zero _)

/-- An error message whose ICMP checksum is zero, with the given header checksum. -/
def unsummedFrame (type code : UInt8) (unused : Nat → UInt8) (packet : Frame) (source : UInt32)
    (sum : UInt16)
    : Frame :=
  errorFrame (icmpIpHeader packet source sum) (icmpErrorBody type code unused packet 0)

theorem ipLen_unsummedFrame (sum : UInt16)
    : ipLen (unsummedFrame type code unused packet source sum) = 56 := by
  have high : byteAt (unsummedFrame type code unused packet source sum) 16 = 0 := rfl
  have low : byteAt (unsummedFrame type code unused packet source sum) 17 = 56 := rfl
  rw [ipLen, halfAt, high, low]
  rfl

theorem icmpSum_unsummedFrame (sum : UInt16)
    : halfAt (unsummedFrame type code unused packet source sum) 36 = 0 := by
  have high : byteAt (unsummedFrame type code unused packet source sum) 36 = 0 := rfl
  have low : byteAt (unsummedFrame type code unused packet source sum) 37 = 0 := rfl
  rw [halfAt, high, low]
  rfl

theorem length_unsummedFrame (long : ethernetHdrSize + icmpDataSize ≤ packet.length)
    (sum : UInt16)
    : (unsummedFrame type code unused packet source sum).length = 70 := by
  simp only [ethernetHdrSize, icmpDataSize] at long
  simp [unsummedFrame, errorFrame, icmpEthernetHeader, icmpIpHeader, icmpErrorBody,
    ethernetHdrSize, icmpDataSize]
  omega

/-- The checksum of the ICMP part of an error message is written into a zero field. -/
theorem icmpChecksum_icmpErrorPacket (long : ethernetHdrSize + icmpDataSize ≤ packet.length)
    : icmpChecksum (icmpErrorPacket type code unused packet source) = true := by
  have written : ∀ sum icmpSum,
      errorFrame (icmpIpHeader packet source sum) (icmpErrorBody type code unused packet icmpSum)
      = overwrite 36 (fieldBytes16 icmpSum)
          (unsummedFrame type code unused packet source sum) :=
    fun _ _ => rfl
  have behind : ∀ sum,
      (unsummedFrame type code unused packet source sum).drop (ethernetHdrSize + ipHdrSize)
      = icmpErrorBody type code unused packet 0 := fun _ => rfl
  have accepted : ∀ sum,
      icmpChecksum
        (overwrite 36 (fieldBytes16 (cksum (icmpErrorBody type code unused packet 0) 36))
          (unsummedFrame type code unused packet source sum))
      = true := by
    intro sum
    have sameLen : ipLen (unsummedFrame type code unused packet source sum) = 56 :=
      ipLen_unsummedFrame sum
    have covers := icmpChecksum_written (by rw [sameLen]; decide)
      (by rw [sameLen, length_unsummedFrame long sum]; decide) (icmpSum_unsummedFrame sum)
    rw [behind, sameLen] at covers
    exact covers
  rw [icmpErrorPacket_eq, written]
  exact accepted _

end ErrorMessage

-----------------------------------------------------------------------------------------
-- The messages a call builds
-----------------------------------------------------------------------------------------

/-- The messages that a call of `sr_ForwardPacket` stands for. -/
theorem srForwardPacket_messages (caller : Caller) (packet : Frame) (nexthopIp : UInt32)
    (interface : Option SrIf) (sr : SrInstance)
    : (srForwardPacket caller packet nexthopIp interface sr).messages
      = sr.messages ++ (Event.message (.forwardPacket caller packet nexthopIp)).toList := by
  obtain ⟨sent, log, -, onlySends⟩ :=
    srForwardPacket_log caller packet nexthopIp interface sr
  have others : sent.filterMap Event.message = [] := by
    refine List.filterMap_eq_nil_iff.mpr fun event member => ?_
    obtain ⟨frame, iface, rfl⟩ := onlySends event member
    rfl
  rw [SrInstance.messages, log, List.filterMap_append, List.filterMap_cons, others]
  cases Event.message (.forwardPacket caller packet nexthopIp) <;> rfl

theorem srForwardPacket_building (packet : Frame) (nexthopIp : UInt32)
    (interface : Option SrIf) (sr : SrInstance)
    : Building (fun message => message = packet) sr
        (srForwardPacket .icmpMakePacket packet nexthopIp interface sr) :=
  ⟨[packet], srForwardPacket_messages _ _ _ _ _, by simp⟩

section Handlers

variable (outside : Outside)

/-- A message is an echo reply, or an error message that quotes a packet long enough. -/
theorem srIcmpMakePacket_building (packet : Frame) (type code : UInt8) (sr : SrInstance)
    : Building
        (fun message =>
          type = 0 ∧ icmpType message = 0
          ∨ type ≠ 0 ∧ ethernetHdrSize + icmpDataSize ≤ packet.length
            ∧ ∃ unused source, message = icmpErrorPacket type code unused packet source)
        sr (srIcmpMakePacket outside packet type code sr) := by
  have recorded : (sr.record (.icmpMakePacket type code packet)).messages = sr.messages := by
    rw [SrInstance.messages, SrInstance.record, List.filterMap_append]
    exact List.append_nil _
  simp only [srIcmpMakePacket]
  split
  · exact .of_log recorded
  split
  · exact .of_log recorded
  split
  · exact .of_log recorded
  split
  · exact .of_log recorded
  split
  · next reply =>
      unfold icmpEcho
      split
      · exact .of_log recorded
      next inside =>
      split
      · exact .of_log recorded
      next long =>
      have type : icmpType (icmpEchoPacket code packet) = 0 :=
        icmpType_icmpEchoPacket (Nat.not_lt.mp inside) (Nat.not_lt.mp long)
      refine .of_silent recorded ((srForwardPacket_building _ _ _ _).mono ?_)
      rintro message rfl
      exact Or.inl ⟨reply, type⟩
  · next error =>
      simp only [icmpError]
      split
      · exact .of_log recorded
      split
      · exact .of_log recorded
      next long =>
      have allocated : SrInstance.messages
          { sr.record (.icmpMakePacket type code packet) with
            mallocs := (sr.record (.icmpMakePacket type code packet)).mallocs + 1 }
          = sr.messages := recorded
      refine .of_silent allocated ((srForwardPacket_building _ _ _ _).mono ?_)
      rintro message rfl
      exact Or.inr ⟨error, Nat.not_lt.mp long, _, _, rfl⟩

-----------------------------------------------------------------------------------------
-- What the handler has changed
-----------------------------------------------------------------------------------------

/-- A frame that stands for a received packet, changed where the datagram is quoted from. -/
structure Spoilt (packet frame : Frame) : Prop where
  agree : AgreeOutside 22 26 packet frame
  front : datagramFront frame ≠ datagramFront packet

/-- A frame with the fields of a received packet, but for TTL and checksum: the packet, or
what waits of it for its next hop.
-/
structure Carries (packet frame : Frame) : Prop where
  agree : AgreeOutside 22 26 packet frame
  ttl : ipTtl frame = ipTtl packet ∨ ipTtl frame = ipTtl packet - 2

/-- An error message goes back to the source of the packet, and misquotes it. -/
def Misquotes (packet message : Frame) : Prop :=
  icmpType message ≠ 0 → ReturnsTo packet message ∧ ¬ QuotesAsReceived packet message

theorem byteAt_datagramFront (packet : Frame) {index : Nat} (within : index < icmpDataSize)
    : byteAt (datagramFront packet) index = byteAt packet (14 + index) := by
  rw [datagramFront, byteAt_take within, byteAt_drop]
  rfl

variable {packet other : Frame}

/-- Where the quoted bytes are the same, so are TTL and checksum. -/
theorem sameFields_of_datagramFront (same : datagramFront other = datagramFront packet)
    : ipTtl other = ipTtl packet ∧ ipSum other = ipSum packet := by
  have bytes : ∀ index, index < icmpDataSize
      → byteAt other (14 + index) = byteAt packet (14 + index) := by
    intro index within
    rw [← byteAt_datagramFront other within, ← byteAt_datagramFront packet within, same]
  refine ⟨bytes 8 (by decide), ?_⟩
  rw [ipSum, shortAt, bytes 10 (by decide), bytes 11 (by decide)]
  rfl

/-- Verifying the checksum has zeroed it. -/
theorem Carries.cleared (carries : Carries packet other) (long : 34 ≤ packet.length)
    (sum : ipSum packet ≠ 0)
    : Spoilt packet (clearIpSum other) where
  agree :=
    carries.agree.trans
      ((clearIpSum_agree (carries.agree.length ▸ long)).widen (by decide) (Nat.le_refl 26))
  front := by
    intro same
    have inside : 24 + [(0 : UInt8), 0].length ≤ other.length := by
      rw [carries.agree.length]
      exact Nat.le_trans (by decide) long
    have high : byteAt (clearIpSum other) 24 = 0 := byteAt_overwrite_inside 0 inside (by simp)
    have low : byteAt (clearIpSum other) 25 = 0 := byteAt_overwrite_inside 1 inside (by simp)
    have zero : ipSum (clearIpSum other) = 0 := by
      rw [ipSum, shortAt, high, low]
      rfl
    exact sum ((sameFields_of_datagramFront same).2.symm.trans zero)

/-- The TTL has been taken down by two, once or twice. -/
theorem Carries.forwarded (carries : Carries packet other) (long : 34 ≤ packet.length)
    : Spoilt packet (rewriteIpSum (decrementTtl (clearIpSum other))) where
  agree := by
    have otherLong : 34 ≤ other.length := carries.agree.length ▸ long
    have cleared := clearIpSum_agree otherLong
    exact carries.agree.trans
      ((cleared.widen (by decide) (Nat.le_refl 26)).trans
        (forwarded_agree (cleared.length ▸ otherLong)))
  front := by
    intro same
    have otherLong : 34 ≤ other.length := carries.agree.length ▸ long
    have cleared := clearIpSum_agree otherLong
    have ttl := (sameFields_of_datagramFront same).1
    rw [forwarded_ttl (cleared.length ▸ otherLong)] at ttl
    have kept : ipTtl (clearIpSum other) = ipTtl other := cleared.byte 22 (by decide)
    rw [kept] at ttl
    rcases carries.ttl with same | less
    · rw [same] at ttl
      exact oneTransit_ne _ ttl
    · rw [less] at ttl
      exact twoTransits_ne _ ttl

/-- An error message made from a spoilt frame. -/
theorem Spoilt.misquotes (spoilt : Spoilt packet other) (type code : UInt8) (sr : SrInstance)
    : Building (Misquotes packet) sr (srIcmpMakePacket outside other type code sr) := by
  refine (srIcmpMakePacket_building outside other type code sr).mono ?_
  rintro message (⟨-, echo⟩ | ⟨-, long, unused, source, rfl⟩) error
  · exact absurd echo error
  · have returns : ReturnsTo packet (icmpErrorPacket type code unused other source) :=
      { dst := ipDst_icmpErrorPacket.trans (spoilt.agree.word 26 (by decide))
        ipSum := ipChecksum_icmpErrorPacket
        icmpSum := icmpChecksum_icmpErrorPacket long }
    refine ⟨returns, fun asReceived => spoilt.front ?_⟩
    exact quoted_icmpErrorPacket.symm.trans asReceived.2

theorem handleLocal_misquotes (spoilt : Spoilt packet other) (sr : SrInstance)
    : Building (Misquotes packet) sr (handleLocal outside other sr) := by
  simp only [handleLocal, handleIcmp]
  split
  · split
    · exact .of_log rfl
    split
    · exact .of_log rfl
    split
    · -- an echo reply is no error message
      refine (srIcmpMakePacket_building outside _ 0 0 sr).mono ?_
      rintro message (⟨-, echo⟩ | ⟨error, -⟩)
      · exact fun error => absurd echo error
      · exact absurd rfl error
    · exact .of_log rfl
  split
  · exact spoilt.misquotes outside 3 3 sr
  · exact .of_log rfl

/-- Whatever error message the handler makes about a received packet misquotes it, and what it
passes on is spoilt.
-/
theorem srHandlepacket_misquotes (carries : Carries packet other) (long : 34 ≤ packet.length)
    (ip : ethertype other = ethertypeIp) (sum : ipChecksum other = true → ipSum packet ≠ 0)
    (interface : String) (sr : SrInstance)
    : Building (Misquotes packet) sr (srHandlepacket outside other interface sr)
      ∧ ∀ waiting,
        (srHandlepacket outside other interface sr).forwarded = sr.forwarded ++ [waiting]
        → ipChecksum other = true
          ∧ waiting = rewriteIpSum (decrementTtl (clearIpSum other)) := by
  have otherLong : 34 ≤ other.length := carries.agree.length ▸ long
  have keeps : ∀ {next : SrInstance} {waiting : Frame}, next.forwarded = sr.forwarded
      → next.forwarded ≠ sr.forwarded ++ [waiting] := by
    intro next waiting same more
    rw [same] at more
    simpa using congrArg List.length more
  rw [srHandlepacket_ip outside interface sr otherLong ip]
  by_cases valid : ipChecksum other = true
  · have spoilt := carries.cleared long (sum valid)
    have spoiltTwice := carries.forwarded long
    simp only [valid, Bool.not_true, Bool.false_eq_true, if_false]
    split
    · exact ⟨handleLocal_misquotes outside spoilt sr, fun waiting more =>
        absurd more (keeps (handleLocal_forwarded outside _ sr))⟩
    simp only [handleTransit]
    split
    · exact ⟨spoilt.misquotes outside 11 0 sr, fun waiting more =>
        absurd more (keeps (srIcmpMakePacket_forwarded outside _ 11 0 sr))⟩
    split
    · exact ⟨.of_log rfl, fun waiting more => absurd more (keeps rfl)⟩
    split
    · exact ⟨spoiltTwice.misquotes outside 3 0 sr, fun waiting more =>
        absurd more (keeps (srIcmpMakePacket_forwarded outside _ 3 0 sr))⟩
    next nexthop route =>
    refine ⟨.of_log ?_, fun waiting more => ⟨trivial, ?_⟩⟩
    · rw [srForwardPacket_messages]
      exact List.append_nil _
    · rw [srForwardPacket_forwarded] at more
      exact (List.singleton_inj.mp (List.append_cancel_left more)).symm
  · rw [Bool.not_eq_true] at valid
    simp only [valid, Bool.not_false, if_true]
    exact ⟨.of_log rfl, fun waiting more => absurd more (keeps rfl)⟩

end Handlers

/-- No error message quotes the datagram as it was received: neither one made while the frame
is handled, nor one made about what waits of it for its next hop, be it when the waiting packet
is given up or when it is handled again.
-/
theorem errors_misquote (outside : Outside) (packet : Frame) (interface : String)
    (sr : SrInstance) (long : 42 ≤ packet.length) (ip : ethertype packet = ethertypeIp)
    : Building (Misquotes packet) sr (srHandlepacket outside packet interface sr)
      ∧ ∀ waiting,
        (srHandlepacket outside packet interface sr).forwarded = sr.forwarded ++ [waiting]
        → ∀ address iface later,
          Building (Misquotes packet) later
            (reportUnreachable outside address ⟨waiting, iface⟩ later)
          ∧ Building (Misquotes packet) later (resend outside ⟨waiting, iface⟩ later) := by
  have header : 34 ≤ packet.length := Nat.le_trans (by decide) long
  have received : Carries packet packet := ⟨⟨rfl, fun _ _ => rfl⟩, Or.inl rfl⟩
  have accepted : ipChecksum packet = true → ipSum packet ≠ 0 := fun valid =>
    ((ipChecksum_iff header).mp valid).1
  obtain ⟨built, passed⟩ :=
    srHandlepacket_misquotes outside received header ip accepted interface sr
  refine ⟨built, fun waiting more address iface later => ?_⟩
  obtain ⟨valid, rfl⟩ := passed waiting more
  have spoilt := received.forwarded header
  have cleared := clearIpSum_agree header
  have clearedLong : 34 ≤ (clearIpSum packet).length := cleared.length ▸ header
  refine ⟨?_, ?_⟩
  · refine .of_silent ?_ (spoilt.misquotes outside 3 1 _)
    rw [SrInstance.messages, SrInstance.record, List.filterMap_append]
    exact List.append_nil _
  · have carries : Carries packet (rewriteIpSum (decrementTtl (clearIpSum packet))) :=
      { agree := spoilt.agree
        ttl := by
          have kept : ipTtl (clearIpSum packet) = ipTtl packet := cleared.byte 22 (by decide)
          exact Or.inr ((forwarded_ttl clearedLong).trans (by rw [kept])) }
    have sameType : ethertype (rewriteIpSum (decrementTtl (clearIpSum packet))) = ethertypeIp :=
      (spoilt.agree.half 12 (by decide)).trans ip
    rw [resend]
    cases later.srGetInterface iface with
    | none => exact .of_log rfl
    | some arrival =>
        exact (srHandlepacket_misquotes outside carries header sameType
          (fun _ => accepted valid) arrival.name later).1

/-- A datagram with eight bytes of payload from 10.0.0.1 to 10.0.0.2 that expires. -/
def expiringDatagram : Frame :=
  List.replicate 12 0x00 ++ [0x08, 0x00, 0x45, 0, 0, 28, 0, 0, 0, 0, 1, 0, 0xa5, 0xe0]
    ++ [10, 0, 0, 1, 10, 0, 0, 2] ++ [1, 2, 3, 4, 5, 6, 7, 8]

theorem errors_misquote_expiring
    : Building (Misquotes expiringDatagram) oneRoute
        (srHandlepacket ⟨fun _ => 0, fun _ _ => 0⟩ expiringDatagram "eth0" oneRoute)
      ∧ ∀ waiting,
        (srHandlepacket ⟨fun _ => 0, fun _ _ => 0⟩ expiringDatagram "eth0" oneRoute).forwarded
          = oneRoute.forwarded ++ [waiting]
        → ∀ address iface later,
          Building (Misquotes expiringDatagram) later
            (reportUnreachable ⟨fun _ => 0, fun _ _ => 0⟩ address ⟨waiting, iface⟩ later)
          ∧ Building (Misquotes expiringDatagram) later
            (resend ⟨fun _ => 0, fun _ _ => 0⟩ ⟨waiting, iface⟩ later) :=
  errors_misquote _ expiringDatagram "eth0" oneRoute (by decide +kernel) (by decide +kernel)

/-- The time exceeded message about it quotes a header without checksum. -/
theorem expiringDatagram_misquoted
    : ¬ ∀ (outside : Outside) (packet : Frame) (interface : String) (sr : SrInstance),
        42 ≤ packet.length → ethertype packet = ethertypeIp
        → (sr.longestprefixmatch (ipSrc packet)).isSome
        → Building (fun message => icmpType message ≠ 0 → QuotesAsReceived packet message) sr
            (srHandlepacket outside packet interface sr) := by
  intro always
  obtain ⟨built, messages, kinds⟩ := always ⟨fun _ => 0, fun _ _ => 0⟩ expiringDatagram "eth0"
    oneRoute (by decide +kernel) (by decide +kernel) (by decide +kernel)
  have made : (srHandlepacket ⟨fun _ => 0, fun _ _ => 0⟩ expiringDatagram "eth0"
        oneRoute).messages
      = oneRoute.messages
        ++ [icmpErrorPacket 11 0 (fun _ => 0) (clearIpSum expiringDatagram) 0x0900000a] := by
    decide +kernel
  obtain rfl := List.append_cancel_left (made.symm.trans messages)
  have quotes := kinds _ (List.mem_singleton_self _) (by decide +kernel)
  exact absurd quotes.2 (by decide +kernel)

end Networks.Router
