import Networks.Router.Bounds

/-! What forwarding does to a datagram. The TTL is taken down by two, and only a TTL of one
expires.
-/

namespace Networks.Router

open ByteFields
open Ctcp (fieldBytes16)

/-- The packet that `sr_handlepacket` passed to `sr_ForwardPacket`. -/
def Event.forwarded : Event → Option Frame
  | .forwardPacket .handlepacket packet _ => some packet
  | _ => none

/-- The frame that was put on the wire. -/
def Event.sent : Event → Option Frame
  | .sendPacket packet _ _ => some packet
  | _ => none

/-- A time exceeded message that `sr_icmp_make_packet` has made. -/
def Event.isTimeExceeded : Event → Bool
  | .forwardPacket .icmpMakePacket message _ => icmpType message = 11
  | _ => false

/-- The packets that `sr_handlepacket` has passed to `sr_ForwardPacket`. -/
def SrInstance.forwarded (sr : SrInstance) : List Frame := sr.log.filterMap Event.forwarded

/-- How many time exceeded messages were made and passed to `sr_ForwardPacket`. -/
def SrInstance.timeExceeded (sr : SrInstance) : Nat := sr.log.countP Event.isTimeExceeded

/-- `other` is `packet` but for a TTL that is one less, and at least one, and a valid header
checksum.
-/
structure OneHopLess (packet other : Frame) : Prop where
  length : other.length = packet.length
  byte : ∀ index, index ≠ 22 → index ≠ 24 → index ≠ 25 → byteAt other index = byteAt packet index
  ttl : (ipTtl other).toNat + 1 = (ipTtl packet).toNat
  alive : 1 ≤ (ipTtl other).toNat
  checksum : ipChecksum other

/-- From `sr` to `next` a datagram has been treated as its TTL demands: it expired, or it was
forwarded one hop when there is a route.
-/
structure ForwardedByTtl (packet : Frame) (sr next : SrInstance) : Prop where
  expired
    : (ipTtl packet).toNat ≤ 1
      → next.forwarded = sr.forwarded ∧ next.timeExceeded = sr.timeExceeded + 1
  hop
    : 2 ≤ (ipTtl packet).toNat → (sr.longestprefixmatch (ipDst packet)).isSome
      → ∃ other, next.forwarded = sr.forwarded ++ [other] ∧ OneHopLess packet other

/-- A time exceeded message about the packet can be made: its source has a route by an
interface, and the frame has all of the bytes that the message quotes.
-/
structure SrInstance.CanReport (sr : SrInstance) (packet : Frame) : Prop where
  route
    : ∃ nexthop,
        sr.longestprefixmatch (ipSrc packet) = some nexthop
        ∧ (sr.srGetInterface nexthop.interface).isSome
  quoted : ethernetHdrSize + icmpDataSize ≤ packet.length

/-- What making an ICMP message can lead to. -/
def Event.FollowsIcmp : Event → Prop
  | .forwardPacket .icmpMakePacket _ _ => True
  | .sendPacket _ _ _ => True
  | _ => False

/-- `sr_ForwardPacket` adds one call of itself, and at most a transmission, to the log. -/
theorem srForwardPacket_log (caller : Caller) (packet : Frame) (nexthopIp : UInt32)
    (interface : Option SrIf) (sr : SrInstance)
    : ∃ sent,
        (srForwardPacket caller packet nexthopIp interface sr).log
          = sr.log ++ .forwardPacket caller packet nexthopIp :: sent
        ∧ sent.length ≤ 1
        ∧ ∀ event ∈ sent, ∃ frame iface, event = .sendPacket frame iface sr.entries := by
  cases interface with
  | none => exact ⟨[], rfl, by simp, by simp⟩
  | some interface =>
      simp only [srForwardPacket, SrInstance.record]
      cases srArpcacheLookup sr.entries nexthopIp with
      | some entry =>
          refine ⟨[.sendPacket (addressed entry.mac interface.addr packet) interface.name
            sr.entries], ?_, by simp, by simp⟩
          simp [srSendPacket, SrInstance.record]
      | none =>
          refine ⟨[], ?_, by simp, by simp⟩
          simp only [srArpcacheQueuereq]
          split <;> split <;> rfl

theorem srForwardPacket_forwarded (packet : Frame) (nexthopIp : UInt32)
    (interface : Option SrIf) (sr : SrInstance)
    : (srForwardPacket .handlepacket packet nexthopIp interface sr).forwarded
      = sr.forwarded ++ [packet] := by
  obtain ⟨sent, log, -, onlySends⟩ :=
    srForwardPacket_log .handlepacket packet nexthopIp interface sr
  have others : sent.filterMap Event.forwarded = [] := by
    refine List.filterMap_eq_nil_iff.mpr fun event member => ?_
    obtain ⟨frame, iface, rfl⟩ := onlySends event member
    rfl
  simp [SrInstance.forwarded, log, Event.forwarded, others]

theorem srForwardPacket_followsIcmp {sr between : SrInstance} {event : Event}
    (log : between.log = sr.log ++ [event]) (message : Frame) (nexthopIp : UInt32)
    (interface : Option SrIf)
    : ∃ made,
        (srForwardPacket .icmpMakePacket message nexthopIp interface between).log
          = sr.log ++ event :: made
        ∧ (made.filterMap Event.sent).length ≤ 1
        ∧ ∀ later ∈ made, later.FollowsIcmp := by
  obtain ⟨sent, later, single, onlySends⟩ :=
    srForwardPacket_log .icmpMakePacket message nexthopIp interface between
  refine ⟨.forwardPacket .icmpMakePacket message nexthopIp :: sent, ?_, ?_, ?_⟩
  · rw [later, log, List.append_assoc, List.singleton_append]
  · exact Nat.le_trans (List.length_filterMap_le Event.sent sent) single
  · intro after member
    rcases List.mem_cons.mp member with rfl | member
    · trivial
    · obtain ⟨frame, iface, rfl⟩ := onlySends after member
      trivial

/-- An ICMP message is made once, and not forwarded for somebody else. -/
theorem srIcmpMakePacket_log (outside : Outside) (packet : Frame) (type code : UInt8)
    (sr : SrInstance)
    : ∃ made,
        (srIcmpMakePacket outside packet type code sr).log
          = sr.log ++ .icmpMakePacket type code packet :: made
        ∧ (made.filterMap Event.sent).length ≤ 1
        ∧ ∀ event ∈ made, event.FollowsIcmp := by
  have nothing : ∃ made : List Event,
      sr.log ++ [.icmpMakePacket type code packet]
        = sr.log ++ .icmpMakePacket type code packet :: made
      ∧ (made.filterMap Event.sent).length ≤ 1
      ∧ ∀ event ∈ made, event.FollowsIcmp :=
    ⟨[], rfl, by simp, by simp⟩
  simp only [srIcmpMakePacket]
  split
  · exact nothing
  split
  · exact nothing
  split
  · exact nothing
  split
  · exact nothing
  split
  · unfold icmpEcho
    split
    · exact nothing
    split
    · exact nothing
    · exact srForwardPacket_followsIcmp rfl _ _ _
  · simp only [icmpError]
    split
    · exact nothing
    split
    · exact nothing
    · exact srForwardPacket_followsIcmp rfl _ _ _

theorem srIcmpMakePacket_forwarded (outside : Outside) (packet : Frame) (type code : UInt8)
    (sr : SrInstance)
    : (srIcmpMakePacket outside packet type code sr).forwarded = sr.forwarded := by
  obtain ⟨made, log, -, follows⟩ := srIcmpMakePacket_log outside packet type code sr
  have others : made.filterMap Event.forwarded = [] := by
    refine List.filterMap_eq_nil_iff.mpr fun event member => ?_
    have follow := follows event member
    cases event with
    | forwardPacket caller =>
        cases caller with
        | handlepacket => exact follow.elim
        | icmpMakePacket => rfl
    | _ => rfl
  rw [SrInstance.forwarded, log, List.filterMap_append, List.filterMap_cons, others]
  exact List.append_nil _

theorem srForwardPacket_timeExceeded (message : Frame) (nexthopIp : UInt32)
    (interface : Option SrIf) (sr : SrInstance)
    : (srForwardPacket .icmpMakePacket message nexthopIp interface sr).timeExceeded
      = sr.timeExceeded + if icmpType message = 11 then 1 else 0 := by
  obtain ⟨sent, log, -, onlySends⟩ :=
    srForwardPacket_log .icmpMakePacket message nexthopIp interface sr
  have others : sent.countP Event.isTimeExceeded = 0 := by
    refine List.countP_eq_zero.mpr fun event member => ?_
    obtain ⟨frame, iface, rfl⟩ := onlySends event member
    exact Bool.false_ne_true
  rw [SrInstance.timeExceeded, log, List.countP_append, List.countP_cons, others]
  simp [SrInstance.timeExceeded, Event.isTimeExceeded]

/-- The call of `sr_icmp_make_packet` alone counts for nothing. -/
theorem record_timeExceeded (type code : UInt8) (packet : Frame) (sr : SrInstance)
    : (sr.record (.icmpMakePacket type code packet)).timeExceeded = sr.timeExceeded := by
  rw [SrInstance.timeExceeded, SrInstance.record, List.countP_append]
  rfl

/-- What an error message for the code 0 adds, once there is a route: one message of its type,
if it is made at all.
-/
theorem icmpError_timeExceeded (outside : Outside) (type : UInt8) (packet : Frame)
    (nexthop : SrRt) (sr : SrInstance)
    : (icmpError outside type 0 packet nexthop sr).timeExceeded
      = sr.timeExceeded
        + if type = 11 ∧ (sr.srGetInterface nexthop.interface).isSome
            ∧ ethernetHdrSize + icmpDataSize ≤ packet.length then 1 else 0 := by
  have notThree : (0 : UInt8) ≠ 3 := by decide
  simp only [icmpError, notThree, ne_eq, not_false_eq_true, true_and]
  split
  · next unknown =>
      rw [if_neg (by simp [unknown])]
      rfl
  · next known =>
      split
      · next short =>
          rw [if_neg fun all => absurd all.2.2 (Nat.not_le.mpr short)]
          rfl
      · next long =>
          rw [srForwardPacket_timeExceeded]
          have found := Option.isSome_iff_ne_none.mpr known
          simp only [found, Nat.not_lt.mp long, and_true]
          rfl

/-- A time exceeded message is made exactly when it can be. -/
theorem srIcmpMakePacket_reports_iff (outside : Outside) {packet : Frame} (sr : SrInstance)
    (long : 34 ≤ packet.length)
    : (srIcmpMakePacket outside packet 11 0 sr).timeExceeded = sr.timeExceeded + 1
      ↔ sr.CanReport packet := by
  have sameRoute : (sr.record (.icmpMakePacket 11 0 packet)).longestprefixmatch (ipSrc packet)
      = sr.longestprefixmatch (ipSrc packet) := rfl
  simp only [srIcmpMakePacket]
  rw [if_neg (by omega), if_neg (by decide), if_neg (by omega), sameRoute]
  cases route : sr.longestprefixmatch (ipSrc packet) with
  | none =>
      refine iff_of_false ?_ fun can => ?_
      · rw [record_timeExceeded]
        omega
      · obtain ⟨nexthop, matched, -⟩ := can.route
        rw [route] at matched
        cases matched
  | some nexthop =>
      have sameInterface : (sr.record (.icmpMakePacket 11 0 packet)).srGetInterface
          nexthop.interface = sr.srGetInterface nexthop.interface := rfl
      simp only [show ¬ (11 : UInt8) = 0 by decide, if_false]
      rw [icmpError_timeExceeded, record_timeExceeded, sameInterface]
      constructor
      · intro counted
        split at counted
        · next made => exact ⟨⟨nexthop, route, made.2.1⟩, made.2.2⟩
        · omega
      · rintro ⟨⟨other, matched, found⟩, quoted⟩
        obtain rfl : nexthop = other := Option.some.inj (route.symm.trans matched)
        rw [if_pos ⟨rfl, found, quoted⟩]

/-- A net unreachable message is no time exceeded message. -/
theorem srIcmpMakePacket_unreachable (outside : Outside) {packet : Frame} (sr : SrInstance)
    (long : 34 ≤ packet.length)
    : (srIcmpMakePacket outside packet 3 0 sr).timeExceeded = sr.timeExceeded := by
  simp only [srIcmpMakePacket]
  rw [if_neg (by omega), if_neg (by decide), if_neg (by omega)]
  split
  · rw [record_timeExceeded]
  · simp only [show ¬ (3 : UInt8) = 0 by decide, if_false]
    rw [icmpError_timeExceeded, record_timeExceeded, if_neg fun all => absurd all.1 (by decide)]
    rfl

theorem AgreeOutside.canReport_iff {start stop : Nat} {packet other : Frame}
    (agree : AgreeOutside start stop packet other) (behind : stop ≤ 26) (sr : SrInstance)
    : sr.CanReport other ↔ sr.CanReport packet := by
  have sameSrc : ipSrc other = ipSrc packet := agree.word 26 (Or.inr behind)
  constructor
  · rintro ⟨route, quoted⟩
    exact ⟨sameSrc ▸ route, agree.length ▸ quoted⟩
  · rintro ⟨route, quoted⟩
    exact ⟨sameSrc ▸ route, agree.length.symm ▸ quoted⟩

/-- The input handler treats a valid datagram for somebody else as a transit datagram. -/
theorem srHandlepacket_transit (outside : Outside) {packet : Frame} (interface : String)
    {sr : SrInstance} (long : 34 ≤ packet.length) (ip : ethertype packet = ethertypeIp)
    (valid : ipChecksum packet) (foreign : sr.ipCheck (ipDst packet) = none)
    : srHandlepacket outside packet interface sr
      = handleTransit outside (clearIpSum packet) sr := by
  have sameDst : ipDst (clearIpSum packet) = ipDst packet :=
    (clearIpSum_agree long).word 30 (by decide)
  rw [srHandlepacket_ip outside interface sr long ip, valid]
  simp only [sameDst, foreign]
  rfl

/-- The TTL of a forwarded datagram is two less. -/
theorem forwarded_ttl {packet : Frame} (long : 34 ≤ packet.length)
    : ipTtl (rewriteIpSum (decrementTtl packet)) = ipTtl packet - 2 := by
  have inside : 22 + [ipTtl packet - 2].length ≤ packet.length := by
    simp only [List.length_singleton]
    omega
  have stillLong : 34 ≤ (decrementTtl packet).length := by
    rw [(decrementTtl_agree long).length]
    exact long
  have kept : ipTtl (rewriteIpSum (decrementTtl packet)) = ipTtl (decrementTtl packet) :=
    (rewriteIpSum_agree stillLong).byte 22 (by decide)
  rw [kept, ipTtl, decrementTtl, byteAt_overwrite _ inside]
  rfl

theorem oneTransit_ne (ttl : UInt8) : ttl - 2 ≠ ttl := by
  intro back
  have down := congrArg UInt8.toNat back
  have bound := ttl.toNat_lt
  simp only [UInt8.toNat_sub, UInt8.toNat_ofNat] at down
  omega

/-- Taking a TTL down twice by two does not lead back to it. -/
theorem twoTransits_ne (ttl : UInt8) : ttl - 2 - 2 ≠ ttl := by
  intro back
  have down := congrArg UInt8.toNat back
  have bound := ttl.toNat_lt
  simp only [UInt8.toNat_sub, UInt8.toNat_ofNat] at down
  omega

/-- What becomes of a transit datagram without options: it expires with a TTL of one, and is
forwarded with a TTL two less when there is a route.
-/
theorem handleTransit_plain (outside : Outside) {packet : Frame} (sr : SrInstance)
    (long : 34 ≤ packet.length) (plain : ipHl packet = 5)
    : handleTransit outside packet sr
      = if ipTtl packet = 1 then
          srIcmpMakePacket outside packet 11 0 sr
        else
          match sr.longestprefixmatch (ipDst packet) with
          | none => srIcmpMakePacket outside (rewriteIpSum (decrementTtl packet)) 3 0 sr
          | some nexthop =>
              srForwardPacket .handlepacket (rewriteIpSum (decrementTtl packet)) nexthop.gw
                (sr.srGetInterface nexthop.interface) sr := by
  have sameDst : ipDst (rewriteIpSum (decrementTtl packet)) = ipDst packet :=
    (forwarded_agree long).word 30 (by decide)
  have header : ¬ packet.length < ethernetHdrSize + ipHl packet * 4 := by
    rw [plain]
    exact Nat.not_lt.mpr long
  by_cases expired : ipTtl packet = 1
  · rw [handleTransit, if_pos expired, if_pos expired]
  · cases route : sr.longestprefixmatch (ipDst packet) with
    | none => simp only [handleTransit, if_neg expired, if_neg header, sameDst, route]
    | some nexthop => simp only [handleTransit, if_neg expired, if_neg header, sameDst, route]

/-- A datagram is treated as its TTL demands only if its TTL is one and a time exceeded message
can be made, or if it is larger and there is no route. Otherwise a TTL of zero wraps around, and
any other is taken down by two.
-/
theorem srHandlepacket_forwardedByTtl_iff (outside : Outside) (packet : Frame)
    (interface : String) (sr : SrInstance) (long : 34 ≤ packet.length)
    (ip : ethertype packet = ethertypeIp) (plain : ipHl packet = 5)
    (valid : ipChecksum packet) (foreign : sr.ipCheck (ipDst packet) = none)
    : ForwardedByTtl packet sr (srHandlepacket outside packet interface sr)
      ↔ ipTtl packet = 1 ∧ sr.CanReport packet
        ∨ 2 ≤ (ipTtl packet).toNat ∧ sr.longestprefixmatch (ipDst packet) = none := by
  have cleared := clearIpSum_agree long
  have stillLong : 34 ≤ (clearIpSum packet).length := cleared.length ▸ long
  have sameHl : ipHl (clearIpSum packet) = ipHl packet :=
    cleared.headerLength (by decide)
  have sameTtl : ipTtl (clearIpSum packet) = ipTtl packet := cleared.byte 22 (by decide)
  have sameDst : ipDst (clearIpSum packet) = ipDst packet := cleared.word 30 (by decide)
  rw [srHandlepacket_transit outside interface long ip valid foreign,
    handleTransit_plain outside sr stillLong (sameHl.trans plain), sameTtl, sameDst]
  by_cases last : ipTtl packet = 1
  · have oneHop : ¬ 2 ≤ (ipTtl packet).toNat := by
      rw [last]
      decide
    rw [if_pos last, ← cleared.canReport_iff (by decide) sr,
      ← srIcmpMakePacket_reports_iff outside sr stillLong]
    constructor
    · exact fun treated => Or.inl ⟨last, (treated.expired (by omega)).2⟩
    · rintro (⟨-, made⟩ | ⟨two, -⟩)
      · exact ⟨fun _ => ⟨srIcmpMakePacket_forwarded outside _ 11 0 sr, made⟩,
          fun two => absurd two oneHop⟩
      · exact absurd two oneHop
  rw [if_neg last]
  have notOne : (ipTtl packet).toNat ≠ 1 := fun one => last (UInt8.toNat_inj.mp one)
  cases route : sr.longestprefixmatch (ipDst packet) with
  | none =>
      simp only [last, and_true, false_and, false_or]
      constructor
      · intro treated
        by_contra small
        have counted := (treated.expired (by omega)).2
        have rewritten := (forwarded_agree stillLong).length.symm ▸ stillLong
        rw [srIcmpMakePacket_unreachable outside sr rewritten] at counted
        omega
      · intro two
        refine ⟨fun small => absurd small (by omega), fun _ routed => ?_⟩
        rw [route] at routed
        cases routed
  | some nexthop =>
      simp only [last, reduceCtorEq, and_false, false_and, or_false, iff_false]
      intro treated
      have forwarded := srForwardPacket_forwarded (rewriteIpSum (decrementTtl (clearIpSum packet)))
        nexthop.gw (sr.srGetInterface nexthop.interface) sr
      by_cases two : 2 ≤ (ipTtl packet).toNat
      · obtain ⟨other, passed, less⟩ := treated.hop two (by rw [route]; rfl)
        obtain rfl : rewriteIpSum (decrementTtl (clearIpSum packet)) = other := by
          simpa using forwarded.symm.trans passed
        have ttl := less.ttl
        have down : (ipTtl packet - 2).toNat = (ipTtl packet).toNat - 2 :=
          UInt8.toNat_sub_of_le _ _ two
        rw [forwarded_ttl stillLong, sameTtl, down] at ttl
        omega
      · have unforwarded := (treated.expired (by omega)).1
        rw [forwarded] at unforwarded
        simp at unforwarded

/-- A datagram with eight bytes of payload from 10.0.0.1 to 10.0.0.2. -/
def smallDatagram (ttl : UInt8) (sum : UInt16) : Frame :=
  List.replicate 12 0x00 ++ [0x08, 0x00, 0x45, 0, 0, 28, 0, 0, 0, 0, ttl, 0]
    ++ fieldBytes16 sum ++ [10, 0, 0, 1, 10, 0, 0, 2] ++ List.replicate 8 0x00

/-- A router with one interface, 10.0.0.9, and a default route by it to 10.0.0.3. -/
def oneRoute : SrInstance :=
  srInit [⟨"eth0", Vector.replicate 6 0x02, 0x0900000a⟩] [⟨0, 0x0300000a, 0, "eth0"⟩]

/-- A datagram with a TTL of 64 is forwarded with a TTL of 62. -/
theorem forwarded_twoHopsLess
    : ¬ ∀ (outside : Outside) (packet : Frame) (interface : String) (sr : SrInstance),
        34 ≤ packet.length → ethertype packet = ethertypeIp → ipHl packet = 5
        → ipChecksum packet → sr.ipCheck (ipDst packet) = none
        → ForwardedByTtl packet sr (srHandlepacket outside packet interface sr) := by
  intro always
  have treated := always { clock := fun _ => 0, heap := fun _ _ => 0 } (smallDatagram 64 0xe066)
    "eth0" oneRoute (by decide +kernel) (by decide +kernel) (by decide +kernel)
    (by decide +kernel) (by decide +kernel)
  obtain ⟨other, passed, less⟩ := treated.hop (by decide +kernel) (by decide +kernel)
  have forwarded : (srHandlepacket { clock := fun _ => 0, heap := fun _ _ => 0 }
      (smallDatagram 64 0xe066) "eth0" oneRoute).forwarded = [smallDatagram 62 0xe068] := by
    decide +kernel
  obtain rfl : smallDatagram 62 0xe068 = other := by
    simpa [SrInstance.forwarded, oneRoute, srInit] using forwarded.symm.trans passed
  exact absurd less.ttl (by decide +kernel)

/-- The rule at a datagram that expires. -/
theorem srHandlepacket_forwardedByTtl_iff_expired
    : ForwardedByTtl (smallDatagram 1 0xe0a5) oneRoute
        (srHandlepacket { clock := fun _ => 0, heap := fun _ _ => 0 } (smallDatagram 1 0xe0a5)
          "eth0" oneRoute)
      ↔ ipTtl (smallDatagram 1 0xe0a5) = 1 ∧ oneRoute.CanReport (smallDatagram 1 0xe0a5)
        ∨ 2 ≤ (ipTtl (smallDatagram 1 0xe0a5)).toNat
          ∧ oneRoute.longestprefixmatch (ipDst (smallDatagram 1 0xe0a5)) = none :=
  srHandlepacket_forwardedByTtl_iff _ _ _ _ (by decide +kernel) (by decide +kernel)
    (by decide +kernel) (by decide +kernel) (by decide +kernel)

end Networks.Router
