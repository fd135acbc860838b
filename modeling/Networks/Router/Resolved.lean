import Networks.Router.Answers

/-! What the sweep does to the packets of a request whose next hop is known by now. They go
through the input handler again, which does not pass all of them on, and after five requests
the retry limit comes first.
-/

namespace Networks.Router

/-- The same datagram, up to the Ethernet addresses, the TTL and the header checksum. -/
structure SameDatagram (packet other : Frame) : Prop where
  length : other.length = packet.length
  byte
    : ∀ index, 12 ≤ index → index ≠ 22 → index < 24 ∨ 26 ≤ index
      → ByteFields.byteAt other index = ByteFields.byteAt packet index

/-- From `sr` to `next` the packets were forwarded and put on the wire, each once and in their
order, and no packet was reported unreachable.
-/
structure Served (packets : List SrPacket) (sr next : SrInstance) : Prop where
  unharmed : next.fault = none
  forwarded
    : ∃ frames, next.forwarded = sr.forwarded ++ frames
        ∧ List.Forall₂ (fun packet frame => SameDatagram packet.buf frame) packets frames
  sent
    : ∃ frames, next.sent = sr.sent ++ frames
        ∧ List.Forall₂ (fun packet frame => SameDatagram packet.buf frame) packets frames
  quiet : next.log.filterMap Event.reported = sr.log.filterMap Event.reported

/-- `sr_handlepacket` passes a packet that arrives on `name` on to the next hop: it is an ARP
reply for somebody else, or a transit datagram that does not expire.
-/
inductive SrInstance.PassesOn (sr : SrInstance) (packet : Frame) (name : String)
    : SrRt → Option SrIf → Prop
  | arpReply {nexthop : SrRt} (arp : ethertype packet = 2054)
    (long : ethernetHdrSize + arpHdrSize ≤ packet.length) (reply : arOp packet = 2)
    (foreign : sr.ipCheck (arTip packet) = none)
    (route : sr.longestprefixmatch (arTip packet) = some nexthop)
    : sr.PassesOn packet name nexthop (sr.srGetInterface name)
  | datagram {nexthop : SrRt} (ip : ethertype packet = ethertypeIp)
    (long : ethernetHdrSize + ipHdrSize ≤ packet.length) (valid : ipChecksum packet)
    (foreign : sr.ipCheck (ipDst packet) = none) (alive : ipTtl packet ≠ 1)
    (header : ethernetHdrSize + ipHl packet * 4 ≤ packet.length)
    (route : sr.longestprefixmatch (ipDst packet) = some nexthop)
    : sr.PassesOn packet name nexthop (sr.srGetInterface nexthop.interface)

/-- A waiting packet is passed on when it is handled again: its interface and that of its
route exist, and the gateway of the route is known.
-/
def SrInstance.Resendable (sr : SrInstance) (packet : SrPacket) : Prop :=
  (sr.srGetInterface packet.iface).isSome
  ∧ ∃ nexthop interface,
      sr.PassesOn packet.buf packet.iface nexthop (some interface)
      ∧ (srArpcacheLookup sr.entries nexthop.gw).isSome

theorem SameDatagram.refl (packet : Frame) : SameDatagram packet packet :=
  ⟨rfl, fun _ _ _ _ => rfl⟩

theorem SameDatagram.trans {packet other third : Frame} (first : SameDatagram packet other)
    (second : SameDatagram other third)
    : SameDatagram packet third :=
  ⟨second.length.trans first.length, fun index behind other outside =>
    (second.byte index behind other outside).trans (first.byte index behind other outside)⟩

theorem AgreeOutside.sameDatagram {packet other : Frame} {start stop : Nat}
    (agree : AgreeOutside start stop packet other)
    (field : start = 22 ∧ stop = 23 ∨ start = 24 ∧ stop = 26)
    : SameDatagram packet other :=
  ⟨agree.length, fun index _ _ outside => agree.byte index (by omega)⟩

theorem addressed_sameDatagram {packet : Frame} (long : 12 ≤ packet.length)
    (dhost shost : Mac)
    : SameDatagram packet (addressed dhost shost packet) :=
  ⟨(addressed_agree long dhost shost).length, fun index behind _ _ =>
    (addressed_agree long dhost shost).byte index (Or.inr behind)⟩

-----------------------------------------------------------------------------------------
-- Handling a packet again
-----------------------------------------------------------------------------------------

section Handling

variable (outside : Outside) {packet : Frame} {name : String} {sr : SrInstance}

/-- Handling a packet passes it on, or forwards nothing. -/
inductive HandledAs (packet : Frame) (name : String) (sr next : SrInstance) : Prop
  | passed (nexthop : SrRt) (interface : Option SrIf) (frame : Frame)
    (passes : sr.PassesOn packet name nexthop interface)
    (result : next = srForwardPacket .handlepacket frame nexthop.gw interface sr)
    (same : SameDatagram packet frame)
  | kept (stays : ∀ nexthop interface, ¬ sr.PassesOn packet name nexthop interface)
    (nothing : next.forwarded = sr.forwarded)

theorem SrInstance.PassesOn.type {nexthop : SrRt} {interface : Option SrIf}
    (passes : sr.PassesOn packet name nexthop interface)
    : ethertype packet = 2054 ∨ ethertype packet = ethertypeIp := by
  cases passes with
  | arpReply arp => exact Or.inl arp
  | datagram ip => exact Or.inr ip

theorem srArpMakePacket_forwarded (interface : Option SrIf) (targetIp : UInt32)
    (mode : ArpMode) (sr : SrInstance)
    : (srArpMakePacket interface targetIp mode sr).forwarded = sr.forwarded := by
  cases interface with
  | none => rfl
  | some interface =>
      simp [srArpMakePacket, srSendPacket, SrInstance.record, SrInstance.forwarded,
        Event.forwarded]

theorem arpRequested_forwarded
    : (arpRequested outside packet name sr).forwarded = sr.forwarded := by
  have replied := srArpMakePacket_forwarded (sr.srGetInterface name) (arSip packet)
    (.reply (arSha packet)) sr
  simp only [arpRequested]
  split
  · split
    · exact replied
    · rw [SrInstance.forwarded, (srArpcacheinsert_log outside _ _ _).1]
      exact replied
  · split
    · exact srArpMakePacket_forwarded _ _ _ _
    · split
      · rfl
      · rw [SrInstance.forwarded, srArpcacheQueuereq_log, SrInstance.forwarded]

theorem handleLocal_forwarded (packet : Frame) (sr : SrInstance)
    : (handleLocal outside packet sr).forwarded = sr.forwarded := by
  simp only [handleLocal, handleIcmp]
  split
  · split
    · rfl
    split
    · rfl
    split
    · exact srIcmpMakePacket_forwarded outside _ 0 0 sr
    · rfl
  split
  · exact srIcmpMakePacket_forwarded outside _ 3 3 sr
  · rfl

theorem handleArp_handledAs (arp : ethertype packet = 2054)
    : HandledAs packet name sr (handleArp outside packet name sr) := by
  have onlyArp : ∀ {nexthop interface}, sr.PassesOn packet name nexthop interface
      → ethernetHdrSize + arpHdrSize ≤ packet.length ∧ arOp packet = 2
        ∧ sr.ipCheck (arTip packet) = none
        ∧ sr.longestprefixmatch (arTip packet) = some nexthop := by
    intro nexthop interface passes
    cases passes with
    | arpReply _ long reply foreign route => exact ⟨long, reply, foreign, route⟩
    | datagram ip =>
        rw [arp] at ip
        exact absurd ip (by decide)
  simp only [handleArp]
  split
  · next short =>
      exact .kept (fun _ _ passes => absurd (onlyArp passes).1 (Nat.not_le.mpr short)) rfl
  · next long =>
      split
      · next reply =>
          simp only [arpReply]
          cases own : sr.ipCheck (arTip packet) with
          | some foundInterface =>
              refine .kept (fun _ _ passes => ?_) ?_
              · rw [own] at onlyArp
                cases (onlyArp passes).2.2.1
              · simp only
                split
                · rw [SrInstance.forwarded, (srArpcacheinsert_log outside _ _ _).1,
                    SrInstance.forwarded]
                · rfl
          | none =>
              cases route : sr.longestprefixmatch (arTip packet) with
              | none =>
                  refine .kept (fun _ _ passes => ?_) rfl
                  rw [route] at onlyArp
                  cases (onlyArp passes).2.2.2
              | some nexthop =>
                  exact .passed _ _ _ (.arpReply arp (Nat.not_lt.mp long) reply own route) rfl
                    (.refl packet)
      · next notReply =>
          have stays : ∀ nexthop interface, ¬ sr.PassesOn packet name nexthop interface :=
            fun _ _ passes => absurd (onlyArp passes).2.1 notReply
          split
          · exact .kept stays (arpRequested_forwarded outside)
          · exact .kept stays rfl

/-- What an IP packet that is passed on has to meet. -/
structure SrInstance.PassesDatagram (sr : SrInstance) (packet : Frame) (nexthop : SrRt)
    : Prop where
  long : ethernetHdrSize + ipHdrSize ≤ packet.length
  valid : ipChecksum packet
  foreign : sr.ipCheck (ipDst packet) = none
  alive : ipTtl packet ≠ 1
  header : ethernetHdrSize + ipHl packet * 4 ≤ packet.length
  route : sr.longestprefixmatch (ipDst packet) = some nexthop

theorem SrInstance.PassesOn.datagramOnly {nexthop : SrRt} {interface : Option SrIf}
    (passes : sr.PassesOn packet name nexthop interface) (ip : ethertype packet = ethertypeIp)
    : sr.PassesDatagram packet nexthop := by
  cases passes with
  | arpReply arp =>
      rw [ip] at arp
      exact absurd arp (by decide)
  | datagram _ long valid foreign alive header route =>
      exact ⟨long, valid, foreign, alive, header, route⟩

/-- A valid IP packet for somebody else is passed on unless it expires or has no route. -/
theorem handleTransit_handledAs (ip : ethertype packet = ethertypeIp)
    (long : ethernetHdrSize + ipHdrSize ≤ packet.length) (valid : ipChecksum packet)
    (foreign : sr.ipCheck (ipDst packet) = none)
    : HandledAs packet name sr (handleTransit outside (clearIpSum packet) sr) := by
  have cleared := clearIpSum_agree long
  have sameDst : ipDst (clearIpSum packet) = ipDst packet := cleared.word 30 (by decide)
  have sameTtl : ipTtl (clearIpSum packet) = ipTtl packet := cleared.byte 22 (by decide)
  have sameHl : ipHl (clearIpSum packet) = ipHl packet :=
    cleared.headerLength (by decide)
  rw [handleTransit, sameTtl]
  split
  · next expires =>
      exact .kept (fun _ _ passes => absurd expires (passes.datagramOnly ip).alive)
        (srIcmpMakePacket_forwarded outside _ 11 0 sr)
  next alive =>
  rw [cleared.length, sameHl]
  split
  · next short =>
      refine .kept (fun _ _ passes => ?_) rfl
      exact absurd (passes.datagramOnly ip).header (Nat.not_le.mpr short)
  next header =>
  have stillLong : 34 ≤ (clearIpSum packet).length := cleared.length ▸ long
  have rewritten := forwarded_agree stillLong
  have decremented : 34 ≤ (decrementTtl (clearIpSum packet)).length := by
    rw [(decrementTtl_agree stillLong).length]
    exact stillLong
  have routedDst : ipDst (rewriteIpSum (decrementTtl (clearIpSum packet))) = ipDst packet :=
    (rewritten.word 30 (by decide)).trans sameDst
  simp only [routedDst]
  cases route : sr.longestprefixmatch (ipDst packet) with
  | none =>
      refine .kept (fun _ _ passes => ?_) (srIcmpMakePacket_forwarded outside _ 3 0 sr)
      have routed := (passes.datagramOnly ip).route
      rw [route] at routed
      cases routed
  | some nexthop =>
      have passes : sr.PassesOn packet name nexthop (sr.srGetInterface nexthop.interface) :=
        .datagram ip long valid foreign alive (Nat.not_lt.mp header) route
      have ttl := (decrementTtl_agree stillLong).sameDatagram (Or.inl ⟨rfl, rfl⟩)
      have sum := (rewriteIpSum_agree decremented).sameDatagram (Or.inr ⟨rfl, rfl⟩)
      exact .passed _ _ _ passes rfl
        ((cleared.sameDatagram (Or.inr ⟨rfl, rfl⟩)).trans (ttl.trans sum))

theorem handleIp_handledAs (ip : ethertype packet = ethertypeIp)
    : HandledAs packet name sr (handleIp outside packet sr) := by
  simp only [handleIp]
  split
  · next tiny =>
      refine .kept (fun _ _ passes => ?_) rfl
      have long := (passes.datagramOnly ip).long
      simp only [ethernetHdrSize, ipHdrSize] at long
      omega
  split
  · next short =>
      refine .kept (fun _ _ passes => ?_) rfl
      exact absurd (passes.datagramOnly ip).long (Nat.not_le.mpr short)
  next fits =>
  have long : ethernetHdrSize + ipHdrSize ≤ packet.length := Nat.not_lt.mp fits
  split
  · next rejected =>
      refine .kept (fun _ _ passes => ?_) rfl
      simp [(passes.datagramOnly ip).valid] at rejected
  next accepted =>
  have valid : ipChecksum packet := by simpa using accepted
  have sameDst : ipDst (clearIpSum packet) = ipDst packet :=
    (clearIpSum_agree long).word 30 (by decide)
  rw [sameDst]
  cases own : sr.ipCheck (ipDst packet) with
  | some foundInterface =>
      refine .kept (fun _ _ passes => ?_) (handleLocal_forwarded outside _ sr)
      have foreign := (passes.datagramOnly ip).foreign
      rw [own] at foreign
      cases foreign
  | none => exact handleTransit_handledAs outside ip long valid own

variable (packet name sr) in
/-- Handling a packet passes it on exactly in the cases listed. -/
theorem srHandlepacket_handledAs
    : HandledAs packet name sr (srHandlepacket outside packet name sr) := by
  simp only [srHandlepacket]
  split
  · next short =>
      refine .kept (fun _ _ passes => ?_) rfl
      simp only [ethernetHdrSize] at short
      cases passes with
      | arpReply _ long =>
          simp only [ethernetHdrSize, arpHdrSize] at long
          omega
      | datagram _ long =>
          simp only [ethernetHdrSize, ipHdrSize] at long
          omega
  split
  · next arp => exact handleArp_handledAs outside arp
  next notArp =>
  split
  · next ip => exact handleIp_handledAs outside ip
  · next notIp =>
      refine .kept (fun _ _ passes => ?_) rfl
      rcases passes.type with arp | ip
      · exact notArp arp
      · exact notIp ip

end Handling

theorem Update.reported {outside : Outside} {given : String} {sr next : SrInstance}
    (update : Update outside given sr next)
    : next.log.filterMap Event.reported = sr.log.filterMap Event.reported := by
  have recorded : ∀ event : Event, event.reported = none
      → (sr.record event).log.filterMap Event.reported = sr.log.filterMap Event.reported := by
    intro event silent
    rw [SrInstance.record, List.filterMap_append, List.filterMap_cons, silent]
    exact List.append_nil _
  cases update with
  | icmpMakePacket => exact recorded _ rfl
  | forwardPacket => exact recorded _ rfl
  | sendPacket => exact recorded _ rfl
  | queuereq => rw [srArpcacheQueuereq_log]
  | insert mac ip => rw [(srArpcacheinsert_log outside mac ip sr).1]
  | _ => rfl

theorem Updates.reported {outside : Outside} {given : String} {sr next : SrInstance}
    (updates : Updates outside given sr next)
    : next.log.filterMap Event.reported = sr.log.filterMap Event.reported := by
  induction updates with
  | refl => rfl
  | tail _ update ih => exact update.reported.trans ih

/-- What the frames recorded from `sr` to `next` are: at most so many forwarded and sent, and
nothing reported.
-/
structure Adds (most : Nat) (sr next : SrInstance) : Prop where
  forwarded : ∃ frames, next.forwarded = sr.forwarded ++ frames ∧ frames.length ≤ most
  sent : ∃ frames, next.sent = sr.sent ++ frames ∧ frames.length ≤ most
  quiet : next.log.filterMap Event.reported = sr.log.filterMap Event.reported

theorem Adds.of_log {sr next : SrInstance} (same : next.log = sr.log) : Adds 0 sr next := by
  refine ⟨⟨[], ?_, by simp⟩, ⟨[], ?_, by simp⟩, by rw [same]⟩
  · rw [SrInstance.forwarded, SrInstance.forwarded, same, List.append_nil]
  · rw [SrInstance.sent, SrInstance.sent, same, List.append_nil]

theorem Adds.trans {first second : Nat} {sr middle next : SrInstance}
    (before : Adds first sr middle) (after : Adds second middle next)
    : Adds (first + second) sr next := by
  obtain ⟨forwardedBefore, forwardedMiddle, fewBefore⟩ := before.forwarded
  obtain ⟨forwardedAfter, forwardedNext, fewAfter⟩ := after.forwarded
  obtain ⟨sentBefore, sentMiddle, littleBefore⟩ := before.sent
  obtain ⟨sentAfter, sentNext, littleAfter⟩ := after.sent
  refine ⟨⟨forwardedBefore ++ forwardedAfter, ?_, ?_⟩, ⟨sentBefore ++ sentAfter, ?_, ?_⟩,
    after.quiet.trans before.quiet⟩
  · rw [forwardedNext, forwardedMiddle, List.append_assoc]
  · rw [List.length_append]
    omega
  · rw [sentNext, sentMiddle, List.append_assoc]
  · rw [List.length_append]
    omega

theorem Adds.mono {few many : Nat} {sr next : SrInstance} (adds : Adds few sr next)
    (less : few ≤ many)
    : Adds many sr next := by
  obtain ⟨forwarded, forwardedNext, fewForwarded⟩ := adds.forwarded
  obtain ⟨sent, sentNext, fewSent⟩ := adds.sent
  exact ⟨⟨forwarded, forwardedNext, Nat.le_trans fewForwarded less⟩,
    ⟨sent, sentNext, Nat.le_trans fewSent less⟩, adds.quiet⟩

section Again

variable (outside : Outside)

/-- Handling a packet again forwards at most one, and sends at most one. -/
theorem resend_adds (packet : SrPacket) (sr : SrInstance)
    : Adds 1 sr (resend outside packet sr) := by
  simp only [resend]
  split
  · have stopped : Adds 0 sr (sr.fail .nullPointer) := .of_log rfl
    exact stopped.mono (Nat.zero_le 1)
  · next interface _ =>
      obtain ⟨frames, sent, single, -⟩ :=
        srHandlepacket_sending outside sr packet.buf interface.name
      have updates : Updates outside interface.name sr
          (srHandlepacket outside packet.buf interface.name sr) :=
        srHandlepacket_updates packet.buf
      refine ⟨?_, ⟨frames, sent, single⟩, updates.reported⟩
      rcases srHandlepacket_handledAs outside packet.buf interface.name sr with
        ⟨_, _, _, -, result, -⟩ | ⟨-, nothing⟩
      · rw [result, srForwardPacket_forwarded]
        exact ⟨_, rfl, by simp⟩
      · exact ⟨[], by rw [nothing, List.append_nil], by simp⟩

theorem resendLoop_adds (packets : List SrPacket) (sr : SrInstance)
    : Adds packets.length sr (packetLoop (resend outside) packets sr) := by
  induction packets generalizing sr with
  | nil => exact .of_log rfl
  | cons packet next ih =>
      have acted := resend_adds outside packet sr
      simp only [packetLoop, List.length_cons]
      split
      · exact acted.mono (Nat.le_add_left 1 _)
      · exact (acted.trans (ih _)).mono (Nat.le_of_eq (Nat.add_comm _ _))

-----------------------------------------------------------------------------------------
-- The waiting packets of a request
-----------------------------------------------------------------------------------------

variable {packet : SrPacket} {sr : SrInstance}

theorem SrInstance.PassesOn.unique {frame : Frame} {name : String} {nexthop other : SrRt}
    {interface another : Option SrIf} (passes : sr.PassesOn frame name nexthop interface)
    (also : sr.PassesOn frame name other another)
    : nexthop = other ∧ interface = another := by
  cases passes with
  | arpReply arp _ _ _ route =>
      cases also with
      | arpReply _ _ _ _ same =>
          rw [route] at same
          exact ⟨Option.some.inj same, rfl⟩
      | datagram ip =>
          rw [arp] at ip
          exact absurd ip (by decide)
  | datagram ip _ _ _ _ _ route =>
      cases also with
      | arpReply arp =>
          rw [arp] at ip
          exact absurd ip (by decide)
      | datagram _ _ _ _ _ _ same =>
          rw [route] at same
          obtain rfl := Option.some.inj same
          exact ⟨rfl, rfl⟩

theorem SrInstance.PassesOn.long {frame : Frame} {name : String} {nexthop : SrRt}
    {interface : Option SrIf} (passes : sr.PassesOn frame name nexthop interface)
    : 12 ≤ frame.length := by
  cases passes with
  | arpReply _ long => exact Nat.le_trans (by decide) long
  | datagram _ long => exact Nat.le_trans (by decide) long

/-- From `sr` to `next` one packet was passed on and sent, and nothing else happened. -/
structure PassedOn (packet : SrPacket) (sr next : SrInstance) : Prop where
  fault : next.fault = sr.fault
  tables : SameTables sr next
  entries : next.entries = sr.entries
  forwarded : ∃ frame, next.forwarded = sr.forwarded ++ [frame] ∧ SameDatagram packet.buf frame
  sent : ∃ frame, next.sent = sr.sent ++ [frame] ∧ SameDatagram packet.buf frame

/-- A packet that can be sent again is passed on when it is handled again. -/
theorem SrInstance.Resendable.passedOn (resendable : sr.Resendable packet)
    : PassedOn packet sr (resend outside packet sr) := by
  obtain ⟨known, nexthop, interface, passes, cached⟩ := resendable
  obtain ⟨given, found⟩ := Option.isSome_iff_exists.mp known
  obtain ⟨entry, cached⟩ := Option.isSome_iff_exists.mp cached
  simp only [resend, found, SrInstance.srGetInterface_name found]
  rcases srHandlepacket_handledAs outside packet.buf packet.iface sr with
    ⟨_, _, frame, also, result, same⟩ | ⟨stays, -⟩
  · obtain ⟨rfl, rfl⟩ := passes.unique also
    have long : 12 ≤ frame.length := same.length ▸ passes.long
    have forwarded := srForwardPacket_forwarded frame nexthop.gw (some interface) sr
    rw [result]
    simp only [srForwardPacket, cached, SrInstance.record] at forwarded ⊢
    refine ⟨rfl, ⟨rfl, rfl⟩, rfl, ⟨frame, forwarded, same⟩, _, ?_,
      same.trans (addressed_sameDatagram long entry.mac interface.addr)⟩
    simp only [SrInstance.sent, srSendPacket, SrInstance.record, List.filterMap_append]
    rw [List.append_assoc]
    rfl
  · exact absurd passes (stays _ _)

/-- A packet that is forwarded and sent without a fault can be sent again. -/
theorem resendable_of_added (unharmed : (resend outside packet sr).fault = none)
    (forwarded : (resend outside packet sr).forwarded ≠ sr.forwarded)
    (sent : (resend outside packet sr).sent ≠ sr.sent)
    : sr.Resendable packet := by
  simp only [resend] at unharmed forwarded sent
  cases found : sr.srGetInterface packet.iface with
  | none => simp [found, SrInstance.fail] at unharmed
  | some given =>
      simp only [found, SrInstance.srGetInterface_name found] at unharmed forwarded sent
      rcases srHandlepacket_handledAs outside packet.buf packet.iface sr with
        ⟨nexthop, interface, frame, passes, result, -⟩ | ⟨-, nothing⟩
      · rw [result] at unharmed sent
        cases interface with
        | none => simp [srForwardPacket, SrInstance.fail] at unharmed
        | some interface =>
            refine ⟨by rw [found]; rfl, nexthop, interface, passes, ?_⟩
            by_contra unknown
            have missing : srArpcacheLookup sr.entries nexthop.gw = none := by
              simpa using unknown
            refine sent ?_
            simp only [srForwardPacket, SrInstance.record, missing]
            rw [SrInstance.sent, srArpcacheQueuereq_log, List.filterMap_append]
            exact List.append_nil _
      · exact absurd nothing forwarded

theorem SrInstance.PassesOn.same {next : SrInstance} {frame : Frame} {name : String}
    {nexthop : SrRt} {interface : Option SrIf}
    (passes : sr.PassesOn frame name nexthop interface) (same : SameTables sr next)
    : next.PassesOn frame name nexthop interface := by
  have own : ∀ ip, next.ipCheck ip = sr.ipCheck ip := by
    intro ip
    rw [SrInstance.ipCheck, SrInstance.ipCheck, same.ifList]
  have match' : ∀ ip, next.longestprefixmatch ip = sr.longestprefixmatch ip := by
    intro ip
    rw [SrInstance.longestprefixmatch, SrInstance.longestprefixmatch, same.routingTable]
  cases passes with
  | arpReply arp long reply foreign route =>
      rw [← same.srGetInterface]
      exact .arpReply arp long reply ((own _).trans foreign) ((match' _).trans route)
  | datagram ip long valid foreign alive header route =>
      rw [← same.srGetInterface]
      exact .datagram ip long valid ((own _).trans foreign) alive header
        ((match' _).trans route)

theorem SrInstance.Resendable.same {next : SrInstance} (resendable : sr.Resendable packet)
    (same : SameTables sr next) (entries : next.entries = sr.entries)
    : next.Resendable packet := by
  obtain ⟨known, nexthop, interface, passes, cached⟩ := resendable
  refine ⟨?_, nexthop, interface, passes.same same, ?_⟩
  · rw [same.srGetInterface]
    exact known
  · rw [entries]
    exact cached

theorem PassedOn.resendable_iff {next : SrInstance} (passed : PassedOn packet sr next)
    (other : SrPacket)
    : next.Resendable other ↔ sr.Resendable other :=
  ⟨fun later => later.same ⟨passed.tables.ifList.symm, passed.tables.routingTable.symm⟩
      passed.entries.symm,
    fun before => before.same passed.tables passed.entries⟩

/-- When the first packet was passed on, all are served if the others are from there on. -/
theorem PassedOn.served_iff {middle next : SrInstance} {rest : List SrPacket} {most : Nat}
    (passed : PassedOn packet sr middle) (first : Adds 1 sr middle)
    (later : Adds most middle next)
    : Served (packet :: rest) sr next ↔ Served rest middle next := by
  obtain ⟨frame, forwardedFirst, sameFrame⟩ := passed.forwarded
  obtain ⟨wire, sentFirst, sameWire⟩ := passed.sent
  constructor
  · intro served
    obtain ⟨laterFrames, forwardedLater, -⟩ := later.forwarded
    obtain ⟨laterWires, sentLater, -⟩ := later.sent
    obtain ⟨frames, forwarded, sameFrames⟩ := served.forwarded
    obtain ⟨wires, sent, sameWires⟩ := served.sent
    obtain rfl : frames = frame :: laterFrames := by
      rw [forwardedLater, forwardedFirst, List.append_assoc] at forwarded
      exact (List.append_cancel_left forwarded).symm
    obtain rfl : wires = wire :: laterWires := by
      rw [sentLater, sentFirst, List.append_assoc] at sent
      exact (List.append_cancel_left sent).symm
    exact ⟨served.unharmed, ⟨laterFrames, forwardedLater, (List.forall₂_cons.mp sameFrames).2⟩,
      ⟨laterWires, sentLater, (List.forall₂_cons.mp sameWires).2⟩,
      served.quiet.trans first.quiet.symm⟩
  · intro served
    obtain ⟨frames, forwarded, sameFrames⟩ := served.forwarded
    obtain ⟨wires, sent, sameWires⟩ := served.sent
    refine ⟨served.unharmed, ⟨frame :: frames, ?_, .cons sameFrame sameFrames⟩,
      ⟨wire :: wires, ?_, .cons sameWire sameWires⟩, served.quiet.trans first.quiet⟩
    · rw [forwarded, forwardedFirst, List.append_assoc, List.singleton_append]
    · rw [sent, sentFirst, List.append_assoc, List.singleton_append]

/-- When a packet and the others behind it are served, it was forwarded and sent: each of the
others adds at most one frame.
-/
theorem Served.first_added {middle next : SrInstance} {rest : List SrPacket}
    (served : Served (packet :: rest) sr next) (later : Adds rest.length middle next)
    : middle.forwarded ≠ sr.forwarded ∧ middle.sent ≠ sr.sent := by
  obtain ⟨laterFrames, forwardedLater, fewFrames⟩ := later.forwarded
  obtain ⟨laterWires, sentLater, fewWires⟩ := later.sent
  obtain ⟨frames, forwarded, sameFrames⟩ := served.forwarded
  obtain ⟨wires, sent, sameWires⟩ := served.sent
  have enoughFrames := sameFrames.length_eq
  have enoughWires := sameWires.length_eq
  simp only [List.length_cons] at enoughFrames enoughWires
  constructor
  · intro nothing
    rw [forwardedLater, nothing] at forwarded
    rw [List.append_cancel_left forwarded] at fewFrames
    omega
  · intro nothing
    rw [sentLater, nothing] at sent
    rw [List.append_cancel_left sent] at fewWires
    omega

/-- The waiting packets are all served exactly when each can be sent again, by induction on
them: a packet that is not passed on leaves too few frames forwarded or sent in the end.
-/
theorem resendLoop_served_iff {packets : List SrPacket} (clean : sr.fault = none)
    : Served packets sr (packetLoop (resend outside) packets sr)
      ↔ ∀ packet ∈ packets, sr.Resendable packet := by
  induction packets generalizing sr with
  | nil =>
      refine iff_of_true ⟨clean, ⟨[], ?_, .nil⟩, ⟨[], ?_, .nil⟩, rfl⟩ (by simp)
      · exact (List.append_nil _).symm
      · exact (List.append_nil _).symm
  | cons packet rest ih =>
      have first := resend_adds outside packet sr
      have later := resendLoop_adds outside rest (resend outside packet sr)
      simp only [packetLoop, List.mem_cons, forall_eq_or_imp]
      by_cases unharmed : (resend outside packet sr).fault = none
      · rw [if_neg (by simp [unharmed])]
        constructor
        · intro served
          obtain ⟨forwarded, sent⟩ := served.first_added later
          have resendable := resendable_of_added outside unharmed forwarded sent
          have passed := resendable.passedOn outside
          have others := (ih unharmed).mp ((passed.served_iff first later).mp served)
          exact ⟨resendable, fun other member =>
            (passed.resendable_iff other).mp (others other member)⟩
        · rintro ⟨resendable, others⟩
          have passed := resendable.passedOn outside
          refine (passed.served_iff first later).mpr ((ih unharmed).mpr ?_)
          exact fun other member => (passed.resendable_iff other).mpr (others other member)
      · rw [if_pos (Option.isSome_iff_ne_none.mpr unharmed)]
        refine iff_of_false (fun served => unharmed served.unharmed) ?_
        rintro ⟨resendable, -⟩
        exact unharmed ((resendable.passedOn outside).fault.trans clean)

/-- Only what was recorded counts, and whether there was a fault. -/
theorem served_congr {packets : List SrPacket} {start next last : SrInstance}
    (before : start.log = sr.log) (after : last.log = next.log)
    (fault : last.fault = next.fault)
    : Served packets start last ↔ Served packets sr next := by
  constructor
  · rintro ⟨unharmed, forwarded, sent, quiet⟩
    rw [SrInstance.forwarded, SrInstance.forwarded, before, after] at forwarded
    rw [SrInstance.sent, SrInstance.sent, before, after] at sent
    rw [before, after] at quiet
    exact ⟨fault ▸ unharmed, forwarded, sent, quiet⟩
  · rintro ⟨unharmed, forwarded, sent, quiet⟩
    rw [SrInstance.forwarded, SrInstance.forwarded, ← before, ← after] at forwarded
    rw [SrInstance.sent, SrInstance.sent, ← before, ← after] at sent
    rw [← before, ← after] at quiet
    exact ⟨fault ▸ unharmed, forwarded, sent, quiet⟩

/-- Giving up reports every packet that is not lost to a fault, the first one at least. -/
theorem reportLoop_reported (address : Nat) (packet : SrPacket) (rest : List SrPacket)
    (sr : SrInstance)
    : (sr.log.filterMap Event.reported).length
      < ((packetLoop (reportUnreachable outside address) (packet :: rest) sr).log.filterMap
          Event.reported).length := by
  have report : ∀ (waiting : SrPacket) (now : SrInstance),
      ((reportUnreachable outside address waiting now).log.filterMap Event.reported).length
        = (now.log.filterMap Event.reported).length + 1 := by
    intro waiting now
    have updates := reportUnreachable_made outside address waiting now
    rw [updates.reported, SrInstance.record, SrInstance.record, List.filterMap_append,
      List.filterMap_append, List.length_append, List.length_append]
    rfl
  have first := report packet sr
  simp only [packetLoop]
  split
  · omega
  · refine packetLoop_invariant
      (fun now => (sr.log.filterMap Event.reported).length
        < (now.log.filterMap Event.reported).length)
      (fun waiting _ now held => ?_) (by omega)
    have one := report waiting now
    omega

/-- The sweep serves the waiting packets of a request with a known next hop exactly when none
waits, or the request has been sent less than five times, and each packet can be sent again.
-/
theorem sweepRequest_served_iff {address : Nat} {request : SrArpreq} (clean : sr.fault = none)
    (found : sr.requests.find? (fun request => request.address == address) = some request)
    (due : outside.clock sr.ticks - request.sent ≥ 1)
    (known : (srArpcacheLookup sr.entries request.ip).isSome)
    : Served request.packets sr (sweepRequest outside address sr)
      ↔ (request.packets = [] ∨ request.timesSent < 5)
        ∧ ∀ packet ∈ request.packets, sr.Resendable packet := by
  obtain ⟨entry, cached⟩ := Option.isSome_iff_exists.mp known
  have ticked : ∀ packet, sr.tick.Resendable packet ↔ sr.Resendable packet := fun packet =>
    ⟨fun later => later.same ⟨rfl, rfl⟩ rfl, fun before => before.same ⟨rfl, rfl⟩ rfl⟩
  simp only [sweepRequest, found, if_pos due, sweepDue]
  by_cases limit : request.timesSent ≥ 5
  · rw [if_pos limit]
    cases waiting : request.packets with
    | nil =>
        refine iff_of_true ⟨?_, ⟨[], ?_, .nil⟩, ⟨[], ?_, .nil⟩, ?_⟩ (by simp)
        all_goals
          simp [packetLoop, destroyAfter, SrInstance.record, SrInstance.tick, clean,
            srArpreqDestroy, SrInstance.forwarded, SrInstance.sent, Event.forwarded,
            Event.sent, Event.reported]
    | cons packet rest =>
        have more := reportLoop_reported outside request.address packet rest
          (sr.tick.record (.limitReached request.address (outside.clock sr.ticks)
            (packet :: rest)))
        refine iff_of_false (fun served => ?_) ?_
        · have quiet := served.quiet
          rw [(destroyAfter_log _ _).1] at quiet
          rw [quiet, SrInstance.record, List.filterMap_append, List.length_append] at more
          simp [SrInstance.tick] at more
        · rintro ⟨none | few, -⟩
          · cases none
          · omega
  · rw [if_neg limit]
    have cachedNow : srArpcacheLookup sr.tick.entries request.ip = some entry := cached
    have served : Served request.packets sr.tick
          (packetLoop (resend outside) request.packets sr.tick)
        ↔ ∀ packet ∈ request.packets, sr.tick.Resendable packet :=
      resendLoop_served_iff outside clean
    have destroyed : Served request.packets sr
          (destroyAfter request.address (packetLoop (resend outside) request.packets sr.tick))
        ↔ Served request.packets sr.tick
            (packetLoop (resend outside) request.packets sr.tick) :=
      served_congr rfl (destroyAfter_log _ _).1 (destroyAfter_log _ _).2
    simp only [cachedNow, destroyed, served, ticked]
    exact (and_iff_right (Or.inr (Nat.not_le.mp limit))).symm

end Again

/-- A request for the gateway of a router with one route, sent `calls` times for a datagram
and then answered.
-/
def answeredAfter (calls : Nat) : SrInstance :=
  let gateway : SrIf := ⟨"eth0", Vector.replicate 6 0x03, 0x0300000a⟩
  let reply :=
    arpPacket (Vector.replicate 6 0x02) 0x0002 gateway (Vector.replicate 6 0x02) 0x0900000a
  srHandlepacket quietOutside reply "eth0"
    ((srArpcacheSweepreqs quietOutside)^[calls]
      (srHandlepacket quietOutside (smallDatagram 64 0xe066) "eth0" oneRoute))

/-- The waiting datagram is reported unreachable although the fifth request was answered. -/
theorem fifth_answer_ignored
    : ¬ ∀ (outside : Outside) (ifList : List SrIf) (routingTable : List SrRt)
        (actions : List Action) (sr : SrInstance) (address : Nat) (request : SrArpreq),
        runFrom outside ifList routingTable actions = some sr
        → sr.requests.find? (fun request => request.address == address) = some request
        → outside.clock sr.ticks - request.sent ≥ 1
        → (srArpcacheLookup sr.entries request.ip).isSome
        → Served request.packets sr (sweepRequest outside address sr) := by
  intro always
  let actions : List Action :=
    .receive (smallDatagram 64 0xe066) "eth0" :: List.replicate 5 .sweepreqs
      ++ [.receive
        (arpPacket (Vector.replicate 6 0x02) 0x0002
          ⟨"eth0", Vector.replicate 6 0x03, 0x0300000a⟩ (Vector.replicate 6 0x02) 0x0900000a)
        "eth0"]
  have reached : runFrom quietOutside oneRoute.ifList oneRoute.routingTable actions
      = some (answeredAfter 5) := by
    decide +kernel
  have served := always _ _ _ actions _ 0
    ⟨0, 0x0300000a, 5, 5, [⟨smallDatagram 62 0xe068, "eth0"⟩]⟩ reached (by decide +kernel)
    (by decide +kernel) (by decide +kernel)
  exact absurd served.quiet (by decide +kernel)

/-- The rule at a request whose first call was answered. -/
theorem sweepRequest_served_iff_answered
    : Served [⟨smallDatagram 62 0xe068, "eth0"⟩] (answeredAfter 1)
        (sweepRequest quietOutside 0 (answeredAfter 1))
      ↔ ([⟨smallDatagram 62 0xe068, "eth0"⟩] = ([] : List SrPacket) ∨ 1 < 5)
        ∧ ∀ packet ∈ [(⟨smallDatagram 62 0xe068, "eth0"⟩ : SrPacket)],
            (answeredAfter 1).Resendable packet :=
  sweepRequest_served_iff quietOutside
    (show (answeredAfter 1).fault = none by decide +kernel)
    (show _ = some ⟨0, 0x0300000a, 1, 1, [⟨smallDatagram 62 0xe068, "eth0"⟩]⟩ by decide +kernel)
    (by decide +kernel) (by decide +kernel)

end Networks.Router
