import Networks.Router.TimeToLive
import Networks.Router.Requests

/-! What the input handler puts on the wire for one packet: at most one frame, which is the
packet itself with a smaller TTL, an error message about it, or an echo reply.
-/

namespace Networks.Router

open ByteFields
open Ctcp (fieldBytes16 fieldBytes32)

/-- The frames put on the wire. -/
def SrInstance.sent (sr : SrInstance) : List Frame := sr.log.filterMap Event.sent

/-- From `sr` to `next` at most one frame was put on the wire, and it is of the given kind. -/
def Sending (kind : Frame → Prop) (sr next : SrInstance) : Prop :=
  ∃ frames, next.sent = sr.sent ++ frames ∧ frames.length ≤ 1 ∧ ∀ frame ∈ frames, kind frame

/-- Why an error message is made about a packet. -/
def SrInstance.Fails (sr : SrInstance) (packet : Frame) : Prop :=
  sr.ipCheck (ipDst packet) = none
      ∧ (ipTtl packet = 1 ∨ sr.longestprefixmatch (ipDst packet) = none)
    ∨ (sr.ipCheck (ipDst packet)).isSome ∧ (ipP packet = 17 ∨ ipP packet = 6)

/-- What is put on the wire for a packet. -/
inductive SrInstance.Answer (sr : SrInstance) (packet frame : Frame) : Prop
  | arp (type : ethertype packet = 2054)
  | transit (foreign : sr.ipCheck (ipDst packet) = none)
    (ttl : ipTtl frame = ipTtl packet - 2) (dst : ipDst frame = ipDst packet)
  | error (fails : sr.Fails packet) (ttl : ipTtl frame = 64) (protocol : ipP frame = 1)
    (type : icmpType frame = 3 ∨ icmpType frame = 11)
  | echo (own : (sr.ipCheck (ipDst packet)).isSome) (request : icmpType packet = 8)
    (reply : icmpType frame = 0)

theorem Sending.of_log {kind : Frame → Prop} {sr next : SrInstance} (same : next.log = sr.log)
    : Sending kind sr next := by
  refine ⟨[], ?_, by simp, by simp⟩
  rw [SrInstance.sent, SrInstance.sent, same, List.append_nil]

theorem Sending.mono {kind other : Frame → Prop} {sr next : SrInstance}
    (sending : Sending kind sr next) (implies : ∀ frame, kind frame → other frame)
    : Sending other sr next := by
  obtain ⟨frames, sent, single, kinds⟩ := sending
  exact ⟨frames, sent, single, fun frame member => implies frame (kinds frame member)⟩

/-- Nothing is put on the wire before, or after. -/
theorem Sending.of_silent {kind : Frame → Prop} {sr middle next last : SrInstance}
    (before : middle.sent = sr.sent) (sending : Sending kind middle next)
    (after : last.sent = next.sent)
    : Sending kind sr last := by
  obtain ⟨frames, sent, single, kinds⟩ := sending
  exact ⟨frames, by rw [after, sent, before], single, kinds⟩

theorem srSendPacket_sending (packet : Frame) (iface : String) (sr : SrInstance)
    : Sending (fun frame => frame = packet) sr (srSendPacket packet iface sr) := by
  refine ⟨[packet], ?_, by simp, by simp⟩
  rw [SrInstance.sent, srSendPacket, SrInstance.record, List.filterMap_append]
  rfl

section Handlers

variable (outside : Outside) (sr : SrInstance)

theorem srForwardPacket_sending (caller : Caller) (packet : Frame) (nexthopIp : UInt32)
    (interface : Option SrIf)
    : Sending (fun frame => ∃ dhost shost, frame = addressed dhost shost packet) sr
        (srForwardPacket caller packet nexthopIp interface sr) := by
  have recorded : (sr.record (.forwardPacket caller packet nexthopIp)).sent = sr.sent := by
    rw [SrInstance.sent, SrInstance.record, List.filterMap_append]
    exact List.append_nil _
  cases interface with
  | none => exact ⟨[], recorded.trans (List.append_nil _).symm, by simp, by simp⟩
  | some interface =>
      simp only [srForwardPacket]
      cases srArpcacheLookup
          (sr.record (.forwardPacket caller packet nexthopIp)).entries nexthopIp with
      | some entry =>
          refine .of_silent recorded ((srSendPacket_sending _ _ _).mono ?_) rfl
          rintro frame rfl
          exact ⟨entry.mac, interface.addr, rfl⟩
      | none =>
          refine .of_silent recorded (.of_log ?_) rfl
          exact srArpcacheQueuereq_log _ _

theorem srArpMakePacket_sending (interface : Option SrIf) (targetIp : UInt32)
    (mode : ArpMode)
    : Sending (fun _ => True) sr (srArpMakePacket interface targetIp mode sr) := by
  cases interface with
  | none => exact .of_log rfl
  | some interface =>
      exact (srSendPacket_sending _ _ _).mono fun _ _ => trivial

/-- An ICMP message is an echo reply or an error message, and at most one is put on the wire.
-/
theorem srIcmpMakePacket_sending (packet : Frame) (type code : UInt8)
    : Sending
        (fun frame => ∃ dhost shost,
          type = 0 ∧ ethernetHdrSize + ipLen packet ≤ packet.length ∧ 24 ≤ ipLen packet
            ∧ frame = addressed dhost shost (icmpEchoPacket code packet)
          ∨ type ≠ 0 ∧ ethernetHdrSize + icmpDataSize ≤ packet.length
            ∧ ∃ unused source,
              frame = addressed dhost shost (icmpErrorPacket type code unused packet source))
        sr (srIcmpMakePacket outside packet type code sr) := by
  have recorded : (sr.record (.icmpMakePacket type code packet)).sent = sr.sent := by
    rw [SrInstance.sent, SrInstance.record, List.filterMap_append]
    exact List.append_nil _
  simp only [srIcmpMakePacket]
  split
  · exact .of_silent recorded (.of_log rfl) rfl
  split
  · exact .of_silent recorded (.of_log rfl) rfl
  split
  · exact .of_silent recorded (.of_log rfl) rfl
  split
  · exact .of_silent recorded (.of_log rfl) rfl
  split
  · next reply =>
      unfold icmpEcho
      split
      · exact .of_silent recorded (.of_log rfl) rfl
      next inside =>
      split
      · exact .of_silent recorded (.of_log rfl) rfl
      next long =>
      refine .of_silent recorded ((srForwardPacket_sending _ _ _ _ _).mono ?_) rfl
      rintro frame ⟨dhost, shost, rfl⟩
      exact ⟨dhost, shost, Or.inl ⟨reply, Nat.not_lt.mp inside, Nat.not_lt.mp long, rfl⟩⟩
  · next error =>
      simp only [icmpError]
      split
      · exact .of_silent recorded (.of_log rfl) rfl
      split
      · exact .of_silent recorded (.of_log rfl) rfl
      next long =>
      have allocated : SrInstance.sent
          { sr.record (.icmpMakePacket type code packet) with
            mallocs := (sr.record (.icmpMakePacket type code packet)).mallocs + 1 }
          = sr.sent := recorded
      refine .of_silent allocated ((srForwardPacket_sending _ _ _ _ _).mono ?_) rfl
      rintro frame ⟨dhost, shost, rfl⟩
      exact ⟨dhost, shost, Or.inr ⟨error, Nat.not_lt.mp long, _, _, rfl⟩⟩

theorem addressed_fields {packet : Frame} (long : 12 ≤ packet.length) (dhost shost : Mac)
    : ipTtl (addressed dhost shost packet) = ipTtl packet
      ∧ ipP (addressed dhost shost packet) = ipP packet
      ∧ ipDst (addressed dhost shost packet) = ipDst packet
      ∧ icmpType (addressed dhost shost packet) = icmpType packet := by
  have agree := addressed_agree long dhost shost
  exact ⟨agree.byte 22 (by decide), agree.byte 23 (by decide), agree.word 30 (by decide),
    agree.byte 34 (by decide)⟩

/-- An error message is put on the wire as one, when there was a reason to make it. -/
theorem srIcmpMakePacket_error {original packet : Frame} {type code : UInt8}
    (fails : sr.Fails original) (error : type = 3 ∨ type = 11)
    : Sending (sr.Answer original) sr (srIcmpMakePacket outside packet type code sr) := by
  refine (srIcmpMakePacket_sending outside sr packet type code).mono ?_
  rintro frame ⟨dhost, shost, ⟨rfl, -⟩ | ⟨-, quoted, unused, source, rfl⟩⟩
  · exact absurd error (by decide)
  · have long : 12 ≤ (icmpErrorPacket type code unused packet source).length := by
      rw [length_icmpErrorPacket quoted]
      decide
    obtain ⟨ttl, protocol, -, sameType⟩ := addressed_fields long dhost shost
    exact .error fails (ttl.trans ipTtl_icmpErrorPacket)
      (protocol.trans ipP_icmpErrorPacket)
      (by rw [sameType, icmpType_icmpErrorPacket]; exact error)

theorem handleArp_sending {packet : Frame} (name : String) (arp : ethertype packet = 2054)
    : Sending (sr.Answer packet) sr (handleArp outside packet name sr) := by
  have silent : Sending (fun _ => True) sr sr := .of_log rfl
  have sending : Sending (fun _ => True) sr (handleArp outside packet name sr) := by
    simp only [handleArp, arpReply, arpRequested]
    split
    · exact silent
    split
    · split
      · split
        · exact .of_log (srArpcacheinsert_log outside _ _ sr).1
        · exact silent
      split
      · exact silent
      · exact (srForwardPacket_sending _ _ _ _ _).mono fun _ _ => trivial
    split
    · split
      · have replied := srArpMakePacket_sending sr (sr.srGetInterface name) (arSip packet)
          (.reply (arSha packet))
        split
        · exact replied
        · refine .of_silent rfl replied ?_
          rw [SrInstance.sent, (srArpcacheinsert_log outside _ _ _).1, SrInstance.sent]
      split
      · exact srArpMakePacket_sending _ _ _ _
      split
      · exact silent
      · exact .of_log (srArpcacheQueuereq_log _ _)
    · exact silent
  exact sending.mono fun _ _ => .arp arp

theorem handleLocal_sending {original packet : Frame}
    (own : (sr.ipCheck (ipDst original)).isSome) (sameType : icmpType packet = icmpType original)
    (sameP : ipP packet = ipP original)
    : Sending (sr.Answer original) sr (handleLocal outside packet sr) := by
  simp only [handleLocal, handleIcmp]
  split
  · split
    · exact .of_log rfl
    next inside =>
    split
    · exact .of_log rfl
    split
    · next request =>
        refine (srIcmpMakePacket_sending outside sr _ 0 0).mono ?_
        rintro frame ⟨dhost, shost, ⟨-, fits, written, rfl⟩ | ⟨error, -⟩⟩
        · have reply : 12 ≤ (icmpEchoPacket 0 (clearIcmpSum packet)).length := by
            rw [length_icmpEchoPacket fits written]
            exact Nat.le_trans (by decide) (Nat.le_add_right _ _)
          have cleared := clearIcmpSum_agree (Nat.not_lt.mp (not_or.mp inside).1)
          have asked : icmpType (clearIcmpSum packet) = icmpType packet :=
            cleared.byte 34 (by decide)
          refine .echo own ((sameType.symm.trans asked.symm).trans request) ?_
          rw [(addressed_fields reply dhost shost).2.2.2,
            icmpType_icmpEchoPacket fits written]
        · exact absurd rfl error
    · exact .of_log rfl
  split
  · next transport =>
      refine srIcmpMakePacket_error outside sr (Or.inr ⟨own, ?_⟩) (Or.inl rfl)
      rw [← sameP]
      exact transport
  · exact .of_log rfl

/-- Handling a packet puts at most one answer on the wire. -/
theorem srHandlepacket_sending (packet : Frame) (name : String)
    : Sending (sr.Answer packet) sr (srHandlepacket outside packet name sr) := by
  simp only [srHandlepacket]
  split
  · exact .of_log rfl
  split
  · next arp => exact handleArp_sending outside sr name arp
  split
  · simp only [handleIp]
    split
    · exact .of_log rfl
    split
    · exact .of_log rfl
    next fits =>
    have long : 34 ≤ packet.length := Nat.not_lt.mp fits
    have cleared := clearIpSum_agree long
    have stillLong : 34 ≤ (clearIpSum packet).length := cleared.length ▸ long
    have sameDst : ipDst (clearIpSum packet) = ipDst packet := cleared.word 30 (by decide)
    have sameTtl : ipTtl (clearIpSum packet) = ipTtl packet := cleared.byte 22 (by decide)
    split
    · exact .of_log rfl
    rw [sameDst]
    split
    · next own =>
        exact handleLocal_sending outside sr own (cleared.byte 34 (by decide))
          (cleared.byte 23 (by decide))
    next notOwn =>
    have foreign : sr.ipCheck (ipDst packet) = none := by simpa using notOwn
    simp only [handleTransit, sameTtl]
    split
    · next expires =>
        exact srIcmpMakePacket_error outside sr (Or.inl ⟨foreign, Or.inl expires⟩) (Or.inr rfl)
    split
    · exact .of_log rfl
    have rewritten := forwarded_agree stillLong
    have routedDst : ipDst (rewriteIpSum (decrementTtl (clearIpSum packet))) = ipDst packet :=
      (rewritten.word 30 (by decide)).trans sameDst
    rw [routedDst]
    cases route : sr.longestprefixmatch (ipDst packet) with
    | none =>
        exact srIcmpMakePacket_error outside sr (Or.inl ⟨foreign, Or.inr route⟩) (Or.inl rfl)
    | some nexthop =>
        refine (srForwardPacket_sending _ _ _ _ _).mono ?_
        rintro frame ⟨dhost, shost, rfl⟩
        have ethernet : 12 ≤ (rewriteIpSum (decrementTtl (clearIpSum packet))).length := by
          rw [rewritten.length]
          exact Nat.le_trans (by decide) stillLong
        obtain ⟨ttl, -, dst, -⟩ := addressed_fields ethernet dhost shost
        refine .transit foreign ?_ (dst.trans routedDst)
        rw [ttl, forwarded_ttl stillLong, sameTtl]
  · exact .of_log rfl

end Handlers

end Networks.Router
