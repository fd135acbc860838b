import Networks.Router.Bounds

/-! The header fields of the packets that the router builds and rewrites: what is written
into a field is read back from it, and the other fields are those of the packet before.
-/

namespace Networks.Router

open ByteFields
open Ctcp (htons fieldBytes16 fieldBytes32)

@[simp] theorem length_fieldBytes16 (field : UInt16) : (fieldBytes16 field).length = 2 := rfl

@[simp] theorem length_fieldBytes32 (field : UInt32) : (fieldBytes32 field).length = 4 := rfl

/-- Two bytes in memory are read as the field they were written from. -/
theorem shortAt_of_bytes {packet : Frame} {index : Nat} {field : UInt16}
    (bytes : ∀ offset, offset < 2 →
      byteAt packet (index + offset) = byteAt (fieldBytes16 field) offset)
    : shortAt packet index = field := by
  have bound := field.toNat_lt
  have low : byteAt packet index = .ofNat (field.toNat % 256) := bytes 0 (by decide)
  have high : byteAt packet (index + 1) = .ofNat (field.toNat / 256) := bytes 1 (by decide)
  apply UInt16.toNat_inj.mp
  simp only [shortAt, field16_toNat, low, high, UInt8.toNat_ofNat']
  omega

/-- Four bytes in memory are read as the field they were written from. -/
theorem wordAt_of_bytes {packet : Frame} {index : Nat} {field : UInt32}
    (bytes : ∀ offset, offset < 4 →
      byteAt packet (index + offset) = byteAt (fieldBytes32 field) offset)
    : wordAt packet index = field := by
  have bound := field.toNat_lt
  have byte0 : byteAt packet index = .ofNat (field.toNat % 256) := bytes 0 (by decide)
  have byte1 : byteAt packet (index + 1) = .ofNat (field.toNat / 256 % 256) :=
    bytes 1 (by decide)
  have byte2 : byteAt packet (index + 2) = .ofNat (field.toNat / 65536 % 256) :=
    bytes 2 (by decide)
  have byte3 : byteAt packet (index + 3) = .ofNat (field.toNat / 16777216) :=
    bytes 3 (by decide)
  apply UInt32.toNat_inj.mp
  simp only [wordAt, field32_toNat, byte0, byte1, byte2, byte3, UInt8.toNat_ofNat']
  omega

/-- A 32-bit field between other bytes is read back. -/
theorem wordAt_field (front : Frame) {packet behind : Frame} {field : UInt32} {index : Nat}
    (split : packet = front ++ (fieldBytes32 field ++ behind)) (length : front.length = index)
    : wordAt packet index = field := by
  refine wordAt_of_bytes fun offset within => ?_
  rw [split, ← length]
  exact byteAt_field front behind within

/-- An address between other bytes is read back. -/
theorem macAt_field (front : Frame) {packet behind : Frame} {mac : Mac} {index : Nat}
    (split : packet = front ++ (mac.toList ++ behind)) (length : front.length = index)
    : macAt packet index = mac := by
  ext offset within
  have inside : offset < mac.toList.length := by simpa using within
  rw [macAt, Vector.getElem_ofFn, split, ← length, byteAt_field front behind inside]
  simp [byteAt, within]

theorem shortAt_overwrite {offset : Nat} {packet : Frame} (field : UInt16)
    (inside : offset + 2 ≤ packet.length)
    : shortAt (overwrite offset (fieldBytes16 field) packet) offset = field :=
  shortAt_of_bytes fun _ within => byteAt_overwrite_inside _ inside within

theorem wordAt_overwrite {offset : Nat} {packet : Frame} (field : UInt32)
    (inside : offset + 4 ≤ packet.length)
    : wordAt (overwrite offset (fieldBytes32 field) packet) offset = field :=
  wordAt_of_bytes fun _ within => byteAt_overwrite_inside _ inside within

/-- The last of two writes to the same bytes counts. -/
theorem overwrite_overwrite {offset : Nat} {first second packet : Frame}
    (same : first.length = second.length) (inside : offset + first.length ≤ packet.length)
    : overwrite offset second (overwrite offset first packet) = overwrite offset second packet := by
  have front : (packet.take offset).length = offset := by
    rw [List.length_take]
    omega
  have before : (overwrite offset first packet).take offset = packet.take offset := by
    rw [overwrite, List.append_assoc, List.take_append_of_le_length front.ge,
      List.take_of_length_le front.le]
  have written : (packet.take offset ++ first).length = offset + second.length := by
    rw [List.length_append, front, same]
  have behind : (overwrite offset first packet).drop (offset + second.length)
      = packet.drop (offset + second.length) := by
    rw [overwrite, List.drop_append_of_le_length written.ge, List.drop_of_length_le written.le,
      List.nil_append, same]
  rw [overwrite, before, behind, overwrite]

theorem addressed_agree {packet : Frame} (long : 12 ≤ packet.length) (dhost shost : Mac)
    : AgreeOutside 0 12 packet (addressed dhost shost packet) := by
  have inside : 0 + (dhost.toList ++ shost.toList).length ≤ packet.length := by
    simpa using long
  have agree := agreeOutside_overwrite inside
  simpa [addressed] using agree

theorem etherDhost_addressed {packet : Frame} (long : 12 ≤ packet.length) (dhost shost : Mac)
    : etherDhost (addressed dhost shost packet) = dhost := by
  have inside : 0 + (dhost.toList ++ shost.toList).length ≤ packet.length := by
    simpa using long
  ext index within
  simp only [etherDhost, macAt, Vector.getElem_ofFn, addressed, byteAt_overwrite _ inside]
  simp [byteAt, within, Nat.lt_of_lt_of_le within]

theorem etherShost_addressed {packet : Frame} (long : 12 ≤ packet.length) (dhost shost : Mac)
    : etherShost (addressed dhost shost packet) = shost := by
  have inside : 0 + (dhost.toList ++ shost.toList).length ≤ packet.length := by
    simpa using long
  ext index within
  have behind : 6 + index < 12 := by omega
  simp only [etherShost, macAt, Vector.getElem_ofFn, addressed, byteAt_overwrite _ inside]
  simp [byteAt, behind]

-----------------------------------------------------------------------------------------
-- ICMP messages
-----------------------------------------------------------------------------------------

section ErrorMessage

variable {type code : UInt8} {unused : Nat → UInt8} {packet : Frame} {source : UInt32}

theorem length_icmpErrorPacket (long : ethernetHdrSize + icmpDataSize ≤ packet.length)
    : (icmpErrorPacket type code unused packet source).length = 70 := by
  simp only [ethernetHdrSize, icmpDataSize] at long
  simp [icmpErrorPacket, icmpEthernetHeader, icmpIpHeader, icmpErrorBody, ethernetHdrSize,
    icmpDataSize]
  omega

theorem ipTtl_icmpErrorPacket
    : ipTtl (icmpErrorPacket type code unused packet source) = 64 := rfl

theorem ipP_icmpErrorPacket
    : ipP (icmpErrorPacket type code unused packet source) = 1 := rfl

theorem icmpType_icmpErrorPacket
    : icmpType (icmpErrorPacket type code unused packet source) = type := rfl

theorem ipDst_icmpErrorPacket
    : ipDst (icmpErrorPacket type code unused packet source) = ipSrc packet := by
  refine wordAt_of_bytes fun offset within => ?_
  interval_cases offset <;> rfl

end ErrorMessage

/-- The frame that `sr_icmp_make_packet` copies an echo request to, with nothing rewritten. -/
def copiedDatagram (packet : Frame) : Frame :=
  icmpEthernetHeader ++ (packet.drop ethernetHdrSize).take (ipLen packet)

theorem length_copiedDatagram {packet : Frame}
    (fits : ethernetHdrSize + ipLen packet ≤ packet.length)
    : (copiedDatagram packet).length = ethernetHdrSize + ipLen packet := by
  simp only [ethernetHdrSize] at fits
  simp [copiedDatagram, icmpEthernetHeader, ethernetHdrSize]
  omega

/-- The IP part of the reply: both addresses and the checksum of its header are written. -/
def swappedDatagram (packet : Frame) : Frame :=
  let reply := overwrite 30 (fieldBytes32 (ipSrc packet)) (copiedDatagram packet)
  let reply := overwrite 26 (fieldBytes32 (ipDst packet)) reply
  overwrite 24 (fieldBytes16 (cksum (reply.drop ethernetHdrSize) ipHdrSize)) reply

section EchoReply

variable {code : UInt8} {packet : Frame}

theorem swappedDatagram_agree (fits : ethernetHdrSize + ipLen packet ≤ packet.length)
    (written : 24 ≤ ipLen packet)
    : AgreeOutside 24 30
        (overwrite 30 (fieldBytes32 (ipSrc packet)) (copiedDatagram packet))
        (swappedDatagram packet)
      ∧ AgreeOutside 30 34 (copiedDatagram packet)
          (overwrite 30 (fieldBytes32 (ipSrc packet)) (copiedDatagram packet)) := by
  have length := length_copiedDatagram fits
  simp only [ethernetHdrSize] at length
  have inside : 30 + (fieldBytes32 (ipSrc packet)).length ≤ (copiedDatagram packet).length := by
    rw [length_fieldBytes32, length]
    omega
  have destination := agreeOutside_overwrite inside
  refine ⟨?_, destination⟩
  have insideSource : 26 + (fieldBytes32 (ipDst packet)).length
      ≤ (overwrite 30 (fieldBytes32 (ipSrc packet)) (copiedDatagram packet)).length := by
    rw [length_fieldBytes32, destination.length, length]
    omega
  have source := agreeOutside_overwrite insideSource
  have insideSum : ∀ sum : UInt16, 24 + (fieldBytes16 sum).length
      ≤ (overwrite 26 (fieldBytes32 (ipDst packet))
          (overwrite 30 (fieldBytes32 (ipSrc packet)) (copiedDatagram packet))).length := by
    intro sum
    rw [length_fieldBytes16, source.length, destination.length, length]
    omega
  exact (source.widen (by decide) (Nat.le_refl 30)).trans
    ((agreeOutside_overwrite (insideSum _)).widen (Nat.le_refl 24) (by simp))

/-- The ICMP header of the reply is written, and then its checksum. -/
theorem icmpEchoPacket_written (fits : ethernetHdrSize + ipLen packet ≤ packet.length)
    (written : 24 ≤ ipLen packet)
    : 38 ≤ (swappedDatagram packet).length
      ∧ AgreeOutside 36 38 (overwrite 34 [0, code, 0, 0] (swappedDatagram packet))
          (icmpEchoPacket code packet) := by
  obtain ⟨ip, destination⟩ := swappedDatagram_agree fits written
  have length := length_copiedDatagram fits
  simp only [ethernetHdrSize] at length
  have long : 38 ≤ (swappedDatagram packet).length := by
    rw [ip.length, destination.length, length]
    omega
  have headerLength : (overwrite 34 [0, code, 0, 0] (swappedDatagram packet)).length
      = (swappedDatagram packet).length :=
    length_overwrite long
  have inside : ∀ sum : UInt16, 36 + (fieldBytes16 sum).length
      ≤ (overwrite 34 [0, code, 0, 0] (swappedDatagram packet)).length := by
    intro sum
    rw [length_fieldBytes16, headerLength]
    exact long
  exact ⟨long, (agreeOutside_overwrite (inside _)).widen (Nat.le_refl 36) (Nat.le_refl 38)⟩

theorem icmpEchoPacket_agree (fits : ethernetHdrSize + ipLen packet ≤ packet.length)
    (written : 24 ≤ ipLen packet)
    : AgreeOutside 34 38 (swappedDatagram packet) (icmpEchoPacket code packet) := by
  obtain ⟨long, sum⟩ := icmpEchoPacket_written fits written
  have inside : 34 + [0, code, 0, 0].length ≤ (swappedDatagram packet).length := long
  exact (agreeOutside_overwrite inside).trans (sum.widen (by decide) (Nat.le_refl 38))

theorem length_icmpEchoPacket (fits : ethernetHdrSize + ipLen packet ≤ packet.length)
    (written : 24 ≤ ipLen packet)
    : (icmpEchoPacket code packet).length = ethernetHdrSize + ipLen packet := by
  obtain ⟨ip, destination⟩ := swappedDatagram_agree fits written
  rw [(icmpEchoPacket_agree fits written).length, ip.length, destination.length,
    length_copiedDatagram fits]

theorem icmpType_icmpEchoPacket (fits : ethernetHdrSize + ipLen packet ≤ packet.length)
    (written : 24 ≤ ipLen packet)
    : icmpType (icmpEchoPacket code packet) = 0 := by
  obtain ⟨long, sum⟩ := icmpEchoPacket_written fits written
  have inside : 34 + [0, code, 0, 0].length ≤ (swappedDatagram packet).length := long
  have header : 0 < [0, code, 0, 0].length := Nat.zero_lt_succ _
  exact (sum.byte 34 (by decide)).trans (byteAt_overwrite_inside 0 inside header)

theorem ipDst_icmpEchoPacket (fits : ethernetHdrSize + ipLen packet ≤ packet.length)
    (written : 24 ≤ ipLen packet)
    : ipDst (icmpEchoPacket code packet) = ipSrc packet := by
  have length := length_copiedDatagram fits
  simp only [ethernetHdrSize] at length
  obtain ⟨ip, -⟩ := swappedDatagram_agree fits written
  rw [ipDst, (icmpEchoPacket_agree fits written).word 30 (by decide),
    ip.word 30 (by decide), wordAt_overwrite _ (by rw [length]; omega)]

end EchoReply

end Networks.Router
