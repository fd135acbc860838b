import Networks.Router.PacketFields

/-! Checksums in received and rewritten packets. A checksum field is accepted when the bytes
it covers add up to a multiple of 65535 and it is not zero. `ip_checksum` covers twenty
bytes, whatever the length of the header.
-/

namespace Networks.Router

open ByteFields OnesComplement
open Ctcp (htons ntohs fieldBytes16 wordSum_fieldBytes16)

-----------------------------------------------------------------------------------------
-- A checksum field and the bytes it covers
-----------------------------------------------------------------------------------------

theorem byteAt_drop (bytes : List UInt8) (start index : Nat)
    : byteAt (bytes.drop start) index = byteAt bytes (start + index) := by
  simp only [byteAt, List.getD_eq_getElem?_getD, List.getElem?_drop]

theorem byteAt_take {bytes : List UInt8} {stop index : Nat} (within : index < stop)
    : byteAt (bytes.take stop) index = byteAt bytes index := by
  simp only [byteAt, List.getD_eq_getElem?_getD, List.getElem?_take_of_lt within]

theorem shortAt_drop_take (bytes : List UInt8) (start : Nat) {stop index : Nat}
    (within : index + 2 ≤ stop)
    : shortAt ((bytes.drop start).take stop) index = shortAt bytes (start + index) := by
  rw [shortAt, byteAt_take (by omega), byteAt_take (by omega), byteAt_drop, byteAt_drop]
  rfl

theorem halfAt_drop_take (bytes : List UInt8) (start : Nat) {stop index : Nat}
    (within : index + 2 ≤ stop)
    : halfAt ((bytes.drop start).take stop) index = halfAt bytes (start + index) := by
  rw [halfAt, byteAt_take (by omega), byteAt_take (by omega), byteAt_drop, byteAt_drop]
  rfl

/-- A 16-bit field as it lies in memory is the byte-swapped number it holds. -/
theorem shortAt_eq_htons (bytes : List UInt8) (index : Nat)
    : shortAt bytes index = htons (.ofNat (halfAt bytes index)) := by
  have high := (byteAt bytes index).toNat_lt
  have low := (byteAt bytes (index + 1)).toNat_lt
  have small : (byteAt bytes index).toNat * 256 + (byteAt bytes (index + 1)).toNat < 2 ^ 16 := by
    omega
  have quotient : ((byteAt bytes index).toNat * 256 + (byteAt bytes (index + 1)).toNat) / 256
      = (byteAt bytes index).toNat := by omega
  apply UInt16.toNat_inj.mp
  simp only [shortAt, field16_toNat, halfAt, Ctcp.htons_toNat, UInt16.toNat_ofNat',
    Nat.mod_eq_of_lt small, quotient]
  omega

theorem halfAt_lt (bytes : List UInt8) (index : Nat) : halfAt bytes index < 65536 := by
  have high := (byteAt bytes index).toNat_lt
  have low := (byteAt bytes (index + 1)).toNat_lt
  unfold halfAt
  omega

theorem shortAt_eq_zero {bytes : List UInt8} {index : Nat}
    : shortAt bytes index = 0 ↔ halfAt bytes index = 0 := by
  have bound := halfAt_lt bytes index
  have zero : (0 : UInt16) = htons 0 := rfl
  rw [shortAt_eq_htons, zero, Ctcp.htons_inj, ← UInt16.toNat_inj, UInt16.toNat_ofNat',
    UInt16.toNat_zero]
  omega

/-- The two bytes at an index contribute the field they hold. -/
theorem wordSum_field {bytes : List UInt8} {index : Nat} (inside : index + 2 ≤ bytes.length)
    : wordSum ((bytes.drop index).take 2) = halfAt bytes index := by
  have first : index < bytes.length := by omega
  have second : index + 1 < bytes.length := by omega
  have pair : (bytes.drop index).take 2 = [byteAt bytes index, byteAt bytes (index + 1)] := by
    rw [List.drop_eq_getElem_cons first, List.drop_eq_getElem_cons second]
    simp only [List.take_succ_cons, List.take_zero, byteAt, List.getD_eq_getElem?_getD,
      List.getElem?_eq_getElem first, List.getElem?_eq_getElem second, Option.getD_some]
  rw [pair]
  simp [wordSum, halfAt]

/-- Writing a 16-bit field replaces its contribution to the sum. -/
theorem wordSum_overwrite {offset : Nat} {field bytes : List UInt8} (even : offset % 2 = 0)
    (short : field.length = 2) (inside : offset + 2 ≤ bytes.length)
    : wordSum (overwrite offset field bytes) + halfAt bytes offset
      = wordSum bytes + wordSum field := by
  have front : (bytes.take offset).length = offset := by
    rw [List.length_take]
    omega
  have evenFront : (bytes.take offset).length % 2 = 0 := front.symm ▸ even
  have evenTwo : ((bytes.drop offset).take 2).length % 2 = 0 := by
    rw [List.length_take, List.length_drop]
    omega
  have whole := congrArg wordSum (split_at_field offset 2 bytes)
  rw [List.append_assoc, wordSum_append _ _ evenFront, wordSum_append _ _ evenTwo,
    wordSum_field inside] at whole
  rw [overwrite, List.append_assoc, wordSum_append _ _ evenFront,
    wordSum_append field _ (by rw [short]), short]
  omega

section Checked

variable {data : List UInt8} {offset : Nat}

/-- The covered bytes with the checksum field zeroed. -/
theorem wordSum_zeroed (even : offset % 2 = 0) (inside : offset + 2 ≤ data.length)
    : wordSum (overwrite offset [0, 0] data) + halfAt data offset = wordSum data :=
  wordSum_overwrite even rfl inside

/-- A checksum field holds the checksum of the bytes around it exactly when it is not zero
and all the bytes add up to a multiple of 65535.
-/
theorem field_eq_cksum_iff (even : offset % 2 = 0) (inside : offset + 2 ≤ data.length)
    (short : data.length ≤ 65535)
    : shortAt data offset = Ctcp.cksum (overwrite offset [0, 0] data)
      ↔ shortAt data offset ≠ 0 ∧ wordSum data % 65535 = 0 := by
  have length : (overwrite offset [0, 0] data).length = data.length := length_overwrite inside
  have zeroed := wordSum_zeroed even inside
  have bound := halfAt_lt data offset
  have sumBound : wordSum (overwrite offset [0, 0] data) < 4294967296 := by
    have le := wordSum_le (overwrite offset [0, 0] data)
    omega
  have complementLe := complement_le sumBound
  rw [ne_eq, shortAt_eq_zero, Ctcp.cksum_eq (by omega), shortAt_eq_htons, Ctcp.htons_inj,
    ← UInt16.toNat_inj, UInt16.toNat_ofNat', UInt16.toNat_ofNat', complement_eq sumBound]
  omega

/-- Once the checksum of a string is written into a zero field of it, the string adds up to a
multiple of 65535.
-/
theorem wordSum_cksum_written (even : offset % 2 = 0) (inside : offset + 2 ≤ data.length)
    (short : data.length ≤ 65535) (zero : halfAt data offset = 0)
    : wordSum (overwrite offset (fieldBytes16 (Ctcp.cksum data)) data) % 65535 = 0 := by
  have sumBound : wordSum data < 4294967296 := by
    have le := wordSum_le data
    omega
  have complementLe := complement_le sumBound
  have value := complement_eq sumBound
  have field : (ntohs (Ctcp.cksum data)).toNat = complement (wordSum data) := by
    rw [Ctcp.cksum_eq short, Ctcp.ntohs_htons, UInt16.toNat_ofNat', Nat.mod_eq_of_lt (by omega)]
  have written := wordSum_overwrite even (length_fieldBytes16 (Ctcp.cksum data)) inside
  rw [wordSum_fieldBytes16, field, zero] at written
  omega

end Checked

-----------------------------------------------------------------------------------------
-- What the verification functions accept
-----------------------------------------------------------------------------------------

/-- The bytes of the IP header. -/
def ipHeader (packet : Frame) : List UInt8 :=
  (packet.drop ethernetHdrSize).take (ipHl packet * 4)

/-- The first twenty bytes of the IP header. -/
def fixedHeader (packet : Frame) : List UInt8 := (packet.drop ethernetHdrSize).take ipHdrSize

/-- The options of the IP header. -/
def ipOptions (packet : Frame) : List UInt8 :=
  (packet.drop (ethernetHdrSize + ipHdrSize)).take (ipHl packet * 4 - ipHdrSize)

/-- The bytes that the ICMP checksum covers. -/
def icmpMessage (packet : Frame) : List UInt8 :=
  (packet.drop (ethernetHdrSize + ipHdrSize)).take (ipLen packet - ipHdrSize)

/-- `ip_checksum` accepts a header when its first twenty bytes add up to a multiple of 65535
and its checksum field is not zero.
-/
theorem ipChecksum_iff {packet : Frame} (long : 34 ≤ packet.length)
    : ipChecksum packet = true
      ↔ ipSum packet ≠ 0 ∧ wordSum (fixedHeader packet) % 65535 = 0 := by
  have length : (fixedHeader packet).length = 20 := by
    simp only [fixedHeader, ethernetHdrSize, ipHdrSize, List.length_take, List.length_drop]
    omega
  have field : shortAt (fixedHeader packet) 10 = ipSum packet :=
    shortAt_drop_take packet 14 (by decide)
  have zeroed : ((clearIpSum packet).drop ethernetHdrSize).take ipHdrSize
      = overwrite 10 [0, 0] (fixedHeader packet) := by
    rw [clearIpSum, drop_overwrite (by decide) (by omega)]
    refine take_overwrite (by decide) ?_
    simp only [ethernetHdrSize, List.length_drop, List.length_cons, List.length_nil]
    omega
  have covered : cksum ((clearIpSum packet).drop ethernetHdrSize) ipHdrSize
      = Ctcp.cksum (overwrite 10 [0, 0] (fixedHeader packet)) := by
    rw [← zeroed]
    rfl
  rw [ipChecksum, beq_iff_eq, covered, ← field]
  exact field_eq_cksum_iff (by decide) (by omega) (by omega)

/-- Nothing behind the header matters to `ip_checksum`. -/
theorem AgreeOutside.ipChecksum_eq {start stop : Nat} {packet other : Frame}
    (agree : AgreeOutside start stop packet other) (behind : 34 ≤ start)
    (long : 34 ≤ packet.length)
    : ipChecksum other = ipChecksum packet := by
  have fixed : fixedHeader other = fixedHeader packet := by
    have same := congrArg (List.drop ethernetHdrSize) (agree.take behind)
    rw [List.drop_take, List.drop_take] at same
    exact same
  have field : ipSum other = ipSum packet := by
    rw [ipSum, shortAt, agree.byte 24 (by omega), agree.byte 25 (by omega)]
    rfl
  rw [Bool.eq_iff_iff, ipChecksum_iff long, ipChecksum_iff (agree.length ▸ long), fixed, field]

/-- `icmp_checksum` accepts a message when its bytes add up to a multiple of 65535 and its
checksum field is not zero.
-/
theorem icmpChecksum_iff {packet : Frame} (header : 24 ≤ ipLen packet)
    (fits : ethernetHdrSize + ipLen packet ≤ packet.length)
    : icmpChecksum packet = true
      ↔ icmpSum packet ≠ 0 ∧ wordSum (icmpMessage packet) % 65535 = 0 := by
  have short : ipLen packet < 65536 := halfAt_lt packet 16
  simp only [ethernetHdrSize] at fits
  have length : (icmpMessage packet).length = ipLen packet - 20 := by
    simp only [icmpMessage, ethernetHdrSize, ipHdrSize, List.length_take, List.length_drop]
    omega
  have field : shortAt (icmpMessage packet) 2 = icmpSum packet := by
    refine shortAt_drop_take packet 34 ?_
    simp only [ipHdrSize]
    omega
  have count : ((ipLen packet : Int) - ipHdrSize).toNat = ipLen packet - ipHdrSize := by
    simp only [ipHdrSize]
    omega
  have zeroed : ((clearIcmpSum packet).drop (ethernetHdrSize + ipHdrSize)).take
        (ipLen packet - ipHdrSize)
      = overwrite 2 [0, 0] (icmpMessage packet) := by
    rw [clearIcmpSum, drop_overwrite (by decide) (by omega)]
    refine take_overwrite ?_ ?_
    · simp only [ethernetHdrSize, ipHdrSize, List.length_cons, List.length_nil]
      omega
    · simp only [ethernetHdrSize, ipHdrSize, List.length_drop, List.length_cons,
        List.length_nil]
      omega
  have covered : cksum ((clearIcmpSum packet).drop (ethernetHdrSize + ipHdrSize))
        ((ipLen packet : Int) - ipHdrSize)
      = Ctcp.cksum (overwrite 2 [0, 0] (icmpMessage packet)) := by
    rw [← zeroed, ← count]
    rfl
  rw [icmpChecksum, beq_iff_eq, covered, ← field]
  exact field_eq_cksum_iff (by decide) (by omega) (by omega)

/-- Nothing between the length of a datagram and its message matters to `icmp_checksum`. -/
theorem AgreeOutside.icmpChecksum_eq {start stop : Nat} {packet other : Frame}
    (agree : AgreeOutside start stop packet other) (behind : 18 ≤ start) (before : stop ≤ 34)
    (header : 24 ≤ ipLen packet) (fits : ethernetHdrSize + ipLen packet ≤ packet.length)
    : icmpChecksum other = icmpChecksum packet := by
  have sameLen : ipLen other = ipLen packet := agree.half 16 (by omega)
  have message : icmpMessage other = icmpMessage packet := by
    rw [icmpMessage, sameLen, agree.drop (by simp only [ethernetHdrSize, ipHdrSize]; omega),
      icmpMessage]
  have field : icmpSum other = icmpSum packet := by
    rw [icmpSum, shortAt, agree.byte 36 (by omega), agree.byte 37 (by omega)]
    rfl
  rw [Bool.eq_iff_iff, icmpChecksum_iff header fits,
    icmpChecksum_iff (sameLen.symm ▸ header) (by rw [sameLen, agree.length]; exact fits),
    message, field]

/-- A frame whose IP checksum was computed over a zero field and written is accepted. -/
theorem ipChecksum_written {reply : Frame} (long : 34 ≤ reply.length)
    (zero : halfAt reply 24 = 0)
    : ipChecksum
        (overwrite 24 (fieldBytes16 (cksum (reply.drop ethernetHdrSize) ipHdrSize)) reply)
      = true := by
  have covered : cksum (reply.drop ethernetHdrSize) ipHdrSize
      = Ctcp.cksum (fixedHeader reply) := rfl
  have length : (fixedHeader reply).length = 20 := by
    simp only [fixedHeader, ethernetHdrSize, ipHdrSize, List.length_take, List.length_drop]
    omega
  have fixed : fixedHeader (overwrite 24 (fieldBytes16 (Ctcp.cksum (fixedHeader reply))) reply)
      = overwrite 10 (fieldBytes16 (Ctcp.cksum (fixedHeader reply))) (fixedHeader reply) := by
    rw [fixedHeader, drop_overwrite (by decide) (by omega)]
    refine take_overwrite (Nat.le_of_ble_eq_true rfl) ?_
    simp only [ethernetHdrSize, List.length_drop, length_fieldBytes16]
    omega
  have zeroField : halfAt (fixedHeader reply) 10 = 0 := by
    rw [fixedHeader, halfAt_drop_take reply ethernetHdrSize (by decide)]
    exact zero
  have inside : 24 + (fieldBytes16 (Ctcp.cksum (fixedHeader reply))).length ≤ reply.length := by
    rw [length_fieldBytes16]
    omega
  rw [covered, ipChecksum_iff (by rw [length_overwrite inside]; exact long), fixed, ipSum,
    shortAt_overwrite _ (by omega)]
  exact ⟨Ctcp.cksum_ne_zero, wordSum_cksum_written (by decide) (by omega) (by omega) zeroField⟩

/-- A frame whose ICMP checksum was computed over a zero field and written is accepted. -/
theorem icmpChecksum_written {reply : Frame} (header : 24 ≤ ipLen reply)
    (fits : ethernetHdrSize + ipLen reply ≤ reply.length) (zero : halfAt reply 36 = 0)
    : icmpChecksum
        (overwrite 36
          (fieldBytes16
            (cksum (reply.drop (ethernetHdrSize + ipHdrSize)) ((ipLen reply : Int) - ipHdrSize)))
          reply)
      = true := by
  have short : ipLen reply < 65536 := halfAt_lt reply 16
  have count : ((ipLen reply : Int) - ipHdrSize).toNat = ipLen reply - ipHdrSize := by
    simp only [ipHdrSize]
    omega
  have covered : cksum (reply.drop (ethernetHdrSize + ipHdrSize)) ((ipLen reply : Int) - ipHdrSize)
      = Ctcp.cksum (icmpMessage reply) := by
    rw [icmpMessage, ← count]
    rfl
  have long : 38 ≤ reply.length := by
    simp only [ethernetHdrSize] at fits
    omega
  have length : (icmpMessage reply).length = ipLen reply - 20 := by
    simp only [ethernetHdrSize] at fits
    simp only [icmpMessage, ethernetHdrSize, ipHdrSize, List.length_take, List.length_drop]
    omega
  have inside : 36 + (fieldBytes16 (Ctcp.cksum (icmpMessage reply))).length ≤ reply.length := by
    rw [length_fieldBytes16]
    exact long
  have agree := agreeOutside_overwrite inside
  have sameLen : ipLen (overwrite 36 (fieldBytes16 (Ctcp.cksum (icmpMessage reply))) reply)
      = ipLen reply :=
    agree.half 16 (Or.inl (by decide))
  have message : icmpMessage
        (overwrite 36 (fieldBytes16 (Ctcp.cksum (icmpMessage reply))) reply)
      = overwrite 2 (fieldBytes16 (Ctcp.cksum (icmpMessage reply))) (icmpMessage reply) := by
    rw [icmpMessage, sameLen, drop_overwrite (by decide) (by omega)]
    refine take_overwrite ?_ ?_
    · simp only [ethernetHdrSize, ipHdrSize, length_fieldBytes16]
      omega
    · simp only [ethernetHdrSize, ipHdrSize, List.length_drop, length_fieldBytes16]
      omega
  have zeroField : halfAt (icmpMessage reply) 2 = 0 := by
    rw [icmpMessage, halfAt_drop_take reply _ (by simp only [ipHdrSize]; omega)]
    exact zero
  rw [covered, icmpChecksum_iff (by rw [sameLen]; exact header)
    (by rw [sameLen, agree.length]; exact fits), message, icmpSum, shortAt_overwrite _ (by omega)]
  exact ⟨Ctcp.cksum_ne_zero, wordSum_cksum_written (by decide) (by omega) (by omega) zeroField⟩

-----------------------------------------------------------------------------------------
-- Headers with options
-----------------------------------------------------------------------------------------

/-- The header is its first twenty bytes and its options. -/
theorem wordSum_ipHeader {packet : Frame} (header : 5 ≤ ipHl packet)
    (fits : ethernetHdrSize + ipHl packet * 4 ≤ packet.length)
    : wordSum (ipHeader packet) = wordSum (fixedHeader packet) + wordSum (ipOptions packet) := by
  simp only [ethernetHdrSize] at fits
  have length : (fixedHeader packet).length = 20 := by
    simp only [fixedHeader, ethernetHdrSize, ipHdrSize, List.length_take, List.length_drop]
    omega
  have split : ipHeader packet = fixedHeader packet ++ ipOptions packet := by
    have whole := (List.take_append_drop ipHdrSize (ipHeader packet)).symm
    have front : (ipHeader packet).take ipHdrSize = fixedHeader packet := by
      rw [ipHeader, List.take_take, Nat.min_eq_left (by unfold ipHdrSize; omega), fixedHeader]
    have behind : (ipHeader packet).drop ipHdrSize = ipOptions packet := by
      rw [ipHeader, List.drop_take, List.drop_drop, ipOptions]
    rw [front, behind] at whole
    exact whole
  rw [split, wordSum_append _ _ (by rw [length])]

/-- A header is never all zero: its first byte holds its length. -/
theorem wordSum_ipHeader_ne_zero {packet : Frame} (header : 5 ≤ ipHl packet)
    (fits : ethernetHdrSize + ipHl packet * 4 ≤ packet.length)
    : wordSum (ipHeader packet) ≠ 0 := by
  simp only [ethernetHdrSize] at fits
  have first : 14 < packet.length := by omega
  have second : 15 < packet.length := by omega
  obtain ⟨rest, split⟩ : ∃ rest,
      ipHeader packet = byteAt packet 14 :: byteAt packet 15 :: rest := by
    obtain ⟨words, enough⟩ : ∃ words, ipHl packet * 4 = words + 2 :=
      ⟨ipHl packet * 4 - 2, by omega⟩
    refine ⟨(packet.drop 16).take words, ?_⟩
    rw [ipHeader, enough, ethernetHdrSize, List.drop_eq_getElem_cons first,
      List.drop_eq_getElem_cons second]
    simp only [List.take_succ_cons, byteAt, List.getD_eq_getElem?_getD,
      List.getElem?_eq_getElem first, List.getElem?_eq_getElem second, Option.getD_some]
  have version : 5 ≤ (byteAt packet 14).toNat := Nat.le_trans header (Nat.mod_le _ _)
  rw [split, wordSum]
  omega

theorem length_ipHeader {packet : Frame}
    (fits : ethernetHdrSize + ipHl packet * 4 ≤ packet.length)
    : (ipHeader packet).length = ipHl packet * 4 := by
  simp only [ethernetHdrSize] at fits
  simp only [ipHeader, ethernetHdrSize, List.length_take, List.length_drop]
  omega

/-- `sr_handlepacket` writes the checksum of the whole header. -/
theorem rewriteIpSum_eq {packet : Frame} (header : 5 ≤ ipHl packet)
    (fits : ethernetHdrSize + ipHl packet * 4 ≤ packet.length)
    : rewriteIpSum packet
      = overwrite 24 (fieldBytes16 (Ctcp.cksum (overwrite 10 [0, 0] (ipHeader packet))))
          packet := by
  have headerLength := length_ipHeader fits
  simp only [ethernetHdrSize] at fits
  have sameHl : ipHl (clearIpSum packet) = ipHl packet :=
    (clearIpSum_agree (by omega)).headerLength (by decide)
  have zeroed : ((clearIpSum packet).drop ethernetHdrSize).take (ipHl packet * 4)
      = overwrite 10 [0, 0] (ipHeader packet) := by
    rw [clearIpSum, drop_overwrite (by decide) (by omega)]
    refine take_overwrite ?_ ?_
    · simp only [ethernetHdrSize, List.length_cons, List.length_nil]
      omega
    · simp only [ethernetHdrSize, List.length_drop, List.length_cons, List.length_nil]
      omega
  have covered : cksum ((clearIpSum packet).drop ethernetHdrSize) (ipHl packet * 4 : Nat)
      = Ctcp.cksum (overwrite 10 [0, 0] (ipHeader packet)) := by
    rw [← zeroed]
    rfl
  have inside : 24 + [(0 : UInt8), 0].length ≤ packet.length := by
    simp only [List.length_cons, List.length_nil]
    omega
  simp only [rewriteIpSum, sameHl, covered]
  exact overwrite_overwrite rfl inside

/-- The header that `rewriteIpSum` leaves, as a write into the header itself. -/
theorem ipHeader_rewriteIpSum {packet : Frame} (header : 5 ≤ ipHl packet)
    (fits : ethernetHdrSize + ipHl packet * 4 ≤ packet.length)
    : ipHeader (rewriteIpSum packet)
      = overwrite 10 (fieldBytes16 (Ctcp.cksum (overwrite 10 [0, 0] (ipHeader packet))))
          (ipHeader packet) := by
  have written := rewriteIpSum_eq header fits
  simp only [ethernetHdrSize] at fits
  have long : 34 ≤ packet.length := by omega
  have sameHl : ipHl (rewriteIpSum packet) = ipHl packet :=
    (rewriteIpSum_agree long).headerLength (by decide)
  rw [ipHeader, sameHl, written, drop_overwrite (by decide) (by omega)]
  refine take_overwrite ?_ ?_
  · simp only [ethernetHdrSize, length_fieldBytes16]
    omega
  · simp only [ethernetHdrSize, List.length_drop, length_fieldBytes16]
    omega

/-- The whole of a rewritten header adds up as the standard wants it. -/
theorem wordSum_rewriteIpSum {packet : Frame} (header : 5 ≤ ipHl packet)
    (fits : ethernetHdrSize + ipHl packet * 4 ≤ packet.length)
    : wordSum (ipHeader (rewriteIpSum packet)) % 65535 = 0 := by
  have headerLength := length_ipHeader fits
  have small : ipHl packet < 16 := Nat.mod_lt _ (by decide)
  have inside : 10 + [(0 : UInt8), 0].length ≤ (ipHeader packet).length := by
    rw [headerLength, List.length_cons, List.length_singleton]
    omega
  have zeroedLength := length_overwrite inside
  have zero : halfAt (overwrite 10 [0, 0] (ipHeader packet)) 10 = 0 := by
    rw [halfAt, byteAt_overwrite_inside 0 inside (by decide),
      byteAt_overwrite_inside 1 inside (by decide)]
    rfl
  have whole := wordSum_cksum_written (by decide) (by omega) (by omega) zero
  have again : overwrite 10 (fieldBytes16 (Ctcp.cksum (overwrite 10 [0, 0] (ipHeader packet))))
        (overwrite 10 [0, 0] (ipHeader packet))
      = overwrite 10 (fieldBytes16 (Ctcp.cksum (overwrite 10 [0, 0] (ipHeader packet))))
          (ipHeader packet) :=
    overwrite_overwrite rfl inside
  rw [again] at whole
  rw [ipHeader_rewriteIpSum header fits]
  exact whole

/-- A rewritten header is accepted exactly when its options add up to a multiple of 65535:
the checksum that was written covers them, the one that is verified does not.
-/
theorem ipChecksum_rewriteIpSum {packet : Frame} (header : 5 ≤ ipHl packet)
    (fits : ethernetHdrSize + ipHl packet * 4 ≤ packet.length)
    : ipChecksum (rewriteIpSum packet) = true ↔ wordSum (ipOptions packet) % 65535 = 0 := by
  have written := rewriteIpSum_eq header fits
  have whole := wordSum_rewriteIpSum header fits
  have long : 34 ≤ packet.length := by
    simp only [ethernetHdrSize] at fits
    omega
  have agree := rewriteIpSum_agree long
  have sameHl : ipHl (rewriteIpSum packet) = ipHl packet := agree.headerLength (by decide)
  have sameOptions : ipOptions (rewriteIpSum packet) = ipOptions packet := by
    rw [ipOptions, sameHl, agree.drop (by decide), ipOptions]
  have field : ipSum (rewriteIpSum packet) ≠ 0 := by
    rw [written, ipSum, shortAt_overwrite _ (by omega)]
    exact Ctcp.cksum_ne_zero
  have split : wordSum (ipHeader (rewriteIpSum packet))
      = wordSum (fixedHeader (rewriteIpSum packet)) + wordSum (ipOptions packet) := by
    rw [← sameOptions]
    refine wordSum_ipHeader (sameHl.symm ▸ header) ?_
    rw [sameHl, agree.length]
    exact fits
  rw [ipChecksum_iff (by rw [agree.length]; omega)]
  simp only [field, ne_eq, not_false_eq_true, true_and]
  omega

/-- A header is verified as the IP standard says: it is accepted when its one's-complement
sum is all ones, and when it is accepted and rewritten on its way, it is accepted again.
-/
structure StandardVerification (packet : Frame) : Prop where
  verified : ipChecksum packet = true ↔ onesSum (ipHeader packet) = 0xffff
  rewritten
    : ipChecksum packet = true
      → ipChecksum (rewriteIpSum (decrementTtl (clearIpSum packet))) = true

/-- The headers that are verified as the standard says. When the options add nothing to the
sum, the correct checksum must not be the zero that `cksum` never computes. Otherwise the
header has to be corrupt with and without its options.
-/
def VerifiedByStandard (packet : Frame) : Prop :=
  if wordSum (ipOptions packet) % 65535 = 0 then
    ipSum packet ≠ 0 ∨ wordSum (fixedHeader packet) % 65535 ≠ 0
  else
    (ipSum packet = 0 ∨ wordSum (fixedHeader packet) % 65535 ≠ 0)
    ∧ wordSum (ipHeader packet) % 65535 ≠ 0

/-- The header that a transit packet is rewritten with is accepted when its options add
nothing to the sum.
-/
theorem ipChecksum_forwarded {packet : Frame} (header : 5 ≤ ipHl packet)
    (fits : ethernetHdrSize + ipHl packet * 4 ≤ packet.length)
    : ipChecksum (rewriteIpSum (decrementTtl (clearIpSum packet))) = true
      ↔ wordSum (ipOptions packet) % 65535 = 0 := by
  have long : 34 ≤ packet.length := by
    simp only [ethernetHdrSize] at fits
    omega
  have cleared := clearIpSum_agree long
  have agree := (cleared.widen (by decide) (Nat.le_refl 26)).trans
    ((decrementTtl_agree (cleared.length ▸ long)).widen (Nat.le_refl 22) (by decide))
  have sameHl : ipHl (decrementTtl (clearIpSum packet)) = ipHl packet :=
    agree.headerLength (by decide)
  have sameOptions : ipOptions (decrementTtl (clearIpSum packet)) = ipOptions packet := by
    rw [ipOptions, sameHl, agree.drop (by decide), ipOptions]
  rw [← sameOptions]
  refine ipChecksum_rewriteIpSum (sameHl.symm ▸ header) ?_
  rw [sameHl, agree.length]
  exact fits

/-- For every header inside its frame, whatever its length, verification follows the standard
exactly for the headers described above.
-/
theorem standardVerification_iff {packet : Frame} (header : 5 ≤ ipHl packet)
    (fits : ethernetHdrSize + ipHl packet * 4 ≤ packet.length)
    : StandardVerification packet ↔ VerifiedByStandard packet := by
  have long : 34 ≤ packet.length := by
    simp only [ethernetHdrSize] at fits
    omega
  have short : (ipHeader packet).length ≤ 65535 := by
    have small : ipHl packet < 16 := Nat.mod_lt _ (by decide)
    rw [length_ipHeader fits]
    omega
  have accepted := ipChecksum_iff long
  have ones : onesSum (ipHeader packet) = 0xffff ↔ wordSum (ipHeader packet) % 65535 = 0 := by
    have notZero := wordSum_ipHeader_ne_zero header fits
    rw [onesSum_eq_ones short]
    exact and_iff_left notZero
  have again := ipChecksum_forwarded header fits
  have split := wordSum_ipHeader header fits
  rw [VerifiedByStandard]
  constructor
  · rintro ⟨verified, rewritten⟩
    rw [accepted, ones] at verified
    rw [accepted, again] at rewritten
    split
    · next noOptions =>
        refine Decidable.or_iff_not_not_and_not.mpr ?_
        rintro ⟨zero, multiple⟩
        have multiple := Decidable.not_not.mp multiple
        exact zero (verified.mpr (by omega)).1
    · next options =>
        have rejected : ¬ (ipSum packet ≠ 0 ∧ wordSum (fixedHeader packet) % 65535 = 0) :=
          fun taken => options (rewritten taken)
        refine ⟨?_, fun multiple => rejected (verified.mpr multiple)⟩
        rcases Decidable.em (ipSum packet = 0) with zero | notZero
        · exact Or.inl zero
        · exact Or.inr fun multiple => rejected ⟨notZero, multiple⟩
  · intro standard
    split at standard
    · next noOptions =>
        refine ⟨?_, fun _ => again.mpr noOptions⟩
        rw [accepted, ones]
        constructor
        · rintro ⟨-, multiple⟩
          omega
        · intro multiple
          have multipleFixed : wordSum (fixedHeader packet) % 65535 = 0 := by omega
          exact ⟨standard.resolve_right (fun not => not multipleFixed), multipleFixed⟩
    · next options =>
        obtain ⟨corrupt, corruptWhole⟩ := standard
        have rejected : ¬ (ipSum packet ≠ 0 ∧ wordSum (fixedHeader packet) % 65535 = 0) := by
          rintro ⟨notZero, multiple⟩
          rcases corrupt with zero | notMultiple
          · exact notZero zero
          · exact notMultiple multiple
        refine ⟨?_, fun taken => absurd (accepted.mp taken) rejected⟩
        rw [accepted, ones]
        exact iff_of_false rejected corruptWhole

/-- A ping from 10.0.1.100 to 192.168.2.2 whose identification makes zero the correct
checksum.
-/
def zeroSumPing : Frame :=
  List.replicate 12 0 ++ [0x08, 0x00]
    ++ [0x45, 0x00, 0x00, 0x1c, 0xac, 0xd3, 0x00, 0x00, 0x40, 0x01, 0x00, 0x00]
    ++ [0x0a, 0x00, 0x01, 0x64, 0xc0, 0xa8, 0x02, 0x02]
    ++ [0x08, 0x00, 0xf7, 0xff, 0x00, 0x00, 0x00, 0x00]

theorem standardVerification_iff_zeroSumPing
    : StandardVerification zeroSumPing ↔ VerifiedByStandard zeroSumPing :=
  standardVerification_iff (by decide) (by decide)

/-- A correct header is dropped as corrupt when its checksum field is zero. -/
theorem zeroSumPing_not_standard : ¬ StandardVerification zeroSumPing := by
  intro standard
  have correct : onesSum (ipHeader zeroSumPing) = 0xffff := by decide +kernel
  have dropped : ipChecksum zeroSumPing = false := by decide +kernel
  rw [standard.verified.mpr correct] at dropped
  cases dropped

end Networks.Router
