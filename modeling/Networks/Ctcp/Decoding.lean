import Networks.Ctcp.RecvFilter

/-! How a received packet becomes a segment, byte by byte. `convert_to_ctcp` takes the lengths
from `tot_len`, in 16 bits, and looks neither at the header lengths of the packet nor at the
number of bytes received.
-/

namespace Networks.Ctcp

open MachineIntegers

-----------------------------------------------------------------------------------------
-- The packet
-----------------------------------------------------------------------------------------

/-- Length of the TCP header. -/
def tcpHdrSize : Nat := 20

/-- Length of the pseudo header, with the TCP header that follows it. -/
def tcpPseudohdrSize : Nat := 32

/-- `ip_hdr->ihl`. -/
def Buffer.ihl (buf : Buffer) : Nat := (buf 0).toNat % 16

/-- `ip_hdr->tot_len`. -/
def Buffer.totLen (buf : Buffer) : UInt16 := buf.field16 2

/-- `ip_hdr->daddr`. -/
def Buffer.daddr (buf : Buffer) : UInt32 := buf.field32 16

/-- `th_off`, in the TCP header that lies behind the `ihl` words of the IP header. -/
def Buffer.thOff (buf : Buffer) : Nat := (buf (buf.ihl * 4 + 12)).toNat / 16

/-- `tcp_hdr->th_win`. -/
def Buffer.thWin (buf : Buffer) : UInt16 := buf.field16 (ipHdrSize + 14)

/-- `tcp_hdr->th_sum`. -/
def Buffer.thSum (buf : Buffer) : UInt16 := buf.field16 (ipHdrSize + 16)

/-- `tcp_hdr->th_sum = 0`. -/
def Buffer.zeroSum (buf : Buffer) : Buffer := fun index =>
  if index = ipHdrSize + 16 ∨ index = ipHdrSize + 17 then 0 else buf index

/-- Where the headers of a packet say that its payload starts. A packet that ends before its
`th_off` has no payload.
-/
def Buffer.payloadStart (buf : Buffer) : Nat :=
  if buf.ihl * 4 + 12 < (ntohs buf.totLen).toNat then
    buf.ihl * 4 + buf.thOff * 4
  else
    (ntohs buf.totLen).toNat

/-- The payload of a packet as its own headers delimit it. -/
def Buffer.tcpPayload (buf : Buffer) : List UInt8 :=
  buf.bytes buf.payloadStart ((ntohs buf.totLen).toNat - buf.payloadStart)

-----------------------------------------------------------------------------------------
-- The conversion
-----------------------------------------------------------------------------------------

/-- The blocks of memory that `convert_to_ctcp` works on: the received packet, the segment it
allocates, and the pseudo header that `cksum_tcp` allocates.
-/
inductive Block
  | datagram
  | segment
  | pseudoheader
  deriving DecidableEq

/-- An access to some bytes of a block. -/
structure Access where
  block : Block
  start : Nat
  length : Nat

/-- The access stays inside its block. -/
def Access.Inside (size : Block → Nat) (access : Access) : Prop :=
  ∀ index, access.start ≤ index → index < access.start + access.length
    → index < size access.block

/-- The fields of a decoded segment. Nothing ties `len` to the data here. -/
structure DecodedSegment where
  seqno : UInt32
  ackno : UInt32
  len : UInt16
  flags : UInt32
  window : UInt16
  cksum : UInt16
  data : List UInt8

/-- What lies at a decoded segment in memory. The padding is zero, as `calloc` left it. -/
def DecodedSegment.bytes (segment : DecodedSegment) : List UInt8 :=
  fieldBytes32 segment.seqno ++ fieldBytes32 segment.ackno ++ fieldBytes16 segment.len
    ++ fieldBytes16 0 ++ fieldBytes32 segment.flags ++ fieldBytes16 segment.window
    ++ (fieldBytes16 segment.cksum ++ segment.data)

/-- What `convert_to_ctcp` does: the blocks it allocates, its accesses to memory in their
order, and the segment it returns.
-/
structure Conversion where
  segmentSize : Nat
  pseudoheaderSize : Nat
  loads : List Access
  stores : List Access
  segment : DecodedSegment

/-- The sizes of the blocks, when `actual_len` bytes were received. -/
def Conversion.size (conversion : Conversion) (actualLen : Nat) : Block → Nat
  | .datagram => actualLen
  | .segment => conversion.segmentSize
  | .pseudoheader => conversion.pseudoheaderSize

/-- `data_len`, which wraps around when `tot_len` is less than the two headers. -/
def Buffer.dataLen (buf : Buffer) : UInt16 := ntohs buf.totLen - .ofNat fullHdrSize

/-- The length that the allocated segment is given. -/
def Buffer.segmentLen (buf : Buffer) : UInt16 := buf.dataLen + .ofNat segHeaderSize

/-- `cksum_tcp`. The length that `cksum` is called with is converted to 16 bits. -/
def Buffer.cksumTcp (buf : Buffer) (len : UInt16) : UInt16 :=
  let phdr :=
    fieldBytes32 buf.saddr ++ fieldBytes32 buf.daddr ++ [0, 6]
      ++ fieldBytes16 (htons (.ofNat (tcpHdrSize + len.toNat)))
      ++ buf.bytes ipHdrSize (tcpHdrSize + len.toNat)
  cksum (phdr.take (uint16 (len.toNat + tcpPseudohdrSize : Nat)))

/-- The segment `convert_to_ctcp` fills, with its checksum still zero. -/
def Buffer.received (buf : Buffer) (src : Conn) : DecodedSegment where
  seqno := htonl (ntohl buf.thSeq - src.theirInitSeqno)
  ackno := htonl (ntohl buf.thAck - src.initSeqno)
  len := htons buf.segmentLen
  flags := buf.thFlags.toUInt32
  window := buf.thWin
  cksum := 0
  data := buf.bytes fullHdrSize buf.dataLen.toNat

/-- What `convert_to_ctcp` and `cksum_tcp` read. -/
def Buffer.loads (buf : Buffer) : List Access :=
  let dataLen := buf.dataLen.toNat
  [
    ⟨.datagram, 2, 2⟩,
    ⟨.datagram, ipHdrSize + 4, 4⟩,
    ⟨.datagram, ipHdrSize + 8, 4⟩,
    ⟨.datagram, ipHdrSize + 13, 1⟩,
    ⟨.datagram, ipHdrSize + 14, 2⟩,
    -- memcpy(segment->data, payload, data_len)
    ⟨.datagram, fullHdrSize, dataLen⟩,
    ⟨.segment, 0, buf.segmentLen.toNat⟩,
    ⟨.datagram, ipHdrSize + 16, 2⟩,
    -- cksum_tcp
    ⟨.datagram, 12, 4⟩,
    ⟨.datagram, 16, 4⟩,
    ⟨.datagram, ipHdrSize, tcpHdrSize + dataLen⟩,
    ⟨.pseudoheader, 0, uint16 (dataLen + tcpPseudohdrSize : Nat)⟩,
    ⟨.segment, 18, 2⟩
  ]

/-- What `convert_to_ctcp` and `cksum_tcp` write. -/
def Buffer.stores (buf : Buffer) : List Access :=
  let dataLen := buf.dataLen.toNat
  [
    ⟨.segment, 0, 4⟩,
    ⟨.segment, 4, 4⟩,
    ⟨.segment, 8, 2⟩,
    ⟨.segment, 12, 4⟩,
    ⟨.segment, 16, 2⟩,
    ⟨.segment, 18, 2⟩,
    ⟨.segment, segHeaderSize, dataLen⟩,
    ⟨.segment, 18, 2⟩,
    -- tcp_hdr->th_sum = 0
    ⟨.datagram, ipHdrSize + 16, 2⟩,
    -- cksum_tcp
    ⟨.pseudoheader, 0, 4⟩,
    ⟨.pseudoheader, 4, 4⟩,
    ⟨.pseudoheader, 9, 1⟩,
    ⟨.pseudoheader, 10, 2⟩,
    ⟨.pseudoheader, 12, tcpHdrSize + dataLen⟩,
    ⟨.segment, 18, 2⟩
  ]

/-- `convert_to_ctcp`. -/
def Buffer.convertToCtcp (buf : Buffer) (src : Conn) : Conversion :=
  let segment := buf.received src
  let sum := cksum (segment.bytes.take buf.segmentLen.toNat)
  let correctSum := buf.zeroSum.cksumTcp buf.dataLen
  {
    segmentSize := buf.segmentLen.toNat
    pseudoheaderSize := tcpPseudohdrSize + buf.dataLen.toNat
    loads := buf.loads
    stores := buf.stores
    segment := { segment with cksum := sum + (correctSum - buf.thSum) }
  }

-----------------------------------------------------------------------------------------
-- What the headers delimit
-----------------------------------------------------------------------------------------

/-- The conversion respects the packet: it stays inside the received bytes and inside what it
allocated, and the data of the segment are the payload.
-/
structure DecodesPayload (actualLen : Nat) (buf : Buffer) (conversion : Conversion) : Prop where
  loads : ∀ access ∈ conversion.loads, access.Inside (conversion.size actualLen)
  stores : ∀ access ∈ conversion.stores, access.Inside (conversion.size actualLen)
  data : conversion.segment.data = buf.tcpPayload
  len : (ntohs conversion.segment.len).toNat = segHeaderSize + buf.tcpPayload.length

theorem Buffer.dataLen_toNat (buf : Buffer)
    : buf.dataLen.toNat = ((ntohs buf.totLen).toNat + 65496) % 65536 := by
  have bound := (ntohs buf.totLen).toNat_lt
  rw [dataLen, UInt16.toNat_sub, UInt16.toNat_ofNat', fullHdrSize]
  omega

theorem Buffer.segmentLen_toNat (buf : Buffer)
    : buf.segmentLen.toNat = (buf.dataLen.toNat + 20) % 65536 := by
  rw [segmentLen, UInt16.toNat_add, UInt16.toNat_ofNat', segHeaderSize]

/-- An access to at least one byte is inside when its end is. -/
theorem Access.inside_of_le {size : Block → Nat} {access : Access}
    (fits : access.start + access.length ≤ size access.block)
    : access.Inside size :=
  fun _ _ before => Nat.lt_of_lt_of_le before fits

theorem Access.inside_iff {size : Block → Nat} {access : Access} (some : 0 < access.length)
    : access.Inside size ↔ access.start + access.length ≤ size access.block := by
  refine ⟨fun inside => ?_, inside_of_le⟩
  have last := inside (access.start + access.length - 1) (by omega) (by omega)
  omega

/-- The lengths by which the code and the headers go are the same. -/
def Buffer.Plain (buf : Buffer) : Prop :=
  buf.payloadStart = fullHdrSize
  ∨ (ntohs buf.totLen).toNat = fullHdrSize ∧ fullHdrSize ≤ buf.payloadStart

/-- As many bytes lie behind forty as behind the headers exactly in a plain packet. -/
theorem Buffer.plain_iff {buf : Buffer} (full : fullHdrSize ≤ (ntohs buf.totLen).toNat)
    : buf.dataLen.toNat = (ntohs buf.totLen).toNat - buf.payloadStart ↔ buf.Plain := by
  have bound := (ntohs buf.totLen).toNat_lt
  have dataLen := buf.dataLen_toNat
  simp only [Plain, fullHdrSize] at *
  omega

/-- In a plain packet the data behind the forty header bytes are the payload. -/
theorem Buffer.tcpPayload_eq {buf : Buffer} (full : fullHdrSize ≤ (ntohs buf.totLen).toNat)
    (plain : buf.Plain)
    : buf.bytes fullHdrSize buf.dataLen.toNat = buf.tcpPayload := by
  rw [tcpPayload, (plain_iff full).mpr plain]
  rcases plain with start | ⟨whole, behind⟩
  · rw [start]
  · rw [whole, Nat.sub_eq_zero_of_le behind]
    rfl

/-- `convert_to_ctcp` respects a packet exactly when `tot_len` covers both headers and no more
than was received, and the headers have no options, or options but no payload.
-/
theorem convertToCtcp_decodesPayload_iff (src : Conn) (actualLen : Nat) (buf : Buffer)
    : DecodesPayload actualLen buf (buf.convertToCtcp src)
      ↔ fullHdrSize ≤ (ntohs buf.totLen).toNat
        ∧ (ntohs buf.totLen).toNat ≤ actualLen
        ∧ buf.Plain := by
  have dataLen := buf.dataLen_toNat
  have segmentLen := buf.segmentLen_toNat
  have bound := (ntohs buf.totLen).toNat_lt
  constructor
  · intro decodes
    have copied : (⟨.datagram, ipHdrSize, tcpHdrSize + buf.dataLen.toNat⟩ : Access).Inside _ :=
      decodes.loads _ (by simp [Buffer.convertToCtcp, Buffer.loads])
    have received := (Access.inside_iff (by simp [tcpHdrSize])).mp copied
    have counted := congrArg List.length decodes.data
    simp only [Buffer.convertToCtcp, Buffer.received, Buffer.tcpPayload, Buffer.length_bytes,
      Conversion.size, ipHdrSize, tcpHdrSize] at counted received
    have full : fullHdrSize ≤ (ntohs buf.totLen).toNat := by
      unfold fullHdrSize
      omega
    refine ⟨full, ?_, (Buffer.plain_iff full).mp counted⟩
    unfold fullHdrSize at full
    omega
  · rintro ⟨full, received, plain⟩
    have payload := Buffer.tcpPayload_eq full plain
    have length := congrArg List.length payload
    rw [Buffer.length_bytes] at length
    unfold fullHdrSize at full
    constructor
    · intro access member
      apply Access.inside_of_le
      simp only [Buffer.convertToCtcp, Buffer.loads, List.mem_cons, List.not_mem_nil, or_false,
        ipHdrSize, tcpHdrSize, tcpPseudohdrSize, fullHdrSize, uint16] at member
      rcases member with
        rfl | rfl | rfl | rfl | rfl | rfl | rfl | rfl | rfl | rfl | rfl | rfl | rfl <;>
        simp only [Conversion.size, Buffer.convertToCtcp, tcpPseudohdrSize] <;> omega
    · intro access member
      apply Access.inside_of_le
      simp only [Buffer.convertToCtcp, Buffer.stores, List.mem_cons, List.not_mem_nil, or_false,
        ipHdrSize, tcpHdrSize, segHeaderSize] at member
      rcases member with
        rfl | rfl | rfl | rfl | rfl | rfl | rfl | rfl | rfl | rfl | rfl | rfl | rfl | rfl | rfl <;>
        simp only [Conversion.size, Buffer.convertToCtcp, tcpPseudohdrSize] <;> omega
    · exact payload
    · simp only [Buffer.convertToCtcp, Buffer.received, ntohs_htons, segHeaderSize]
      omega

/-- A packet with twelve bytes of options and one byte of payload. -/
def optionsPacket : Buffer :=
  let packet : List UInt8 :=
    [0x45, 0, 0, 53] ++ List.replicate 28 0 ++ [0x80] ++ List.replicate 19 0 ++ [0x61]
  fun index => packet.getD index 0

/-- The options of a packet are taken for data. -/
theorem options_decoded_as_data
    : ¬ ∀ src actualLen buf,
        fullHdrSize ≤ actualLen → DecodesPayload actualLen buf (buf.convertToCtcp src) := by
  intro always
  have decodes := always { ipAddr := 2, port := 80, initSeqno := 5, theirInitSeqno := 7 } 53
    optionsPacket (by decide)
  have counted := congrArg List.length decodes.data
  simp only [Buffer.convertToCtcp, Buffer.received, Buffer.tcpPayload, Buffer.length_bytes]
    at counted
  exact absurd counted (by decide +kernel)

-----------------------------------------------------------------------------------------
-- Packets with nothing but the two headers and a payload
-----------------------------------------------------------------------------------------

/-- A packet lies in a buffer. -/
structure Buffer.Holds (buf : Buffer) (packet : Datagram) : Prop where
  totLen : buf.totLen = packet.totLen
  saddr : buf.saddr = packet.saddr
  daddr : buf.daddr = packet.daddr
  sport : buf.thSport = packet.sport
  dport : buf.thDport = packet.dport
  seq : buf.thSeq = packet.seq
  ack : buf.thAck = packet.ack
  off : buf (ipHdrSize + 12) = packet.off
  flags : buf.thFlags = packet.flags
  win : buf.thWin = packet.win
  sum : buf.thSum = packet.sum
  urp : buf.field16 (ipHdrSize + 18) = packet.urp
  payload : buf.bytes fullHdrSize packet.payload.length = packet.payload

/-- The fields of a segment, its padding apart. -/
def DecodedSegment.ofSegment (segment : Segment) : DecodedSegment where
  seqno := segment.seqno
  ackno := segment.ackno
  len := segment.len
  flags := segment.flags
  window := segment.window
  cksum := segment.cksum
  data := segment.data

theorem Buffer.bytes_add (buf : Buffer) (start first second : Nat)
    : buf.bytes start (first + second)
      = buf.bytes start first ++ buf.bytes (start + first) second := by
  rw [bytes, bytes, bytes, ← List.map_append, List.range'_append_1]

/-- The memory of a 16-bit field. -/
theorem Buffer.bytes_field16 (buf : Buffer) (index : Nat)
    : buf.bytes index 2 = fieldBytes16 (buf.field16 index) := by
  rw [field16, fieldBytes16_field16]
  rfl

/-- The memory of a 32-bit field. -/
theorem Buffer.bytes_field32 (buf : Buffer) (index : Nat)
    : buf.bytes index 4 = fieldBytes32 (buf.field32 index) := by
  rw [field32, fieldBytes32_field32]
  rfl

/-- A range without the checksum field does not change when the field is zeroed. -/
theorem Buffer.bytes_zeroSum {buf : Buffer} {start length : Nat}
    (outside : start + length ≤ ipHdrSize + 16 ∨ ipHdrSize + 18 ≤ start)
    : buf.zeroSum.bytes start length = buf.bytes start length := by
  apply List.map_congr_left
  intro index member
  have range := List.mem_range'_1.mp member
  rw [zeroSum, if_neg]
  omega

section Held

variable {buf : Buffer} {packet : Datagram}

/-- The TCP header and the payload of a held packet, its checksum field zeroed. -/
theorem Buffer.Holds.bytes_zeroSum (holds : buf.Holds packet)
    : buf.zeroSum.bytes ipHdrSize (tcpHdrSize + packet.payload.length)
      = fieldBytes16 packet.sport ++ fieldBytes16 packet.dport ++ fieldBytes32 packet.seq
          ++ fieldBytes32 packet.ack ++ [packet.off, packet.flags] ++ fieldBytes16 packet.win
          ++ fieldBytes16 0 ++ fieldBytes16 packet.urp ++ packet.payload := by
  have ports : buf.zeroSum.bytes ipHdrSize 16
      = fieldBytes16 packet.sport ++ fieldBytes16 packet.dport ++ fieldBytes32 packet.seq
          ++ fieldBytes32 packet.ack ++ [packet.off, packet.flags] ++ fieldBytes16 packet.win := by
    have fields : buf.bytes ipHdrSize 16
        = buf.bytes 20 2 ++ buf.bytes 22 2 ++ buf.bytes 24 4 ++ buf.bytes 28 4
            ++ [buf 32, buf 33] ++ buf.bytes 34 2 := rfl
    rw [Buffer.bytes_zeroSum (Or.inl (Nat.le_refl _)), fields, ← holds.sport, ← holds.dport,
      ← holds.seq, ← holds.ack, ← holds.off, ← holds.flags, ← holds.win]
    simp only [buf.bytes_field16, buf.bytes_field32]
    rfl
  have urp : buf.zeroSum.bytes (ipHdrSize + 16 + 2) 2 = fieldBytes16 packet.urp := by
    rw [Buffer.bytes_zeroSum (Or.inr (Nat.le_refl _)), ← holds.urp]
    exact buf.bytes_field16 _
  have payload
      : buf.zeroSum.bytes (ipHdrSize + 16 + 2 + 2) packet.payload.length = packet.payload := by
    rw [Buffer.bytes_zeroSum (Or.inr (Nat.le_add_right _ _))]
    exact holds.payload
  have sum : buf.zeroSum.bytes (ipHdrSize + 16) 2 = fieldBytes16 0 := rfl
  have sizes : tcpHdrSize + packet.payload.length = 16 + (2 + (2 + packet.payload.length)) := by
    rw [tcpHdrSize]
    omega
  rw [sizes, Buffer.bytes_add, Buffer.bytes_add, Buffer.bytes_add, ports, sum, urp, payload]
  simp only [List.append_assoc]

/-- The length of a held packet's payload. -/
theorem Buffer.Holds.dataLen (holds : buf.Holds packet)
    : buf.dataLen = .ofNat packet.payload.length ∧ buf.dataLen.toNat = packet.payload.length := by
  have sized := packet.sized
  have bound := (ntohs packet.totLen).toNat_lt
  have value := buf.dataLen_toNat
  rw [holds.totLen, sized] at value
  rw [sized] at bound
  unfold fullHdrSize at *
  have same : buf.dataLen.toNat = packet.payload.length := by omega
  exact ⟨by rw [← same, UInt16.ofNat_toNat], same⟩

/-- `cksum_tcp` sums a held packet whole. -/
theorem Buffer.Holds.cksumTcp (holds : buf.Holds packet)
    : buf.zeroSum.cksumTcp buf.dataLen = Ctcp.cksumTcp { packet with sum := 0 } := by
  have sized := packet.sized
  have bound := (ntohs packet.totLen).toNat_lt
  have saddr : buf.zeroSum.saddr = packet.saddr := holds.saddr
  have daddr : buf.zeroSum.daddr = packet.daddr := holds.daddr
  rw [sized, fullHdrSize] at bound
  have whole : uint16 (packet.payload.length + tcpPseudohdrSize : Nat)
      = packet.payload.length + 32 := by
    rw [tcpPseudohdrSize, uint16]
    omega
  rw [Buffer.cksumTcp, Ctcp.cksumTcp, holds.dataLen.2, whole, holds.bytes_zeroSum, saddr, daddr,
    List.take_of_length_le]
  · simp only [List.append_assoc, tcpHdrSize]
  · simp only [fieldBytes16, fieldBytes32, List.length_append, List.length_cons,
      List.length_nil]
    omega

/-- What `convert_to_ctcp` makes of a held packet in memory is the segment it makes of the
packet.
-/
theorem Buffer.Holds.convertToCtcp (holds : buf.Holds packet) (src : Conn)
    : (buf.convertToCtcp src).segment = .ofSegment (Ctcp.convertToCtcp src packet) := by
  have segmentLen : htons buf.segmentLen
      = htons (.ofNat (segHeaderSize + packet.payload.length)) := by
    rw [Buffer.segmentLen, holds.dataLen.1, ← UInt16.ofNat_add, Nat.add_comm]
  have data : buf.bytes fullHdrSize buf.dataLen.toNat = packet.payload := by
    rw [holds.dataLen.2, holds.payload]
  have received : buf.received src = .ofSegment (src.received packet) := by
    simp only [Buffer.received, DecodedSegment.ofSegment, Conn.received, holds.seq, holds.ack,
      holds.flags, holds.win, segmentLen, data]
  have bytes : (buf.received src).bytes.take buf.segmentLen.toNat
      = (src.received packet).bytes := by
    have length := (src.received packet).length_bytes
    have short := (src.received packet).length_bytes_le
    have whole := buf.segmentLen_toNat
    rw [holds.dataLen.2] at whole
    rw [received]
    apply List.take_of_length_le
    have same : (DecodedSegment.ofSegment (src.received packet)).bytes
        = (src.received packet).bytes := rfl
    rw [same, length, whole]
    simp only [Conn.received, segHeaderSize] at *
    omega
  simp only [Buffer.convertToCtcp, bytes, holds.cksumTcp, holds.sum]
  rw [received]
  rfl

end Held

end Networks.Ctcp
