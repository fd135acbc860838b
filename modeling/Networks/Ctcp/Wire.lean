import Networks.Ctcp.Segment

/-! Segments on the wire. Definitions follow `cksum_tcp`, `convert_to_datagram` and
`convert_to_ctcp`: a segment travels as the payload of a TCP packet whose checksum is off by
as much as the checksum of the segment was.
-/

namespace Networks.Ctcp

open ByteFields MachineIntegers OnesComplement

/-- Size of the IP header and the TCP header of a packet. -/
def fullHdrSize : Nat := 40

/-- The fields of an IP packet that conversion reads, in network byte order, and its
payload. `off` is the byte of `th_x2` and `th_off`.
-/
structure Datagram where
  totLen : UInt16
  saddr : UInt32
  daddr : UInt32
  sport : UInt16
  dport : UInt16
  seq : UInt32
  ack : UInt32
  off : UInt8
  flags : UInt8
  win : UInt16
  sum : UInt16
  urp : UInt16
  payload : List UInt8
  sized : (ntohs totLen).toNat = fullHdrSize + payload.length
  deriving DecidableEq

/-- `cksum_tcp`: the checksum of the pseudo header, the TCP header and the payload. -/
def cksumTcp (packet : Datagram) : UInt16 :=
  cksum
    (fieldBytes32 packet.saddr ++ fieldBytes32 packet.daddr ++ [0, 6]
      ++ fieldBytes16 (htons (.ofNat (20 + packet.payload.length)))
      ++ fieldBytes16 packet.sport ++ fieldBytes16 packet.dport
      ++ fieldBytes32 packet.seq ++ fieldBytes32 packet.ack ++ [packet.off, packet.flags]
      ++ fieldBytes16 packet.win ++ fieldBytes16 packet.sum ++ fieldBytes16 packet.urp
      ++ packet.payload)

/-- `config`, as far as conversion reads it, with the two globals that tell the web from
another cTCP host.
-/
structure Host where
  ipAddr : UInt32
  port : UInt16
  runProgram : Bool
  unixSocket : Bool

/-- `conn_t`, as far as conversion reads it. -/
structure Conn where
  ipAddr : UInt32
  port : UInt16
  initSeqno : UInt32
  theirInitSeqno : UInt32

/-- `MAX_NUM_CLIENTS`. -/
def maxNumClients : Nat := 10

-----------------------------------------------------------------------------------------
-- Conversion
-----------------------------------------------------------------------------------------

/-- `tcp_hdr->th_flags`: the low byte of the flags, with an ACK towards the web. -/
def Host.thFlags (config : Host) (segment : Segment) : UInt8 :=
  if !config.runProgram && !config.unixSocket then
    segment.flags.toUInt8 ||| 0x10
  else
    segment.flags.toUInt8

/-- `convert_to_datagram`. Nothing is sent when the length of the packet overflows the 16
bits it is computed in.
-/
def convertToDatagram (config : Host) (dst : Conn) (segment : Segment) : Option Datagram :=
  if fits : fullHdrSize + segment.data.length < 65536 then
    let packet : Datagram := {
      totLen := htons (.ofNat (fullHdrSize + segment.data.length))
      saddr := config.ipAddr
      daddr := dst.ipAddr
      sport := htons config.port
      dport := htons dst.port
      seq := htonl (ntohl segment.seqno + dst.initSeqno)
      ack := htonl (ntohl segment.ackno + dst.theirInitSeqno)
      off := 0x50
      flags := config.thFlags segment
      win := segment.window
      sum := 0
      urp := 0
      payload := segment.data
      sized := by
        rw [ntohs_htons, UInt16.toNat_ofNat', Nat.mod_eq_of_lt fits]
    }
    let correctSum := cksum segment.cleared.bytes
    some { packet with sum := cksumTcp packet + (correctSum - segment.cksum) }
  else
    none

/-- The length of the payload fits into the length field of a segment. -/
theorem Datagram.lengthReceived (packet : Datagram)
    : (ntohs (htons (.ofNat (segHeaderSize + packet.payload.length)))).toNat
      = segHeaderSize + packet.payload.length := by
  have bound := (ntohs packet.totLen).toNat_lt
  have sized := packet.sized
  unfold fullHdrSize at sized
  simp only [ntohs_htons, UInt16.toNat_ofNat', segHeaderSize]
  omega

/-- The segment `convert_to_ctcp` allocates and fills, with its checksum still zero. -/
def Conn.received (src : Conn) (packet : Datagram) : Segment where
  seqno := htonl (ntohl packet.seq - src.theirInitSeqno)
  ackno := htonl (ntohl packet.ack - src.initSeqno)
  len := htons (.ofNat (segHeaderSize + packet.payload.length))
  pad := 0
  flags := packet.flags.toUInt32
  window := packet.win
  cksum := 0
  data := packet.payload
  sized := packet.lengthReceived

/-- `convert_to_ctcp`. -/
def convertToCtcp (src : Conn) (packet : Datagram) : Segment :=
  let segment := src.received packet
  let correctSum := cksumTcp { packet with sum := 0 }
  { segment with cksum := cksum segment.bytes + (correctSum - packet.sum) }

-----------------------------------------------------------------------------------------
-- What the other end receives
-----------------------------------------------------------------------------------------

/-- The two ends agree on their initial sequence numbers. -/
structure Connected (sender receiver : Conn) : Prop where
  seqno : sender.initSeqno = receiver.theirInitSeqno
  ackno : sender.theirInitSeqno = receiver.initSeqno

/-- `arrived` is `segment` but for its padding and the high bytes of its flags, and it may
acknowledge where `segment` does not.
-/
structure SameSegment (segment arrived : Segment) : Prop where
  seq : arrived.seq = segment.seq
  ack : arrived.ack = segment.ack
  window : arrived.window = segment.window
  data : arrived.data = segment.data
  valid : checksum arrived = checksum segment
  fin : arrived.flags &&& thFin = segment.flags &&& thFin
  acknowledges : segment.flags &&& thAck ≠ 0 → arrived.flags &&& thAck ≠ 0

theorem SameSegment.refl (segment : Segment) : SameSegment segment segment :=
  ⟨rfl, rfl, rfl, rfl, rfl, rfl, id⟩

/-- A mask of the low byte sees the same bits in a value and in its low byte. -/
private theorem lowByte_and (value mask : UInt32) (low : mask.toNat < 256)
    : value.toUInt8.toUInt32 &&& mask = value &&& mask := by
  have masked : value.toNat &&& mask.toNat < 256 := Nat.lt_of_le_of_lt Nat.and_le_right low
  have lowBits := Nat.and_mod_two_pow (a := value.toNat) (b := mask.toNat) (n := 8)
  simp only [Nat.reducePow] at lowBits
  rw [Nat.mod_eq_of_lt masked, Nat.mod_eq_of_lt low] at lowBits
  apply UInt32.toNat_inj.mp
  simp only [UInt32.toNat_and, UInt8.toNat_toUInt32, UInt32.toNat_toUInt8]
  exact lowBits.symm

private theorem or_and_mask (left right mask : UInt32)
    : (left ||| right) &&& mask = (left &&& mask) ||| (right &&& mask) := by
  apply UInt32.toBitVec_inj.mp
  simp only [UInt32.toBitVec_and, UInt32.toBitVec_or]
  ext i inside
  simp only [BitVec.getElem_and, BitVec.getElem_or, Bool.and_or_distrib_right]

/-- The FIN flag travels unchanged. -/
theorem Host.thFlags_thFin (config : Host) (segment : Segment)
    : (config.thFlags segment).toUInt32 &&& thFin = segment.flags &&& thFin := by
  have same := lowByte_and segment.flags thFin (by decide)
  unfold thFlags
  split
  · have noFin : UInt8.toUInt32 0x10 &&& thFin = 0 := by decide
    rw [UInt8.toUInt32_or, or_and_mask, same, noFin, UInt32.or_zero]
  · exact same

/-- An ACK flag is never lost. -/
theorem Host.thFlags_thAck (config : Host) {segment : Segment}
    (acknowledges : segment.flags &&& thAck ≠ 0)
    : (config.thFlags segment).toUInt32 &&& thAck ≠ 0 := by
  have same := lowByte_and segment.flags thAck (by decide)
  unfold thFlags
  split
  · rw [UInt8.toUInt32_or, or_and_mask, same, ne_eq, UInt32.or_eq_zero_iff]
    exact fun zero => acknowledges zero.1
  · rw [same]
    exact acknowledges

/-- What conversion adds to a TCP checksum, it takes off again. -/
private theorem sum_difference (tcp correct sum : UInt16)
    : tcp - (tcp + (correct - sum)) = sum - correct := by
  grind

/-- The checksum field that arrives is off by as much as the one that was sent. -/
theorem convertToCtcp_cksum {config : Host} {dst : Conn} (src : Conn) {segment : Segment}
    {packet : Datagram} (converted : convertToDatagram config dst segment = some packet)
    : (convertToCtcp src packet).cksum
      = cksum (src.received packet).bytes
        + (segment.cksum - cksum segment.cleared.bytes) := by
  unfold convertToDatagram at converted
  split at converted
  · obtain rfl := Option.some.inj converted
    simp only [convertToCtcp, sum_difference]
  · cases converted

/-- The decoded segment, its checksum field zeroed, is what `convert_to_ctcp` summed. -/
theorem convertToCtcp_cleared (src : Conn) (packet : Datagram)
    : (convertToCtcp src packet).cleared = src.received packet := by
  simp only [convertToCtcp, Segment.cleared, Conn.received]
  rfl

/-- The receiver accepts exactly the segments that the sender summed right. -/
theorem checksum_convertToCtcp {config : Host} {dst : Conn} (src : Conn) {segment : Segment}
    {packet : Datagram} (converted : convertToDatagram config dst segment = some packet)
    : checksum (convertToCtcp src packet) = checksum segment := by
  have field := convertToCtcp_cksum src converted
  simp only [checksum, convertToCtcp_cleared, field]
  rw [Bool.eq_iff_iff, beq_iff_eq, beq_iff_eq]
  grind

/-- The fields of a packet that carry a segment. -/
structure Carries (config : Host) (dst : Conn) (segment : Segment) (packet : Datagram)
    : Prop where
  seq : packet.seq = htonl (ntohl segment.seqno + dst.initSeqno)
  ack : packet.ack = htonl (ntohl segment.ackno + dst.theirInitSeqno)
  flags : packet.flags = config.thFlags segment
  win : packet.win = segment.window
  payload : packet.payload = segment.data

theorem convertToDatagram_carries {config : Host} {dst : Conn} {segment : Segment}
    {packet : Datagram} (converted : convertToDatagram config dst segment = some packet)
    : Carries config dst segment packet := by
  unfold convertToDatagram at converted
  split at converted
  · obtain rfl := Option.some.inj converted
    exact ⟨rfl, rfl, rfl, rfl, rfl⟩
  · cases converted

/-- Between connected ends a segment arrives as it was sent, whatever its checksum. -/
theorem convertToCtcp_same {config : Host} {dst src : Conn} {segment : Segment}
    {packet : Datagram} (connected : Connected dst src)
    (converted : convertToDatagram config dst segment = some packet)
    : SameSegment segment (convertToCtcp src packet) := by
  obtain ⟨seq, ack, flags, win, payload⟩ := convertToDatagram_carries converted
  refine ⟨?_, ?_, ?_, ?_, checksum_convertToCtcp src converted, ?_, ?_⟩ <;>
    simp only [Segment.seq, Segment.ack, convertToCtcp, Conn.received, ntohl_htonl]
  · rw [seq, ntohl_htonl, connected.seqno, UInt32.add_sub_cancel]
  · rw [ack, ntohl_htonl, connected.ackno, UInt32.add_sub_cancel]
  · exact win
  · exact payload
  · rw [flags]
    exact config.thFlags_thFin segment
  · rw [flags]
    exact config.thFlags_thAck

/-- Every segment with at most 1440 bytes of payload has a datagram. -/
theorem convertToDatagram_isSome (config : Host) (dst : Conn) {segment : Segment}
    (short : segment.data.length ≤ maxSegDataSize)
    : ∃ packet, convertToDatagram config dst segment = some packet := by
  unfold maxSegDataSize at short
  have fits : fullHdrSize + segment.data.length < 65536 := by
    unfold fullHdrSize
    omega
  exact ⟨_, dif_pos fits⟩

-----------------------------------------------------------------------------------------
-- Corruption
-----------------------------------------------------------------------------------------

/-- `flipbit`. -/
def flipbit (segment : List UInt8) (bit : Nat) : List UInt8 :=
  flipBit bit segment

/-- The copy in which `conn_send` flips a bit behind the flags: `window`, `cksum` and the
data are what the flipped memory holds.
-/
def Segment.corrupted (segment : Segment) (bit : Nat) : Segment :=
  let flipped := flipbit segment.bytes bit
  { segment with
    window := shortAt flipped 16
    cksum := shortAt flipped 18
    data := flipped.drop segHeaderSize
    sized := by
      simp only [flipped, flipbit, flipBit, List.length_drop, List.length_modify,
        segment.length_bytes, segment.sized, Nat.add_sub_cancel_left] }

/-- The memory behind the flags is the window, the checksum field and the data. -/
theorem drop_flags {bytes : List UInt8} (long : segHeaderSize ≤ bytes.length)
    : fieldBytes16 (shortAt bytes 16)
        ++ (fieldBytes16 (shortAt bytes 18) ++ bytes.drop segHeaderSize)
      = bytes.drop 16 := by
  unfold segHeaderSize at *
  have inside : ∀ index < 20, byteAt bytes index :: bytes.drop (index + 1) = bytes.drop index := by
    intro index small
    have bound : index < bytes.length := by omega
    rw [List.drop_eq_getElem_cons bound, byteAt, List.getD_eq_getElem?_getD,
      List.getElem?_eq_getElem bound, Option.getD_some]
  rw [shortAt, shortAt, fieldBytes16_field16, fieldBytes16_field16]
  simp only [List.cons_append, List.nil_append]
  rw [inside 19 (by omega), inside 18 (by omega), inside 17 (by omega), inside 16 (by omega)]

/-- The first sixteen bytes of a segment: everything up to its flags. -/
def Segment.flagBytes (segment : Segment) : List UInt8 :=
  fieldBytes32 segment.seqno ++ fieldBytes32 segment.ackno ++ fieldBytes16 segment.len
    ++ fieldBytes16 segment.pad ++ fieldBytes32 segment.flags

theorem Segment.take_bytes (segment : Segment) : segment.bytes.take 16 = segment.flagBytes := by
  have sixteen : segment.flagBytes.length = 16 := rfl
  rw [bytes, headerBytes, ← flagBytes, List.append_assoc, ← sixteen, List.take_left]

/-- Flipping a bit behind the flags is flipping it in memory. -/
theorem Segment.corrupted_bytes (segment : Segment) {bit : Nat} (behind : 128 ≤ bit)
    : (segment.corrupted bit).bytes = flipbit segment.bytes bit := by
  have long : segHeaderSize ≤ (flipbit segment.bytes bit).length := by
    rw [flipbit, flipBit, List.length_modify, segment.length_bytes]
    omega
  have header : (flipbit segment.bytes bit).take 16 = segment.flagBytes := by
    rw [flipbit, flipBit, List.take_modify, segment.take_bytes,
      List.modify_eq_self]
    have : segment.flagBytes.length = 16 := rfl
    omega
  have whole := List.take_append_drop 16 (flipbit segment.bytes bit)
  rw [header, ← drop_flags long] at whole
  rw [← whole, bytes, headerBytes, flagBytes]
  simp only [corrupted, List.append_assoc]

theorem Segment.corrupted_length (segment : Segment) (bit : Nat)
    : (segment.corrupted bit).data.length = segment.data.length := by
  simp only [corrupted, flipbit, flipBit, List.length_drop, List.length_modify,
    segment.length_bytes, Nat.add_sub_cancel_left]

/-- A valid segment is not valid any more once a bit behind its flags is flipped: its bytes
then add up to something one bit apart from a multiple of 65535.
-/
theorem checksum_corrupted (segment : Segment) {bit : Nat} (behind : 128 ≤ bit)
    (inside : bit < 8 * segment.bytes.length) (valid : checksum segment = true)
    : checksum (segment.corrupted bit) = false := by
  have apart := (wordSum_flipBit inside).mod_ne
  rw [← flipbit, ← segment.corrupted_bytes behind, ((checksum_iff segment).mp valid).2] at apart
  rw [Bool.eq_false_iff]
  exact fun accepted => apart ((checksum_iff _).mp accepted).2

/-- Whatever the connection parameters, the receiver accepts a decoded segment exactly when
the sender summed it right, and rejects it when `conn_send` flips a bit of a valid segment.
-/
theorem datagram_transports_validity (config : Host) (dst src : Conn) (segment : Segment)
    (short : segment.data.length ≤ maxSegDataSize)
    : (∃ packet,
        convertToDatagram config dst segment = some packet
        ∧ (checksum (convertToCtcp src packet) = true
          ↔ segment.cksum = cksum segment.cleared.bytes))
      ∧ (segment.cksum = cksum segment.cleared.bytes
        → ∀ bit, 128 ≤ bit → bit < 8 * (ntohs segment.len).toNat
        → ∃ packet,
            convertToDatagram config dst (segment.corrupted bit) = some packet
            ∧ checksum (convertToCtcp src packet) = false) := by
  constructor
  · obtain ⟨packet, converted⟩ := convertToDatagram_isSome config dst short
    refine ⟨packet, converted, ?_⟩
    rw [checksum_convertToCtcp src converted, checksum, beq_iff_eq]
  · intro summed bit behind inside
    have valid : checksum segment = true := by rw [checksum, beq_iff_eq, summed]
    rw [segment.sized, ← segment.length_bytes] at inside
    have stillShort : (segment.corrupted bit).data.length ≤ maxSegDataSize := by
      rw [segment.corrupted_length]
      exact short
    obtain ⟨packet, converted⟩ := convertToDatagram_isSome config dst stillShort
    refine ⟨packet, converted, ?_⟩
    rw [checksum_convertToCtcp src converted]
    exact checksum_corrupted segment behind inside valid

/-- A segment of one byte, with its checksum. -/
def oneByteSegment : Segment where
  seqno := htonl 1
  ackno := htonl 1
  len := htons 21
  pad := 0
  flags := thAck
  window := htons 1440
  cksum := 18569
  data := [0x61]
  sized := by decide

/-- Towards a peer with other initial sequence numbers, a valid segment is accepted, and
rejected once the lowest bit of its only byte is flipped.
-/
theorem datagram_transports_validity_oneByte
    : let config : Host := { ipAddr := 1, port := 9999, runProgram := false, unixSocket := true }
      let dst : Conn := { ipAddr := 2, port := 80, initSeqno := 5, theirInitSeqno := 4294967295 }
      (∃ packet,
        convertToDatagram config dst oneByteSegment = some packet
        ∧ (checksum (convertToCtcp dst packet) = true
          ↔ oneByteSegment.cksum = cksum oneByteSegment.cleared.bytes))
      ∧ ∃ packet,
          convertToDatagram config dst (oneByteSegment.corrupted 160) = some packet
          ∧ checksum (convertToCtcp dst packet) = false := by
  intro config dst
  have transported := datagram_transports_validity config dst dst oneByteSegment (by decide)
  exact ⟨transported.1, transported.2 (by decide +kernel) 160 (by decide) (by decide)⟩

end Networks.Ctcp
