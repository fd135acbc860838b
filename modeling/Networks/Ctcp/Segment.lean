import Networks.Library.ByteFields
import Networks.Library.MachineIntegers
import Networks.Library.OnesComplement

/-! The cTCP segment as it lies in memory, and its checksum.
Header fields keep the network byte order the source stores them in. The `len` field of a
segment always counts the header and the payload, because `ctcp_makeseg` and
`convert_to_ctcp` allocate exactly that many bytes.
-/

namespace Networks.Ctcp

open ByteFields MachineIntegers OnesComplement

/-- Exchange of the two bytes of a 16-bit value, on a little-endian host. -/
def htons (host : UInt16) : UInt16 :=
  .ofNat (host.toNat % 256 * 256 + host.toNat / 256)

/-- Reversal of the four bytes of a 32-bit value, on a little-endian host. -/
def htonl (host : UInt32) : UInt32 :=
  .ofNat
    (host.toNat % 256 * 16777216 + host.toNat / 256 % 256 * 65536
      + host.toNat / 65536 % 256 * 256 + host.toNat / 16777216)

/-- Byte swapping is its own inverse. -/
def ntohs (network : UInt16) : UInt16 := htons network

/-- Byte reversal is its own inverse. -/
def ntohl (network : UInt32) : UInt32 := htonl network

theorem htons_toNat (host : UInt16)
    : (htons host).toNat = host.toNat % 256 * 256 + host.toNat / 256 := by
  have bound := host.toNat_lt
  simp only [htons, UInt16.toNat_ofNat']
  omega

@[simp] theorem ntohs_htons (host : UInt16) : ntohs (htons host) = host := by
  have bound := host.toNat_lt
  apply UInt16.toNat_inj.mp
  rw [ntohs, htons_toNat, htons_toNat]
  omega

theorem htonl_toNat (host : UInt32)
    : (htonl host).toNat
      = host.toNat % 256 * 16777216 + host.toNat / 256 % 256 * 65536
        + host.toNat / 65536 % 256 * 256 + host.toNat / 16777216 := by
  have bound := host.toNat_lt
  simp only [htonl, UInt32.toNat_ofNat']
  omega

/-- Reversing the four bytes of a number twice restores it. Each division is settled with
only the facts it needs in context.
-/
private theorem reversed_bytes {value reversed byte0 byte1 byte2 byte3 : Nat}
    (bound0 : byte0 < 256) (bound1 : byte1 < 256) (bound2 : byte2 < 256)
    (bound3 : byte3 < 256)
    (bytes : value = byte0 + 256 * byte1 + 65536 * byte2 + 16777216 * byte3)
    (reversal
      : reversed = byte0 * 16777216 + byte1 * 65536 + byte2 * 256 + byte3)
    : reversed % 256 * 16777216 + reversed / 256 % 256 * 65536
        + reversed / 65536 % 256 * 256 + reversed / 16777216
      = value := by
  have low : reversed % 256 = byte3 := by omega
  have rest1 : reversed / 256 = byte0 * 65536 + byte1 * 256 + byte2 := by omega
  have rest2 : reversed / 65536 = byte0 * 256 + byte1 := by omega
  have rest3 : reversed / 16777216 = byte0 := by omega
  have second : reversed / 256 % 256 = byte2 := by
    clear bytes reversal low rest2 rest3
    omega
  have third : reversed / 65536 % 256 = byte1 := by
    clear bytes reversal low rest1 rest3 second
    omega
  rw [low, second, third, rest3]
  clear rest1 rest2 rest3 low second third
  omega

@[simp] theorem ntohl_htonl (host : UInt32) : ntohl (htonl host) = host := by
  have bound := host.toNat_lt
  apply UInt32.toNat_inj.mp
  rw [ntohl, htonl_toNat]
  exact reversed_bytes (by omega) (by omega) (by omega) (by omega) (by omega) (htonl_toNat host)

/-- Byte swapping loses nothing. -/
theorem htons_inj {left right : UInt16} : htons left = htons right ↔ left = right := by
  refine ⟨fun same => ?_, congrArg htons⟩
  simpa only [ntohs_htons] using congrArg ntohs same

-----------------------------------------------------------------------------------------
-- Segments
-----------------------------------------------------------------------------------------

/-- Size of the segment header, its two bytes of alignment included. -/
def segHeaderSize : Nat := 20

/-- Largest number of payload bytes put into one segment. -/
def maxSegDataSize : Nat := 1440

/-- Flag of a segment that ends the sender's stream. -/
def thFin : UInt32 := 0x01

/-- Flag of a segment that acknowledges. -/
def thAck : UInt32 := 0x10

/-- A segment object. `pad` is the gap the compiler leaves after `len`; `malloc` does not
initialise it and the checksum covers it.
-/
structure Segment where
  seqno : UInt32
  ackno : UInt32
  len : UInt16
  pad : UInt16
  flags : UInt32
  window : UInt16
  cksum : UInt16
  data : List UInt8
  sized : (ntohs len).toNat = segHeaderSize + data.length
  deriving DecidableEq

/-- `ntohl(segment->seqno)`. -/
def Segment.seq (segment : Segment) : Nat := (ntohl segment.seqno).toNat

/-- `ntohl(segment->ackno)`. -/
def Segment.ack (segment : Segment) : Nat := (ntohl segment.ackno).toNat

/-- `ntohs(segment->len) - SEG_HEADER_SIZE`. -/
def Segment.payloadSize (segment : Segment) : Nat :=
  (ntohs segment.len).toNat - segHeaderSize

/-- A sized segment's payload size is the size of its payload. -/
@[simp] theorem Segment.payloadSize_eq (segment : Segment)
    : segment.payloadSize = segment.data.length := by
  rw [payloadSize, segment.sized, Nat.add_sub_cancel_left]

/-- A segment has room for its 16-bit length. -/
theorem Segment.length_data_lt (segment : Segment) : segment.data.length < 65516 := by
  have bound := (ntohs segment.len).toNat_lt
  have sized := segment.sized
  unfold segHeaderSize at sized
  omega

theorem Segment.seq_lt (segment : Segment) : segment.seq < 4294967296 :=
  (ntohl segment.seqno).toNat_lt

/-- The two bytes of a 16-bit field in memory. -/
def fieldBytes16 (field : UInt16) : List UInt8 :=
  [.ofNat (field.toNat % 256), .ofNat (field.toNat / 256)]

/-- The four bytes of a 32-bit field in memory. -/
def fieldBytes32 (field : UInt32) : List UInt8 :=
  [
    .ofNat (field.toNat % 256),
    .ofNat (field.toNat / 256 % 256),
    .ofNat (field.toNat / 65536 % 256),
    .ofNat (field.toNat / 16777216)
  ]

/-- A field read from memory has the bytes it was read from. -/
theorem fieldBytes16_field16 (low high : UInt8)
    : fieldBytes16 (field16 low high) = [low, high] := by
  have lowBound := low.toNat_lt
  have value := field16_toNat low high
  have first : (field16 low high).toNat % 256 = low.toNat := by omega
  have second : (field16 low high).toNat / 256 = high.toNat := by omega
  rw [fieldBytes16, first, second, UInt8.ofNat_toNat, UInt8.ofNat_toNat]

theorem fieldBytes32_field32 (byte0 byte1 byte2 byte3 : UInt8)
    : fieldBytes32 (field32 byte0 byte1 byte2 byte3) = [byte0, byte1, byte2, byte3] := by
  have bound0 := byte0.toNat_lt
  have bound1 := byte1.toNat_lt
  have bound2 := byte2.toNat_lt
  have value := field32_toNat byte0 byte1 byte2 byte3
  have first : (field32 byte0 byte1 byte2 byte3).toNat % 256 = byte0.toNat := by omega
  have second : (field32 byte0 byte1 byte2 byte3).toNat / 256 % 256 = byte1.toNat := by omega
  have third : (field32 byte0 byte1 byte2 byte3).toNat / 65536 % 256 = byte2.toNat := by omega
  have fourth : (field32 byte0 byte1 byte2 byte3).toNat / 16777216 = byte3.toNat := by omega
  rw [fieldBytes32, first, second, third, fourth, UInt8.ofNat_toNat, UInt8.ofNat_toNat,
    UInt8.ofNat_toNat, UInt8.ofNat_toNat]

/-- The header bytes in front of the checksum field. -/
def Segment.headerBytes (segment : Segment) : List UInt8 :=
  fieldBytes32 segment.seqno ++ fieldBytes32 segment.ackno ++ fieldBytes16 segment.len
    ++ fieldBytes16 segment.pad ++ fieldBytes32 segment.flags ++ fieldBytes16 segment.window

/-- The `len` bytes of a segment in memory. -/
def Segment.bytes (segment : Segment) : List UInt8 :=
  segment.headerBytes ++ (fieldBytes16 segment.cksum ++ segment.data)

theorem Segment.length_bytes (segment : Segment)
    : segment.bytes.length = segHeaderSize + segment.data.length := by
  simp only [bytes, headerBytes, fieldBytes16, fieldBytes32, List.length_append,
    List.length_cons, List.length_nil, segHeaderSize]
  omega

/-- The bytes of a segment fit the 16-bit length that `cksum` takes. -/
theorem Segment.length_bytes_le (segment : Segment) : segment.bytes.length ≤ 65535 := by
  have dataBound := segment.length_data_lt
  simp only [bytes, headerBytes, fieldBytes16, fieldBytes32, List.length_append,
    List.length_cons, List.length_nil]
  omega

-----------------------------------------------------------------------------------------
-- The checksum
-----------------------------------------------------------------------------------------

/-- The summing loop of `cksum`, in a 32-bit accumulator, with the last odd byte. -/
def cksumLoop (sum : Nat) : List UInt8 → Nat
  | high :: low :: rest => cksumLoop ((sum + (high.toNat * 256 + low.toNat)) % 4294967296) rest
  | [high] => (sum + high.toNat * 256) % 4294967296
  | [] => sum

/-- `cksum`: the folded sum complemented in 16 bits, in network order, never zero. -/
def cksum (data : List UInt8) : UInt16 :=
  let sum := foldCarries 2 (cksumLoop 0 data)
  let complemented := htons (.ofNat (65535 - sum % 65536))
  if complemented ≠ 0 then complemented else 0xffff

/-- The segment with its checksum field zeroed, as `checksum` leaves it. -/
def Segment.cleared (segment : Segment) : Segment :=
  { segment with cksum := htons 0 }

@[simp] theorem Segment.cleared_data (segment : Segment)
    : segment.cleared.data = segment.data := by
  simp only [cleared]

@[simp] theorem Segment.cleared_flags (segment : Segment)
    : segment.cleared.flags = segment.flags := by
  simp only [cleared]

@[simp] theorem Segment.cleared_window (segment : Segment)
    : segment.cleared.window = segment.window := by
  simp only [cleared]

@[simp] theorem Segment.cleared_seq (segment : Segment)
    : segment.cleared.seq = segment.seq := by
  simp only [seq, cleared]

@[simp] theorem Segment.cleared_ack (segment : Segment)
    : segment.cleared.ack = segment.ack := by
  simp only [ack, cleared]

@[simp] theorem Segment.cleared_headerBytes (segment : Segment)
    : segment.cleared.headerBytes = segment.headerBytes := by
  simp only [cleared, headerBytes]

/-- `checksum`: the field agrees with the sum over the segment with the field zeroed. -/
def checksum (segment : Segment) : Bool :=
  segment.cksum == cksum segment.cleared.bytes

/-- The accumulator does not overflow on as many bytes as a 16-bit length can count.
Witness: induction on the words with the bound on the sum still to come.
-/
theorem cksumLoop_eq {sum : Nat} {data : List UInt8}
    (bound : sum + (data.length + 1) / 2 * 65535 < 4294967296)
    : cksumLoop sum data = sum + wordSum data := by
  fun_induction cksumLoop sum data with
  | case1 sum high low rest ih =>
      have highBound := high.toNat_lt
      have lowBound := low.toNat_lt
      simp only [List.length_cons] at bound
      have noWrap : (sum + (high.toNat * 256 + low.toNat)) % 4294967296
          = sum + (high.toNat * 256 + low.toNat) := by omega
      rw [noWrap] at ih ⊢
      rw [ih (by omega), wordSum]
      omega
  | case2 sum high =>
      have highBound := high.toNat_lt
      simp only [List.length_singleton] at bound
      rw [wordSum]
      omega
  | case3 sum => simp [wordSum]

/-- `cksum` is the one's complement of the word sum, byte-swapped. -/
theorem cksum_eq {data : List UInt8} (bound : data.length ≤ 65535)
    : cksum data = htons (.ofNat (complement (wordSum data))) := by
  have sumBound : wordSum data < 4294967296 := by
    have le := wordSum_le data
    omega
  have folded := foldCarries_le sumBound
  have value : (65535 - foldCarries 2 (wordSum data) % 65536)
      = 65535 - foldCarries 2 (wordSum data) := by omega
  simp only [cksum]
  rw [cksumLoop_eq (by omega), Nat.zero_add, value, complement]
  by_cases full : foldCarries 2 (wordSum data) = 65535
  · rw [if_pos full, full]
    decide
  · rw [if_neg full, if_pos]
    intro zero
    have same := congrArg UInt16.toNat zero
    rw [htons_toNat, UInt16.toNat_ofNat'] at same
    simp only [UInt16.toNat_zero] at same
    omega

/-- `cksum` is never zero, so a zero field marks a segment that was not stamped yet. -/
theorem cksum_ne_zero {data : List UInt8} : cksum data ≠ 0 := by
  simp only [cksum]
  split
  · assumption
  · decide

/-- Two strings have the same `cksum` exactly when their word sums agree modulo 65535. -/
theorem cksum_eq_cksum {left right : List UInt8} (leftBound : left.length ≤ 65535)
    (rightBound : right.length ≤ 65535)
    : cksum left = cksum right ↔ wordSum left % 65535 = wordSum right % 65535 := by
  have leftSum : wordSum left < 4294967296 := by
    have le := wordSum_le left
    omega
  have rightSum : wordSum right < 4294967296 := by
    have le := wordSum_le right
    omega
  have leftLe := complement_le leftSum
  have rightLe := complement_le rightSum
  rw [cksum_eq leftBound, cksum_eq rightBound, htons_inj, ← complement_inj leftSum rightSum,
    ← UInt16.toNat_inj, UInt16.toNat_ofNat', UInt16.toNat_ofNat']
  omega

/-- A 16-bit field contributes its host-order value. -/
theorem wordSum_fieldBytes16 (field : UInt16)
    : wordSum (fieldBytes16 field) = (ntohs field).toNat := by
  have bound := field.toNat_lt
  simp only [fieldBytes16, wordSum, UInt8.toNat_ofNat', ntohs, htons_toNat]
  omega

/-- The checksum field contributes its host-order value to the sum of a segment. -/
theorem Segment.wordSum_bytes (segment : Segment)
    : wordSum segment.bytes
      = wordSum segment.headerBytes + (ntohs segment.cksum).toNat + wordSum segment.data := by
  rw [bytes, wordSum_append _ _ (by simp [headerBytes, fieldBytes16, fieldBytes32]),
    wordSum_append _ _ (by simp [fieldBytes16]), wordSum_fieldBytes16]
  omega

/-- A segment is accepted exactly when its field is not zero and its bytes add up to a
multiple of 65535.
-/
theorem checksum_iff (segment : Segment)
    : checksum segment = true ↔ segment.cksum ≠ 0 ∧ wordSum segment.bytes % 65535 = 0 := by
  have sumBound : wordSum segment.cleared.bytes < 4294967296 := by
    have le := wordSum_le segment.cleared.bytes
    have short := segment.cleared.length_bytes_le
    omega
  have clearedField : (ntohs segment.cleared.cksum).toNat = 0 := by simp [Segment.cleared]
  have cleared : wordSum segment.cleared.bytes
      = wordSum segment.headerBytes + wordSum segment.data := by
    rw [Segment.wordSum_bytes, clearedField, Segment.cleared_headerBytes, Segment.cleared_data,
      Nat.add_zero]
  have field : segment.cksum = htons (ntohs segment.cksum) := (ntohs_htons segment.cksum).symm
  have zero : segment.cksum = 0 ↔ (ntohs segment.cksum).toNat = 0 := by
    rw [← UInt16.toNat_inj, ntohs, htons_toNat]
    simp only [UInt16.toNat_zero]
    omega
  have fieldBound := (ntohs segment.cksum).toNat_lt
  rw [checksum, beq_iff_eq, cksum_eq segment.cleared.length_bytes_le, field, htons_inj,
    ← UInt16.toNat_inj, UInt16.toNat_ofNat', complement_eq sumBound, ← field, ne_eq, zero,
    segment.wordSum_bytes]
  omega

/-- Summing a segment over its own checksum field gives the right checksum exactly when
that field is a one's-complement zero. Witness: the field is the only summand that differs.
-/
theorem Segment.cksum_bytes_eq_cleared (segment : Segment)
    : Ctcp.cksum segment.bytes = Ctcp.cksum segment.cleared.bytes
      ↔ segment.cksum = 0 ∨ segment.cksum = 0xffff := by
  have fieldBound := segment.cksum.toNat_lt
  have clearedField : (ntohs segment.cleared.cksum).toNat = 0 := by simp [cleared]
  rw [cksum_eq_cksum segment.length_bytes_le segment.cleared.length_bytes_le, wordSum_bytes,
    wordSum_bytes, clearedField, cleared_headerBytes, cleared_data, ← UInt16.toNat_inj,
    ← UInt16.toNat_inj, ntohs, htons_toNat]
  simp only [UInt16.toNat_zero, UInt16.reduceToNat]
  omega

end Networks.Ctcp
