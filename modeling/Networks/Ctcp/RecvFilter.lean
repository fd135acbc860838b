import Networks.Ctcp.Wire

/-! Which packets reach a connection. `recv_filter` looks at the packet as it lies in the
receive buffer, and compares its sequence numbers with the initial ones of each connection as
plain 32-bit numbers.
-/

namespace Networks.Ctcp

-----------------------------------------------------------------------------------------
-- Packets in a buffer
-----------------------------------------------------------------------------------------

/-- The memory from the start of a receive buffer on. What `recv` did not fill is arbitrary. -/
abbrev Buffer := Nat → UInt8

/-- The bytes from `start` on. -/
def Buffer.bytes (buf : Buffer) (start length : Nat) : List UInt8 :=
  (List.range' start length).map buf

@[simp] theorem Buffer.length_bytes (buf : Buffer) (start length : Nat)
    : (buf.bytes start length).length = length := by
  rw [bytes, List.length_map, List.length_range']

/-- A 16-bit field, in the byte order it is stored in. -/
def Buffer.field16 (buf : Buffer) (index : Nat) : UInt16 :=
  ByteFields.field16 (buf index) (buf (index + 1))

/-- A 32-bit field, in the byte order it is stored in. -/
def Buffer.field32 (buf : Buffer) (index : Nat) : UInt32 :=
  ByteFields.field32 (buf index) (buf (index + 1)) (buf (index + 2)) (buf (index + 3))

/-- Length of the IP header, and where `recv_filter` and `convert_to_ctcp` expect the TCP
header.
-/
def ipHdrSize : Nat := 20

/-- `ip_hdr->saddr`. -/
def Buffer.saddr (buf : Buffer) : UInt32 := buf.field32 12

/-- `tcp_hdr->th_sport`. -/
def Buffer.thSport (buf : Buffer) : UInt16 := buf.field16 ipHdrSize

/-- `tcp_hdr->th_dport`. -/
def Buffer.thDport (buf : Buffer) : UInt16 := buf.field16 (ipHdrSize + 2)

/-- `tcp_hdr->th_seq`. -/
def Buffer.thSeq (buf : Buffer) : UInt32 := buf.field32 (ipHdrSize + 4)

/-- `tcp_hdr->th_ack`. -/
def Buffer.thAck (buf : Buffer) : UInt32 := buf.field32 (ipHdrSize + 8)

/-- `tcp_hdr->th_flags`. -/
def Buffer.thFlags (buf : Buffer) : UInt8 := buf (ipHdrSize + 13)

-----------------------------------------------------------------------------------------
-- The filter
-----------------------------------------------------------------------------------------

/-- Flag of a packet that opens a connection. -/
def thSyn : UInt8 := 0x02

/-- Flag of a packet that resets a connection. -/
def thRst : UInt8 := 0x04

/-- How `recv_filter` ends. `rconn` is the list from the connection on that `*rconn` is set
to, and empty if it is not set.
-/
inductive Filtered
  | failed
  | dropped
  | exit
  | passed (length : Nat) (rconn : List Conn)

/-- The condition of the loop of `recv_filter`. -/
def Conn.accepts (config : Host) (buf : Buffer) (conn : Conn) : Bool :=
  conn.port = ntohs buf.thSport
  ∧ (config.unixSocket ∨ ¬ config.unixSocket ∧ conn.ipAddr = buf.saddr)
  ∧ ntohl buf.thSeq ≥ conn.theirInitSeqno
  ∧ ntohl buf.thAck ≥ conn.initSeqno

/-- The loop of `recv_filter` from a connection on. -/
def filterLoop (config : Host) (buf : Buffer) (length : Nat) : List Conn → Filtered
  | [] => .dropped
  | conn :: next =>
      if conn.accepts config buf then
        .passed length (conn :: next)
      else
        filterLoop config buf length next

/-- `recv_filter`, with the result of `recv` and what it left in the buffer. -/
def recvFilter (config : Host) (connections : List Conn) (received : Option Nat)
    (buf : Buffer)
    : Filtered :=
  match received with
  | none => .failed
  | some r =>
      if r < fullHdrSize then
        .dropped
      -- Is this packet to us? If not, ignore it.
      else if buf.thDport ≠ htons config.port then
        .dropped
      else if buf.thFlags &&& thRst ≠ 0 then
        .exit
      -- A SYN or SYN-ACK is passed without a connection.
      else if buf.thFlags &&& thSyn ≠ 0 then
        .passed r []
      else
        filterLoop config buf r connections

/-- The loop returns a connection of its list, by induction on the list. -/
theorem filterLoop_suffix {config : Host} {buf : Buffer} {length passedLength : Nat}
    {connections rconn : List Conn}
    (passed : filterLoop config buf length connections = .passed passedLength rconn)
    : rconn <:+ connections := by
  induction connections with
  | nil => cases passed
  | cons head next ih =>
      rw [filterLoop] at passed
      split at passed
      · obtain ⟨-, rfl⟩ := Filtered.passed.inj passed
        exact List.suffix_refl _
      · exact (ih passed).trans (List.suffix_cons head next)

/-- The loop does not return to a connection it has gone past. -/
theorem filterLoop_past {config : Host} {buf : Buffer} {length : Nat}
    {connections rconn : List Conn} (past : connections.length < rconn.length)
    : filterLoop config buf length connections ≠ .passed length rconn := by
  intro passed
  exact absurd (filterLoop_suffix passed).length_le (Nat.not_le.mpr past)

/-- The loop stops at the first connection that accepts the packet, by induction on the
connections in front of it.
-/
theorem filterLoop_eq_passed_iff {config : Host} {buf : Buffer} {length : Nat}
    (before : List Conn) (conn : Conn) (after : List Conn)
    : filterLoop config buf length (before ++ conn :: after) = .passed length (conn :: after)
      ↔ conn.accepts config buf ∧ ∀ earlier ∈ before, ¬ earlier.accepts config buf := by
  induction before with
  | nil =>
      rw [List.nil_append, filterLoop]
      by_cases accepted : conn.accepts config buf
      · simp [accepted]
      · rw [if_neg accepted]
        exact iff_of_false (filterLoop_past (Nat.lt_succ_self _)) (fun both => accepted both.1)
  | cons head before ih =>
      rw [List.cons_append, filterLoop]
      by_cases accepted : head.accepts config buf
      · rw [if_pos accepted]
        refine iff_of_false (fun passed => ?_)
          (fun both => both.2 head (List.mem_cons_self ..) accepted)
        have same := congrArg List.length (Filtered.passed.inj passed).2
        simp only [List.length_cons, List.length_append] at same
        omega
      · rw [if_neg accepted, ih]
        simp [accepted]

-----------------------------------------------------------------------------------------
-- Packets of an established connection
-----------------------------------------------------------------------------------------

/-- A packet of a connection's stream: its sequence number is `k` after the peer's initial
one and its acknowledgement `j` after the own one, modulo the 32 bits of these numbers.
-/
structure OfStream (config : Host) (conn : Conn) (k j length : Nat) (buf : Buffer) : Prop where
  full : fullHdrSize ≤ length
  dport : buf.thDport = htons config.port
  sport : ntohs buf.thSport = conn.port
  saddr : config.unixSocket ∨ buf.saddr = conn.ipAddr
  seq : ntohl buf.thSeq = conn.theirInitSeqno + .ofNat k
  ack : ntohl buf.thAck = conn.initSeqno + .ofNat j
  notSyn : buf.thFlags &&& thSyn = 0
  notRst : buf.thFlags &&& thRst = 0

/-- A packet that is no SYN and no RST is left to the loop. -/
theorem recvFilter_stream {config : Host} {conn : Conn} {k j length : Nat} {buf : Buffer}
    (packet : OfStream config conn k j length buf) (connections : List Conn)
    : recvFilter config connections (some length) buf
      = filterLoop config buf length connections := by
  simp only [recvFilter, Nat.not_lt.mpr packet.full, packet.dport, packet.notRst,
    packet.notSyn, ne_eq, not_true_eq_false, if_false]

/-- An offset keeps a number at or above its start exactly if it does not wrap. -/
theorem le_add_ofNat_iff {start : UInt32} {offset : Nat} (near : offset < 2 ^ 31)
    : start ≤ start + .ofNat offset ↔ start.toNat + offset < 2 ^ 32 := by
  have bound := start.toNat_lt
  rw [UInt32.le_iff_toNat_le, UInt32.toNat_add, UInt32.toNat_ofNat']
  omega

/-- A number that does not wrap is the plain sum. -/
theorem toNat_add_ofNat {start : UInt32} {offset : Nat}
    (unwrapped : start.toNat + offset < 2 ^ 32)
    : (start + .ofNat offset).toNat = start.toNat + offset := by
  rw [UInt32.toNat_add, UInt32.toNat_ofNat']
  omega

/-- Another connection to the same host and port whose initial numbers are not above the
numbers `k` and `j` of the connection.
-/
def Conn.ShadowedBy (config : Host) (conn : Conn) (k j : Nat) (earlier : Conn) : Prop :=
  earlier.port = conn.port
  ∧ (config.unixSocket ∨ earlier.ipAddr = conn.ipAddr)
  ∧ earlier.theirInitSeqno.toNat ≤ conn.theirInitSeqno.toNat + k
  ∧ earlier.initSeqno.toNat ≤ conn.initSeqno.toNat + j

/-- Own packets are accepted exactly if neither of their numbers has wrapped. -/
theorem accepts_stream_iff {config : Host} {conn : Conn} {k j length : Nat} {buf : Buffer}
    (packet : OfStream config conn k j length buf) (kNear : k < 2 ^ 31) (jNear : j < 2 ^ 31)
    : conn.accepts config buf
      ↔ conn.theirInitSeqno.toNat + k < 2 ^ 32 ∧ conn.initSeqno.toNat + j < 2 ^ 32 := by
  have addressed : config.unixSocket ∨ ¬ config.unixSocket ∧ conn.ipAddr = buf.saddr := by
    by_cases unix : config.unixSocket
    · exact Or.inl unix
    · exact Or.inr ⟨unix, (packet.saddr.resolve_left unix).symm⟩
  rw [Conn.accepts, decide_eq_true_eq, packet.seq, packet.ack, ge_iff_le, ge_iff_le,
    le_add_ofNat_iff kNear, le_add_ofNat_iff jNear]
  exact ⟨fun accepted => accepted.2.2, fun unwrapped => ⟨packet.sport.symm, addressed, unwrapped⟩⟩

/-- Another connection accepts an unwrapped packet exactly if it shadows its connection. -/
theorem accepts_shadows_iff {config : Host} {conn earlier : Conn} {k j length : Nat}
    {buf : Buffer} (packet : OfStream config conn k j length buf)
    (seq : conn.theirInitSeqno.toNat + k < 2 ^ 32) (ack : conn.initSeqno.toNat + j < 2 ^ 32)
    : earlier.accepts config buf ↔ conn.ShadowedBy config k j earlier := by
  rw [Conn.accepts, decide_eq_true_eq, packet.seq, packet.ack, packet.sport, ge_iff_le,
    ge_iff_le, UInt32.le_iff_toNat_le, UInt32.le_iff_toNat_le, toNat_add_ofNat seq,
    toNat_add_ofNat ack, Conn.ShadowedBy]
  have addressed : config.unixSocket ∨ ¬ config.unixSocket ∧ earlier.ipAddr = buf.saddr
      ↔ config.unixSocket ∨ earlier.ipAddr = conn.ipAddr := by
    by_cases unix : config.unixSocket
    · exact iff_of_true (Or.inl unix) (Or.inl unix)
    · simp [unix, packet.saddr.resolve_left unix]
  rw [addressed]

/-- A packet of a connection's stream is matched to the connection exactly when neither of its
numbers has wrapped around and no earlier connection of the list shadows it.
-/
theorem recvFilter_matches_iff (config : Host) (before : List Conn) (conn : Conn)
    (after : List Conn) (buf : Buffer) (k j length : Nat) (kNear : k < 2 ^ 31)
    (jNear : j < 2 ^ 31) (packet : OfStream config conn k j length buf)
    : recvFilter config (before ++ conn :: after) (some length) buf
        = .passed length (conn :: after)
      ↔ conn.theirInitSeqno.toNat + k < 2 ^ 32
        ∧ conn.initSeqno.toNat + j < 2 ^ 32
        ∧ ∀ earlier ∈ before, ¬ conn.ShadowedBy config k j earlier := by
  rw [recvFilter_stream packet, filterLoop_eq_passed_iff, accepts_stream_iff packet kNear jNear,
    and_assoc]
  refine and_congr_right fun seq => and_congr_right fun ack => ?_
  refine forall₂_congr fun earlier _ => not_congr ?_
  exact accepts_shadows_iff packet seq ack

/-- A server on the same machine as its clients. -/
def localServer : Host where
  ipAddr := 0x0100007f
  port := 9999
  runProgram := false
  unixSocket := true

/-- A client whose initial sequence number is the last before the wrap. -/
def lateConn : Conn where
  ipAddr := 0x7f000001
  port := 80
  initSeqno := 5
  theirInitSeqno := 4294967295

/-- An ACK of the client, with its sequence number and acknowledgement. -/
def clientAck (seq ack : UInt8) : Buffer := fun index =>
  (List.replicate 20 0 ++ [0, 80, 0x27, 0x0f, 0, 0, 0, seq, 0, 0, 0, ack, 0x50, 0x10]).getD
    index 0

/-- The first packet of the client's data is number zero. -/
theorem clientAck_ofStream : OfStream localServer lateConn 1 1 40 (clientAck 0 6) := by
  constructor <;> decide

/-- The packet whose number is the first to wrap is dropped. -/
theorem wrapped_packet_dropped
    : ¬ ∀ config before conn after buf k j length,
        k < 2 ^ 31 → j < 2 ^ 31 → OfStream config conn k j length buf
        → recvFilter config (before ++ conn :: after) (some length) buf
          = .passed length (conn :: after) := by
  intro always
  have passed := always localServer [] lateConn [] (clientAck 0 6) 1 1 40 (by decide) (by decide)
    clientAck_ofStream
  rw [recvFilter_stream clientAck_ofStream, filterLoop_eq_passed_iff] at passed
  exact absurd passed.1 (by decide)

/-- With a smaller initial number the same packet is matched, past a connection to another
port.
-/
theorem recvFilter_matches_iff_unwrapped
    : recvFilter localServer [{ lateConn with port := 81 }, { lateConn with theirInitSeqno := 7 }]
        (some 40) (clientAck 8 6)
      = .passed 40 [{ lateConn with theirInitSeqno := 7 }] := by
  have packet : OfStream localServer { lateConn with theirInitSeqno := 7 } 1 1 40
      (clientAck 8 6) := by
    constructor <;> decide
  have rule := recvFilter_matches_iff localServer [{ lateConn with port := 81 }] _ [] _ 1 1 40
    (by decide) (by decide) packet
  refine rule.mpr ⟨by decide, by decide, ?_⟩
  intro earlier member shadowed
  rw [List.mem_singleton.mp member] at shadowed
  exact absurd shadowed.1 (by decide)

end Networks.Ctcp
