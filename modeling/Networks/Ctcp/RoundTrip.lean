import Networks.Ctcp.Arrivals

/-! Segments over the wire and back. Between two ends that share their initial sequence
numbers, every field of a segment survives both conversions but the three upper bytes of its
flags, which the TCP header has no room for.
-/

namespace Networks.Ctcp

open MachineIntegers

-----------------------------------------------------------------------------------------
-- Conversion and back
-----------------------------------------------------------------------------------------

/-- The fields a receiver reads, its checksum apart. -/
structure SameFields (segment arrived : Segment) : Prop where
  seqno : arrived.seqno = segment.seqno
  ackno : arrived.ackno = segment.ackno
  len : arrived.len = segment.len
  flags : arrived.flags = segment.flags
  window : arrived.window = segment.window
  data : arrived.data = segment.data

/-- A segment is sent as a datagram that is decoded to the same segment. -/
def RoundTrips (config : Host) (dst src : Conn) (segment : Segment) : Prop :=
  ∃ packet,
    convertToDatagram config dst segment = some packet
    ∧ SameFields segment (convertToCtcp src packet)

/-- The length field of a segment is determined by its payload. -/
theorem Segment.len_eq (segment : Segment)
    : segment.len = htons (.ofNat (segHeaderSize + segment.data.length)) := by
  have counted : ntohs segment.len = .ofNat (segHeaderSize + segment.data.length) := by
    rw [← segment.sized, UInt16.ofNat_toNat]
  rw [← counted]
  exact (ntohs_htons segment.len).symm

/-- The sequence number that conversion shifts to the base of the connection and back. -/
private theorem shifted_back (field base : UInt32)
    : htonl (ntohl (htonl (ntohl field + base)) - base) = field := by
  rw [ntohl_htonl, UInt32.add_sub_cancel]
  exact ntohl_htonl field

/-- Towards another cTCP host a segment round-trips exactly when its flags fit into the flag
byte of a TCP header.
-/
theorem roundTrips_iff_flags {config : Host} {dst src : Conn}
    (ctcpHost : config.unixSocket = true ∨ config.runProgram = true)
    (connected : Connected dst src) {segment : Segment}
    (short : segment.data.length ≤ maxSegDataSize)
    : RoundTrips config dst src segment ↔ segment.flags.toUInt8.toUInt32 = segment.flags := by
  have plainFlags : config.thFlags segment = segment.flags.toUInt8 := by
    refine if_neg ?_
    rcases ctcpHost with unixSocket | runProgram
    · simp [unixSocket]
    · simp [runProgram]
  constructor
  · rintro ⟨packet, converted, same⟩
    obtain ⟨-, -, flags, -, -⟩ := convertToDatagram_carries converted
    have decoded : (convertToCtcp src packet).flags = packet.flags.toUInt32 := rfl
    rw [← plainFlags, ← flags, ← decoded]
    exact same.flags
  · intro fits
    obtain ⟨packet, converted⟩ := convertToDatagram_isSome config dst short
    obtain ⟨seq, ack, flags, win, payload⟩ := convertToDatagram_carries converted
    refine ⟨packet, converted, ?_, ?_, ?_, ?_, win, payload⟩ <;>
      simp only [convertToCtcp, Conn.received]
    · rw [seq, ← connected.seqno]
      exact shifted_back segment.seqno dst.initSeqno
    · rw [ack, ← connected.ackno]
      exact shifted_back segment.ackno dst.theirInitSeqno
    · rw [payload, ← segment.len_eq]
    · rw [flags, plainFlags, fits]

/-- The flags of every mode but FIN-ACK fit into one byte. -/
theorem Mode.flags_fit_iff (mode : Mode)
    : mode.flags.toUInt8.toUInt32 = mode.flags ↔ mode ≠ .finAck := by
  cases mode <;> decide

-----------------------------------------------------------------------------------------
-- The segments of a connection
-----------------------------------------------------------------------------------------

/-- The segments a connection has sent, or holds to send again, have a payload that fits the
send buffer.
-/
structure ShortPayloads (state : CtcpState) : Prop where
  sent : ∀ sent ∈ state.log.sent, sent.object.segment.data.length ≤ maxSegDataSize
  queued : ∀ node ∈ state.sw.segments, node.segment.data.length ≤ maxSegDataSize

/-- A segment is built from what the send buffer holds. -/
theorem CtcpState.newSegment_short (state : CtcpState) (pad : UInt16) (mode : Mode)
    : (state.newSegment pad mode).segment.data.length ≤ maxSegDataSize :=
  state.sendBuf.property

theorem ctcpInit_shortPayloads (cfg : CtcpConfig) : ShortPayloads (ctcpInit cfg) := by
  constructor <;> simp [ctcpInit]

theorem ShortPayloads.answer {state : CtcpState} (payloads : ShortPayloads state)
    (pad : UInt16) (mode : Mode)
    : ShortPayloads (state.answer pad mode) := by
  refine ⟨?_, payloads.queued⟩
  intro sent member
  rcases List.mem_append.mp member with old | new
  · exact payloads.sent sent old
  · rw [List.mem_singleton.mp new]
    exact state.newSegment_short pad mode

theorem ShortPayloads.transmitNew {state : CtcpState} (payloads : ShortPayloads state)
    (now : Int) {object : SegmentRef} (short : object.segment.data.length ≤ maxSegDataSize)
    : ShortPayloads (state.transmitNew now object) := by
  have stamped := object.stamp_data state.acknoField
  constructor
  · intro sent member
    rcases List.mem_append.mp member with old | new
    · exact payloads.sent sent old
    · rw [List.mem_singleton.mp new, stamped]
      exact short
  · intro node member
    rcases List.mem_append.mp member with old | new
    · exact payloads.queued node old
    · rw [List.mem_singleton.mp new, stamped]
      exact short

/-- Every update keeps the payloads short. -/
theorem Update.shortPayloads {effects : Effects} {state next : CtcpState}
    (update : Update effects state next) (payloads : ShortPayloads state)
    : ShortPayloads next := by
  cases update with
  | ack pad => exact payloads.answer pad .ack
  | finAck pad segment received isFin =>
      have noted : ShortPayloads { state with log.fins := state.log.fins ++ [segment] } :=
        ⟨payloads.sent, payloads.queued⟩
      exact noted.answer pad .finAck
  | endInput now pad reading queues =>
      have noted : ShortPayloads { state with log.inputEnded := true } :=
        ⟨payloads.sent, payloads.queued⟩
      exact noted.transmitNew now (CtcpState.newSegment_short _ pad .fin)
  | queueFin now pad reading queues =>
      exact payloads.transmitNew now (state.newSegment_short pad .fin)
  | queueData now pad bytes reading queues room fits =>
      have short : (state.dataSegment pad bytes).segment.data.length ≤ maxSegDataSize :=
        bytes.property
      have queued := payloads.transmitNew now short
      exact ⟨queued.sent, queued.queued⟩
  | slide now segment node next reading received front acknowledged =>
      exact ⟨payloads.sent,
        fun node member => payloads.queued node (List.mem_of_mem_filter member)⟩
  | retransmit now node next reading retransmits front running tries =>
      have first := payloads.queued node (by simp [front])
      have stamped := node.stamp_data state.acknoField
      constructor
      · intro sent member
        rcases List.mem_append.mp member with old | new
        · exact payloads.sent sent old
        · rw [List.mem_singleton.mp new, stamped]
          exact first
      · intro other member
        rcases List.mem_cons.mp member with same | later
        · rw [same, stamped]
          exact first
        · exact payloads.queued other (by simp [front, later])
  | _ => exact ⟨payloads.sent, payloads.queued⟩

theorem Updates.shortPayloads {effects : Effects} {state next : CtcpState}
    (updates : Updates effects state next) (payloads : ShortPayloads state)
    : ShortPayloads next := by
  induction updates with
  | refl => exact payloads
  | tail _ update ih => exact update.shortPayloads ih

/-- In every reachable state of a connection to another cTCP host, a segment that
`ctcp_makeseg` can build survives the conversion to a datagram and back exactly when it is
not a FIN-ACK, and so does every segment that has been handed to `conn_send`.
-/
theorem segment_roundTrips_iff {config : Host} {dst src : Conn}
    (ctcpHost : config.unixSocket = true ∨ config.runProgram = true)
    (connected : Connected dst src) {cfg : CtcpConfig} {calls : List Call}
    {state : CtcpState} (reached : runFrom cfg calls = some state)
    : (∀ pad mode,
        RoundTrips config dst src (state.newSegment pad mode).segment ↔ mode ≠ .finAck)
      ∧ ∀ sent ∈ state.log.sent,
          RoundTrips config dst src sent.object.segment
          ↔ sent.object.segment.flags ≠ Mode.finAck.flags := by
  obtain ⟨-, payloads, flagged⟩ :=
    runFrom_invariant (fun _ => True) (fun state => ShortPayloads state ∧ Flagged state)
      (fun _ _ held update => ⟨update.shortPayloads held.1, update.flagged held.2⟩)
      ⟨ctcpInit_shortPayloads cfg, ctcpInit_flagged cfg⟩ (fun _ _ => trivial) reached
  constructor
  · intro pad mode
    rw [roundTrips_iff_flags ctcpHost connected (state.newSegment_short pad mode)]
    exact mode.flags_fit_iff
  · intro sent member
    rw [roundTrips_iff_flags ctcpHost connected (payloads.sent sent member)]
    rcases flagged.sent sent member with isAck | isFin | ⟨isFinAck, -⟩
    · rw [isAck]
      decide
    · rw [isFin]
      decide
    · rw [isFinAck]
      decide

/-- A Unix-socket connection whose two ends have chosen 5 and 4294967295. -/
def localHost : Host := { ipAddr := 1, port := 9999, runProgram := false, unixSocket := true }

/-- The sender's object for the connection. -/
def localConn : Conn := { ipAddr := 1, port := 80, initSeqno := 5, theirInitSeqno := 4294967295 }

/-- The receiver's object for the connection. -/
def localPeer : Conn := { ipAddr := 1, port := 9999, initSeqno := 4294967295, theirInitSeqno := 5 }

/-- The segment with the byte that a connection has read round-trips. -/
theorem segment_roundTrips_read
    : ∃ state,
        runFrom defaultConfig (timedOutByte.take 1) = some state
        ∧ ∃ sent ∈ state.log.sent,
            sent.object.segment.data = [0x61]
            ∧ RoundTrips localHost localConn localPeer sent.object.segment := by
  have reached : (runFrom defaultConfig (timedOutByte.take 1)).isSome := by decide +kernel
  obtain ⟨state, run⟩ := Option.isSome_iff_exists.mp reached
  have facts : ∀ state ∈ runFrom defaultConfig (timedOutByte.take 1),
      ∃ sent ∈ state.log.sent,
        sent.object.segment.data = [0x61]
        ∧ sent.object.segment.flags ≠ Mode.finAck.flags := by
    decide +kernel
  obtain ⟨sent, member, data, flags⟩ := facts state run
  have connected : Connected localConn localPeer := ⟨rfl, rfl⟩
  have ctcpHost : localHost.unixSocket = true ∨ localHost.runProgram = true := Or.inl rfl
  obtain ⟨-, transmitted⟩ := segment_roundTrips_iff ctcpHost connected run
  exact ⟨state, run, sent, member, data, (transmitted sent member).mpr flags⟩

/-- A new connection builds a FIN-ACK that arrives without any flag. -/
theorem finAck_not_roundTrips
    : ¬ ∀ mode,
        RoundTrips localHost localConn localPeer
          ((ctcpInit defaultConfig).newSegment 0 mode).segment := by
  intro all
  have fits :=
    (roundTrips_iff_flags (Or.inl rfl) ⟨rfl, rfl⟩ (CtcpState.newSegment_short _ 0 .finAck)).mp
      (all .finAck)
  exact (Mode.flags_fit_iff .finAck).mp fits rfl

end Networks.Ctcp
