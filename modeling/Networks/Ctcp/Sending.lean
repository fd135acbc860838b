import Networks.Ctcp.State

/-! Building, transmitting and retransmitting segments, and reading the application's input.
Definitions follow `ctcp_makeseg`, `ctcp_send`, `ctcp_retrans` and `ctcp_read`.
-/

namespace Networks.Ctcp

open MachineIntegers

/-- The ackno written into a segment: `htonl(state->rw->ackno)`. -/
def CtcpState.acknoField (state : CtcpState) : UInt32 :=
  htonl (.ofNat (uint32 state.rw.ackno))

/-- `segment->cksum = cksum(segment, len)`, whatever the field holds at that moment. -/
def Segment.summed (segment : Segment) : Segment :=
  { segment with cksum := Ctcp.cksum segment.bytes }

@[simp] theorem Segment.summed_window (segment : Segment)
    : segment.summed.window = segment.window := by
  simp only [summed]

/-- The ackno and checksum written into a queued segment when it is transmitted. -/
def SegmentRef.stamp (ackno : UInt32) (object : SegmentRef) : SegmentRef :=
  { object with segment := { object.segment with ackno := ackno }.summed }

@[simp] theorem SegmentRef.stamp_address (ackno : UInt32) (object : SegmentRef)
    : (object.stamp ackno).address = object.address := by
  simp only [stamp]

@[simp] theorem SegmentRef.stamp_seqno (ackno : UInt32) (object : SegmentRef)
    : (object.stamp ackno).segment.seqno = object.segment.seqno := by
  simp only [stamp, Segment.summed]

@[simp] theorem SegmentRef.stamp_data (ackno : UInt32) (object : SegmentRef)
    : (object.stamp ackno).segment.data = object.segment.data := by
  simp only [stamp, Segment.summed]

@[simp] theorem SegmentRef.stamp_flags (ackno : UInt32) (object : SegmentRef)
    : (object.stamp ackno).segment.flags = object.segment.flags := by
  simp only [stamp, Segment.summed]

@[simp] theorem SegmentRef.stamp_window (ackno : UInt32) (object : SegmentRef)
    : (object.stamp ackno).segment.window = object.segment.window := by
  simp only [stamp, Segment.summed]

/-- A stamped segment carries a checksum, so its field is not zero. -/
theorem SegmentRef.stamp_cksum_ne_zero (ackno : UInt32) (object : SegmentRef)
    : (object.stamp ackno).segment.cksum ≠ 0 :=
  cksum_ne_zero

/-- `conn_send`. -/
def connSend (origin : Origin) (object : SegmentRef) (state : CtcpState) : CtcpState :=
  { state with
    log.sent := state.log.sent ++ [⟨origin, object⟩]
    log.windows := state.log.windows ++ [(object.segment.window, state.freeSpace)] }

/-- The loop of `ctcp_send` from a node on: segments whose checksum field is still zero are
stamped and handed to `conn_send`.
-/
def sendLoop (time : Int) (ackno : UInt32) :
    List SegmentRef → List SegmentRef × List Transmission
  | [] => ([], [])
  | node :: next =>
      let (segments, sent) := sendLoop time ackno next
      if node.segment.cksum = htons 0x00 then
        (node.stamp ackno :: segments, ⟨.send time, node.stamp ackno⟩ :: sent)
      else
        (node :: segments, sent)

/-- `ctcp_send`. -/
def ctcpSend (now : Int) (state : CtcpState) : CtcpState :=
  let node := llFront state.sw.segments
  let state :=
    if node ≠ [] then
      { state with sw.timer := now, sw.retransCounter := 0 }
    else
      state
  let (segments, sent) := sendLoop now state.acknoField node
  { state with
    sw.segments := segments
    log.sent := state.log.sent ++ sent
    log.windows :=
      state.log.windows
        ++ sent.map (fun transmission => (transmission.object.segment.window, state.freeSpace)) }

/-- `ctcp_retrans`: the first segment of the window is stamped and sent again. -/
def ctcpRetrans (now : Int) (state : CtcpState) : CtcpState :=
  match llFront state.sw.segments with
  | [] => state
  | node :: next =>
      let node := node.stamp state.acknoField
      connSend (.retrans now) node
        { state with sw.segments := node :: next, sw.timer := now }

/-- The modes of `ctcp_makeseg`. -/
inductive Mode
  | data
  | fin
  | ack
  | finAck
  deriving DecidableEq

/-- `segment->flags` in each mode. -/
def Mode.flags : Mode → UInt32
  | .data => thAck
  | .fin => thFin
  | .ack => thAck
  | .finAck => htonl 0x11

/-- The length field of a segment with at most `MAX_SEG_DATA_SIZE` bytes holds its length. -/
theorem length_of_data {data : List UInt8} (bound : data.length ≤ maxSegDataSize)
    : (ntohs (htons (.ofNat (segHeaderSize + data.length)))).toNat
      = segHeaderSize + data.length := by
  unfold maxSegDataSize at bound
  simp only [ntohs_htons, UInt16.toNat_ofNat', segHeaderSize]
  omega

/-- The segment `ctcp_makeseg` allocates and fills. Only data segments have a payload:
`send_buf_len` is zero in the other modes.
-/
def CtcpState.newSegment (state : CtcpState) (pad : UInt16) (mode : Mode) : SegmentRef where
  address := state.nextAddress
  segment := {
    seqno := htonl (.ofNat (uint32 state.sw.seqno))
    ackno := state.acknoField
    len := htons (.ofNat (segHeaderSize + state.sendBuf.val.length))
    pad := pad
    flags := mode.flags
    window := htons (.ofNat (uint16 (int32 (state.sw.maxSize - state.sw.size))))
    cksum := htons 0x00
    data := state.sendBuf.val
    sized := length_of_data state.sendBuf.property
  }

/-- `ll_add(state->sw->segments, segment)`. -/
def CtcpState.queue (object : SegmentRef) (state : CtcpState) : CtcpState :=
  { state with
    sw.segments := llAdd state.sw.segments object
    log.queued := state.log.queued ++ [object] }

/-- `ctcp_makeseg`. -/
def ctcpMakeseg (now : Int) (pad : UInt16) (mode : Mode) (state : CtcpState) : CtcpState :=
  let object := state.newSegment pad mode
  let dataLength := state.sendBuf.val.length
  let state := { state with nextAddress := state.nextAddress + 1 }
  match mode with
  | .data =>
      let state := state.queue object
      ctcpSend now
        { state with
          sw.size := int32 (state.sw.size + dataLength)
          sw.seqno := int32 (state.sw.seqno + dataLength) }
  | .fin => ctcpSend now (state.queue object)
  | .ack | .finAck =>
      connSend .makeseg { object with segment := object.segment.summed } state

/-- The number of bytes `ctcp_read` asks `conn_input` for. -/
def CtcpState.bufferSize (state : CtcpState) : Int :=
  let remainingSpace := int32 (state.sw.maxSize - state.sw.size)
  let remainingSpace :=
    if remainingSpace > state.sw.recvWinSize then state.sw.recvWinSize else remainingSpace
  if remainingSpace ≥ maxSegDataSize then maxSegDataSize else remainingSpace

/-- `ctcp_read` never asks for more than the buffer holds. -/
theorem CtcpState.bufferSize_le (state : CtcpState) : state.bufferSize ≤ maxSegDataSize := by
  simp only [bufferSize]
  split <;> split <;> omega

/-- `conn_input`: at most `bufferSize` of the offered bytes, or -1. -/
def connInput (bufferSize : Int) (offer : Option (List UInt8)) : Option (List UInt8) :=
  offer.map (List.take bufferSize.toNat)

/-- What `conn_input` returns fits the buffer. -/
theorem connInput_length_le {state : CtcpState} {offer : Option (List UInt8)}
    {bytes : List UInt8} (returned : connInput state.bufferSize offer = some bytes)
    : bytes.length ≤ maxSegDataSize := by
  obtain ⟨offered, -, rfl⟩ := Option.map_eq_some_iff.mp returned
  have bound := state.bufferSize_le
  simp only [List.length_take]
  omega

/-- `ctcp_read`. -/
def ctcpRead (env : Env) (offer : Option (List UInt8)) (state : CtcpState) : CtcpState :=
  if state.bufferSize ≤ 0 then
    state
  else
    match returned : connInput state.bufferSize offer with
    | some bytes =>
        let filled := ⟨bytes, connInput_length_le returned⟩
        let state :=
          { state with sendBuf := filled, log.input := state.log.input ++ bytes }
        { ctcpMakeseg (env.now 0) (env.pad 0) .data state with sendBuf := ⟨[], Nat.zero_le _⟩ }
    | none =>
        ctcpMakeseg (env.now 0) (env.pad 0) .fin
          { state with sendBuf := ⟨[], Nat.zero_le _⟩, log.inputEnded := true }

end Networks.Ctcp
