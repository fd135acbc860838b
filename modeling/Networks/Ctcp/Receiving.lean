import Networks.Ctcp.Sending

/-! Receiving segments and delivering their data.
Definitions follow `ctcp_receive`, branch by branch under the numbers of its comments, and
`ctcp_output`. A handler that dereferences `NULL` returns nothing.
-/

namespace Networks.Ctcp

open MachineIntegers

/-- The loop of `ctcp_output` from a node on, `call` counting the `conn_bufspace` calls.
The node is always the first of the list, so removing it leaves the nodes after it.
-/
def outputLoop (bufspace : Nat → Nat) (call : Nat) :
    List SegmentRef → CtcpState → CtcpState
  | [], state => state
  | node :: next, state =>
      if node.segment.seq ≥ uint32 state.rw.ackno then
        state
      else
        let outputAvailable := bufspace call
        let dataAvailable := node.segment.payloadSize
        let outputSize :=
          if outputAvailable < dataAvailable then outputAvailable else dataAvailable
        outputLoop bufspace (call + 1) next
          { state with
            log.outputs := state.log.outputs ++ [node.segment.data.take outputSize]
            rw.size := int32 (state.rw.size - dataAvailable)
            rw.segments := next }

/-- `ctcp_output`. -/
def ctcpOutput (env : Env) (state : CtcpState) : CtcpState :=
  outputLoop env.bufspace 0 (llFront state.rw.segments) state

-----------------------------------------------------------------------------------------
-- 3. Received FIN
-----------------------------------------------------------------------------------------

/-- Whether the FIN branch of `ctcp_receive` runs: `len` is the received length. -/
def finArrived (segment : Segment) (len : Nat) : Bool :=
  segment.flags &&& thFin ≠ 0 ∧ sizeT (len - segHeaderSize) = 0

/-- The FIN branch: a FIN-ACK, and an own FIN unless the teardown timer runs. -/
def receivedFin (env : Env) (segment : Segment) (state : CtcpState) : CtcpState :=
  let state := { state with log.fins := state.log.fins ++ [segment] }
  let state := ctcpMakeseg (env.now 0) (env.pad 0) .finAck state
  if state.timerTeardown = -1 then
    ctcpMakeseg (env.now 0) (env.pad 1) .fin state
  else
    state

-----------------------------------------------------------------------------------------
-- 4. Received FIN ACK
-----------------------------------------------------------------------------------------

/-- Whether the FIN ACK branch runs: the source writes the flags as `TH_ACK & TH_FIN`. -/
def finAckArrived (segment : Segment) (len : Nat) : Bool :=
  segment.flags = thAck &&& thFin ∧ sizeT (len - segHeaderSize) = 0

-----------------------------------------------------------------------------------------
-- 5. Received data segment
-----------------------------------------------------------------------------------------

/-- Whether the payload fits the receive window. -/
def CtcpState.payloadFits (state : CtcpState) (len : Nat) : Bool :=
  sizeT (len - segHeaderSize) ≤ sizeT (int32 (state.rw.maxSize - state.rw.size))

/-- Whether a data segment is the expected one. -/
def CtcpState.inOrder (state : CtcpState) (segment : Segment) (len : Nat) : Bool :=
  segment.seq = uint32 state.rw.ackno ∧ state.payloadFits len

/-- The loop that advances ackno over the nodes after the given ones. It compares and
assigns `next_seg->seqno` without converting its byte order.
-/
def advanceAckno (ackno : Int) : List SegmentRef → Int
  | [] => ackno
  | nextSeg :: next =>
      if uint32 ackno ≠ nextSeg.segment.seqno.toNat then
        ackno
      else
        advanceAckno (int32 nextSeg.segment.seqno.toNat) next

/-- The expected segment is queued for output, acknowledged, and output is attempted. -/
def receivedInOrder (env : Env) (object : SegmentRef) (state : CtcpState)
    : Option CtcpState :=
  let payload := object.segment.payloadSize
  let segments := llAdd state.rw.segments object
  match llFind segments object with
  | [] => none
  | _ :: next =>
      let state :=
        { state with
          rw.segments := segments
          rw.size := int32 (state.rw.size + payload)
          rw.ackno := advanceAckno (int32 (state.rw.ackno + payload)) next
          log.accepted := state.log.accepted ++ object.segment.data }
      some (ctcpOutput env (ctcpMakeseg (env.now 0) (env.pad 0) .ack state))

/-- The loop over the receive window for a segment of the future: it is put after the first
node whose successor has a larger ackno field, read in network order. The flag is
`in_the_back`.
-/
def insertFuture (object : SegmentRef) : List SegmentRef → Option (List SegmentRef × Bool)
  | [] => none
  | [last] => some ([last], false)
  | node :: nextSeg :: next =>
      if object.segment.seq < nextSeg.segment.ackno.toNat then
        some (node :: object :: nextSeg :: next, true)
      else
        (insertFuture object (nextSeg :: next)).map
          (fun (segments, inTheBack) => (node :: segments, inTheBack))

/-- A segment of the future. With an empty receive window the segment is added to the list,
but the loop still starts from the `NULL` front read before.
-/
def receivedFuture (object : SegmentRef) (state : CtcpState) : Option CtcpState :=
  match insertFuture object (llFront state.rw.segments) with
  | none => none
  | some (segments, inTheBack) =>
      some
        { state with
          rw.segments := if inTheBack then llAdd segments object else segments
          rw.size := int32 (state.rw.size + object.segment.payloadSize) }

/-- Got duplicate data segment: just send ACK. -/
def gotDuplicate (env : Env) (segment : Segment) (state : CtcpState) : CtcpState :=
  if segment.seq < uint32 state.rw.ackno then
    ctcpMakeseg (env.now 0) (env.pad 0) .ack state
  else
    state

/-- Got what we expected. -/
def gotExpected (env : Env) (object : SegmentRef) (len : Nat) (state : CtcpState)
    : Option CtcpState :=
  if state.inOrder object.segment len then receivedInOrder env object state else some state

/-- Got out of order data segments for the FUTURE. -/
def gotFuture (object : SegmentRef) (len : Nat) (state : CtcpState) : Option CtcpState :=
  if object.segment.seq > uint32 state.rw.ackno ∧ state.payloadFits len then
    receivedFuture object state
  else
    some state

/-- The three cases of a data segment, tested one after the other, each on the state left by
the one before.
-/
def receivedData (env : Env) (object : SegmentRef) (len : Nat) (state : CtcpState)
    : Option CtcpState :=
  (gotExpected env object len (gotDuplicate env object.segment state)).bind
    (gotFuture object len)

-----------------------------------------------------------------------------------------
-- 6. Received ACK
-----------------------------------------------------------------------------------------

/-- The end of a segment, as the `size_t` the source computes it in. -/
def Segment.endSize (segment : Segment) : Nat :=
  sizeT (segment.payloadSize + segment.seq : Nat)

/-- Whether the loop of the ACK branch removes a segment: the received ackno is a signed
`int`, converted to `size_t` for the comparison.
-/
def confirmed (receivedAckno : Int) (object : SegmentRef) : Bool :=
  object.segment.endSize ≤ sizeT receivedAckno

/-- The outcome of the loop of the ACK branch: the new `sw->size`, the segments that stay in
the window and those removed from it.
-/
structure Confirmation where
  size : Int
  kept : List SegmentRef
  removed : List SegmentRef

/-- The loop of the ACK branch from a node on. -/
def confirmLoop (receivedAckno size : Int) : List SegmentRef → Confirmation
  | [] => { size := size, kept := [], removed := [] }
  | node :: next =>
      if confirmed receivedAckno node then
        let rest := confirmLoop receivedAckno (int32 (size - node.segment.payloadSize)) next
        { rest with removed := node :: rest.removed }
      else
        let rest := confirmLoop receivedAckno size next
        { rest with kept := node :: rest.kept }

/-- `received_ackno`. -/
def Segment.receivedAckno (segment : Segment) : Int := int32 segment.ack

/-- Whether the ACK covers the first segment of the window, compared as signed integers. -/
def acknowledgesFront (segment : Segment) (front : SegmentRef) : Bool :=
  segment.receivedAckno ≥ int32 front.segment.endSize

/-- The ACK branch. -/
def receivedAck (env : Env) (segment : Segment) (state : CtcpState) : CtcpState :=
  match llFront state.sw.segments with
  | [] => state
  | node :: next =>
      if acknowledgesFront segment node then
        let outcome := confirmLoop segment.receivedAckno state.sw.size (node :: next)
        ctcpSend (env.now 2)
          { state with
            sw.size := outcome.size
            sw.segments := outcome.kept
            log.acked := state.log.acked ++ outcome.removed
            sw.timer := -1
            sw.retransCounter := 0 }
      else
        state

/-- Set receiver window size. -/
def noteWindow (segment : Segment) (state : CtcpState) : CtcpState :=
  { state with
    sw.recvWinSize := (ntohs segment.window).toNat
    log.heard := state.log.heard ++ [segment] }

/-- Received FIN. -/
def gotFin (env : Env) (segment : Segment) (len : Nat) (state : CtcpState) : CtcpState :=
  if finArrived segment len then receivedFin env segment state else state

/-- Received FIN ACK: the teardown timer is started. -/
def gotFinAck (env : Env) (segment : Segment) (len : Nat) (state : CtcpState) : CtcpState :=
  if finAckArrived segment len then { state with timerTeardown := env.now 1 } else state

/-- The steps that every verified segment goes through before the data and ACK branches. -/
def receivedHeader (env : Env) (segment : Segment) (len : Nat) (state : CtcpState)
    : CtcpState :=
  gotFinAck env segment len (gotFin env segment len (noteWindow segment state))

/-- The steps that remain for a verified segment: the data branch returns, otherwise an ACK,
or a FIN ACK, may slide the send window.
-/
def receivedBody (env : Env) (object : SegmentRef) (len : Nat) (state : CtcpState)
    : Option CtcpState :=
  if sizeT (len - segHeaderSize) ≠ 0 then
    receivedData env object len state
  else if object.segment.flags &&& thAck ≠ 0 ∨ finAckArrived object.segment len then
    some (receivedAck env object.segment state)
  else
    some state

/-- `ctcp_receive`, for a segment object received with length `len`. -/
def ctcpReceive (env : Env) (object : SegmentRef) (len : Nat) (state : CtcpState)
    : Option CtcpState :=
  if checksum object.segment = false then
    some state
  else
    let object := { object with segment := object.segment.cleared }
    receivedBody env object len (receivedHeader env object.segment len state)

end Networks.Ctcp
