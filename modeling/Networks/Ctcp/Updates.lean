import Networks.Ctcp.Timers
import Mathlib.Logic.Relation

/-! Everything a handler can do to a connection, as a sequence of a few explicit updates.
Each update is an equation for the whole new state, so an invariant of connections is shown
once for each update and then holds along every run.
-/

namespace Networks.Ctcp

open MachineIntegers

/-- What holds of a connection whenever no handler is at work: nothing waits in the send
buffer, every queued segment has been stamped, the retransmission timer runs for a segment,
and the receive window holds no object that is still to be allocated.
-/
structure Settled (state : CtcpState) : Prop where
  bufferEmpty : state.sendBuf = ⟨[], Nat.zero_le _⟩
  stamped : ∀ node ∈ state.sw.segments, node.segment.cksum ≠ 0
  timed : state.sw.timer ≠ -1 → state.sw.segments ≠ []
  allocated : ∀ node ∈ state.rw.segments, node.address < state.nextAddress

theorem ctcpInit_settled (cfg : CtcpConfig) : Settled (ctcpInit cfg) where
  bufferEmpty := rfl
  stamped := by simp [ctcpInit]
  timed := by simp [ctcpInit]
  allocated := by simp [ctcpInit]

@[simp] theorem htons_zero : htons 0 = 0 := by decide

/-- Stamped segments are not sent again by `ctcp_send`, by induction on the window. -/
theorem sendLoop_stamped {time : Int} {ackno : UInt32} {segments : List SegmentRef}
    (stamped : ∀ node ∈ segments, node.segment.cksum ≠ 0)
    : sendLoop time ackno segments = (segments, []) := by
  induction segments with
  | nil => rfl
  | cons node next ih =>
      have head := stamped node (by simp)
      have tail := ih (fun other member => stamped other (by simp [member]))
      simp [sendLoop, tail, head]

/-- A new segment behind stamped ones is the only one `ctcp_send` transmits. -/
theorem sendLoop_new {time : Int} {ackno : UInt32} {segments : List SegmentRef}
    (object : SegmentRef) (stamped : ∀ node ∈ segments, node.segment.cksum ≠ 0)
    (new : object.segment.cksum = htons 0x00)
    : sendLoop time ackno (segments ++ [object])
      = (segments ++ [object.stamp ackno], [⟨.send time, object.stamp ackno⟩]) := by
  induction segments with
  | nil => simp [sendLoop, new]
  | cons node next ih =>
      have head := stamped node (by simp)
      have tail := ih (fun other member => stamped other (by simp [member]))
      simp [sendLoop, tail, head]

-----------------------------------------------------------------------------------------
-- The updates
-----------------------------------------------------------------------------------------

/-- An ACK or FIN-ACK is built and sent without being queued. -/
def CtcpState.answer (pad : UInt16) (mode : Mode) (state : CtcpState) : CtcpState :=
  let object := state.newSegment pad mode
  { state with
    nextAddress := state.nextAddress + 1
    log.sent :=
      state.log.sent ++ [⟨.makeseg, { object with segment := object.segment.summed }⟩]
    log.windows := state.log.windows ++ [(object.segment.summed.window, state.freeSpace)] }

/-- A received FIN is noted and answered with a FIN-ACK. -/
def CtcpState.answerFin (pad : UInt16) (segment : Segment) (state : CtcpState) : CtcpState :=
  { state with log.fins := state.log.fins ++ [segment] }.answer pad .finAck

/-- A new segment is queued, stamped and sent, and the retransmission timer restarted. -/
def CtcpState.transmitNew (now : Int) (object : SegmentRef) (state : CtcpState)
    : CtcpState :=
  { state with
    nextAddress := state.nextAddress + 1
    sw.segments := state.sw.segments ++ [object.stamp state.acknoField]
    sw.timer := now
    sw.retransCounter := 0
    log.queued := state.log.queued ++ [object]
    log.sent := state.log.sent ++ [⟨.send now, object.stamp state.acknoField⟩]
    log.windows :=
      state.log.windows ++ [((object.stamp state.acknoField).segment.window, state.freeSpace)] }

/-- A FIN is queued and sent. -/
def CtcpState.queueFin (now : Int) (pad : UInt16) (state : CtcpState) : CtcpState :=
  state.transmitNew now (state.newSegment pad .fin)

/-- The input has ended, and a FIN is queued and sent. -/
def CtcpState.endInput (now : Int) (pad : UInt16) (state : CtcpState) : CtcpState :=
  { state with log.inputEnded := true }.queueFin now pad

/-- The segment built for bytes read from the application. -/
def CtcpState.dataSegment (pad : UInt16) (bytes : SendBuf) (state : CtcpState) : SegmentRef :=
  { state with sendBuf := bytes }.newSegment pad .data

/-- Bytes read from the application are queued and sent as one segment. -/
def CtcpState.queueData (now : Int) (pad : UInt16) (bytes : SendBuf) (state : CtcpState)
    : CtcpState :=
  { state.transmitNew now (state.dataSegment pad bytes) with
    sw.size := int32 (state.sw.size + bytes.val.length)
    sw.seqno := int32 (state.sw.seqno + bytes.val.length)
    log.input := state.log.input ++ bytes.val }

/-- The loop of the ACK branch keeps the segments it does not confirm, by induction on the
window.
-/
theorem confirmLoop_kept (receivedAckno size : Int) (segments : List SegmentRef)
    : (confirmLoop receivedAckno size segments).kept
      = segments.filter (fun node => !confirmed receivedAckno node) := by
  induction segments generalizing size with
  | nil => rfl
  | cons node next ih =>
      by_cases gone : confirmed receivedAckno node <;> simp [confirmLoop, gone, ih]

/-- The loop of the ACK branch removes the segments it confirms, by induction on the window.
-/
theorem confirmLoop_removed (receivedAckno size : Int) (segments : List SegmentRef)
    : (confirmLoop receivedAckno size segments).removed
      = segments.filter (confirmed receivedAckno) := by
  induction segments generalizing size with
  | nil => rfl
  | cons node next ih =>
      by_cases gone : confirmed receivedAckno node <;> simp [confirmLoop, gone, ih]

/-- The segments an acknowledgement leaves in the window. -/
def CtcpState.unconfirmed (segment : Segment) (state : CtcpState) : List SegmentRef :=
  state.sw.segments.filter (fun node => !confirmed segment.receivedAckno node)

/-- An acknowledgement that covers the first segment slides the window: confirmed segments
are removed, and the timer runs again if any segment is left.
-/
def CtcpState.slide (now : Int) (segment : Segment) (state : CtcpState) : CtcpState :=
  { state with
    sw.size := (confirmLoop segment.receivedAckno state.sw.size state.sw.segments).size
    sw.segments := state.unconfirmed segment
    sw.timer := if (state.unconfirmed segment).isEmpty then -1 else now
    sw.retransCounter := 0
    log.acked :=
      state.log.acked ++ state.sw.segments.filter (confirmed segment.receivedAckno) }

/-- The first segment of the window is stamped and sent again. -/
def CtcpState.retransmit (now : Int) (node : SegmentRef) (next : List SegmentRef)
    (state : CtcpState)
    : CtcpState :=
  { state with
    sw.segments := node.stamp state.acknoField :: next
    sw.timer := now
    sw.retransCounter := state.sw.retransCounter + 1
    log.sent := state.log.sent ++ [⟨.retrans now, node.stamp state.acknoField⟩]
    log.windows :=
      state.log.windows ++ [((node.stamp state.acknoField).segment.window, state.freeSpace)] }

/-- What a handler may do to a connection: the clock readings it may store, the segments it
may act on, whether it may queue segments, send queued ones again, and change the receive
window.
-/
structure Effects where
  clock : Int → Prop
  received : Segment → Prop
  queues : Prop
  retransmits : Prop
  delivers : Prop

/-- No restriction. -/
def Effects.any : Effects where
  clock := fun _ => True
  received := fun _ => True
  queues := True
  retransmits := True
  delivers := True

/-- One update of a connection. The receive window is described only as far as the other end
can see it: the ackno and what it covers.
-/
inductive Update (effects : Effects) : CtcpState → CtcpState → Prop
  | allocate {state}
    : Update effects state { state with nextAddress := state.nextAddress + 1 }
  | window {state} (segment : Segment) (received : effects.received segment)
    : Update effects state (noteWindow segment state)
  | ack {state} (pad : UInt16) : Update effects state (state.answer pad .ack)
  | finAck {state} (pad : UInt16) (segment : Segment)
    (received : effects.received segment) (isFin : segment.flags &&& thFin ≠ 0)
    : Update effects state (state.answerFin pad segment)
  | arm {state} (time : Int) : Update effects state { state with timerTeardown := time }
  | endInput {state} (now : Int) (pad : UInt16) (reading : effects.clock now)
    (queues : effects.queues)
    : Update effects state (state.endInput now pad)
  | queueFin {state} (now : Int) (pad : UInt16) (reading : effects.clock now)
    (queues : effects.queues)
    : Update effects state (state.queueFin now pad)
  | queueData {state} (now : Int) (pad : UInt16) (bytes : SendBuf)
    (reading : effects.clock now) (queues : effects.queues)
    (room : 0 < state.bufferSize) (fits : (bytes.val.length : Int) ≤ state.bufferSize)
    : Update effects state (state.queueData now pad bytes)
  | slide {state} (now : Int) (segment : Segment) (node : SegmentRef)
    (next : List SegmentRef) (reading : effects.clock now)
    (received : effects.received segment) (front : state.sw.segments = node :: next)
    (acknowledged : acknowledgesFront segment node)
    : Update effects state (state.slide now segment)
  | retransmit {state} (now : Int) (node : SegmentRef) (next : List SegmentRef)
    (reading : effects.clock now) (retransmits : effects.retransmits)
    (front : state.sw.segments = node :: next)
    (running : state.sw.timer ≠ -1) (tries : state.sw.retransCounter < 5)
    : Update effects state (state.retransmit now node next)
  | accept {state} (segment : Segment) (segments : List SegmentRef) (size : Int)
    (received : effects.received segment) (delivers : effects.delivers)
    (expected : segment.seq = uint32 state.rw.ackno)
    (allocated : ∀ node ∈ segments, node.address < state.nextAddress)
    : Update effects state
        { state with
          rw.segments := segments
          rw.size := size
          rw.ackno := int32 (state.rw.ackno + segment.data.length)
          log.accepted := state.log.accepted ++ segment.data }
  | keep {state} (segments : List SegmentRef) (size : Int) (outputs : List (List UInt8))
    (delivers : effects.delivers)
    (allocated : ∀ node ∈ segments, node.address < state.nextAddress)
    : Update effects state
        { state with rw.segments := segments, rw.size := size, log.outputs := outputs }

/-- A sequence of updates. -/
abbrev Updates (effects : Effects) : CtcpState → CtcpState → Prop :=
  Relation.ReflTransGen (Update effects)

theorem Updates.one {effects : Effects} {state next : CtcpState}
    (update : Update effects state next)
    : Updates effects state next :=
  .single update

/-- Updates lead from settled states to settled states. -/
theorem Update.settled {effects : Effects} {state next : CtcpState}
    (update : Update effects state next) (settled : Settled state)
    : Settled next := by
  obtain ⟨buffer, stamped, timed, allocated⟩ := settled
  cases update with
  | window | arm => exact ⟨buffer, stamped, timed, allocated⟩
  | allocate | ack | finAck =>
      exact ⟨buffer, stamped, timed,
        fun node member => Nat.lt_succ_of_lt (allocated node member)⟩
  | endInput | queueFin | queueData =>
      refine ⟨buffer, ?_, fun _ => List.append_ne_nil_of_right_ne_nil _ (by simp),
        fun node member => Nat.lt_succ_of_lt (allocated node member)⟩
      intro node member
      rcases List.mem_append.mp member with old | new
      · exact stamped node old
      · exact List.mem_singleton.mp new ▸ SegmentRef.stamp_cksum_ne_zero _ _
  | slide now segment node next reading received front acknowledged =>
      refine ⟨buffer, fun other member => stamped other (List.mem_of_mem_filter member), ?_,
        allocated⟩
      intro running empty
      exact running (if_pos (List.isEmpty_iff.mpr empty))
  | retransmit now node next reading retransmits front running tries =>
      refine ⟨buffer, ?_, fun _ => List.cons_ne_nil _ _, allocated⟩
      intro other member
      rcases List.mem_cons.mp member with same | later
      · exact same ▸ SegmentRef.stamp_cksum_ne_zero _ _
      · exact stamped other (front ▸ List.mem_cons_of_mem node later)
  | accept segment segments size received delivers expected allocatedNew =>
      exact ⟨buffer, stamped, timed, allocatedNew⟩
  | keep segments size outputs delivers allocatedNew => exact ⟨buffer, stamped, timed, allocatedNew⟩

/-- Sequences of updates lead from settled states to settled states. -/
theorem Updates.settled {effects : Effects} {state next : CtcpState}
    (updates : Updates effects state next) (settled : Settled state)
    : Settled next := by
  induction updates with
  | refl => exact settled
  | tail _ update ih => exact update.settled ih

-----------------------------------------------------------------------------------------
-- Sending handlers
-----------------------------------------------------------------------------------------

/-- With every segment stamped, `ctcp_send` only restarts the timer of a non-empty window. -/
theorem ctcpSend_stamped {now : Int} {state : CtcpState}
    (stamped : ∀ node ∈ state.sw.segments, node.segment.cksum ≠ 0)
    : ctcpSend now state
      = if state.sw.segments = [] then
          state
        else
          { state with sw.timer := now, sw.retransCounter := 0 } := by
  simp only [ctcpSend, llFront, sendLoop_stamped stamped, List.map_nil, List.append_nil]
  by_cases empty : state.sw.segments = []
  · simp only [empty, ne_eq, not_true_eq_false, if_false, if_true]
    rw [← empty]
  · simp [empty]

/-- With every segment stamped and the timer stopped, `ctcp_send` starts the timer exactly
when the window is not empty.
-/
theorem ctcpSend_stopped {now : Int} {state : CtcpState}
    (stamped : ∀ node ∈ state.sw.segments, node.segment.cksum ≠ 0)
    (stopped : state.sw.timer = -1) (reset : state.sw.retransCounter = 0)
    : ctcpSend now state
      = { state with sw.timer := if state.sw.segments.isEmpty then -1 else now } := by
  rw [ctcpSend_stamped stamped]
  by_cases empty : state.sw.segments = []
  · rw [if_pos empty, if_pos (List.isEmpty_iff.mpr empty), ← stopped]
  · rw [if_neg empty, if_neg (mt List.isEmpty_iff.mp empty), ← reset]

@[simp] theorem ctcpMakeseg_ack (now : Int) (pad : UInt16) (state : CtcpState)
    : ctcpMakeseg now pad .ack state = state.answer pad .ack := rfl

/-- On a settled connection `ctcp_makeseg` transmits the FIN it queues, and nothing else. -/
theorem ctcpMakeseg_fin {now : Int} {pad : UInt16} {state : CtcpState}
    (settled : Settled state)
    : ctcpMakeseg now pad .fin state = state.queueFin now pad := by
  simp [ctcpMakeseg, CtcpState.queue, ctcpSend, llFront, llAdd, CtcpState.acknoField,
    sendLoop_new (state.newSegment pad .fin) settled.stamped rfl,
    CtcpState.queueFin, CtcpState.transmitNew, CtcpState.freeSpace]

/-- On a settled connection `ctcp_makeseg` transmits the data segment it queues, and nothing
else.
-/
theorem ctcpMakeseg_data {now : Int} {pad : UInt16} {bytes : SendBuf} {state : CtcpState}
    (settled : Settled state)
    : { ctcpMakeseg now pad .data
          { state with sendBuf := bytes, log.input := state.log.input ++ bytes.val } with
        sendBuf := ⟨[], Nat.zero_le _⟩ }
      = state.queueData now pad bytes := by
  have built
      : { state with sendBuf := bytes, log.input := state.log.input ++ bytes.val }.newSegment
            pad .data
          = state.dataSegment pad bytes := rfl
  simp [ctcpMakeseg, CtcpState.queue, ctcpSend, llFront, llAdd, CtcpState.acknoField, built,
    sendLoop_new (state.dataSegment pad bytes) settled.stamped rfl,
    CtcpState.queueData, CtcpState.transmitNew, CtcpState.freeSpace, settled.bufferEmpty]

/-- What `ctcp_read` does: nothing without room, one FIN at the end of the input, and one
data segment otherwise.
-/
theorem ctcpRead_cases (env : Env) (offer : Option (List UInt8)) {state : CtcpState}
    (settled : Settled state)
    : (state.bufferSize ≤ 0 ∧ ctcpRead env offer state = state)
      ∨ (0 < state.bufferSize ∧ offer = none
          ∧ ctcpRead env offer state = state.endInput (env.now 0) (env.pad 0))
      ∨ ∃ bytes : SendBuf,
          0 < state.bufferSize
          ∧ connInput state.bufferSize offer = some bytes.val
          ∧ ctcpRead env offer state = state.queueData (env.now 0) (env.pad 0) bytes := by
  unfold ctcpRead
  by_cases full : state.bufferSize ≤ 0
  · simp [full]
  · rw [if_neg full]
    split
    · next bytes returned =>
        refine Or.inr (Or.inr ⟨⟨bytes, connInput_length_le returned⟩, by omega, returned, ?_⟩)
        exact ctcpMakeseg_data settled
    · next returned =>
        refine Or.inr (Or.inl ⟨by omega, Option.map_eq_none_iff.mp returned, ?_⟩)
        have emptied : { state with
            sendBuf := ⟨[], Nat.zero_le _⟩, log.inputEnded := true }
            = { state with log.inputEnded := true } := by rw [settled.bufferEmpty]
        rw [emptied]
        exact ctcpMakeseg_fin
          ⟨settled.bufferEmpty, settled.stamped, settled.timed, settled.allocated⟩

/-- What `conn_input` returned is no longer than was asked for. -/
theorem connInput_length_le_bufferSize {bufferSize : Int} {offer : Option (List UInt8)}
    {bytes : List UInt8} (room : 0 < bufferSize)
    (returned : connInput bufferSize offer = some bytes)
    : (bytes.length : Int) ≤ bufferSize := by
  obtain ⟨offered, -, rfl⟩ := Option.map_eq_some_iff.mp returned
  simp only [List.length_take]
  omega

theorem ctcpRead_updates {effects : Effects} {env : Env} {offer : Option (List UInt8)}
    {state : CtcpState} (settled : Settled state)
    (reading : ∀ site, effects.clock (env.now site)) (queues : effects.queues)
    : Updates effects state (ctcpRead env offer state) := by
  rcases ctcpRead_cases env offer settled with
    ⟨-, same⟩ | ⟨-, -, fin⟩ | ⟨bytes, room, returned, data⟩
  · rw [same]
  · rw [fin]
    exact Updates.one (.endInput _ _ (reading 0) queues)
  · rw [data]
    have fits := connInput_length_le_bufferSize room returned
    exact Updates.one (.queueData _ _ _ (reading 0) queues room fits)

/-- What the timer does to a connection it keeps: nothing, or one retransmission. -/
theorem timerCheck_cases {now : Nat → Int} {state next : CtcpState} (settled : Settled state)
    (checked : timerCheck now state = .ok next)
    : (state.retransDue (now 1) = false ∧ next = state)
      ∨ ∃ node rest,
          state.sw.segments = node :: rest
          ∧ state.teardownDue (now 0) = false
          ∧ state.retransDue (now 1)
          ∧ state.sw.retransCounter < 5
          ∧ next = state.retransmit (now 3) node rest := by
  unfold timerCheck at checked
  split at checked
  · cases checked
  · next notTeardown =>
      split at checked
      · next due =>
          split at checked
          · cases checked
          · next tries =>
              have running : state.sw.timer ≠ -1 := by
                simp only [CtcpState.retransDue, decide_eq_true_eq] at due
                exact due.1
              obtain ⟨node, rest, front⟩ := List.exists_cons_of_ne_nil (settled.timed running)
              refine Or.inr ⟨node, rest, front, by simpa using notTeardown, due, by omega, ?_⟩
              simp only [ctcpRetrans, llFront, front] at checked
              exact (Except.ok.inj checked).symm
      · next notDue =>
          exact Or.inl ⟨by simpa using notDue, (Except.ok.inj checked).symm⟩

theorem timerCheck_updates {effects : Effects} {now : Nat → Int} {state next : CtcpState}
    (settled : Settled state) (reading : ∀ site, effects.clock (now site))
    (retransmits : effects.retransmits) (checked : timerCheck now state = .ok next)
    : Updates effects state next := by
  rcases timerCheck_cases settled checked with ⟨-, rfl⟩ | ⟨node, rest, front, -, due, tries, rfl⟩
  · exact .refl
  · simp only [CtcpState.retransDue, decide_eq_true_eq] at due
    exact Updates.one (.retransmit _ _ _ (reading 3) retransmits front due.1 tries)

-----------------------------------------------------------------------------------------
-- Receiving handlers
-----------------------------------------------------------------------------------------

/-- The window after the loop of the ACK branch, with the timer stopped. -/
def CtcpState.confirm (segment : Segment) (state : CtcpState) : CtcpState :=
  { state with
    sw.size := (confirmLoop segment.receivedAckno state.sw.size state.sw.segments).size
    sw.segments := state.unconfirmed segment
    sw.timer := -1
    sw.retransCounter := 0
    log.acked :=
      state.log.acked ++ state.sw.segments.filter (confirmed segment.receivedAckno) }

/-- A segment acknowledges what it acknowledged before its checksum was verified. -/
theorem Segment.cleared_receivedAckno (segment : Segment)
    : segment.cleared.receivedAckno = segment.receivedAckno := by
  rw [receivedAckno, cleared_ack, receivedAckno]

theorem acknowledgesFront_cleared (segment : Segment) (front : SegmentRef)
    : acknowledgesFront segment.cleared front = acknowledgesFront segment front := by
  rw [acknowledgesFront, Segment.cleared_receivedAckno, acknowledgesFront]

/-- With an empty window the ACK branch has nothing to do. -/
theorem receivedAck_empty (env : Env) (segment : Segment) {state : CtcpState}
    (window : state.sw.segments = [])
    : receivedAck env segment state = state := by
  simp only [receivedAck, llFront, window]

/-- An ACK that covers the first segment takes off what it confirms, and sends what is left. -/
theorem receivedAck_confirms (env : Env) {segment : Segment} {state : CtcpState}
    {node : SegmentRef} {next : List SegmentRef} (front : state.sw.segments = node :: next)
    (acknowledged : acknowledgesFront segment node)
    : receivedAck env segment state = ctcpSend (env.now 2) (state.confirm segment) := by
  simp only [receivedAck, llFront, front, acknowledged, if_true, CtcpState.confirm,
    CtcpState.unconfirmed, confirmLoop_kept, confirmLoop_removed]

/-- An ACK that does not cover the first segment is ignored. -/
theorem receivedAck_ignores (env : Env) {segment : Segment} {state : CtcpState}
    {node : SegmentRef} {next : List SegmentRef} (front : state.sw.segments = node :: next)
    (ignored : acknowledgesFront segment node = false)
    : receivedAck env segment state = state := by
  simp only [receivedAck, llFront, front, ignored, Bool.false_eq_true, if_false]

/-- An ACK that covers the first segment slides the window. -/
theorem receivedAck_slides (env : Env) {segment : Segment} {state : CtcpState}
    (settled : Settled state) {node : SegmentRef} {next : List SegmentRef}
    (front : state.sw.segments = node :: next) (acknowledged : acknowledgesFront segment node)
    : receivedAck env segment state = state.slide (env.now 2) segment := by
  have keptStamped : ∀ other ∈ (state.confirm segment).sw.segments,
      other.segment.cksum ≠ 0 :=
    fun other member => settled.stamped other (List.mem_of_mem_filter member)
  rw [receivedAck_confirms env front acknowledged, ctcpSend_stopped keptStamped rfl rfl]
  rfl

/-- The ACK branch ignores the segment or slides the window. -/
theorem receivedAck_cases (env : Env) (segment : Segment) {state : CtcpState}
    (settled : Settled state)
    : receivedAck env segment state = state
      ∨ ∃ node next,
          state.sw.segments = node :: next
          ∧ acknowledgesFront segment node
          ∧ receivedAck env segment state = state.slide (env.now 2) segment := by
  cases front : state.sw.segments with
  | nil => exact Or.inl (receivedAck_empty env segment front)
  | cons node next =>
      by_cases acknowledged : acknowledgesFront segment node
      · exact Or.inr ⟨node, next, rfl, acknowledged,
          receivedAck_slides env settled front acknowledged⟩
      · exact Or.inl (receivedAck_ignores env front (by simpa using acknowledged))

theorem receivedAck_updates {effects : Effects} {env : Env} {segment : Segment}
    {state : CtcpState} (settled : Settled state)
    (reading : ∀ site, effects.clock (env.now site)) (received : effects.received segment)
    : Updates effects state (receivedAck env segment state) := by
  rcases receivedAck_cases env segment settled with same | ⟨node, next, front, acked, slid⟩
  · rw [same]
  · rw [slid]
    exact Updates.one (.slide _ _ node next (reading 2) received front acked)

/-- `ctcp_output` changes the receive window's list and size, and the outputs. Witness:
induction on the nodes, each of which is dropped or left in place.
-/
theorem outputLoop_keeps (bufspace : Nat → Nat) (call : Nat) (nodes : List SegmentRef)
    (state : CtcpState)
    : ∃ segments size outputs,
        outputLoop bufspace call nodes state
          = { state with rw.segments := segments, rw.size := size, log.outputs := outputs }
        ∧ ∀ node ∈ segments, node ∈ nodes ∨ node ∈ state.rw.segments := by
  induction nodes generalizing call state with
  | nil => exact ⟨_, _, _, rfl, fun _ member => Or.inr member⟩
  | cons node next ih =>
      unfold outputLoop
      split
      · exact ⟨_, _, _, rfl, fun _ member => Or.inr member⟩
      · obtain ⟨segments, size, outputs, equal, inside⟩ := ih (call + 1) _
        refine ⟨segments, size, outputs, equal, fun other member => ?_⟩
        rcases inside other member with later | later <;>
          exact Or.inl (List.mem_cons_of_mem node later)

theorem ctcpOutput_updates {effects : Effects} (env : Env) {state : CtcpState}
    (settled : Settled state) (delivers : effects.delivers)
    : Updates effects state (ctcpOutput env state) := by
  obtain ⟨segments, size, outputs, equal, inside⟩ :=
    outputLoop_keeps env.bufspace 0 (llFront state.rw.segments) state
  rw [ctcpOutput, equal]
  refine Updates.one (.keep segments size outputs delivers ?_)
  intro node member
  exact settled.allocated node ((inside node member).elim id id)

/-- A freshly added object is found in the last node, so no node follows it. -/
theorem llFind_llAdd_fresh {list : List SegmentRef} {object : SegmentRef}
    (fresh : ∀ node ∈ list, node.address ≠ object.address)
    : llFind (llAdd list object) object = [object] := by
  induction list with
  | nil => simp [llFind, llAdd]
  | cons node next ih =>
      have later := ih (fun other member => fresh other (by simp [member]))
      simpa [llFind, llAdd, fresh node (by simp)] using later

/-- Inserting a segment of the future adds no other object, by induction on the nodes. -/
theorem insertFuture_mem {object : SegmentRef} {list segments : List SegmentRef}
    {inTheBack : Bool} (inserted : insertFuture object list = some (segments, inTheBack))
    : ∀ node ∈ segments, node = object ∨ node ∈ list := by
  fun_induction insertFuture object list generalizing segments inTheBack with
  | case1 => cases inserted
  | case2 last =>
      obtain ⟨rfl, rfl⟩ := Prod.mk.inj (Option.some.inj inserted)
      exact fun node member => Or.inr member
  | case3 node nextSeg next before =>
      obtain ⟨rfl, rfl⟩ := Prod.mk.inj (Option.some.inj inserted)
      intro other member
      simp only [List.mem_cons] at member ⊢
      tauto
  | case4 node nextSeg next notBefore ih =>
      obtain ⟨⟨rest, flag⟩, later, same⟩ := Option.map_eq_some_iff.mp inserted
      obtain ⟨rfl, rfl⟩ := Prod.mk.inj same
      intro other member
      rcases List.mem_cons.mp member with head | tail
      · exact Or.inr (by simp [head])
      · exact (ih later other tail).imp_right (List.mem_cons_of_mem node)

/-- The expected segment is accepted, acknowledged, and offered for output. -/
theorem receivedInOrder_eq {env : Env} {object : SegmentRef} {state : CtcpState}
    (fresh : ∀ node ∈ state.rw.segments, node.address ≠ object.address)
    : receivedInOrder env object state
      = some
          (ctcpOutput env
            ({ state with
              rw.segments := llAdd state.rw.segments object
              rw.size := int32 (state.rw.size + object.segment.data.length)
              rw.ackno := int32 (state.rw.ackno + object.segment.data.length)
              log.accepted := state.log.accepted ++ object.segment.data }.answer (env.pad 0)
                .ack)) := by
  simp [receivedInOrder, llFind_llAdd_fresh fresh, advanceAckno]

/-- A received object is allocated, and not yet in the receive window. -/
structure Arrived (object : SegmentRef) (state : CtcpState) : Prop where
  allocated : object.address < state.nextAddress
  fresh : ∀ node ∈ state.rw.segments, node.address ≠ object.address

theorem receivedInOrder_updates {effects : Effects} {env : Env} {object : SegmentRef}
    {state next : CtcpState} (settled : Settled state) (arrived : Arrived object state)
    (received : effects.received object.segment) (delivers : effects.delivers)
    (expected : object.segment.seq = uint32 state.rw.ackno)
    (inOrder : receivedInOrder env object state = some next)
    : Updates effects state next := by
  rw [receivedInOrder_eq arrived.fresh] at inOrder
  obtain rfl := Option.some.inj inOrder
  have allocated : ∀ node ∈ llAdd state.rw.segments object, node.address < state.nextAddress := by
    intro node member
    rcases List.mem_append.mp member with old | new
    · exact settled.allocated node old
    · exact List.mem_singleton.mp new ▸ arrived.allocated
  have accept : Update effects state _ :=
    .accept object.segment (llAdd state.rw.segments object)
      (int32 (state.rw.size + object.segment.data.length)) received delivers expected allocated
  have answered := (Updates.one accept).tail (.ack (env.pad 0))
  exact answered.trans (ctcpOutput_updates env (Updates.settled answered settled) delivers)

theorem receivedFuture_updates {effects : Effects} {object : SegmentRef}
    {state next : CtcpState} (settled : Settled state) (delivers : effects.delivers)
    (allocated : object.address < state.nextAddress)
    (received : receivedFuture object state = some next)
    : Updates effects state next := by
  unfold receivedFuture at received
  cases inserted : insertFuture object (llFront state.rw.segments) with
  | none => simp [inserted] at received
  | some result =>
      obtain ⟨segments, inTheBack⟩ := result
      simp only [inserted, Option.some.injEq] at received
      subst received
      have inside : ∀ node ∈ segments, node.address < state.nextAddress := by
        intro node member
        rcases insertFuture_mem inserted node member with new | old
        · exact new ▸ allocated
        · exact settled.allocated node old
      refine Updates.one (.keep _ _ state.log.outputs delivers ?_)
      intro node member
      cases inTheBack with
      | false => exact inside node member
      | true =>
          rcases List.mem_append.mp member with old | new
          · exact inside node old
          · exact List.mem_singleton.mp new ▸ allocated

/-- A duplicate is acknowledged, and the receive window left alone. -/
theorem gotDuplicate_updates (effects : Effects) (env : Env) {object : SegmentRef}
    {state : CtcpState} (arrived : Arrived object state)
    : Updates effects state (gotDuplicate env object.segment state)
      ∧ Arrived object (gotDuplicate env object.segment state) := by
  unfold gotDuplicate
  split
  · exact ⟨Updates.one (.ack _), Nat.lt_succ_of_lt arrived.allocated, arrived.fresh⟩
  · exact ⟨.refl, arrived⟩

/-- `ctcp_output` allocates nothing. -/
theorem ctcpOutput_nextAddress (env : Env) (state : CtcpState)
    : (ctcpOutput env state).nextAddress = state.nextAddress := by
  obtain ⟨_, _, _, equal, -⟩ :=
    outputLoop_keeps env.bufspace 0 (llFront state.rw.segments) state
  rw [ctcpOutput, equal]

/-- The expected segment is accepted; any other leaves the connection alone. -/
theorem gotExpected_updates {effects : Effects} {env : Env} {object : SegmentRef}
    {len : Nat} {state next : CtcpState} (settled : Settled state)
    (arrived : Arrived object state) (received : effects.received object.segment)
    (delivers : effects.delivers) (inOrder : gotExpected env object len state = some next)
    : Updates effects state next ∧ object.address < next.nextAddress := by
  unfold gotExpected at inOrder
  split at inOrder
  · next expected =>
      simp only [CtcpState.inOrder, decide_eq_true_eq] at expected
      refine ⟨receivedInOrder_updates settled arrived received delivers expected.1 inOrder, ?_⟩
      rw [receivedInOrder_eq arrived.fresh] at inOrder
      rw [← Option.some.inj inOrder, ctcpOutput_nextAddress]
      exact Nat.lt_succ_of_lt arrived.allocated
  · rw [← Option.some.inj inOrder]
    exact ⟨.refl, arrived.allocated⟩

/-- A segment of the future is kept; any other leaves the connection alone. -/
theorem gotFuture_updates {effects : Effects} {object : SegmentRef} {len : Nat}
    {state next : CtcpState} (settled : Settled state) (delivers : effects.delivers)
    (allocated : object.address < state.nextAddress)
    (received : gotFuture object len state = some next)
    : Updates effects state next := by
  unfold gotFuture at received
  split at received
  · exact receivedFuture_updates settled delivers allocated received
  · rw [← Option.some.inj received]

/-- The data branch acknowledges, accepts or keeps a segment, without touching the send
window.
-/
theorem receivedData_updates {effects : Effects} {env : Env} {object : SegmentRef}
    {len : Nat} {state next : CtcpState} (settled : Settled state)
    (arrived : Arrived object state) (received : effects.received object.segment)
    (delivers : effects.delivers) (data : receivedData env object len state = some next)
    : Updates effects state next := by
  unfold receivedData at data
  obtain ⟨accepted, inOrder, future⟩ := Option.bind_eq_some_iff.mp data
  obtain ⟨first, stillFresh⟩ := gotDuplicate_updates effects env arrived
  have settledFirst := Updates.settled first settled
  obtain ⟨second, allocated⟩ :=
    gotExpected_updates settledFirst stillFresh received delivers inOrder
  have settledSecond := Updates.settled second settledFirst
  exact (first.trans second).trans (gotFuture_updates settledSecond delivers allocated future)

/-- The FIN branch, with the own FIN it may queue. -/
theorem receivedFin_eq (env : Env) (segment : Segment) {state : CtcpState}
    (settled : Settled state)
    : receivedFin env segment state
      = if state.timerTeardown = -1 then
          (state.answerFin (env.pad 0) segment).queueFin (env.now 0) (env.pad 1)
        else
          state.answerFin (env.pad 0) segment := by
  have answered : Settled (state.answerFin (env.pad 0) segment) :=
    ⟨settled.bufferEmpty, settled.stamped, settled.timed,
      fun node member => Nat.lt_succ_of_lt (settled.allocated node member)⟩
  rw [← ctcpMakeseg_fin answered]
  rfl

/-- The header steps leave the receive window alone and allocate only. -/
theorem gotFin_arrived (env : Env) (segment : Segment) (len : Nat) {object : SegmentRef}
    {state : CtcpState} (settled : Settled state) (arrived : Arrived object state)
    : Arrived object (gotFin env segment len state) := by
  unfold gotFin
  split
  · rw [receivedFin_eq env segment settled]
    split
    · exact ⟨Nat.lt_add_right 2 arrived.allocated, arrived.fresh⟩
    · exact ⟨Nat.lt_succ_of_lt arrived.allocated, arrived.fresh⟩
  · exact arrived

theorem gotFin_updates {effects : Effects} {env : Env} {segment : Segment} (len : Nat)
    {state : CtcpState} (settled : Settled state)
    (reading : ∀ site, effects.clock (env.now site)) (received : effects.received segment)
    (queues : segment.flags &&& thFin ≠ 0 → effects.queues)
    : Updates effects state (gotFin env segment len state) := by
  unfold gotFin
  split
  · next fin =>
      simp only [finArrived, decide_eq_true_eq] at fin
      rw [receivedFin_eq env segment settled]
      split
      · exact (Updates.one (.finAck _ _ received fin.1)).tail
          (.queueFin _ _ (reading 0) (queues fin.1))
      · exact Updates.one (.finAck _ _ received fin.1)
  · exact .refl

theorem gotFinAck_updates {effects : Effects} {env : Env} {segment : Segment} {len : Nat}
    {state : CtcpState}
    : Updates effects state (gotFinAck env segment len state) := by
  unfold gotFinAck
  split
  · exact Updates.one (.arm _)
  · exact .refl

/-- The steps before the data and ACK branches: the window is noted, a FIN is answered and
reacted to, the teardown timer is armed.
-/
theorem receivedHeader_updates {effects : Effects} {env : Env} {segment : Segment}
    (len : Nat) {state : CtcpState} (settled : Settled state)
    (reading : ∀ site, effects.clock (env.now site)) (received : effects.received segment)
    (queues : segment.flags &&& thFin ≠ 0 → effects.queues)
    : Updates effects state (receivedHeader env segment len state) := by
  have noted : Updates effects state _ := Updates.one (.window segment received)
  have fin := gotFin_updates len (Updates.settled noted settled) reading received queues
  exact (noted.trans fin).trans gotFinAck_updates

theorem receivedHeader_settled (env : Env) (segment : Segment) (len : Nat)
    {state : CtcpState} (settled : Settled state)
    : Settled (receivedHeader env segment len state) := by
  have header : Updates .any state (receivedHeader env segment len state) :=
    receivedHeader_updates len settled (fun _ => trivial) trivial (fun _ => trivial)
  exact header.settled settled

/-- The header steps leave the receive window alone. -/
theorem receivedHeader_arrived {env : Env} {segment : Segment} {len : Nat}
    {object : SegmentRef} {state : CtcpState} (settled : Settled state)
    (arrived : Arrived object state)
    : Arrived object (receivedHeader env segment len state) := by
  have noted : Settled (noteWindow segment state) :=
    ⟨settled.bufferEmpty, settled.stamped, settled.timed, settled.allocated⟩
  have noWindow : Arrived object (noteWindow segment state) :=
    ⟨arrived.allocated, arrived.fresh⟩
  have fin := gotFin_arrived env segment len noted noWindow
  unfold receivedHeader gotFinAck
  split
  · exact ⟨fin.allocated, fin.fresh⟩
  · exact fin

theorem receivedBody_updates {effects : Effects} {env : Env} {object : SegmentRef}
    {len : Nat} {state next : CtcpState} (settled : Settled state)
    (arrived : Arrived object state) (reading : ∀ site, effects.clock (env.now site))
    (received : effects.received object.segment) (delivers : effects.delivers)
    (body : receivedBody env object len state = some next)
    : Updates effects state next := by
  unfold receivedBody at body
  split at body
  · exact receivedData_updates settled arrived received delivers body
  · split at body
    · obtain rfl := Option.some.inj body
      exact receivedAck_updates settled reading received
    · obtain rfl := Option.some.inj body
      exact .refl

theorem ctcpReceive_updates {effects : Effects} {env : Env} {object : SegmentRef}
    {len : Nat} {state next : CtcpState} (settled : Settled state)
    (arrived : Arrived object state) (reading : ∀ site, effects.clock (env.now site))
    (received : checksum object.segment → effects.received object.segment.cleared)
    (queues : object.segment.flags &&& thFin ≠ 0 → effects.queues)
    (delivers : effects.delivers)
    (done : ctcpReceive env object len state = some next)
    : Updates effects state next := by
  unfold ctcpReceive at done
  split at done
  · obtain rfl := Option.some.inj done
    exact .refl
  · next verified =>
    have accepted := received (by simpa using verified)
    have cleared : Arrived { object with segment := object.segment.cleared } state :=
      ⟨arrived.allocated, arrived.fresh⟩
    have queuesCleared : object.segment.cleared.flags &&& thFin ≠ 0 → effects.queues := by
      rw [Segment.cleared_flags]
      exact queues
    have header := receivedHeader_updates len settled reading accepted queuesCleared
    exact header.trans
      (receivedBody_updates (Updates.settled header settled)
        (receivedHeader_arrived settled cleared) reading accepted delivers done)

-----------------------------------------------------------------------------------------
-- Steps and runs
-----------------------------------------------------------------------------------------

/-- The effects a call may have: it stores its own clock readings, acts on the segment it
verified, and queues or retransmits as its handler does.
-/
def Call.effects (call : Call) : Effects where
  clock := fun time => ∃ site, time = call.env.now site
  received := fun segment =>
    match call with
    | .receive _ arrived _ => checksum arrived ∧ segment = arrived.cleared
    | _ => False
  queues :=
    match call with
    | .read .. | .receive .. => True
    | .output .. | .timer .. => False
  retransmits :=
    match call with
    | .timer .. => True
    | _ => False
  delivers :=
    match call with
    | .receive .. | .output .. => True
    | .read .. | .timer .. => False

/-- The timer returns where `timerCheck` does not destroy the connection. -/
theorem step_timer {env : Env} {state next : CtcpState}
    (taken : step state (.timer env) = some next)
    : timerCheck env.now state = .ok next := by
  simp only [step, Call.run] at taken
  split at taken
  · cases taken
  · next checked =>
      obtain rfl := Option.some.inj taken
      exact checked

/-- Every call of a handler is a sequence of updates. -/
theorem step_updates {state next : CtcpState} {call : Call} (settled : Settled state)
    (taken : step state call = some next)
    : Updates call.effects state next := by
  have reading : ∀ site, call.effects.clock (call.env.now site) := fun site => ⟨site, rfl⟩
  cases call with
  | read env offer =>
      obtain rfl := Option.some.inj taken
      exact ctcpRead_updates settled reading trivial
  | output env =>
      obtain rfl := Option.some.inj taken
      exact ctcpOutput_updates env settled trivial
  | timer env => exact timerCheck_updates settled reading trivial (step_timer taken)
  | receive env segment len =>
      simp only [step, Call.run] at taken
      split at taken
      · cases taken
      · next received =>
          obtain rfl := Option.some.inj taken
          have allocate : Updates (Call.receive env segment len).effects state _ :=
            Updates.one .allocate
          have arrived : Arrived { address := state.nextAddress, segment := segment }
              { state with nextAddress := state.nextAddress + 1 } :=
            ⟨Nat.lt_succ_self _,
              fun node member => Nat.ne_of_lt (settled.allocated node member)⟩
          exact allocate.trans
            (ctcpReceive_updates (Updates.settled allocate settled) arrived reading
              (fun verified => ⟨verified, rfl⟩) (fun _ => trivial) trivial received)

/-- The connection that has room for one more object. -/
def CtcpState.allocate (state : CtcpState) : CtcpState :=
  { state with nextAddress := state.nextAddress + 1 }

theorem Settled.allocate {state : CtcpState} (settled : Settled state)
    : Settled state.allocate :=
  ⟨settled.bufferEmpty, settled.stamped, settled.timed,
    fun node member => Nat.lt_succ_of_lt (settled.allocated node member)⟩

/-- The object a segment is received into. -/
def CtcpState.receivedObject (segment : Segment) (state : CtcpState) : SegmentRef where
  address := state.nextAddress
  segment := segment.cleared

theorem Settled.arrived {state : CtcpState} (settled : Settled state) (segment : Segment)
    : Arrived (state.receivedObject segment) state.allocate :=
  ⟨Nat.lt_succ_self _, fun node member => Nat.ne_of_lt (settled.allocated node member)⟩

/-- A received segment is dropped when it does not verify; otherwise it goes through the
header steps and one of the branches.
-/
theorem receive_eq (env : Env) (segment : Segment) (len : Nat) (state : CtcpState)
    : step state (.receive env segment len)
      = if checksum segment = false then
          some state.allocate
        else
          receivedBody env (state.receivedObject segment) len
            (receivedHeader env segment.cleared len state.allocate) := by
  simp only [step, Call.run, ctcpReceive]
  by_cases rejected : checksum segment = false
  · rw [if_pos rejected, if_pos rejected]
    rfl
  · rw [if_neg rejected, if_neg rejected]
    simp only [CtcpState.allocate, CtcpState.receivedObject]
    split
    · next failed => rw [failed]; rfl
    · next next received => rw [received]; rfl

theorem receive_cases {env : Env} {segment : Segment} {len : Nat} {state next : CtcpState}
    (taken : step state (.receive env segment len) = some next)
    : (checksum segment = false ∧ next = state.allocate)
      ∨ (checksum segment = true
        ∧ receivedBody env (state.receivedObject segment) len
            (receivedHeader env segment.cleared len state.allocate)
          = some next) := by
  rw [receive_eq] at taken
  split at taken
  · next rejected => exact Or.inl ⟨rejected, (Option.some.inj taken).symm⟩
  · next verified => exact Or.inr ⟨by simpa using verified, taken⟩

/-- What every update keeps, a sequence of updates keeps. -/
theorem Updates.invariant {effects : Effects} {inv : CtcpState → Prop}
    (kept
      : ∀ {state next}, Settled state → inv state → Update effects state next → inv next)
    {state next : CtcpState} (updates : Updates effects state next) (settled : Settled state)
    (start : inv state)
    : inv next := by
  induction updates with
  | refl => exact start
  | tail before update ih => exact kept (Updates.settled before settled) ih update

/-- A property of settled connections that every update of a good call keeps holds after
every run of good calls.
-/
theorem runFrom_invariant (good : Call → Prop) (inv : CtcpState → Prop)
    (kept
      : ∀ {call state next},
          good call → Settled state → inv state → Update call.effects state next → inv next)
    {cfg : CtcpConfig} (start : inv (ctcpInit cfg)) {calls : List Call} {state : CtcpState}
    (allGood : ∀ call ∈ calls, good call) (reached : runFrom cfg calls = some state)
    : Settled state ∧ inv state := by
  refine StepRuns.exec_invariant_of_guard (fun _ call => good call)
    (fun state => Settled state ∧ inv state) ?_ ⟨ctcpInit_settled cfg, start⟩
    (StepRuns.allSteps_of_forall allGood) reached
  intro state call next held goodCall taken
  have updates := step_updates held.1 taken
  exact ⟨Updates.settled updates held.1, updates.invariant (kept goodCall) held.1 held.2⟩

end Networks.Ctcp
