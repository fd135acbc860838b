import Networks.Ctcp.Endpoints
import Networks.Ctcp.Reception

/-! What the arrival of a segment does, by the kind of segment. Between two connected
endpoints only four kinds of flags are on their way, and two of them are one FIN-ACK before
and after its conversion to a packet.
-/

namespace Networks.Ctcp

open MachineIntegers

/-- The sending half of a connection is the same, but for what was sent without being queued.
-/
structure SameSending (state next : CtcpState) : Prop where
  sw : next.sw = state.sw
  timerTeardown : next.timerTeardown = state.timerTeardown
  input : next.log.input = state.log.input
  inputEnded : next.log.inputEnded = state.log.inputEnded
  queued : next.log.queued = state.log.queued
  acked : next.log.acked = state.log.acked
  fins : next.log.fins = state.log.fins

theorem SameSending.refl (state : CtcpState) : SameSending state state :=
  ⟨rfl, rfl, rfl, rfl, rfl, rfl, rfl⟩

theorem SameSending.trans {first second third : CtcpState}
    (left : SameSending first second) (right : SameSending second third)
    : SameSending first third where
  sw := right.sw.trans left.sw
  timerTeardown := right.timerTeardown.trans left.timerTeardown
  input := right.input.trans left.input
  inputEnded := right.inputEnded.trans left.inputEnded
  queued := right.queued.trans left.queued
  acked := right.acked.trans left.acked
  fins := right.fins.trans left.fins

/-- `ctcp_output` sends nothing. -/
theorem ctcpOutput_sameSending (env : Env) (state : CtcpState)
    : SameSending state (ctcpOutput env state)
      ∧ (ctcpOutput env state).log.sent = state.log.sent := by
  obtain ⟨_, _, _, equal, -⟩ :=
    outputLoop_keeps env.bufspace 0 (llFront state.rw.segments) state
  rw [ctcpOutput, equal]
  exact ⟨⟨rfl, rfl, rfl, rfl, rfl, rfl, rfl⟩, rfl⟩

/-- The case of a segment of the future sends nothing. -/
theorem gotFuture_sameSending {object : SegmentRef} {len : Nat} {state next : CtcpState}
    (future : gotFuture object len state = some next)
    : SameSending state next ∧ next.log.sent = state.log.sent := by
  unfold gotFuture receivedFuture at future
  split at future
  · split at future
    · cases future
    · obtain rfl := Option.some.inj future
      exact ⟨⟨rfl, rfl, rfl, rfl, rfl, rfl, rfl⟩, rfl⟩
  · obtain rfl := Option.some.inj future
    exact ⟨.refl state, rfl⟩

/-- Whether a data segment makes `ctcp_receive` send an ACK: it is a duplicate, or expected
and small enough.
-/
def CtcpState.acknowledges (segment : Segment) (len : Nat) (state : CtcpState) : Bool :=
  segment.seq < uint32 state.rw.ackno ∨ state.inOrder segment len

/-- One ACK has been sent, built from the given connection's send window. -/
def SentAck (state next : CtcpState) : Prop :=
  ∃ ack,
    next.log.sent = state.log.sent ++ [ack]
    ∧ ack.object.segment.window = (state.newSegment 0 .ack).segment.window
    ∧ ack.object.segment.flags = thAck

theorem sentAck_answer {state builder : CtcpState} (pad : UInt16)
    (sw : builder.sw = state.sw) (sent : builder.log.sent = state.log.sent)
    : SentAck state (builder.answer pad .ack) := by
  refine ⟨_, by rw [CtcpState.answer, sent], ?_, rfl⟩
  simp only [Segment.summed_window, CtcpState.newSegment, sw]

/-- The data branch leaves the sending half alone, but for one ACK. -/
theorem receivedData_sending {env : Env} {object : SegmentRef} {len : Nat}
    {state next : CtcpState} (arrived : Arrived object state)
    (data : receivedData env object len state = some next)
    : SameSending state next
      ∧ (next.log.sent = state.log.sent
        ∨ state.acknowledges object.segment len ∧ SentAck state next) := by
  by_cases inOrder : state.inOrder object.segment len
  · obtain ⟨expected, fits⟩ := CtcpState.inOrder_iff.mp inOrder
    rw [receivedData_expected arrived expected fits] at data
    obtain ⟨sameFuture, sentFuture⟩ := gotFuture_sameSending data
    obtain ⟨sameOutput, sentOutput⟩ :=
      ctcpOutput_sameSending env (state.acknowledged (env.pad 0) object)
    have acknowledged : SameSending state (state.acknowledged (env.pad 0) object) :=
      ⟨rfl, rfl, rfl, rfl, rfl, rfl, rfl⟩
    obtain ⟨ack, sent, built⟩ : SentAck state (state.acknowledged (env.pad 0) object) :=
      sentAck_answer (env.pad 0) rfl rfl
    refine ⟨(acknowledged.trans sameOutput).trans sameFuture, Or.inr ⟨?_, ack, ?_, built⟩⟩
    · simp only [CtcpState.acknowledges, inOrder, or_true, decide_true]
    · exact (sentFuture.trans sentOutput).trans sent
  · rw [receivedData_unexpected inOrder] at data
    obtain ⟨sameFuture, sentFuture⟩ := gotFuture_sameSending data
    by_cases duplicate : object.segment.seq < uint32 state.rw.ackno
    · rw [gotDuplicate, if_pos duplicate, ctcpMakeseg_ack] at sameFuture sentFuture
      have answered : SameSending state (state.answer (env.pad 0) .ack) :=
        ⟨rfl, rfl, rfl, rfl, rfl, rfl, rfl⟩
      obtain ⟨ack, sent, built⟩ : SentAck state (state.answer (env.pad 0) .ack) :=
        sentAck_answer (env.pad 0) rfl rfl
      refine ⟨answered.trans sameFuture, Or.inr ⟨?_, ack, sentFuture.trans sent, built⟩⟩
      simp only [CtcpState.acknowledges, duplicate, true_or, decide_true]
    · rw [gotDuplicate, if_neg duplicate] at sameFuture sentFuture
      exact ⟨sameFuture, Or.inl sentFuture⟩

-----------------------------------------------------------------------------------------
-- Kinds of segments
-----------------------------------------------------------------------------------------

/-- The segments a connection sends are marked as ACK, FIN or FIN-ACK, the queued ones as ACK
or FIN. A FIN-ACK is only sent after a FIN was received.
-/
structure Flagged (state : CtcpState) : Prop where
  sent
    : ∀ sent ∈ state.log.sent,
        sent.object.segment.flags = thAck
        ∨ sent.object.segment.flags = thFin
        ∨ (sent.object.segment.flags = htonl 0x11 ∧ state.log.fins ≠ [])
  queued
    : ∀ node ∈ state.sw.segments,
        node.segment.flags = thAck ∨ node.segment.flags = thFin

theorem ctcpInit_flagged (cfg : CtcpConfig) : Flagged (ctcpInit cfg) := by
  constructor <;> simp [ctcpInit]

theorem Flagged.send {state next : CtcpState} {sent : Transmission}
    (flagged : Flagged state) (log : next.log.sent = state.log.sent ++ [sent])
    (fins : state.log.fins <+: next.log.fins)
    (flags
      : sent.object.segment.flags = thAck
        ∨ sent.object.segment.flags = thFin
        ∨ (sent.object.segment.flags = htonl 0x11 ∧ next.log.fins ≠ []))
    (queued
      : ∀ node ∈ next.sw.segments,
          node.segment.flags = thAck ∨ node.segment.flags = thFin)
    : Flagged next := by
  refine ⟨?_, queued⟩
  intro other member
  rw [log] at member
  rcases List.mem_append.mp member with old | new
  · refine (flagged.sent other old).imp_right (Or.imp_right ?_)
    rintro ⟨isFinAck, some⟩
    exact ⟨isFinAck, fun none => some (List.prefix_nil.mp (none ▸ fins))⟩
  · rw [List.mem_singleton.mp new]
    exact flags

/-- Queueing a segment with the flags of an ACK or a FIN, and sending it. -/
theorem Flagged.transmitNew {state : CtcpState} (flagged : Flagged state) (now : Int)
    (object : SegmentRef) (flags : object.segment.flags = thAck ∨ object.segment.flags = thFin)
    : Flagged (state.transmitNew now object) := by
  have stamped := object.stamp_flags state.acknoField
  refine flagged.send rfl (List.prefix_refl _) ?_ ?_
  · rw [stamped]
    exact flags.imp_right Or.inl
  · intro node member
    rcases List.mem_append.mp member with old | new
    · exact flagged.queued node old
    · rw [List.mem_singleton.mp new, stamped]
      exact flags

/-- Every update keeps the flags. -/
theorem Update.flagged {effects : Effects} {state next : CtcpState}
    (update : Update effects state next) (flagged : Flagged state)
    : Flagged next := by
  cases update with
  | ack pad =>
      exact flagged.send rfl (List.prefix_refl _) (Or.inl rfl) flagged.queued
  | finAck pad segment received isFin =>
      refine flagged.send rfl (List.prefix_append _ _) (Or.inr (Or.inr ⟨rfl, ?_⟩))
        flagged.queued
      exact List.append_ne_nil_of_right_ne_nil _ (by simp)
  | endInput now pad reading queues =>
      have noted : Flagged { state with log.inputEnded := true } :=
        ⟨flagged.sent, flagged.queued⟩
      exact noted.transmitNew now _ (Or.inr rfl)
  | queueFin now pad reading queues => exact flagged.transmitNew now _ (Or.inr rfl)
  | queueData now pad bytes reading queues room fits =>
      have queued := flagged.transmitNew now (state.dataSegment pad bytes) (Or.inl rfl)
      exact ⟨queued.sent, queued.queued⟩
  | slide now segment node next reading received front acknowledged =>
      exact ⟨flagged.sent, fun node member => flagged.queued node (List.mem_of_mem_filter member)⟩
  | retransmit now node next reading retransmits front running tries =>
      have first := flagged.queued node (by simp [front])
      have stamped := node.stamp_flags state.acknoField
      refine flagged.send rfl (List.prefix_refl _) ?_ ?_
      · rw [stamped]
        exact first.imp_right Or.inl
      · intro other member
        rcases List.mem_cons.mp member with same | later
        · rw [same, stamped]
          exact first
        · exact flagged.queued other (by simp [front, later])
  | _ => exact ⟨flagged.sent, flagged.queued⟩

/-- The kinds of flags that arrive for what a connection sent. -/
inductive ArrivingFlags (sender : CtcpState) : UInt32 → Prop
  | ack : ArrivingFlags sender thAck
  | fin : ArrivingFlags sender thFin
  | finAck (some : sender.log.fins ≠ []) : ArrivingFlags sender (htonl 0x11)
  | convertedFinAck (some : sender.log.fins ≠ []) : ArrivingFlags sender 0

/-- Only a FIN-ACK arrives without flags, so the sender has heard a FIN. -/
theorem ArrivingFlags.heard_fin {sender : CtcpState} {flags : UInt32}
    (arriving : ArrivingFlags sender flags) (none : flags = 0)
    : sender.log.fins ≠ [] := by
  cases arriving with
  | ack => exact absurd none (by decide)
  | fin => exact absurd none (by decide)
  | finAck some => exact some
  | convertedFinAck some => exact some

theorem Flagged.arriving {sender : CtcpState} (flagged : Flagged sender) {sent : Transmission}
    (member : sent ∈ sender.log.sent) {arrived : Segment}
    (carried : Carried sent.object.segment arrived)
    : ArrivingFlags sender arrived.flags := by
  have lowAck : thAck.toUInt8.toUInt32 = thAck := by decide
  have lowFin : thFin.toUInt8.toUInt32 = thFin := by decide
  have lowFinAck : (htonl 0x11).toUInt8.toUInt32 = 0 := by decide
  rcases flagged.sent sent member with isAck | isFin | ⟨isFinAck, some⟩
  · rcases carried.flags with whole | low
    · rw [whole, isAck]
      exact .ack
    · rw [low, isAck, lowAck]
      exact .ack
  · rcases carried.flags with whole | low
    · rw [whole, isFin]
      exact .fin
    · rw [low, isFin, lowFin]
      exact .fin
  · rcases carried.flags with whole | low
    · rw [whole, isFinAck]
      exact .finAck some
    · rw [low, isFinAck, lowFinAck]
      exact .convertedFinAck some

-----------------------------------------------------------------------------------------
-- What an arrival does
-----------------------------------------------------------------------------------------

/-- A segment has been received into a new object, verified, and its window noted. -/
def CtcpState.noted (arrived : Segment) (state : CtcpState) : CtcpState :=
  noteWindow arrived.cleared state.allocate

/-- A FIN has been answered by a FIN-ACK. -/
def CtcpState.finNoted (env : Env) (arrived : Segment) (state : CtcpState) : CtcpState :=
  (state.noted arrived).answerFin (env.pad 0) arrived.cleared

/-- The teardown timer has been started. -/
def CtcpState.armed (env : Env) (arrived : Segment) (state : CtcpState) : CtcpState :=
  { state.noted arrived with timerTeardown := env.now 1 }

/-- The state after the arrival of a segment, by its flags and payload. -/
inductive Reaction (env : Env) (arrived : Segment) (state : CtcpState) : CtcpState → Prop
  | rejected (invalid : checksum arrived = false) : Reaction env arrived state state.allocate
  | data {next} (verified : checksum arrived) (payload : arrived.data ≠ [])
    (same : SameSending (state.noted arrived) next)
    (sent
      : next.log.sent = state.log.sent
        ∨ (state.acknowledges arrived (segHeaderSize + arrived.data.length)
          ∧ SentAck (state.noted arrived) next))
    : Reaction env arrived state next
  | ack (verified : checksum arrived) (empty : arrived.data = [])
    (flags : arrived.flags = thAck)
    : Reaction env arrived state (receivedAck env arrived.cleared (state.noted arrived))
  | fin (verified : checksum arrived) (empty : arrived.data = [])
    (flags : arrived.flags = thFin) (running : state.timerTeardown ≠ -1)
    : Reaction env arrived state (state.finNoted env arrived)
  | finReturned (verified : checksum arrived) (empty : arrived.data = [])
    (flags : arrived.flags = thFin) (stopped : state.timerTeardown = -1)
    : Reaction env arrived state
        ((state.finNoted env arrived).queueFin (env.now 0) (env.pad 1))
  | finAck (verified : checksum arrived) (empty : arrived.data = [])
    (flags : arrived.flags = htonl 0x11)
    : Reaction env arrived state (state.noted arrived)
  | convertedFinAck (verified : checksum arrived) (empty : arrived.data = [])
    (flags : arrived.flags = 0)
    : Reaction env arrived state (receivedAck env arrived.cleared (state.armed env arrived))

theorem Settled.noted {state : CtcpState} (settled : Settled state) (arrived : Segment)
    : Settled (state.noted arrived) :=
  ⟨settled.bufferEmpty, settled.stamped, settled.timed, settled.allocate.allocated⟩

theorem Settled.arrived_noted {state : CtcpState} (settled : Settled state) (arrived : Segment)
    : Arrived (state.receivedObject arrived) (state.noted arrived) :=
  ⟨(settled.arrived arrived).allocated, (settled.arrived arrived).fresh⟩

/-- By its length a segment has no payload exactly when it has none. -/
theorem received_length_eq_zero (arrived : Segment)
    : sizeT ((segHeaderSize + arrived.data.length : Nat) - segHeaderSize) = 0
      ↔ arrived.data = [] := by
  have bound := arrived.length_data_lt
  have amount : (((segHeaderSize + arrived.data.length : Nat) : Int) - segHeaderSize)
      = (arrived.data.length : Int) := by
    push_cast
    omega
  rw [amount, sizeT_natCast (by omega), List.length_eq_zero_iff]

end Networks.Ctcp
