import Networks.Ctcp.Acknowledgements
import Networks.Ctcp.Restamping
import Networks.Ctcp.WholeSegments

/-! Whether a connection recovers from losses. `ctcp_retrans` sums over the old checksum field,
so every second transmission of a segment with one ackno verifies, and that is enough: while the
ackno stands still, a timer that fires in time and a network that delivers again empty the send
window.
-/

namespace Networks.Ctcp

open MachineIntegers StreamPieces

-----------------------------------------------------------------------------------------
-- Transmissions with one ackno
-----------------------------------------------------------------------------------------

section Alternation

variable {before after : Segment} {history : List Segment} {ackno : UInt32}

/-- A retransmission with the same ackno sums over the same body. -/
theorem Segment.Restamps.sameBody (restamps : before.Restamps after)
    (same : after.ackno = before.ackno)
    : after.bodySum = before.bodySum := by
  obtain ⟨stamped, rfl⟩ := restamps
  obtain rfl : stamped = before.ackno := same
  simp only [Segment.bodySum, Segment.summed, Segment.cleared]

/-- As long as the ackno stands still, a transmission verifies or the next one will. -/
theorem Stampings.alternates (stampings : Stampings history)
    (steady : ∀ segment ∈ history, segment.ackno = ackno)
    : ∀ segment ∈ history, checksum segment ∨ segment.field % 65535 = 0 := by
  induction history using List.reverseRecOn with
  | nil => simp
  | append_singleton earlier last ih =>
      have old := ih stampings.front (fun segment member => steady segment (by simp [member]))
      intro segment member
      rcases List.mem_append.mp member with inFront | isLast
      · exact old segment inFront
      · obtain rfl := List.mem_singleton.mp isLast
        rcases List.eq_nil_or_concat earlier with rfl | ⟨first, previous, rfl⟩
        · exact Or.inl (stampings.first segment rfl)
        · rw [List.concat_eq_append] at *
          have restamps := stampings.restamps
          rcases old previous (by simp) with verified | zero
          · right
            have field := checksum_field verified
            have sum := restamps.field_add
            have same : segment.ackno = previous.ackno :=
              (steady segment (by simp)).trans (steady previous (by simp)).symm
            rw [restamps.sameBody same] at sum
            omega
          · exact Or.inl (restamps.checksum_iff.mpr zero)

end Alternation

-----------------------------------------------------------------------------------------
-- What a connection needs to recover
-----------------------------------------------------------------------------------------

/-- A connection that may retransmit what it has queued: neither timer ends it before another
`5 - tries` transmissions, all of its segments have a payload, and it has only transmitted them
with the ackno it still has.
-/
structure Recoverable (tries : Int) (state : CtcpState) : Prop where
  calm : state.timerTeardown = -1
  running : state.sw.segments ≠ [] → state.sw.timer ≠ -1
  tried : state.sw.segments ≠ [] → state.sw.retransCounter ≤ tries
  payloads : ∀ node ∈ state.sw.segments, node.payload ≠ []
  steady
    : ∀ node ∈ state.sw.segments, ∀ segment ∈ state.segmentsOf node,
        segment.ackno = state.acknoField

/-- A clock reading at which the retransmission timer of a connection has run out. -/
def CtcpState.late (state : CtcpState) : Int :=
  max 0 (state.sw.timer + state.timeoutStandard + 1)

section Recovering

variable {env : Env} {arrived : Segment} {tries limit : Int} {node : SegmentRef}
  {rest : List SegmentRef} {state next : CtcpState}

theorem Recoverable.mono (recoverable : Recoverable tries state) (more : tries ≤ limit)
    : Recoverable limit state :=
  ⟨recoverable.calm, recoverable.running, fun queued => (recoverable.tried queued).trans more,
    recoverable.payloads, recoverable.steady⟩

/-- When the timer has run out, `ctcp_timer` retransmits the first segment. -/
theorem Recoverable.timer (recoverable : Recoverable tries state) (few : tries < 5)
    (front : state.sw.segments = node :: rest)
    : step state (.timer (.steady state.late 0))
      = some (state.retransmit state.late node rest) := by
  have queued : state.sw.segments ≠ [] := by simp [front]
  have notTeardown : state.teardownDue state.late = false := by
    simp [CtcpState.teardownDue, recoverable.calm]
  have due : state.retransDue state.late = true := by
    have past : state.late - state.sw.timer > state.timeoutStandard := by
      rw [CtcpState.late]
      omega
    exact decide_eq_true ⟨recoverable.running queued, past⟩
  have tried := recoverable.tried queued
  have again : ¬ state.sw.retransCounter ≥ 5 := by omega
  simp only [step, Call.run, timerCheck, Env.steady, notTeardown, Bool.false_eq_true, if_false,
    due, if_true, again, ctcpRetrans, llFront, front]
  rfl

/-- A retransmission leaves one try less. -/
theorem Recoverable.retransmit (recoverable : Recoverable tries state)
    (restamped : Restamped state) (front : state.sw.segments = node :: rest)
    : Recoverable (tries + 1) (state.retransmit state.late node rest) := by
  have inWindow : node ∈ state.sw.segments := by simp [front]
  have sent : (state.retransmit state.late node rest).log.sent
      = state.log.sent ++ [⟨.retrans state.late, node.stamp state.acknoField⟩] := rfl
  have sameObject := node.stamp_address state.acknoField
  refine ⟨recoverable.calm, fun _ => ?_, fun _ => ?_, ?_, ?_⟩
  · have late : (state.retransmit state.late node rest).sw.timer = state.late := rfl
    rw [late, CtcpState.late]
    omega
  · have tried := recoverable.tried (List.ne_nil_of_mem inWindow)
    have counter : (state.retransmit state.late node rest).sw.retransCounter
        = state.sw.retransCounter + 1 := rfl
    omega
  · intro other member
    rcases List.mem_cons.mp member with rfl | later
    · rw [SegmentRef.stamp_payload]
      exact recoverable.payloads node inWindow
    · exact recoverable.payloads other (by simp [front, later])
  · intro other member segment ofOther
    rcases List.mem_cons.mp member with rfl | later
    · rw [segmentsOf_same sent rfl] at ofOther
      rcases List.mem_append.mp ofOther with old | new
      · have history : state.segmentsOf (node.stamp state.acknoField) = state.segmentsOf node := by
          rw [CtcpState.segmentsOf, CtcpState.transmissionsOf, sameObject]
          rfl
        exact recoverable.steady node inWindow segment (history ▸ old)
      · rw [List.mem_singleton.mp new]
        rfl
    · have differs := restamped.tracked.window_distinct front later
      rw [segmentsOf_other sent (sameObject.trans_ne differs)] at ofOther
      exact recoverable.steady other (by simp [front, later]) segment ofOther

/-- Hearing an ACK keeps a connection recoverable. -/
theorem Recoverable.noted (recoverable : Recoverable tries state) (arrived : Segment)
    : Recoverable tries (state.noted arrived) :=
  ⟨recoverable.calm, recoverable.running, recoverable.tried, recoverable.payloads,
    recoverable.steady⟩

/-- Sliding the window leaves all tries for what stays in it. -/
theorem Recoverable.slide (recoverable : Recoverable tries state) (segment : Segment)
    : Recoverable 0 (state.slide 0 segment) := by
  have kept : ∀ other ∈ (state.slide 0 segment).sw.segments, other ∈ state.sw.segments :=
    fun other member => List.mem_of_mem_filter member
  refine ⟨recoverable.calm, fun queued => ?_, fun _ => Int.le_refl 0,
    fun other member => recoverable.payloads other (kept other member),
    fun other member => recoverable.steady other (kept other member)⟩
  have filled : (state.unconfirmed segment).isEmpty = false := by
    rw [List.isEmpty_eq_false_iff]
    exact queued
  have timer : (state.slide 0 segment).sw.timer
      = if (state.unconfirmed segment).isEmpty then -1 else 0 := rfl
  rw [timer, filled]
  decide

/-- An ACK for the first segment slides the window. -/
theorem receive_of_ack (env : Env) (settled : Settled state) (verified : checksum arrived)
    (empty : arrived.data = []) (flags : arrived.flags = thAck)
    (front : state.sw.segments = node :: rest) (short : arrived.ack < 2147483648)
    (covers : node.ending ≤ arrived.ack)
    : step state (arrived.reception env)
      = some ((state.noted arrived).slide (env.now 2) arrived.cleared) := by
  have bare : Bare _ := (received_length_eq_zero arrived).mpr empty
  have acks : arrived.acks := by
    rw [Segment.acks, flags]
    decide
  have reacted : state.reacted env arrived = state.noted arrived := by
    rw [CtcpState.reacted, flags, if_neg (by decide), if_neg (by decide)]
  have acknowledged : acknowledgesFront arrived.cleared node := by
    rw [acknowledgesFront_cleared, acknowledgesFront_iff, Segment.receivedAckno,
      int32_eq_self (by omega) (by omega), int32_eq_self (by omega) (by omega)]
    exact_mod_cast covers
  rw [Segment.reception, receive_of_bare env settled verified bare, if_pos acks, reacted,
    receivedAck_slides env (settled.noted arrived) front acknowledged]

/-- What such an ACK leaves is shorter than the window. -/
theorem slide_shorter (now : Int) (front : state.sw.segments = node :: rest)
    (covers : node.ending ≤ arrived.ack)
    : (state.slide now arrived.cleared).sw.segments.length ≤ rest.length
      ∧ ∀ other ∈ (state.slide now arrived.cleared).sw.segments, other ∈ rest := by
  have gone : confirmed arrived.cleared.receivedAckno node = true := by
    rw [confirmed_iff, ending_le_sizeT_iff, Segment.cleared_ack]
    exact Or.inr covers
  have window : (state.slide now arrived.cleared).sw.segments
      = rest.filter (fun other => !confirmed arrived.cleared.receivedAckno other) := by
    have unfolded : (state.slide now arrived.cleared).sw.segments
        = state.sw.segments.filter (fun other => !confirmed arrived.cleared.receivedAckno other) :=
      rfl
    rw [unfolded, front, List.filter_cons_of_neg (by simp [gone])]
  rw [window]
  exact ⟨List.length_filter_le _ _, fun other member => List.mem_of_mem_filter member⟩

end Recovering

-----------------------------------------------------------------------------------------
-- The answer to a transmission
-----------------------------------------------------------------------------------------

/-- A connection has sent an ACK for all it has accepted, and nothing else. -/
structure Acks (state next : CtcpState) (reply : Segment) : Prop where
  sent : ∃ address, next.log.sent = state.log.sent ++ [⟨.makeseg, ⟨address, reply⟩⟩]
  verified : checksum reply
  flags : reply.flags = thAck
  empty : reply.data = []
  ack : reply.ack = 1 + next.log.accepted.length

section Answering

variable {sender receiver : CtcpState} {sent : Transmission} {arrived : Segment}

/-- The ACK that is built for a reached ackno. -/
theorem acks_answer {state next : CtcpState} (builder : CtcpState) (pad : UInt16)
    (sent : next.log.sent = (builder.answer pad .ack).log.sent)
    (history : builder.log.sent = state.log.sent) (buffer : builder.sendBuf.val = [])
    (ackno : uint32 builder.rw.ackno = 1 + next.log.accepted.length)
    : Acks state next (builder.newSegment pad .ack).segment.summed := by
  refine ⟨⟨builder.nextAddress, ?_⟩, ?_, rfl, buffer, ?_⟩
  · rw [sent, ← history]
    rfl
  · exact (checksum_summed _).mpr (Or.inl rfl)
  · have field : (builder.newSegment pad .ack).segment.summed.ack
        = (ntohl builder.acknoField).toNat := rfl
    have bound := uint32_lt builder.rw.ackno
    rw [field, CtcpState.acknoField, ntohl_htonl, UInt32.toNat_ofNat']
    omega

/-- The ackno of a short stream counts what was accepted. -/
theorem Safe.ackno_eq (safe : Safe sender receiver)
    (short : sender.log.input.length < 2147483648)
    (ackno : receiver.rw.ackno = int32 (1 + receiver.log.accepted.length))
    : uint32 receiver.rw.ackno = 1 + receiver.log.accepted.length := by
  have inInput := safe.accepted.length_le
  have high : 1 + receiver.log.accepted.length < 4294967296 := by omega
  rw [ackno, uint32_int32]
  exact_mod_cast uint32_natCast high

/-- A payload that is not larger than an empty receive window fits it. -/
theorem Emptied.payloadFits (emptied : Emptied receiver)
    (fits : (arrived.data.length : Int) ≤ receiver.rw.maxSize)
    (small : receiver.rw.maxSize ≤ 65535)
    : receiver.payloadFits (segHeaderSize + arrived.data.length) := by
  have amount : ((segHeaderSize + arrived.data.length : Nat) : Int) - segHeaderSize
      = (arrived.data.length : Int) := by
    push_cast
    omega
  have free : int32 (receiver.rw.maxSize - receiver.rw.size) = receiver.rw.maxSize := by
    rw [emptied.size, sub_zero]
    exact int32_eq_self (by omega) (by omega)
  rw [CtcpState.payloadFits, decide_eq_true_eq, amount, free]
  unfold sizeT
  omega

/-- A piece that does not start behind the accepted bytes is accepted or known, and answered by
an ACK that covers it.
-/
theorem Aligned.answers (aligned : Aligned sender receiver) (env : Env)
    (settled : Settled receiver) (emptied : Emptied receiver) (tiled : Tiled sender)
    (ackno : uint32 receiver.rw.ackno = 1 + receiver.log.accepted.length)
    (short : 1 + receiver.log.accepted.length + arrived.data.length < 4294967296)
    (member : sent ∈ sender.log.sent) (carried : Carried sent.object.segment arrived)
    (verified : checksum arrived) (nonempty : arrived.data ≠ [])
    (begun : arrived.seq ≤ 1 + receiver.log.accepted.length)
    (fits : (arrived.data.length : Int) ≤ receiver.rw.maxSize)
    (small : receiver.rw.maxSize ≤ 65535)
    : ∃ next reply,
        step receiver (arrived.reception env) = some next
        ∧ Acks receiver next reply
        ∧ arrived.seq + arrived.data.length ≤ 1 + next.log.accepted.length
        ∧ next.log.input = receiver.log.input := by
  have buffer : receiver.sendBuf.val = [] := by rw [settled.bufferEmpty]
  rcases Nat.lt_or_eq_of_le begun with behind | expected
  · have hasData : ¬ Bare _ := mt (received_length_eq_zero arrived).mp nonempty
    have answered := receive_of_behind env verified hasData (by rw [ackno]; exact behind)
    refine ⟨_, _, answered, acks_answer (receiver.noted arrived) (env.pad 0) rfl rfl buffer ackno,
      ?_, rfl⟩
    obtain ⟨front, isFront, accepted⟩ := aligned.boundary
    rw [carried.data] at nonempty
    have apart := tiled.pieces.apart isFront (aligned.sent sent member nonempty)
    rw [accepted, Segment.piece, ← carried.seq, ← carried.data] at apart
    dsimp only at apart
    change _ ≤ 1 + receiver.log.accepted.length
    omega
  · have accepted := receive_of_expected_whole env settled emptied verified nonempty
      (by rw [ackno]; exact expected) (emptied.payloadFits fits small) (by rw [ackno]; exact short)
    let builder : CtcpState :=
      { receiver.noted arrived with
        rw.segments := llAdd receiver.rw.segments (receiver.receivedObject arrived)
        rw.size := int32 (receiver.rw.size + (receiver.receivedObject arrived).segment.data.length)
        rw.ackno :=
          int32 (receiver.rw.ackno + (receiver.receivedObject arrived).segment.data.length)
        log.accepted :=
          receiver.log.accepted ++ (receiver.receivedObject arrived).segment.data }
    have reached : uint32 builder.rw.ackno = 1 + builder.log.accepted.length := by
      have moved : builder.rw.ackno
          = int32 (receiver.rw.ackno + (receiver.receivedObject arrived).segment.data.length) :=
        rfl
      have bytes : builder.log.accepted
          = receiver.log.accepted ++ (receiver.receivedObject arrived).segment.data := rfl
      rw [moved, bytes, uint32_int32, uint32_add, ackno, receiver.receivedObject_data arrived,
        List.length_append, Nat.mod_eq_of_lt short, Nat.add_assoc]
    refine ⟨_, _, accepted, acks_answer builder (env.pad 0) rfl rfl buffer reached, ?_, rfl⟩
    have bytes : (((receiver.noted arrived).acknowledged (env.pad 0)
          (receiver.receivedObject arrived)).emit (env.bufspace 0)
          (receiver.receivedObject arrived) []).log.accepted
        = receiver.log.accepted ++ (receiver.receivedObject arrived).segment.data := rfl
    rw [bytes, receiver.receivedObject_data arrived, List.length_append, expected]
    omega

end Answering

-----------------------------------------------------------------------------------------
-- Steps of a session
-----------------------------------------------------------------------------------------

/-- The session after a handler of a side has returned. -/
def Session.after (side : Side) (state : CtcpState) (session : Session) : Session where
  endpoint := Function.update session.endpoint side { session.endpoint side with state := state }
  flight :=
    Function.update session.flight side.peer
      (session.flight side.peer ++ newlySent (session.state side) state)

/-- Neither connection has been destroyed. -/
def Session.Present (session : Session) : Prop :=
  ∀ side, (session.endpoint side).destroyed = none

section Steps

variable {carrier : Carrier} {session : Session} {side : Side} {state : CtcpState}

@[simp] theorem Session.after_state (side : Side) (state : CtcpState) (session : Session)
    : (session.after side state).state = Function.update session.state side state :=
  state_update ..

theorem Session.Present.after (present : session.Present) (side : Side) (state : CtcpState)
    : (session.after side state).Present := by
  intro other
  by_cases same : other = side
  · subst same
    simp only [Session.after, Function.update_self]
    exact present other
  · simp only [Session.after, Function.update_of_ne same]
    exact present other

theorem newlySent_append {before after : CtcpState} {sent : Transmission}
    (log : after.log.sent = before.log.sent ++ [sent])
    : newlySent before after = [sent.object.segment] := by
  rw [newlySent, log, List.drop_left, List.map_singleton]

/-- One segment that is sent, flies behind those that were on their way. -/
theorem Session.after_flight {sent : Transmission} {other : Side} (towards : other = side.peer)
    (log : state.log.sent = (session.state side).log.sent ++ [sent])
    : (session.after side state).flight other
      = session.flight other ++ [sent.object.segment] := by
  subst towards
  simp only [Session.after, Function.update_self, newlySent_append log]

theorem Session.call_after {call : Call} (present : session.Present)
    (returned : Ctcp.step (session.state side) call = some state)
    : session.call side call = some (session.after side state) := by
  rw [Session.call, if_neg (by simp [present side])]
  rw [Ctcp.step] at returned
  cases ran : call.run (session.state side) with
  | returned next =>
      rw [ran] at returned
      obtain rfl := Option.some.inj returned
      rfl
  | destroyed cause =>
      rw [ran] at returned
      cases returned
  | nullDereference =>
      rw [ran] at returned
      cases returned

/-- The last segment on its way to a side is delivered. -/
theorem Session.deliver_last {env : Env} {earlier : List Segment} {segment arrived : Segment}
    (present : session.Present) (flight : session.flight side = earlier ++ [segment])
    (carry : carrier.carry side.peer segment = some arrived)
    (returned : Ctcp.step (session.state side) (arrived.reception env) = some state)
    : session.step carrier (side, .deliver env earlier.length)
      = some
          ({ session with flight := Function.update session.flight side earlier }.after side
            state) := by
  have found : (session.flight side)[earlier.length]? = some segment := by
    rw [flight, List.getElem?_concat_length]
  have left : (session.flight side).eraseIdx earlier.length = earlier := by
    rw [flight, List.eraseIdx_append_of_length_le (Nat.le_refl _), Nat.sub_self]
    simp
  simp only [Session.step, found, Option.bind_some, carry, left]
  exact Session.call_after present returned

/-- The network can carry whatever `conn_send` is handed. -/
theorem Carrier.carries (carrier : Carrier) (sender : Side) {segment : Segment}
    (short : segment.data.length ≤ maxSegDataSize)
    : ∃ arrived, carrier.carry sender segment = some arrived := by
  cases carrier with
  | asSent => exact ⟨segment, rfl⟩
  | packets links =>
      obtain ⟨packet, converted⟩ :=
        convertToDatagram_isSome (links sender).config (links sender).dst short
      exact ⟨_, Option.map_eq_some_iff.mpr ⟨packet, converted, rfl⟩⟩

/-- What both connections keep on their own. -/
def BothKept (cfg : Side → CtcpConfig) (states : Side → CtcpState) : Prop :=
  ∀ side, Restamped (states side) ∧ Sized (states side)
    ∧ (states side).rw.maxSize = (cfg side).recvWindow.toNat

theorem Session.runFrom_kept {cfg : Side → CtcpConfig} {inputs : List (Side × Action)}
    (reached : Session.runFrom carrier cfg inputs = some session)
    : BothKept cfg session.state := by
  refine (Session.runFrom_invariant (BothKept cfg) ?_ ?_ reached).2
  · intro states side next settled kept update other
    by_cases same : other = side
    · subst same
      rw [Function.update_self]
      obtain ⟨restamped, sized, maxSize⟩ := kept other
      exact ⟨update.restamped restamped, update.sized (settled other) sized,
        update.recvMaxSize.trans maxSize⟩
    · rw [Function.update_of_ne same]
      exact kept other
  · exact fun side => ⟨ctcpInit_restamped _, ctcpInit_sized _, rfl⟩

end Steps

-----------------------------------------------------------------------------------------
-- One round
-----------------------------------------------------------------------------------------

section Rounds

variable {carrier : Carrier} {cfg : Side → CtcpConfig} {inputs : List (Side × Action)}
  {session : Session} {side : Side} {tries : Int} {node : SegmentRef} {rest : List SegmentRef}

/-- One more step leads to a reached session. -/
theorem Session.runFrom_concat {input : Side × Action} {next : Session}
    (reached : Session.runFrom carrier cfg inputs = some session)
    (taken : session.step carrier input = some next)
    : Session.runFrom carrier cfg (inputs ++ [input]) = some next := by
  rw [Session.runFrom] at reached ⊢
  rw [StepRuns.exec_append, reached, Option.bind_some, StepRuns.exec_cons, taken]
  rfl

/-- A transmission that verifies is answered by an ACK that covers it. -/
theorem Session.answers (reached : Session.runFrom carrier cfg inputs = some session)
    (present : session.Present)
    (short : ∀ other, (session.state other).log.input.length < 2147483648)
    (wide : maxSegDataSize ≤ (cfg side.peer).recvWindow.toNat) {sent : Transmission}
    (member : sent ∈ (session.state side).log.sent) (verified : checksum sent.object.segment)
    (nonempty : sent.object.segment.data ≠ [])
    (small : sent.object.segment.data.length ≤ maxSegDataSize)
    (begun : sent.object.segment.seq ≤ 1 + (session.state side.peer).log.accepted.length)
    {earlier : List Segment} (flight : session.flight side.peer = earlier ++ [sent.object.segment])
    : ∃ next reply,
        session.step carrier (side.peer, .deliver (.steady 0 0) earlier.length) = some next
        ∧ next.Present
        ∧ next.state side = session.state side
        ∧ next.flight side = session.flight side ++ [reply]
        ∧ Acks (session.state side.peer) (next.state side.peer) reply
        ∧ sent.object.ending ≤ 1 + (next.state side.peer).log.accepted.length
        ∧ (next.state side.peer).log.input = (session.state side.peer).log.input := by
  obtain ⟨running, safety, bothAligned, bothEmptied⟩ := Session.runFrom_whole reached
  obtain ⟨-, -, maxSize⟩ := Session.runFrom_kept reached side.peer
  obtain ⟨tiled, -, safe⟩ := safety short side
  have bound := (cfg side.peer).recvWindow.toNat_lt
  have shortInput := short side
  have inInput := safe.accepted.length_le
  obtain ⟨arrived, carry⟩ := carrier.carries side.peer.peer small
  have carried := Carrier.carried carry
  have dataBound := arrived.length_data_lt
  have ackno := safe.ackno_eq (short side) (safety short side.peer).truthful.ackno
  rw [← carried.data] at nonempty small
  rw [← carried.seq] at begun
  obtain ⟨answered, reply, returned, acks, covers, sameInput⟩ :=
    (bothAligned short side).answers (.steady 0 0) (running.settled side.peer)
      (bothEmptied short side.peer) tiled ackno (by omega) member carried
      (carried.valid.trans verified) nonempty begun (by omega) (by omega)
  have delivered := Session.deliver_last present flight carry returned
  have stateHere := Function.update_self side.peer answered session.state
  have stateThere := Function.update_of_ne side.peer_ne.symm answered session.state
  obtain ⟨address, log⟩ := acks.sent
  let landing : Session :=
    { session with flight := Function.update session.flight side.peer earlier }
  have states : (landing.after side.peer answered).state
      = Function.update session.state side.peer answered := landing.after_state ..
  have landed : landing.Present := present
  have landedLog : answered.log.sent
      = (landing.state side.peer).log.sent ++ [⟨.makeseg, ⟨address, reply⟩⟩] := log
  refine ⟨landing.after side.peer answered, reply, delivered, landed.after _ _, ?_, ?_, ?_, ?_, ?_⟩
  · rw [states, stateThere]
  · have own : landing.flight side = session.flight side :=
      Function.update_of_ne side.peer_ne.symm _ _
    rw [Session.after_flight side.peer_peer.symm landedLog, own]
  · rw [states, stateHere]
    exact acks
  · rw [states, stateHere, SegmentRef.ending, SegmentRef.position, SegmentRef.payload,
      ← carried.seq, ← carried.data]
    exact covers
  · rw [states, stateHere]
    exact sameInput

/-- An ACK for the first segment shortens the window, and leaves all tries for the rest. -/
theorem Session.slides (present : session.Present) (settled : Settled (session.state side))
    (recoverable : Recoverable tries (session.state side))
    (front : (session.state side).sw.segments = node :: rest) {reply : Segment}
    (verified : checksum reply) (flags : reply.flags = thAck) (empty : reply.data = [])
    (short : reply.ack < 2147483648) (covers : node.ending ≤ reply.ack)
    {earlier : List Segment} (flight : session.flight side = earlier ++ [reply])
    : ∃ next,
        session.step carrier (side, .deliver (.steady 0 0) earlier.length) = some next
        ∧ next.Present
        ∧ Recoverable 0 (next.state side)
        ∧ (next.state side).sw.segments.length ≤ rest.length
        ∧ ∀ other, (next.state other).log.input = (session.state other).log.input := by
  obtain ⟨arrived, carry⟩ := carrier.carries side.peer
    (empty ▸ Nat.zero_le _ : reply.data.length ≤ maxSegDataSize)
  have carried := Carrier.carried carry
  have isAck : arrived.flags = thAck := by
    have lowAck : thAck.toUInt8.toUInt32 = thAck := by decide
    rcases carried.flags with whole | low
    · rw [whole, flags]
    · rw [low, flags, lowAck]
  rw [← carried.ack] at short covers
  have returned := receive_of_ack (.steady 0 0) settled (carried.valid.trans verified)
    (carried.data.trans empty) isAck front short covers
  have delivered := Session.deliver_last present flight carry returned
  let landing : Session := { session with flight := Function.update session.flight side earlier }
  have landed : landing.Present := present
  have frontNoted : ((session.state side).noted arrived).sw.segments = node :: rest := front
  have states := landing.after_state side
    (((session.state side).noted arrived).slide 0 arrived.cleared)
  refine ⟨landing.after side (((session.state side).noted arrived).slide 0 arrived.cleared),
    delivered, landed.after _ _, ?_, ?_, ?_⟩
  · rw [states, Function.update_self]
    exact (recoverable.noted arrived).slide arrived.cleared
  · rw [states, Function.update_self]
    exact (slide_shorter 0 frontNoted covers).1
  · intro other
    rw [states]
    by_cases same : other = side
    · subst same
      rw [Function.update_self]
      rfl
    · rw [Function.update_of_ne same]
      rfl

/-- A retransmission that will verify, its delivery and that of the answer. -/
theorem Session.exchange (reached : Session.runFrom carrier cfg inputs = some session)
    (present : session.Present)
    (short : ∀ other, (session.state other).log.input.length + 1 < 2147483648)
    (wide : maxSegDataSize ≤ (cfg side.peer).recvWindow.toNat)
    (recoverable : Recoverable tries (session.state side)) (few : tries < 5)
    (front : (session.state side).sw.segments = node :: rest)
    (primed : node.segment.field % 65535 = 0)
    : ∃ more final,
        StepRuns.exec (Session.step carrier) session more = some final
        ∧ more.length = 3
        ∧ final.Present
        ∧ Recoverable 0 (final.state side)
        ∧ (final.state side).sw.segments.length ≤ rest.length
        ∧ ∀ other, (final.state other).log.input = (session.state other).log.input := by
  have inWindow : node ∈ (session.state side).sw.segments := by simp [front]
  obtain ⟨restamped, sized, -⟩ := Session.runFrom_kept reached side
  -- The retransmission.
  let again := (session.state side).retransmit (session.state side).late node rest
  let sent : Transmission :=
    ⟨.retrans (session.state side).late, node.stamp (session.state side).acknoField⟩
  have log : again.log.sent = (session.state side).log.sent ++ [sent] := rfl
  have fired : session.step carrier (side, .timer (.steady (session.state side).late 0))
      = some (session.after side again) :=
    Session.call_after present (recoverable.timer few front)
  have reachedAgain := Session.runFrom_concat reached fired
  have here : (session.after side again).state side = again := by
    rw [session.after_state, Function.update_self]
  have there : (session.after side again).state side.peer = session.state side.peer := by
    rw [session.after_state, Function.update_of_ne side.peer_ne]
  have sameInput : ∀ other,
      ((session.after side again).state other).log.input = (session.state other).log.input := by
    intro other
    rcases Side.eq_or_eq_peer side other with rfl | rfl
    · rw [here]
      rfl
    · rw [there]
  have shortAgain : ∀ other,
      ((session.after side again).state other).log.input.length < 2147483648 := by
    intro other
    have bound := short other
    rw [sameInput]
    omega
  obtain ⟨running, safety, -, -⟩ := Session.runFrom_whole reachedAgain
  obtain ⟨tiled, -, safe⟩ := safety shortAgain side
  have settledAgain := running.settled side
  rw [here] at tiled safe settledAgain
  have recoverableAgain := recoverable.retransmit restamped front
  have frontAgain : again.sw.segments = sent.object :: rest := rfl
  have begun : sent.object.segment.seq
      ≤ 1 + ((session.after side again).state side.peer).log.accepted.length := by
    have window := tiled.window
    rw [frontAgain, chained_cons] at window
    have acked := safe.acked
    have starts : sent.object.segment.seq = 1 + again.ackedBytes.length := window.1
    omega
  have payload : sent.object.segment.data = node.payload := SegmentRef.stamp_data _ _
  -- Its answer.
  obtain ⟨next, reply, delivered, presentNext, sameState, flight, acks, covers, peerInput⟩ :=
    Session.answers reachedAgain (present.after side again) shortAgain wide
      (by rw [here, log]; exact List.mem_append_right _ (List.mem_singleton_self _))
      ((checksum_stamp _ _).mpr (node.segment.field_mod_eq_zero.mp primed))
      (payload ▸ recoverable.payloads node inWindow) (payload ▸ sized.payloads node inWindow) begun
      (Session.after_flight rfl log)
  rw [here] at sameState
  have reachedNext := Session.runFrom_concat reachedAgain delivered
  have inputNext : ∀ other,
      (next.state other).log.input = (session.state other).log.input := by
    intro other
    rcases Side.eq_or_eq_peer side other with rfl | rfl
    · rw [sameState]
      rfl
    · rw [peerInput, there]
  have shortReply : reply.ack < 2147483648 := by
    obtain ⟨-, safetyNext, -, -⟩ := Session.runFrom_whole reachedNext
    have safeNext := (safetyNext (fun other => by
      have bound := short other
      rw [inputNext]
      omega) side).safe
    have inInput := safeNext.accepted.length_le
    have bound := short side
    rw [inputNext side] at inInput
    rw [acks.ack]
    omega
  -- The window slides.
  obtain ⟨final, acknowledged, presentFinal, recoverableFinal, shorter, inputFinal⟩ :=
    @Session.slides carrier _ _ _ _ _ presentNext (by rw [sameState]; exact settledAgain)
      (by rw [sameState]; exact recoverableAgain) (by rw [sameState]; exact frontAgain)
      _ acks.verified acks.flags acks.empty shortReply (by rw [acks.ack]; exact covers) _ flight
  have ran := StepRuns.exec_cons_eq_some.mpr ⟨_, fired,
    StepRuns.exec_cons_eq_some.mpr ⟨_, delivered,
      StepRuns.exec_cons_eq_some.mpr ⟨_, acknowledged,
        (rfl : StepRuns.exec (Session.step carrier) final [] = some final)⟩⟩⟩
  exact ⟨_, final, ran, rfl, presentFinal, recoverableFinal, shorter,
    fun other => (inputFinal other).trans (inputNext other)⟩

/-- The last transmission of a queued segment verifies, or the next one will. -/
theorem Recoverable.alternates {state : CtcpState} (recoverable : Recoverable tries state)
    (restamped : Restamped state) (member : node ∈ state.sw.segments)
    : checksum node.segment ∨ node.segment.field % 65535 = 0 := by
  obtain ⟨object, queued, same, -⟩ := restamped.tracked.queued node member
  obtain ⟨earlier, history⟩ := restamped.window node member
  have ofObject : state.segmentsOf object = state.segmentsOf node := by
    rw [CtcpState.segmentsOf, CtcpState.transmissionsOf, same]
    rfl
  have stampings := restamped.histories object queued
  rw [ofObject] at stampings
  exact stampings.alternates (recoverable.steady node member) node.segment (by simp [history])

/-- At most two retransmissions of the first segment get it acknowledged. -/
theorem Session.round (reached : Session.runFrom carrier cfg inputs = some session)
    (present : session.Present)
    (short : ∀ other, (session.state other).log.input.length + 1 < 2147483648)
    (wide : maxSegDataSize ≤ (cfg side.peer).recvWindow.toNat)
    (recoverable : Recoverable 3 (session.state side))
    (front : (session.state side).sw.segments = node :: rest)
    : ∃ more final,
        StepRuns.exec (Session.step carrier) session more = some final
        ∧ more.length ≤ 4
        ∧ final.Present
        ∧ Recoverable 0 (final.state side)
        ∧ (final.state side).sw.segments.length ≤ rest.length
        ∧ ∀ other, (final.state other).log.input = (session.state other).log.input := by
  have inWindow : node ∈ (session.state side).sw.segments := by simp [front]
  obtain ⟨restamped, -, -⟩ := Session.runFrom_kept reached side
  rcases recoverable.alternates restamped inWindow with verified | primed
  · -- The next transmission does not verify, but the one after it does.
    let again := (session.state side).retransmit (session.state side).late node rest
    have fired : session.step carrier (side, .timer (.steady (session.state side).late 0))
        = some (session.after side again) :=
      Session.call_after present (recoverable.timer (by decide) front)
    have here : (session.after side again).state side = again := by
      rw [session.after_state, Function.update_self]
    have sameInput : ∀ other,
        ((session.after side again).state other).log.input
          = (session.state other).log.input := by
      intro other
      rw [session.after_state]
      by_cases same : other = side
      · subst same
        rw [Function.update_self]
        rfl
      · rw [Function.update_of_ne same]
    have primed : (node.stamp (session.state side).acknoField).segment.field % 65535 = 0 := by
      obtain ⟨earlier, history⟩ := restamped.window node inWindow
      have ackno := recoverable.steady node inWindow node.segment (by simp [history])
      have restamps : node.segment.Restamps (node.stamp (session.state side).acknoField).segment :=
        ⟨_, rfl⟩
      have field := checksum_field verified
      have sum := restamps.field_add
      rw [restamps.sameBody ackno.symm] at sum
      omega
    obtain ⟨more, final, ran, length, presentFinal, recoverableFinal, shorter, inputFinal⟩ :=
      Session.exchange (Session.runFrom_concat reached fired) (present.after side again)
        (fun other => (sameInput other).symm ▸ short other) wide
        (by rw [here]; exact recoverable.retransmit restamped front) (by decide)
        (by rw [here]; rfl) primed
    exact ⟨_, final, StepRuns.exec_cons_eq_some.mpr ⟨_, fired, ran⟩, by simp [length],
      presentFinal, recoverableFinal, shorter,
      fun other => (inputFinal other).trans (sameInput other)⟩
  · obtain ⟨more, final, ran, length, others⟩ :=
      Session.exchange reached present short wide recoverable (by decide) front primed
    exact ⟨more, final, ran, by omega, others⟩

/-- Round after round the window is emptied, by induction on a bound for its length. -/
theorem Session.drains (reached : Session.runFrom carrier cfg inputs = some session)
    (present : session.Present)
    (short : ∀ other, (session.state other).log.input.length + 1 < 2147483648)
    (wide : maxSegDataSize ≤ (cfg side.peer).recvWindow.toNat)
    (recoverable : Recoverable 3 (session.state side)) (count : Nat)
    (bound : (session.state side).sw.segments.length ≤ count)
    : ∃ more final,
        StepRuns.exec (Session.step carrier) session more = some final
        ∧ more.length ≤ 4 * count
        ∧ (final.state side).sw.segments = []
        ∧ ∀ other, (final.state other).log.input = (session.state other).log.input := by
  induction count generalizing inputs session with
  | zero =>
      exact ⟨[], session, rfl, Nat.zero_le _, List.eq_nil_of_length_eq_zero (by omega),
        fun _ => rfl⟩
  | succ count ih =>
      cases front : (session.state side).sw.segments with
      | nil => exact ⟨[], session, rfl, Nat.zero_le _, front, fun _ => rfl⟩
      | cons node rest =>
          obtain ⟨first, next, ran, length, presentNext, recoverableNext, shorter, inputNext⟩ :=
            Session.round reached present short wide recoverable front
          rw [front, List.length_cons] at bound
          have reachedNext : Session.runFrom carrier cfg (inputs ++ first) = some next := by
            rw [Session.runFrom] at reached ⊢
            rw [StepRuns.exec_append, reached, Option.bind_some, ran]
          obtain ⟨more, final, ranMore, lengthMore, empty, inputFinal⟩ :=
            ih reachedNext presentNext (fun other => (inputNext other).symm ▸ short other)
              (recoverableNext.mono (by decide)) (by omega)
          refine ⟨first ++ more, final, ?_, ?_, empty,
            fun other => (inputFinal other).trans (inputNext other)⟩
          · rw [StepRuns.exec_append, ran, Option.bind_some, ranMore]
          · rw [List.length_append]
            omega

/-- Whatever the network has lost, repeated and reordered, a sender whose timers leave it two
retransmissions, and that has transmitted the segments of its window only with its present
ackno, gets all of its input to the other side within four further steps for each of them.
-/
theorem Session.runFrom_recovers (reached : Session.runFrom carrier cfg inputs = some session)
    (present : session.Present)
    (short : ∀ other, (session.state other).log.input.length + 1 < 2147483648)
    (wide : maxSegDataSize ≤ (cfg side.peer).recvWindow.toNat)
    (recoverable : Recoverable 3 (session.state side))
    : ∃ more final,
        StepRuns.exec (Session.step carrier) session more = some final
        ∧ more.length ≤ 4 * (session.state side).sw.segments.length
        ∧ (final.state side).sw.segments = []
        ∧ (final.state side).log.input = (session.state side).log.input
        ∧ (final.state side.peer).log.accepted = (session.state side).log.input := by
  obtain ⟨more, final, ran, length, empty, input⟩ :=
    Session.drains reached present short wide recoverable _ (Nat.le_refl _)
  refine ⟨more, final, ran, length, empty, input side, ?_⟩
  have reachedFinal : Session.runFrom carrier cfg (inputs ++ more) = some final := by
    rw [Session.runFrom] at reached ⊢
    rw [StepRuns.exec_append, reached, Option.bind_some, ran]
  obtain ⟨-, safety, -, -⟩ := Session.runFrom_whole reachedFinal
  have shortFinal : ∀ other, (final.state other).log.input.length < 2147483648 := by
    intro other
    have bound := short other
    rw [input]
    omega
  obtain ⟨tiled, -, safe⟩ := safety shortFinal side
  have all : (final.state side).ackedBytes = (final.state side).log.input := by
    have bytes := tiled.bytes
    rwa [CtcpState.windowBytes, empty, content_nil, List.append_nil] at bytes
  have acked := safe.acked
  rw [all] at acked
  rw [safe.accepted.eq_of_length (Nat.le_antisymm safe.accepted.length_le acked), input]

end Rounds

/-- Two segments are lost, the first of them also when it is sent again. -/
def lostSegments : List (Side × Action) :=
  let outside := Env.steady 0 10
  [
    (.a, .read outside (some [0x61, 0x62])),
    (.a, .read outside (some [0x63])),
    (.a, .timer (.steady 201 10)),
    (.b, .drop 0),
    (.b, .drop 0),
    (.b, .drop 0)
  ]

instance (tries : Int) (state : CtcpState) : Decidable (Recoverable tries state) :=
  decidable_of_iff
    (state.timerTeardown = -1
      ∧ (state.sw.segments ≠ [] → state.sw.timer ≠ -1)
      ∧ (state.sw.segments ≠ [] → state.sw.retransCounter ≤ tries)
      ∧ (∀ node ∈ state.sw.segments, node.payload ≠ [])
      ∧ ∀ node ∈ state.sw.segments, ∀ segment ∈ state.segmentsOf node,
          segment.ackno = state.acknoField)
    ⟨fun ⟨calm, running, tried, payloads, steady⟩ => ⟨calm, running, tried, payloads, steady⟩,
      fun ⟨calm, running, tried, payloads, steady⟩ => ⟨calm, running, tried, payloads, steady⟩⟩

instance (session : Session) : Decidable session.Present :=
  inferInstanceAs (Decidable (∀ _, _))

/-- All three bytes get there. -/
theorem Session.runFrom_recovers_lost
    : ∃ session more final,
        Session.runFrom .asSent (fun _ => defaultConfig) lostSegments = some session
        ∧ session.flight .b = []
        ∧ StepRuns.exec (Session.step .asSent) session more = some final
        ∧ more.length ≤ 8
        ∧ (final.state .b).log.accepted = [0x61, 0x62, 0x63] := by
  have reached : (Session.runFrom .asSent (fun _ => defaultConfig) lostSegments).isSome := by
    decide +kernel
  obtain ⟨session, run⟩ := Option.isSome_iff_exists.mp reached
  have facts : ∀ session ∈ Session.runFrom .asSent (fun _ => defaultConfig) lostSegments,
      session.flight .b = [] ∧ session.Present
      ∧ (∀ other, (session.state other).log.input.length + 1 < 2147483648)
      ∧ Recoverable 3 (session.state .a)
      ∧ (session.state .a).sw.segments.length = 2
      ∧ (session.state .a).log.input = [0x61, 0x62, 0x63] := by
    decide +kernel
  obtain ⟨lost, present, short, recoverable, length, input⟩ := facts session run
  obtain ⟨more, final, ran, bound, -, -, accepted⟩ :=
    Session.runFrom_recovers run present short (by decide) recoverable
  exact ⟨session, more, final, run, lost, ran, by omega, accepted.trans input⟩

end Networks.Ctcp
