import Networks.Ctcp.DataSafety
import Networks.Ctcp.Delivery
import Networks.Ctcp.Dispatch
import Networks.Ctcp.Duplicates

/-! What a receiver holds between two calls. A segment that is not expected is dropped, or
answered as a duplicate, so the receive window is always empty again, and what was accepted ends
between two segments of the sender.
-/

namespace Networks.Ctcp

open MachineIntegers StreamPieces

-----------------------------------------------------------------------------------------
-- Accepted bytes end between two segments
-----------------------------------------------------------------------------------------

/-- The position and the payload of a segment. -/
def Segment.piece (segment : Segment) : Nat × List UInt8 := (segment.seq, segment.data)

/-- The pieces of the input that a connection has queued, oldest first. -/
def CtcpState.pieces (state : CtcpState) : List (Nat × List UInt8) :=
  (state.log.acked ++ state.sw.segments).map (fun object => object.segment.piece)

/-- The data segments that a connection has sent are pieces it has queued, and its peer has
accepted a number of whole pieces.
-/
structure Aligned (sender receiver : CtcpState) : Prop where
  sent
    : ∀ sent ∈ sender.log.sent, sent.object.segment.data ≠ []
        → sent.object.segment.piece ∈ sender.pieces
  boundary : ∃ front, front <+: sender.pieces ∧ content Prod.snd front = receiver.log.accepted

/-- What a side reads only makes the inputs longer. -/
theorem short_before {states : Side → CtcpState} {side : Side} {next : CtcpState}
    (grows : (states side).log.input <+: next.log.input)
    (shortNext
      : ∀ other, (Function.update states side next other).log.input.length < 2147483648)
    (other : Side)
    : (states other).log.input.length < 2147483648 := by
  have after := shortNext other
  by_cases same : other = side
  · subst same
    rw [Function.update_self] at after
    exact Nat.lt_of_le_of_lt grows.length_le after
  · rwa [Function.update_of_ne same] at after

/-- Both directions, as long as the inputs are short. -/
def BothAligned (states : Side → CtcpState) : Prop :=
  (∀ side, (states side).log.input.length < 2147483648)
  → ∀ side, Aligned (states side) (states side.peer)

section Pieces

variable {effects : Effects} {state next sender receiver : CtcpState}

@[simp] theorem SegmentRef.stamp_piece (ackno : UInt32) (object : SegmentRef)
    : (object.stamp ackno).segment.piece = object.segment.piece := by
  rw [Segment.piece, SegmentRef.stamp_data, Segment.seq, SegmentRef.stamp_seqno]
  rfl

@[simp] theorem Segment.summed_piece (segment : Segment)
    : segment.summed.piece = segment.piece := rfl

/-- The pieces tile the input. -/
theorem Tiled.pieces (tiled : Tiled state)
    : Chained Prod.fst Prod.snd 1 state.pieces (1 + state.log.input.length) :=
  chained_map.mpr (chained_append.mpr ⟨_, tiled.acked, tiled.window⟩)

theorem CtcpState.transmitNew_pieces (now : Int) (object : SegmentRef) (state : CtcpState)
    : (state.transmitNew now object).pieces = state.pieces ++ [object.segment.piece] := by
  simp only [CtcpState.pieces, CtcpState.transmitNew, List.map_append, List.map_singleton,
    SegmentRef.stamp_piece, List.append_assoc]

/-- Acknowledged pieces come before the others, so sliding the window keeps their order. -/
theorem Tiled.slide_pieces (tiled : Tiled state) (now : Int) (segment : Segment)
    : (state.slide now segment).pieces = state.pieces := by
  obtain ⟨-, parts, -⟩ := tiled.window.split_at (sizeT segment.receivedAckno)
  rw [← confirmed_eq_endsBy] at parts
  have kept : (state.slide now segment).log.acked ++ (state.slide now segment).sw.segments
      = state.log.acked ++ state.sw.segments := by
    rw [CtcpState.slide, CtcpState.unconfirmed, List.append_assoc, ← parts]
  rw [CtcpState.pieces, kept, CtcpState.pieces]

theorem CtcpState.retransmit_pieces (now : Int) {node : SegmentRef} {rest : List SegmentRef}
    (front : state.sw.segments = node :: rest)
    : (state.retransmit now node rest).pieces = state.pieces := by
  simp only [CtcpState.pieces, CtcpState.retransmit, front, List.map_append, List.map_cons,
    SegmentRef.stamp_piece]

/-- A connection only adds to its pieces. -/
theorem Update.pieces_prefix (update : Update effects state next) (tiled : Tiled state)
    : state.pieces <+: next.pieces := by
  cases update with
  | endInput now pad reading queues | queueFin now pad reading queues =>
      exact ⟨_, (CtcpState.transmitNew_pieces now _ _).symm⟩
  | queueData now pad bytes reading queues room fits =>
      exact ⟨_, (CtcpState.transmitNew_pieces now (state.dataSegment pad bytes) state).symm⟩
  | slide now segment node rest reading received front acknowledged =>
      exact (tiled.slide_pieces now segment).symm ▸ List.prefix_refl _
  | retransmit now node rest reading retransmits front running tries =>
      exact (CtcpState.retransmit_pieces now front).symm ▸ List.prefix_refl _
  | _ => exact List.prefix_refl _

/-- Queued pieces stay where they are. -/
theorem Aligned.grow (aligned : Aligned sender receiver) (grows : sender.pieces <+: next.pieces)
    (sent
      : ∀ sent ∈ next.log.sent, sent.object.segment.data ≠ []
          → sent ∈ sender.log.sent ∨ sent.object.segment.piece ∈ next.pieces)
    : Aligned next receiver := by
  obtain ⟨front, isFront, accepted⟩ := aligned.boundary
  refine ⟨fun other member nonempty => ?_, front, isFront.trans grows, accepted⟩
  rcases sent other member nonempty with old | new
  · exact grows.subset (aligned.sent other old nonempty)
  · exact new

/-- What an update sends is a queued piece or has no payload. -/
theorem Update.sends_pieces (update : Update effects state next) (settled : Settled state)
    : ∀ sent ∈ next.log.sent, sent.object.segment.data ≠ []
        → sent ∈ state.log.sent ∨ sent.object.segment.piece ∈ next.pieces := by
  have noPayload : state.sendBuf.val = [] := by rw [settled.bufferEmpty]
  intro sent member nonempty
  cases update with
  | ack pad | finAck pad =>
      refine (List.mem_append.mp member).imp_right fun new => ?_
      rw [List.mem_singleton.mp new] at nonempty
      exact absurd noPayload nonempty
  | endInput now pad | queueFin now pad =>
      refine (List.mem_append.mp member).imp_right fun new => ?_
      rw [List.mem_singleton.mp new, SegmentRef.stamp_data] at nonempty
      exact absurd noPayload nonempty
  | queueData now pad bytes =>
      refine (List.mem_append.mp member).imp_right fun new => ?_
      rw [List.mem_singleton.mp new, SegmentRef.stamp_piece]
      have pieces := CtcpState.transmitNew_pieces now (state.dataSegment pad bytes) state
      exact pieces ▸ List.mem_append_right _ (List.mem_singleton_self _)
  | retransmit now node rest reading retransmits front =>
      refine (List.mem_append.mp member).imp_right fun new => ?_
      rw [List.mem_singleton.mp new, SegmentRef.stamp_piece,
        CtcpState.retransmit_pieces now front]
      refine List.mem_map.mpr ⟨node, List.mem_append_right _ ?_, rfl⟩
      rw [front]
      exact List.mem_cons_self
  | _ => exact Or.inl member

/-- A piece that is expected extends the accepted pieces. -/
theorem Aligned.accept (aligned : Aligned sender receiver) (tiled : Tiled sender)
    {segment : Segment} (queued : segment.data ≠ [] → segment.piece ∈ sender.pieces)
    (expected : segment.seq = 1 + receiver.log.accepted.length)
    : ∃ front, front <+: sender.pieces
        ∧ content Prod.snd front = receiver.log.accepted ++ segment.data := by
  obtain ⟨front, isFront, accepted⟩ := aligned.boundary
  by_cases empty : segment.data = []
  · exact ⟨front, isFront, by rw [accepted, empty, List.append_nil]⟩
  · rw [← accepted] at expected ⊢
    exact tiled.pieces.boundary_grows isFront (queued empty) expected

/-- Every update of a side that only acts on what it hears keeps both directions aligned. -/
theorem Update.bothAligned {states : Side → CtcpState} {side : Side}
    (settled : ∀ side, Settled (states side)) (held : DataSafety states ∧ BothAligned states)
    (update : Update (hearing states side) (states side) next)
    : DataSafety (Function.update states side next)
      ∧ BothAligned (Function.update states side next) := by
  refine ⟨update.dataSafety settled held.1, fun shortNext => ?_⟩
  have here : Function.update states side next side = next := Function.update_self ..
  have there : Function.update states side next side.peer = states side.peer :=
    Function.update_of_ne side.peer_ne ..
  have short := short_before update.input_prefix shortNext
  have flowing := held.1 short
  have aligned := held.2 short
  intro other
  rcases Side.eq_or_eq_peer side other with rfl | rfl
  · rw [here, there]
    exact (aligned other).grow (update.pieces_prefix (flowing other).tiled)
      (update.sends_pieces (settled other))
  · rw [Side.peer_peer, here, there]
    have towards := aligned side.peer
    rw [Side.peer_peer] at towards
    generalize hearingSide : hearing states side = effects at update
    cases update with
    | accept segment segments size received delivers expected allocated =>
        rw [← hearingSide] at received
        obtain ⟨sent, member, arrived, carried, -, rfl⟩ := received
        refine ⟨towards.sent, towards.accept (flowing side.peer).tiled ?_ ?_⟩
        · intro nonempty
          have piece : arrived.cleared.piece = sent.object.segment.piece := by
            rw [Segment.piece, Segment.cleared_seq, Segment.cleared_data, carried.seq,
              carried.data, Segment.piece]
          rw [Segment.cleared_data, carried.data] at nonempty
          rw [piece]
          exact towards.sent sent member nonempty
        · have safe := (flowing side.peer).safe
          rw [Side.peer_peer] at safe
          have inInput := safe.accepted.length_le
          have shortInput := short side.peer
          have high : 1 + (states side).log.accepted.length < 4294967296 := by omega
          have noWrap : uint32 (1 + (states side).log.accepted.length : Int)
              = 1 + (states side).log.accepted.length := by
            exact_mod_cast uint32_natCast high
          rw [expected, (flowing side).truthful.ackno, uint32_int32, noWrap]
    | _ => exact ⟨towards.sent, towards.boundary⟩

end Pieces

-----------------------------------------------------------------------------------------
-- The receive window is empty between calls
-----------------------------------------------------------------------------------------

/-- Nothing is held in the receive window, and all of it is free. -/
structure Emptied (state : CtcpState) : Prop where
  segments : state.rw.segments = []
  size : state.rw.size = 0

theorem ctcpInit_emptied (cfg : CtcpConfig) : Emptied (ctcpInit cfg) := ⟨rfl, rfl⟩

section Emptying

variable {env : Env} {segment arrived : Segment} {len : Nat} {state next : CtcpState}

theorem SameDelivery.emptied (same : SameDelivery state next) (emptied : Emptied state)
    : Emptied next :=
  ⟨same.rw ▸ emptied.segments, same.rw ▸ emptied.size⟩

/-- What is expected and fits an empty window is accepted, acknowledged and output at once. -/
theorem receive_of_expected_whole (env : Env) (settled : Settled state) (emptied : Emptied state)
    (verified : checksum arrived) (nonempty : arrived.data ≠ [])
    (expected : arrived.seq = uint32 state.rw.ackno)
    (fits : state.payloadFits (segHeaderSize + arrived.data.length))
    (noWrap : uint32 state.rw.ackno + arrived.data.length < 4294967296)
    : step state (arrived.reception env)
      = some
          (((state.noted arrived).acknowledged (env.pad 0) (state.receivedObject arrived)).emit
            (env.bufspace 0) (state.receivedObject arrived) []) := by
  have hasData : ¬ Bare _ := mt (received_length_eq_zero arrived).mp nonempty
  have same : SameDelivery state (state.noted arrived) := ⟨rfl, rfl, rfl⟩
  have expectedObject : (state.receivedObject arrived).segment.seq = uint32 state.rw.ackno := by
    rw [CtcpState.receivedObject_seq]
    exact expected
  have acceptance := same.acceptance (env.pad 0) expectedObject
  rw [← state.receivedObject_data arrived] at nonempty noWrap
  rw [Segment.reception, receive_of_expected env settled verified hasData expected fits]
  exact acceptance.emitted nonempty emptied.segments noWrap

/-- Accepting a segment into an empty window leaves it empty. -/
theorem acknowledged_emit_emptied (pad : UInt16) (room : Nat) (object : SegmentRef)
    (emptied : Emptied state)
    : Emptied ((state.acknowledged pad object).emit room object []) := by
  refine ⟨rfl, ?_⟩
  have size : ((state.acknowledged pad object).emit room object []).rw.size
      = int32 (int32 (state.rw.size + object.segment.data.length)
        - object.segment.data.length) := rfl
  rw [size, emptied.size]
  unfold int32
  omega

/-- A segment of a short stream leaves an empty window empty, if `ctcp_receive` returns. -/
theorem receive_emptied (settled : Settled state) (emptied : Emptied state)
    (noWrap
      : arrived.seq = uint32 state.rw.ackno
        → uint32 state.rw.ackno + arrived.data.length < 4294967296)
    (taken : step state (arrived.reception env) = some next)
    : Emptied next := by
  have noted : Emptied (state.noted arrived) := ⟨emptied.segments, emptied.size⟩
  by_cases verified : checksum arrived
  · by_cases nonempty : arrived.data = []
    · have bare : Bare _ := (received_length_eq_zero arrived).mpr nonempty
      exact (receive_of_bare_sameDelivery settled verified bare taken).emptied emptied
    · have hasData : ¬ Bare _ := mt (received_length_eq_zero arrived).mp nonempty
      rcases Nat.lt_trichotomy arrived.seq (uint32 state.rw.ackno) with behind | expected | ahead
      · rw [Segment.reception, receive_of_behind env verified hasData behind] at taken
        exact Option.some.inj taken ▸ ⟨emptied.segments, emptied.size⟩
      · by_cases fits : state.payloadFits (segHeaderSize + arrived.data.length)
        · rw [receive_of_expected_whole env settled emptied verified nonempty expected fits
            (noWrap expected)] at taken
          exact Option.some.inj taken ▸ acknowledged_emit_emptied _ _ _ noted
        · rw [Segment.reception, receive_of_unfitting env verified hasData expected
            (by simpa using fits)] at taken
          exact Option.some.inj taken ▸ noted
      · by_cases fits : state.payloadFits (segHeaderSize + arrived.data.length)
        · rw [Segment.reception, receive_future_empty env settled verified hasData ahead fits
            emptied.segments] at taken
          cases taken
        · rw [Segment.reception, receive_of_ahead env verified hasData ahead, if_neg fits] at taken
          exact Option.some.inj taken ▸ noted
  · rw [Segment.reception, receive_of_rejected env (by simpa using verified)] at taken
    exact Option.some.inj taken ▸ ⟨emptied.segments, emptied.size⟩

end Emptying

/-- Both receive windows are empty, as long as the inputs are short. -/
def BothEmptied (states : Side → CtcpState) : Prop :=
  (∀ side, (states side).log.input.length < 2147483648) → ∀ side, Emptied (states side)

section Runs

variable {carrier : Carrier} {session next : Session} {side : Side} {action : Action}

/-- What is expected of a short stream ends before the end of the sequence numbers. -/
theorem Flowing.noWrap {sender receiver : CtcpState} (flowing : Flowing sender receiver)
    (ackno : receiver.rw.ackno = int32 (1 + receiver.log.accepted.length))
    (short : sender.log.input.length < 2147483648) {sent : Transmission}
    (member : sent ∈ sender.log.sent) {arrived : Segment}
    (carried : Carried sent.object.segment arrived)
    (expected : arrived.seq = uint32 receiver.rw.ackno)
    : uint32 receiver.rw.ackno + arrived.data.length < 4294967296 := by
  have inInput := flowing.safe.accepted.length_le
  have high : 1 + receiver.log.accepted.length < 4294967296 := by omega
  have noWrap : uint32 (1 + receiver.log.accepted.length : Int)
      = 1 + receiver.log.accepted.length := by
    exact_mod_cast uint32_natCast high
  have placed := flowing.truthful.placed sent member
  have extended := flowing.safe.accept short ackno placed (carried.seq ▸ expected)
  have whole := extended.length_le
  rw [List.length_append, ← carried.data] at whole
  rw [ackno, uint32_int32, noWrap]
  omega

theorem Updates.input_prefix {effects : Effects} {state next : CtcpState}
    (updates : Updates effects state next)
    : state.log.input <+: next.log.input := by
  induction updates with
  | refl => exact List.prefix_refl _
  | tail _ update ih => exact ih.trans update.input_prefix

/-- A call of a side keeps both windows empty. -/
theorem BothEmptied.call {call : Call} {state : CtcpState} (running : session.Running)
    (safety : DataSafety session.state) (held : BothEmptied session.state)
    (calls : session.Calls carrier side action call)
    (returned : Ctcp.step (session.state side) call = some state)
    : BothEmptied (Function.update session.state side state) := by
  intro shortNext
  have here : Function.update session.state side state side = state := Function.update_self ..
  have there : Function.update session.state side state side.peer = session.state side.peer :=
    Function.update_of_ne side.peer_ne ..
  have settled := running.settled side
  have updates := step_updates settled returned
  have short := short_before updates.input_prefix shortNext
  have emptied := held short side
  intro other
  rcases Side.eq_or_eq_peer side other with rfl | rfl
  · rw [here]
    cases calls with
    | read | timer =>
        exact (updates.sameDelivery (fun impossible => impossible)).emptied emptied
    | output env =>
        have idle : Ctcp.step (session.state other) (.output env) = some (session.state other) :=
          congrArg some (ctcpOutput_idle env (by simp [emptied.segments]))
        exact Option.some.inj (idle.symm.trans returned) ▸ emptied
    | deliver env flying carry =>
        obtain ⟨sent, member, carried⟩ := running.carried flying carry
        have flowing := safety short
        have towards := flowing other.peer
        rw [Side.peer_peer] at towards
        exact receive_emptied settled emptied
          (towards.noWrap (flowing other).truthful.ackno (short other.peer) member carried) returned
  · rw [there]
    exact held short side.peer

/-- What holds in every session that is reached. -/
structure Session.Whole (session : Session) : Prop where
  running : session.Running
  safety : DataSafety session.state
  aligned : BothAligned session.state
  emptied : BothEmptied session.state

theorem Session.Whole.step (whole : session.Whole)
    (taken : session.step carrier (side, action) = some next)
    : next.Whole := by
  obtain ⟨running, safety, aligned, emptied⟩ := whole
  rcases Session.step_cases taken with idle | returns
  · refine ⟨running.step taken, ?_, ?_, ?_⟩ <;> rw [idle.states] <;> assumption
  · obtain ⟨state, updates, states⟩ := running.updates returns
    obtain ⟨-, safetyNext, alignedNext⟩ :=
      hearing_invariant Update.bothAligned updates running.settled ⟨safety, aligned⟩
    obtain ⟨call, state', calls, returned, states'⟩ := returns.call
    refine ⟨running.step taken, ?_, ?_, ?_⟩
    · rw [states]
      exact safetyNext
    · rw [states]
      exact alignedNext
    · rw [states']
      exact emptied.call running safety calls returned

theorem Session.start_whole (cfg : Side → CtcpConfig) : (Session.start cfg).Whole where
  running := Session.start_running cfg
  safety := start_dataSafety cfg
  aligned := fun _ side => ⟨by simp [start, state, ctcpInit], [], List.nil_prefix, rfl⟩
  emptied := fun _ side => ctcpInit_emptied (cfg side)

theorem Session.runFrom_whole {cfg : Side → CtcpConfig} {inputs : List (Side × Action)}
    (reached : Session.runFrom carrier cfg inputs = some session)
    : session.Whole :=
  StepRuns.exec_invariant Session.Whole (fun whole taken => whole.step taken)
    (Session.start_whole cfg) reached

/-- In every state that two connected endpoints reach while both inputs are shorter than 2^31
bytes, whatever the network loses, repeats and reorders: the receive windows are empty, and what
a side has accepted are the payloads of the first segments that the other side queued.
-/
theorem Session.runFrom_wholeSegments {cfg : Side → CtcpConfig} {inputs : List (Side × Action)}
    (reached : Session.runFrom carrier cfg inputs = some session)
    (short : ∀ side, (session.state side).log.input.length < 2147483648) (side : Side)
    : (session.state side).rw.segments = []
      ∧ (session.state side).rw.size = 0
      ∧ ∃ count,
          (session.state side.peer).log.accepted
            = (((session.state side).pieces.take count).map Prod.snd).flatten := by
  obtain ⟨-, -, aligned, emptied⟩ := Session.runFrom_whole reached
  obtain ⟨front, ⟨rest, cut⟩, accepted⟩ := (aligned short side).boundary
  refine ⟨(emptied short side).segments, (emptied short side).size, front.length, ?_⟩
  rw [← cut, List.take_left, ← accepted, content, List.flatMap_def]

end Runs

/-- After a repeated segment and a lost one, one of two queued segments is accepted. -/
theorem Session.runFrom_wholeSegments_repeated
    : ∃ session,
        Session.runFrom .asSent (fun _ => defaultConfig) repeatedSegment = some session
        ∧ (session.state .a).pieces = [(1, [0x61, 0x62]), (3, [0x63])]
        ∧ (session.state .b).log.accepted = [0x61, 0x62]
        ∧ ∃ count,
            (session.state .b).log.accepted
              = (((session.state .a).pieces.take count).map Prod.snd).flatten := by
  have reached
    : (Session.runFrom .asSent (fun _ => defaultConfig) repeatedSegment).isSome := by
    decide +kernel
  refine ⟨_, (Option.some_get reached).symm, by decide +kernel +revert,
    by decide +kernel +revert, ?_⟩
  exact (Session.runFrom_wholeSegments (Option.some_get reached).symm
    (by intro side; cases side <;> decide +kernel +revert) .a).2.2

end Networks.Ctcp
