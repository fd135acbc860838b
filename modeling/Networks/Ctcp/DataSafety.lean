import Networks.Ctcp.Endpoints
import Networks.Ctcp.SendWindow

/-! No byte of a connection is altered, invented or forgotten between two endpoints.
Every segment ever sent carries a slice of its sender's input at its sequence number, and an
ackno that its sender had reached. This is what a receiver may rely on when a copy of the
segment arrives, however late.
-/

namespace Networks.Ctcp

open MachineIntegers StreamPieces

/-- A segment carries a slice of a stream whose first byte has sequence number one. -/
def Placed (stream : List UInt8) (segment : Segment) : Prop :=
  ∃ position, segment.seq = 1 + position ∧ SliceAt stream position segment.data

theorem Placed.grow {stream : List UInt8} {segment : Segment} (more : List UInt8)
    (placed : Placed stream segment)
    : Placed (stream ++ more) segment := by
  obtain ⟨position, seq, slice⟩ := placed
  exact ⟨position, seq, slice.grow more⟩

/-- What the segments sent by a connection say is true of it: their data is a slice of its
input, and what they acknowledge it has accepted.
-/
structure Truthful (state : CtcpState) : Prop where
  placed : ∀ sent ∈ state.log.sent, Placed state.log.input sent.object.segment
  acknowledging
    : ∀ sent ∈ state.log.sent, sent.object.segment.ack ≤ 1 + state.log.accepted.length
  ackno : state.rw.ackno = int32 (1 + state.log.accepted.length)

theorem ctcpInit_truthful (cfg : CtcpConfig) : Truthful (ctcpInit cfg) where
  placed := by simp [ctcpInit]
  acknowledging := by simp [ctcpInit]
  ackno := by simp [ctcpInit, int32]

/-- The ackno written into a segment has been reached. -/
theorem Truthful.acknoField {state : CtcpState} (truthful : Truthful state)
    : (ntohl state.acknoField).toNat ≤ 1 + state.log.accepted.length := by
  have field : (ntohl state.acknoField).toNat
      = uint32 (1 + state.log.accepted.length : Int) % 4294967296 := by
    simp only [CtcpState.acknoField, ntohl_htonl, UInt32.toNat_ofNat', truthful.ackno,
      uint32_int32]
  rw [field]
  unfold uint32
  omega

/-- A connection stays truthful when it sends one more segment that is true of it. -/
theorem Truthful.send {state next : CtcpState} {sent : Transmission}
    (truthful : Truthful state) (log : next.log.sent = state.log.sent ++ [sent])
    (input : state.log.input <+: next.log.input)
    (accepted : next.log.accepted = state.log.accepted) (rw : next.rw = state.rw)
    (placed : Placed next.log.input sent.object.segment)
    (stamped : sent.object.segment.ackno = state.acknoField)
    : Truthful next := by
  refine ⟨?_, ?_, by rw [rw, accepted, truthful.ackno]⟩
  · intro other member
    rw [log] at member
    rcases List.mem_append.mp member with old | new
    · obtain ⟨more, grown⟩ := input
      rw [← grown]
      exact (truthful.placed other old).grow more
    · rw [List.mem_singleton.mp new]
      exact placed
  · intro other member
    rw [log] at member
    rw [accepted]
    rcases List.mem_append.mp member with old | new
    · exact truthful.acknowledging other old
    · rw [List.mem_singleton.mp new, Segment.ack, stamped]
      exact truthful.acknoField

/-- A new segment without payload stands at the end of the input. -/
theorem Tiled.newSegment_placed {state : CtcpState} (tiled : Tiled state)
    (settled : Settled state) (short : state.log.input.length < 2147483648) (pad : UInt16)
    (mode : Mode)
    : Placed state.log.input (state.newSegment pad mode).segment := by
  refine ⟨state.log.input.length, ?_, ?_⟩
  · rw [← tiled.next_position short]
    exact state.newSegment_position pad mode
  · have empty : (state.newSegment pad mode).segment.data = [] := by
      rw [← SegmentRef.payload, CtcpState.newSegment_payload, settled.bufferEmpty]
    rw [empty]
    exact ⟨state.log.input, [], by simp, rfl⟩

/-- A queued segment carries a slice of the input. -/
theorem Tiled.queued_placed {state : CtcpState} (tiled : Tiled state) {node : SegmentRef}
    (member : node ∈ state.sw.segments)
    : Placed state.log.input node.segment := by
  obtain ⟨position, seq, slice⟩ := tiled.window.slices member
  refine ⟨position, seq, ?_⟩
  rw [← tiled.bytes]
  exact slice

theorem Placed.stamp {stream : List UInt8} {object : SegmentRef} (ackno : UInt32)
    (placed : Placed stream object.segment)
    : Placed stream (object.stamp ackno).segment := by
  obtain ⟨position, seq, slice⟩ := placed
  refine ⟨position, ?_, ?_⟩
  · rw [← SegmentRef.position, SegmentRef.stamp_position]
    exact seq
  · rw [SegmentRef.stamp_data]
    exact slice

theorem Placed.summed {stream : List UInt8} {segment : Segment}
    (placed : Placed stream segment)
    : Placed stream segment.summed := by
  obtain ⟨position, seq, slice⟩ := placed
  exact ⟨position, seq, slice⟩

/-- Every update keeps a connection truthful. -/
theorem Update.truthful {effects : Effects} {state next : CtcpState}
    (update : Update effects state next) (settled : Settled state) (tiled : Tiled state)
    (short : state.log.input.length < 2147483648) (truthful : Truthful state)
    : Truthful next := by
  cases update with
  | ack pad =>
      exact truthful.send rfl (List.prefix_refl _) rfl rfl
        (tiled.newSegment_placed settled short pad .ack).summed rfl
  | finAck pad segment received isFin =>
      exact truthful.send rfl (List.prefix_refl _) rfl rfl
        (tiled.newSegment_placed settled short pad .finAck).summed rfl
  | endInput now pad reading queues | queueFin now pad reading queues =>
      exact truthful.send rfl (List.prefix_refl _) rfl rfl
        ((tiled.newSegment_placed settled short pad .fin).stamp _) rfl
  | queueData now pad bytes reading queues room fits =>
      refine truthful.send rfl (List.prefix_append _ _) rfl rfl (Placed.stamp _ ?_) rfl
      refine ⟨state.log.input.length, ?_, ?_⟩
      · rw [← tiled.next_position short]
        exact CtcpState.newSegment_position _ pad .data
      · exact sliceAt_append state.log.input bytes.val
  | retransmit now node next reading retransmits front running tries =>
      have placed : Placed state.log.input node.segment := tiled.queued_placed (by simp [front])
      exact truthful.send rfl (List.prefix_refl _) rfl rfl (placed.stamp _) rfl
  | accept segment segments size received delivers expected allocated =>
      refine ⟨truthful.placed, ?_, ?_⟩
      · intro sent member
        have before := truthful.acknowledging sent member
        simp only [List.length_append]
        omega
      · simp only [truthful.ackno, int32_int32_add, List.length_append, Nat.cast_add, add_assoc]
  | _ => exact ⟨truthful.placed, truthful.acknowledging, truthful.ackno⟩

-----------------------------------------------------------------------------------------
-- Safety of one direction
-----------------------------------------------------------------------------------------

/-- The data flowing from one connection to another: what was accepted is an initial part of
what was read, and only what was accepted is forgotten.
-/
structure Safe (sender receiver : CtcpState) : Prop where
  accepted : receiver.log.accepted <+: sender.log.input
  acked : sender.ackedBytes.length ≤ receiver.log.accepted.length

/-- An acknowledgement that the receiver has reached removes nothing else from the window.
Witness: the removed segments are an initial part of it that ends by the ackno. An ackno from
2^31 on reads as negative, but then the whole input has been accepted.
-/
theorem Safe.slide {sender receiver : CtcpState} (safe : Safe sender receiver)
    (tiled : Tiled sender) (short : sender.log.input.length < 2147483648) (now : Int)
    {segment : Segment} (reached : segment.ack ≤ 1 + receiver.log.accepted.length)
    : Safe (sender.slide now segment) receiver := by
  refine ⟨safe.accepted, ?_⟩
  obtain ⟨middle, -, first, -, low⟩ :=
    tiled.window.split_at (sizeT segment.receivedAckno)
  rw [← confirmed_eq_endsBy] at first
  have boundary : middle = 1 + (sender.slide now segment).ackedBytes.length := by
    have middleEnd := first.stop_eq
    rw [CtcpState.slide_ackedBytes, List.length_append, CtcpState.confirmedBytes]
    omega
  have inInput : (sender.slide now segment).ackedBytes.length ≤ sender.log.input.length := by
    have whole := congrArg List.length (tiled.slide now segment).bytes
    rw [List.length_append] at whole
    exact Nat.le_of_add_right_le (Nat.le_of_eq whole)
  have acked := safe.acked
  rcases low with byAckno | unmoved
  · by_cases positive : segment.ack < 2147483648
    · have read : sizeT segment.receivedAckno = segment.ack := by
        rw [Segment.receivedAckno, int32_eq_self (by omega) (by omega)]
        exact sizeT_natCast (by omega)
      omega
    · omega
  · omega

/-- A segment that carries a slice of the input and is expected extends the accepted bytes. -/
theorem Safe.accept {sender receiver : CtcpState} (safe : Safe sender receiver)
    (short : sender.log.input.length < 2147483648)
    (ackno : receiver.rw.ackno = int32 (1 + receiver.log.accepted.length))
    {segment : Segment} (placed : Placed sender.log.input segment)
    (expected : segment.seq = uint32 receiver.rw.ackno)
    : receiver.log.accepted ++ segment.data <+: sender.log.input := by
  obtain ⟨position, seq, slice⟩ := placed
  have inInput := safe.accepted.length_le
  have high : 1 + receiver.log.accepted.length < 4294967296 := by omega
  have noWrap : uint32 (1 + receiver.log.accepted.length : Int)
      = 1 + receiver.log.accepted.length := by
    exact_mod_cast uint32_natCast high
  have atEnd : position = receiver.log.accepted.length := by
    rw [expected, ackno, uint32_int32, noWrap] at seq
    omega
  subst atEnd
  exact slice.prefix_append safe.accepted

/-- A segment that a side hears is true of the other side. -/
theorem Hears.truthful {states : Side → CtcpState} {side : Side} {segment : Segment}
    (hears : Hears states side segment) (truthful : Truthful (states side.peer))
    : Placed (states side.peer).log.input segment
      ∧ segment.ack ≤ 1 + (states side.peer).log.accepted.length := by
  obtain ⟨sent, member, arrived, carried, -, rfl⟩ := hears
  obtain ⟨position, seq, slice⟩ := truthful.placed sent member
  refine ⟨⟨position, ?_, ?_⟩, ?_⟩
  · rw [Segment.cleared_seq, carried.seq, seq]
  · rw [Segment.cleared_data, carried.data]
    exact slice
  · rw [Segment.cleared_ack, carried.ack]
    exact truthful.acknowledging sent member

/-- What one side keeps about itself and about the data it sends to the other. -/
structure Flowing (sender receiver : CtcpState) : Prop where
  tiled : Tiled sender
  truthful : Truthful sender
  safe : Safe sender receiver

/-- Both directions, as long as the inputs are short. -/
def DataSafety (states : Side → CtcpState) : Prop :=
  (∀ side, (states side).log.input.length < 2147483648)
  → ∀ side, Flowing (states side) (states side.peer)

theorem start_dataSafety (cfg : Side → CtcpConfig)
    : DataSafety (fun side => ctcpInit (cfg side)) := by
  intro _ side
  exact ⟨ctcpInit_tiled _, ctcpInit_truthful _, List.prefix_refl _, Nat.le_refl _⟩

/-- An update of the sender keeps the data it sends safe. -/
theorem Update.safe_sender {states : Side → CtcpState} {side : Side} {next : CtcpState}
    (update : Update (hearing states side) (states side) next)
    (short : (states side).log.input.length < 2147483648)
    (flowing : ∀ side, Flowing (states side) (states side.peer))
    : Safe next (states side.peer) := by
  obtain ⟨tiled, -, safe⟩ := flowing side
  generalize hearingSide : hearing states side = effects at update
  cases update with
  | slide now segment node rest reading received front acknowledged =>
      rw [← hearingSide] at received
      have reached := (Hears.truthful received (flowing side.peer).truthful).2
      exact safe.slide tiled short now reached
  | queueData now pad bytes reading queues room fits =>
      exact ⟨safe.accepted.trans (List.prefix_append _ _), safe.acked⟩
  | _ => exact ⟨safe.accepted, safe.acked⟩

/-- An update of the receiver keeps the data it is sent safe. -/
theorem Update.safe_receiver {states : Side → CtcpState} {side : Side} {next : CtcpState}
    (update : Update (hearing states side) (states side) next)
    (short : (states side.peer).log.input.length < 2147483648)
    (flowing : ∀ side, Flowing (states side) (states side.peer))
    : Safe (states side.peer) next := by
  have safe := (flowing side.peer).safe
  rw [Side.peer_peer] at safe
  have ackno := (flowing side).truthful.ackno
  generalize hearingSide : hearing states side = effects at update
  cases update with
  | accept segment segments size received delivers expected allocated =>
      rw [← hearingSide] at received
      have placed := (Hears.truthful received (flowing side.peer).truthful).1
      refine ⟨safe.accept short ackno placed expected, ?_⟩
      have acked := safe.acked
      simp only [List.length_append]
      omega
  | _ => exact ⟨safe.accepted, safe.acked⟩

/-- Every update of a side that only acts on what it hears keeps both directions safe. -/
theorem Update.dataSafety {states : Side → CtcpState} {side : Side} {next : CtcpState}
    (settled : ∀ side, Settled (states side)) (held : DataSafety states)
    (update : Update (hearing states side) (states side) next)
    : DataSafety (Function.update states side next) := by
  intro shortNext
  have here : Function.update states side next side = next := Function.update_self ..
  have there : Function.update states side next side.peer = states side.peer :=
    Function.update_of_ne side.peer_ne ..
  have short : ∀ other, (states other).log.input.length < 2147483648 := by
    intro other
    have after := shortNext other
    rcases Side.eq_or_eq_peer side other with same | peer
    · rw [same, here] at after
      rw [same]
      exact Nat.lt_of_le_of_lt update.input_prefix.length_le after
    · rwa [peer, there, ← peer] at after
  have flowing := held short
  have shortHere := shortNext side
  rw [here] at shortHere
  intro other
  rcases Side.eq_or_eq_peer side other with rfl | rfl
  · rw [here, there]
    exact ⟨update.tiled (settled other) (fun _ => (flowing other).tiled) shortHere,
      update.truthful (settled other) (flowing other).tiled (short other) (flowing other).truthful,
      update.safe_sender (short other) flowing⟩
  · rw [Side.peer_peer, here, there]
    exact ⟨(flowing side.peer).tiled, (flowing side.peer).truthful,
      update.safe_receiver (short side.peer) flowing⟩

/-- In every state that two connected endpoints reach while both inputs are shorter than 2^31
bytes, whatever the network loses, repeats and reorders: what either side accepted is an
initial part of what the other side read, its ackno is one more than the length of that, and
what either side has dropped from its send window the other side has accepted.
-/
theorem Session.runFrom_dataSafety {carrier : Carrier} {cfg : Side → CtcpConfig}
    {inputs : List (Side × Action)} {session : Session}
    (reached : Session.runFrom carrier cfg inputs = some session)
    (short : ∀ side, (session.state side).log.input.length < 2147483648) (side : Side)
    : (session.state side.peer).log.accepted <+: (session.state side).log.input
      ∧ (session.state side.peer).rw.ackno
        = int32 (1 + (session.state side.peer).log.accepted.length)
      ∧ uint32 (session.state side.peer).rw.ackno
        = 1 + (session.state side.peer).log.accepted.length
      ∧ (session.state side).ackedBytes <+: (session.state side.peer).log.accepted := by
  obtain ⟨-, held⟩ :=
    Session.runFrom_invariant DataSafety Update.dataSafety (start_dataSafety cfg) reached
  have flowing := held short
  obtain ⟨tiled, -, safe⟩ := flowing side
  have ackno := (flowing side.peer).truthful.ackno
  refine ⟨safe.accepted, ackno, ?_, ?_⟩
  · have high : 1 + (session.state side.peer).log.accepted.length < 4294967296 := by
      have inInput := safe.accepted.length_le
      have shortInput := short side
      omega
    rw [ackno, uint32_int32]
    exact_mod_cast uint32_natCast high
  · have ackedInput : (session.state side).ackedBytes <+: (session.state side).log.input :=
      ⟨_, tiled.bytes⟩
    exact List.prefix_of_prefix_length_le ackedInput safe.accepted safe.acked

/-- Two bytes are read and their segment repeated by the network. Both copies arrive, the
second as a duplicate, and both acknowledgements. A third byte is read and lost.
-/
def repeatedSegment : List (Side × Action) :=
  let outside := Env.steady 0 10
  [
    (.a, .read outside (some [0x61, 0x62])),
    (.b, .duplicate 0),
    (.b, .deliver outside 0),
    (.b, .deliver outside 0),
    (.a, .deliver outside 1),
    (.a, .deliver outside 0),
    (.a, .read outside (some [0x63])),
    (.b, .drop 0)
  ]

/-- Two of the three bytes are accepted, once, and forgotten by their sender. -/
theorem Session.runFrom_dataSafety_repeated
    : ∃ session,
        Session.runFrom .asSent (fun _ => defaultConfig) repeatedSegment = some session
        ∧ (session.state .b).log.accepted = [0x61, 0x62]
        ∧ (session.state .a).ackedBytes = [0x61, 0x62]
        ∧ (session.state .b).log.accepted <+: (session.state .a).log.input := by
  have reached
    : (Session.runFrom .asSent (fun _ => defaultConfig) repeatedSegment).isSome := by
    decide +kernel
  refine ⟨_, (Option.some_get reached).symm, by decide +kernel +revert,
    by decide +kernel +revert, ?_⟩
  exact (Session.runFrom_dataSafety (Option.some_get reached).symm
    (by intro side; cases side <;> decide +kernel +revert) .a).1

end Networks.Ctcp
