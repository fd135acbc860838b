import Networks.Ctcp.AdvertisedWindow
import Networks.Ctcp.Dispatch

/-! Whether flow control can leave both endpoints waiting for ever. The window field of a
segment is the free space of its sender's send window, so an endpoint that acknowledges data
while its own data fills that window closes the other end, and sends nothing that would open
it again.
-/

namespace Networks.Ctcp

open MachineIntegers

/-- The window field of a segment is not zero. -/
def Segment.opens (segment : Segment) : Prop := 0 < (ntohs segment.window).toNat

/-- A connection that may send, never told its peer otherwise, and heard of no FIN. -/
structure Open (state : CtcpState) : Prop where
  sized : Sized state
  capacity : 0 < state.sw.maxSize
  heard : 0 < state.sw.recvWinSize
  sent : ∀ sent ∈ state.log.sent, sent.object.segment.opens
  queued : ∀ node ∈ state.sw.segments, node.segment.opens
  fins : state.log.fins = []

theorem ctcpInit_open {cfg : CtcpConfig} (positive : 0 < cfg.sendWindow)
    : Open (ctcpInit cfg) where
  sized := ctcpInit_sized cfg
  capacity := by
    have room : 0 < cfg.sendWindow.toNat := UInt16.lt_iff_toNat_lt.mp positive
    simp only [ctcpInit]
    omega
  heard := by simp [ctcpInit, maxSegDataSize]
  sent := by simp [ctcpInit]
  queued := by simp [ctcpInit]
  fins := rfl

/-- A segment built while the send window has room is open. -/
theorem Sized.newSegment_opens {state : CtcpState} (sized : Sized state) (pad : UInt16)
    (mode : Mode) (room : state.sw.size < state.sw.maxSize)
    : (state.newSegment pad mode).segment.opens := by
  have window := sized.newSegment_window pad mode
  unfold Segment.opens
  omega

/-- `ctcp_read` only asks for bytes when the send window has room. -/
theorem Sized.room_of_bufferSize {state : CtcpState} (sized : Sized state)
    (room : 0 < state.bufferSize)
    : state.sw.size < state.sw.maxSize := by
  have one : ((1 : Nat) : Int) ≤ state.sw.maxSize - state.sw.size := sized.room (by omega)
  omega

/-- With nothing unacknowledged, an open connection asks for bytes. -/
theorem Open.bufferSize_pos {state : CtcpState} (opened : Open state)
    (empty : state.sw.segments = [])
    : 0 < state.bufferSize := by
  have size := opened.sized.size
  have capacity := opened.capacity
  have heard := opened.heard
  have maxSize := opened.sized.maxSize
  have none : state.windowBytes = [] := by rw [CtcpState.windowBytes, empty]; rfl
  rw [none, List.length_nil] at size
  have noWrap : int32 (state.sw.maxSize - state.sw.size) = state.sw.maxSize :=
    (int32_eq_self (by omega) (by omega)).trans (by omega)
  simp only [CtcpState.bufferSize, noWrap, maxSegDataSize]
  split <;> split <;> omega

/-- A connection stays open when it hears nothing else, keeps its windows, and sends at most
open segments.
-/
theorem Open.send {state next : CtcpState} (opened : Open state) (sw : next.sw = state.sw)
    (fins : next.log.fins = state.log.fins)
    (sent
      : ∀ sent ∈ next.log.sent, sent ∈ state.log.sent ∨ sent.object.segment.opens)
    : Open next := by
  have sized : Sized next := by
    obtain ⟨size, fits, maxSize, payloads⟩ := opened.sized
    rw [← sw] at size fits maxSize payloads
    refine ⟨?_, fits, maxSize, payloads⟩
    rw [size, CtcpState.windowBytes, CtcpState.windowBytes, sw]
  refine ⟨sized, ?_, ?_, ?_, ?_, fins.trans opened.fins⟩
  · rw [sw]
    exact opened.capacity
  · rw [sw]
    exact opened.heard
  · intro other member
    exact (sent other member).elim (opened.sent other) id
  · rw [sw]
    exact opened.queued

theorem Open.queueData {state : CtcpState} (opened : Open state) (now : Int) (pad : UInt16)
    (bytes : SendBuf) (room : 0 < state.bufferSize)
    (fits : (bytes.val.length : Int) ≤ state.bufferSize)
    : Open (state.queueData now pad bytes) := by
  have buffered : Sized { state with sendBuf := bytes } :=
    ⟨opened.sized.size, opened.sized.fits, opened.sized.maxSize, opened.sized.payloads⟩
  have opens : (state.dataSegment pad bytes).segment.opens :=
    buffered.newSegment_opens pad .data (opened.sized.room_of_bufferSize room)
  have stamped : ((state.dataSegment pad bytes).stamp state.acknoField).segment.opens := by
    rw [Segment.opens, SegmentRef.stamp_window]
    exact opens
  refine ⟨opened.sized.queueData now pad bytes fits, opened.capacity, opened.heard, ?_, ?_,
    opened.fins⟩
  · intro sent member
    rcases List.mem_append.mp member with old | new
    · exact opened.sent sent old
    · rw [List.mem_singleton.mp new]
      exact stamped
  · intro node member
    rcases List.mem_append.mp member with old | new
    · exact opened.queued node old
    · rw [List.mem_singleton.mp new]
      exact stamped

theorem Open.slide {state : CtcpState} (opened : Open state) (now : Int) (segment : Segment)
    : Open (state.slide now segment) where
  sized := opened.sized.slide now segment
  capacity := opened.capacity
  heard := opened.heard
  sent := opened.sent
  queued := fun node member => opened.queued node (List.mem_of_mem_filter member)
  fins := opened.fins

theorem Open.retransmit {state : CtcpState} (opened : Open state) (now : Int)
    {node : SegmentRef} {next : List SegmentRef} (front : state.sw.segments = node :: next)
    : Open (state.retransmit now node next) := by
  have stamped : (node.stamp state.acknoField).segment.opens := by
    rw [Segment.opens, SegmentRef.stamp_window]
    exact opened.queued node (by simp [front])
  refine ⟨opened.sized.retransmit now front, opened.capacity, opened.heard, ?_, ?_,
    opened.fins⟩
  · intro sent member
    rcases List.mem_append.mp member with old | new
    · exact opened.sent sent old
    · rw [List.mem_singleton.mp new]
      exact stamped
  · intro other member
    rcases List.mem_cons.mp member with same | later
    · rw [same]
      exact stamped
    · exact opened.queued other (by simp [front, later])

/-- Hearing an open segment keeps a connection open. -/
theorem Open.noted {state : CtcpState} (opened : Open state) {arrived : Segment}
    (opens : arrived.opens)
    : Open (state.noted arrived) where
  sized := ⟨opened.sized.size, opened.sized.fits, opened.sized.maxSize, opened.sized.payloads⟩
  capacity := opened.capacity
  heard := by
    simp only [CtcpState.noted, noteWindow, Segment.cleared_window, Segment.opens] at opens ⊢
    omega
  sent := opened.sent
  queued := opened.queued
  fins := opened.fins

/-- The ACK branch keeps a connection open. -/
theorem Open.receivedAck {state : CtcpState} (opened : Open state) (settled : Settled state)
    (env : Env) (segment : Segment)
    : Open (receivedAck env segment state) := by
  rcases receivedAck_cases env segment settled with same | ⟨node, next, -, -, slid⟩
  · rw [same]
    exact opened
  · rw [slid]
    exact opened.slide (env.now 2) segment

/-- An arriving ACK or data segment that is open keeps a connection open, if an ACK sent for
it is built while the send window has room.
-/
theorem Open.reaction {env : Env} {arrived : Segment} {state next : CtcpState}
    (opened : Open state) (settled : Settled state) (opens : arrived.opens)
    (flags : arrived.flags = thAck)
    (room
      : checksum arrived → arrived.data ≠ []
        → state.acknowledges arrived (segHeaderSize + arrived.data.length)
        → state.sw.size < state.sw.maxSize)
    (reaction : Reaction env arrived state next)
    : Open next := by
  have noted := opened.noted opens
  cases reaction with
  | rejected invalid => exact opened.send rfl rfl (fun _ member => Or.inl member)
  | data verified payload same sent =>
      refine noted.send same.sw same.fins ?_
      intro other member
      rcases sent with none | ⟨acknowledges, ack, log, window, -⟩
      · rw [none] at member
        exact Or.inl member
      · rw [log] at member
        rcases List.mem_append.mp member with old | new
        · exact Or.inl old
        · right
          rw [List.mem_singleton.mp new, Segment.opens, window]
          exact noted.sized.newSegment_opens 0 .ack (room verified payload acknowledges)
  | ack verified empty isAck => exact noted.receivedAck (settled.noted arrived) env _
  | fin verified empty isFin | finReturned verified empty isFin =>
      rw [flags] at isFin
      exact absurd isFin (by decide)
  | finAck verified empty isFinAck =>
      rw [flags] at isFinAck
      exact absurd isFinAck (by decide)
  | convertedFinAck verified empty isFinAck =>
      rw [flags] at isFinAck
      exact absurd isFinAck (by decide)

-----------------------------------------------------------------------------------------
-- Sessions without a FIN
-----------------------------------------------------------------------------------------

/-- No FIN has been sent. -/
def NoFinSent (states : Side → CtcpState) : Prop :=
  ∀ side, ∀ sent ∈ (states side).log.sent, sent.object.segment.flags &&& thFin = 0

/-- As long as no FIN has been sent, both connections are open. -/
def BothOpen (states : Side → CtcpState) : Prop :=
  NoFinSent states
  → ∀ side, Open (states side) ∧ Flagged (states side)

/-- A data segment that a side acknowledges arrives while its send window has room. -/
def AcksWithRoom (carrier : Carrier) (session : Session) : Side × Action → Prop
  | (side, .deliver _ index) =>
      ∀ arrived ∈ session.arrives carrier side index,
        checksum arrived → arrived.data ≠ []
        → (session.state side).acknowledges arrived (segHeaderSize + arrived.data.length)
        → (session.state side).sw.size < (session.state side).sw.maxSize
  | _ => True

/-- A queued FIN is sent. -/
theorem CtcpState.queueFin_sends (now : Int) (pad : UInt16) (state : CtcpState)
    : ∃ sent ∈ (state.queueFin now pad).log.sent, sent.object.segment.flags = thFin :=
  ⟨_, List.mem_append_right _ (List.mem_singleton_self _), SegmentRef.stamp_flags _ _⟩

/-- Without a FIN only ACKs and data segments arrive, and they are open. -/
theorem open_arrives {sender : CtcpState} (opened : Open sender) (flagged : Flagged sender)
    {sent : Transmission} (member : sent ∈ sender.log.sent)
    (noFin : sent.object.segment.flags &&& thFin = 0) {arrived : Segment}
    (carried : Carried sent.object.segment arrived)
    : arrived.opens ∧ arrived.flags = thAck := by
  refine ⟨?_, ?_⟩
  · rw [Segment.opens, carried.window]
    exact opened.sent sent member
  · have finBit := carried.fin
    have kinds := flagged.arriving member carried
    rw [noFin] at finBit
    generalize arrived.flags = mark at kinds finBit
    cases kinds with
    | ack => rfl
    | fin => exact absurd finBit (by decide)
    | finAck some => exact absurd opened.fins some
    | convertedFinAck some => exact absurd opened.fins some

section Runs

variable {carrier : Carrier} {session : Session} {side : Side} {action : Action}

/-- A call without a FIN keeps a connection open, if the arrivals it acknowledges find room. -/
theorem Open.call {call : Call} {state : CtcpState} (running : session.Running)
    (opened : ∀ side, Open (session.state side) ∧ Flagged (session.state side))
    (noFin
      : ∀ side, ∀ sent ∈ (session.state side).log.sent,
          sent.object.segment.flags &&& thFin = 0)
    (noFinNext : ∀ sent ∈ state.log.sent, sent.object.segment.flags &&& thFin = 0)
    (room : AcksWithRoom carrier session (side, action))
    (calls : session.Calls carrier side action call)
    (returned : Ctcp.step (session.state side) call = some state)
    : Open state := by
  have settled := running.settled side
  have here := (opened side).1
  cases calls with
  | read env offer =>
      obtain rfl := Option.some.inj returned
      rcases ctcpRead_cases env offer settled with
        ⟨-, same⟩ | ⟨-, -, fin⟩ | ⟨bytes, asks, given, data⟩
      · rw [same]
        exact here
      · obtain ⟨sent, member, isFin⟩ :=
          { session.state side with log.inputEnded := true }.queueFin_sends (env.now 0) (env.pad 0)
        have noFinBit := noFinNext sent (by rw [fin]; exact member)
        rw [isFin] at noFinBit
        exact absurd noFinBit (by decide)
      · rw [data]
        exact here.queueData _ _ _ asks (connInput_length_le_bufferSize asks given)
  | output env =>
      obtain rfl := Option.some.inj returned
      obtain ⟨same, sent⟩ := ctcpOutput_sameSending env (session.state side)
      exact here.send same.sw same.fins (fun other member => Or.inl (sent ▸ member))
  | timer env =>
      rcases timerCheck_cases settled (step_timer returned) with
        ⟨-, same⟩ | ⟨node, rest, front, -, -, -, again⟩
      · rw [same]
        exact here
      · rw [again]
        exact here.retransmit _ front
  | @deliver env index segment arrived flying carry =>
      obtain ⟨sent, member, carried⟩ := running.carried flying carry
      obtain ⟨peerOpen, peerFlagged⟩ := opened side.peer
      obtain ⟨opens, flags⟩ :=
        open_arrives peerOpen peerFlagged member (noFin side.peer sent member) carried
      have arrives := Session.arrives_eq flying carry
      have kinds := peerFlagged.arriving member carried
      exact here.reaction settled opens flags (room arrived arrives)
        (arrival_reaction settled kinds returned)

/-- Every call that meets the guard keeps both connections open. -/
theorem BothOpen.call {call : Call} {state : CtcpState} (running : session.Running)
    (held : BothOpen session.state) (room : AcksWithRoom carrier session (side, action))
    (calls : session.Calls carrier side action call)
    (returned : Ctcp.step (session.state side) call = some state)
    : BothOpen (Function.update session.state side state) := by
  intro noFinNext
  have here : Function.update session.state side state side = state := Function.update_self ..
  have there : Function.update session.state side state side.peer = session.state side.peer :=
    Function.update_of_ne side.peer_ne ..
  have updates := step_updates (running.settled side) returned
  have noFinHere := noFinNext side
  rw [here] at noFinHere
  have noFin : NoFinSent session.state := by
    intro other
    rcases Side.eq_or_eq_peer side other with rfl | rfl
    · exact fun sent member => noFinHere sent (updates.sent_prefix.subset member)
    · rw [← there]
      exact noFinNext side.peer
  have opened := held noFin
  have flagged : Flagged state :=
    updates.invariant (fun _ flagged update => update.flagged flagged) (running.settled side)
      (opened side).2
  intro other
  rcases Side.eq_or_eq_peer side other with rfl | rfl
  · rw [here]
    exact ⟨Open.call running opened noFin noFinHere room calls returned, flagged⟩
  · rw [there]
    exact opened side.peer

/-- Nothing is unacknowledged, and nothing is on its way. -/
def Session.Quiet (session : Session) : Prop :=
  ∀ side, (session.state side).sw.segments = [] ∧ session.flight side = []

/-- With input at hand `ctcp_read` sends at least one byte. -/
def CtcpState.ReadSends (state : CtcpState) : Prop :=
  ∀ env byte rest, ∃ sent,
    (ctcpRead env (some (byte :: rest)) state).log.sent = state.log.sent ++ [sent]
    ∧ sent.object.segment.data ≠ []

/-- `ctcp_read` sends a byte when it asks for one. -/
theorem readSends_of_bufferSize {state : CtcpState} (settled : Settled state)
    (asks : 0 < state.bufferSize)
    : state.ReadSends := by
  intro env byte rest
  rcases ctcpRead_cases env (some (byte :: rest)) settled with
    ⟨full, -⟩ | ⟨-, none, -⟩ | ⟨bytes, -, given, data⟩
  · omega
  · cases none
  · rw [data]
    refine ⟨_, rfl, ?_⟩
    have taken : bytes.val = (byte :: rest).take state.bufferSize.toNat :=
      (Option.some.inj given).symm
    obtain ⟨amount, positive⟩ : ∃ amount, state.bufferSize.toNat = amount + 1 :=
      ⟨state.bufferSize.toNat - 1, by omega⟩
    rw [positive, List.take_succ_cons] at taken
    rw [SegmentRef.stamp_data, CtcpState.dataSegment, CtcpState.newSegment]
    simp only [taken]
    exact List.cons_ne_nil _ _

/-- In every run without a FIN in which a side only acknowledges data while its own send
window has room, both sides can send whenever nothing is unacknowledged or on its way.
-/
theorem Session.runFrom_noWedge {cfg : Side → CtcpConfig}
    (positive : ∀ side, 0 < (cfg side).sendWindow) {inputs : List (Side × Action)}
    (guarded
      : StepRuns.AllSteps (Session.step carrier) (AcksWithRoom carrier) (Session.start cfg) inputs)
    (reached : Session.runFrom carrier cfg inputs = some session)
    (noFin : NoFinSent session.state) (quiet : session.Quiet) (side : Side)
    : 0 < (session.state side).bufferSize ∧ (session.state side).ReadSends := by
  obtain ⟨running, held⟩ :=
    Session.runFrom_invariant_of_guard (AcksWithRoom carrier) BothOpen BothOpen.call
      (fun _ side => ⟨ctcpInit_open (positive side), ctcpInit_flagged (cfg side)⟩) guarded reached
  have asks := (held noFin side).1.bufferSize_pos (quiet side).1
  exact ⟨asks, readSends_of_bufferSize (running.settled side) asks⟩

end Runs

instance (states : Side → CtcpState) : Decidable (NoFinSent states) :=
  inferInstanceAs (Decidable (∀ _, _))

instance (session : Session) : Decidable session.Quiet :=
  inferInstanceAs (Decidable (∀ _, _))

/-- Both windows hold one byte. -/
def oneByteWindows : CtcpConfig where
  recvWindow := 1
  sendWindow := 1
  rtTimeout := 200

/-- Both sides send a byte before they receive one, and so acknowledge it with a full send
window.
-/
def crossingBytes : List (Side × Action) :=
  let outside := Env.steady 0 1
  [
    (.a, .read outside (some [0x61])),
    (.b, .read outside (some [0x62])),
    (.a, .deliver outside 0),
    (.b, .deliver outside 0),
    (.a, .deliver outside 0),
    (.b, .deliver outside 0)
  ]

/-- After the two acknowledgements neither side sends any more. -/
theorem Session.crossing_bytes_wedge
    : ¬ ∀ (carrier : Carrier) (cfg : Side → CtcpConfig) (inputs : List (Side × Action))
        (session : Session),
        (∀ side, 0 < (cfg side).sendWindow ∧ 0 < (cfg side).recvWindow)
        → Session.runFrom carrier cfg inputs = some session → NoFinSent session.state
        → session.Quiet → ∀ side, (session.state side).ReadSends := by
  intro always
  obtain ⟨session, reached⟩ : ∃ session,
      Session.runFrom .asSent (fun _ => oneByteWindows) crossingBytes = some session :=
    Option.isSome_iff_exists.mp (by decide +kernel)
  have wedged : ∀ session ∈ Session.runFrom .asSent (fun _ => oneByteWindows) crossingBytes,
      NoFinSent session.state ∧ session.Quiet
      ∧ (ctcpRead (.steady 0 0) (some [0x63]) (session.state .a)).log.sent.length
        = (session.state .a).log.sent.length := by
    decide +kernel
  obtain ⟨noFin, quiet, silent⟩ := wedged session reached
  obtain ⟨sent, log, -⟩ :=
    always .asSent (fun _ => oneByteWindows) crossingBytes session (by decide) reached noFin
      quiet .a (.steady 0 0) 0x63 []
  rw [log, List.length_append] at silent
  exact absurd silent (by simp)

instance (carrier : Carrier) (session : Session) (input : Side × Action)
    : Decidable (AcksWithRoom carrier session input) :=
  match input with
  | (side, .deliver _ index) =>
      inferInstanceAs (Decidable (∀ arrived ∈ session.arrives carrier side index, _))
  | (_, .read ..) | (_, .output _) | (_, .timer _) | (_, .duplicate _) | (_, .drop _) =>
      isTrue trivial

/-- One side sends a byte, and the other only after it has acknowledged that. -/
def alternatingBytes : List (Side × Action) :=
  let outside := Env.steady 0 1
  [
    (.a, .read outside (some [0x61])),
    (.b, .deliver outside 0),
    (.a, .deliver outside 0),
    (.b, .read outside (some [0x62])),
    (.a, .deliver outside 0),
    (.b, .deliver outside 0)
  ]

/-- After the two acknowledgements both sides send on. -/
theorem Session.runFrom_noWedge_alternating
    : ∃ session,
        Session.runFrom .asSent (fun _ => oneByteWindows) alternatingBytes = some session
        ∧ ∀ side, 0 < (session.state side).bufferSize ∧ (session.state side).ReadSends := by
  obtain ⟨session, reached⟩ : ∃ session,
      Session.runFrom .asSent (fun _ => oneByteWindows) alternatingBytes = some session :=
    Option.isSome_iff_exists.mp (by decide +kernel)
  have quiet : ∀ session ∈ Session.runFrom .asSent (fun _ => oneByteWindows) alternatingBytes,
      NoFinSent session.state ∧ session.Quiet := by
    decide +kernel
  refine ⟨session, reached, fun side => ?_⟩
  exact Session.runFrom_noWedge (by decide) (by decide +kernel) reached
    (quiet session reached).1 (quiet session reached).2 side

end Networks.Ctcp
