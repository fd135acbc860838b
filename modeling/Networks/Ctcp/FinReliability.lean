import Networks.Ctcp.Dispatch
import Networks.Ctcp.PeerWindow
import Networks.Ctcp.StreamEnd

/-! Whether a FIN that was taken off the send window has reached the other end. A FIN takes no
sequence number, so the ackno for the data in front of it covers the FIN as well. Only a
FIN-ACK tells that the other end has seen a FIN.
-/

namespace Networks.Ctcp

open MachineIntegers

/-- A segment stands behind the data of a connection that has queued a FIN. -/
def CtcpState.AtEnd (segment : Segment) (state : CtcpState) : Prop :=
  segment.seq = uint32 state.sw.seqno ∧ ∃ object ∈ state.log.queued, object.isFin

/-- If a segment is a FIN, it stands behind the data. -/
def CtcpState.FinAtEnd (segment : Segment) (state : CtcpState) : Prop :=
  segment.flags &&& thFin ≠ 0 → state.AtEnd segment

theorem CtcpState.finAtEnd_of_ack {state : CtcpState} {segment : Segment}
    (flags : segment.flags = thAck)
    : state.FinAtEnd segment := by
  intro finBit
  rw [flags] at finBit
  exact absurd finBit (by decide)

/-- What one call changes about the FINs of a connection: those it sends or queues stand
behind the data, those it hears of stand behind the data of its peer, and those it takes off
the window its peer has heard of.
-/
structure FinStep (peer state next : CtcpState) : Prop where
  ended : ∀ {segment}, state.AtEnd segment → next.AtEnd segment
  sent
    : ∀ sent ∈ next.log.sent,
        sent ∈ state.log.sent ∨ next.FinAtEnd sent.object.segment
  window
    : ∀ node ∈ next.sw.segments,
        node ∈ state.sw.segments ∨ next.FinAtEnd node.segment
  grows : state.log.fins <+: next.log.fins
  heard : ∀ fin ∈ next.log.fins, fin ∈ state.log.fins ∨ peer.AtEnd fin
  acked
    : ∀ object ∈ next.log.acked, object.isFin
        → object ∈ state.log.acked ∨ ∃ fin ∈ peer.log.fins, fin.seq = object.segment.seq

theorem FinStep.trans {peer first second third : CtcpState}
    (left : FinStep peer first second) (right : FinStep peer second third)
    : FinStep peer first third where
  ended := fun atEnd => right.ended (left.ended atEnd)
  sent := by
    intro sent member
    rcases right.sent sent member with old | new
    · exact (left.sent sent old).imp_right (fun atEnd finBit => right.ended (atEnd finBit))
    · exact Or.inr new
  window := by
    intro node member
    rcases right.window node member with old | new
    · exact (left.window node old).imp_right (fun atEnd finBit => right.ended (atEnd finBit))
    · exact Or.inr new
  grows := left.grows.trans right.grows
  heard := fun fin member => (right.heard fin member).elim (left.heard fin) Or.inr
  acked := fun object member isFin =>
    (right.acked object member isFin).elim (fun old => left.acked object old isFin) Or.inr

/-- A call that changes neither the window nor the histories of FINs, and sends no FIN. -/
theorem FinStep.of_same {peer state next : CtcpState}
    (seqno : next.sw.seqno = state.sw.seqno) (segments : next.sw.segments = state.sw.segments)
    (queued : next.log.queued = state.log.queued) (fins : next.log.fins = state.log.fins)
    (acked : next.log.acked = state.log.acked)
    (sent
      : ∀ sent ∈ next.log.sent,
          sent ∈ state.log.sent ∨ sent.object.segment.flags &&& thFin = 0)
    : FinStep peer state next where
  ended := by
    intro segment atEnd
    rw [CtcpState.AtEnd, seqno, queued]
    exact atEnd
  sent := fun sent' member =>
    (sent sent' member).imp_right (fun noFin finBit => absurd noFin finBit)
  window := fun node member => Or.inl (segments ▸ member)
  grows := fins ▸ List.prefix_refl _
  heard := fun fin member => Or.inl (fins ▸ member)
  acked := fun object member _ => Or.inl (acked ▸ member)

theorem FinStep.refl (peer state : CtcpState) : FinStep peer state state :=
  .of_same rfl rfl rfl rfl rfl (fun _ member => Or.inl member)

/-- A queued FIN stands behind the data. -/
theorem FinStep.queueFin (peer state : CtcpState) (now : Int) (pad : UInt16)
    : FinStep peer state (state.queueFin now pad) := by
  have isFin : (state.newSegment pad .fin).isFin := by
    rw [SegmentRef.isFin, decide_eq_true_eq]
    show thFin &&& thFin ≠ 0
    decide
  have atEnd : (state.queueFin now pad).FinAtEnd
      ((state.newSegment pad .fin).stamp state.acknoField).segment := by
    refine fun _ => ⟨?_, _, List.mem_append_right _ (List.mem_singleton_self _), isFin⟩
    rw [Segment.seq, SegmentRef.stamp_seqno]
    exact state.newSegment_position pad .fin
  refine ⟨?_, ?_, ?_, List.prefix_refl _, fun _ member => Or.inl member,
    fun _ member _ => Or.inl member⟩
  · rintro segment ⟨seq, object, member, fin⟩
    exact ⟨seq, object, List.mem_append_left _ member, fin⟩
  · intro sent member
    rcases List.mem_append.mp member with old | new
    · exact Or.inl old
    · exact Or.inr (List.mem_singleton.mp new ▸ atEnd)
  · intro node member
    rcases List.mem_append.mp member with old | new
    · exact Or.inl old
    · exact Or.inr (List.mem_singleton.mp new ▸ atEnd)

/-- Queueing data moves the end of the data, unless there is no data or no FIN. -/
theorem FinStep.queueData (peer : CtcpState) {state : CtcpState} (now : Int) (pad : UInt16)
    (bytes : SendBuf)
    (last : bytes.val ≠ [] → ∀ object ∈ state.log.queued, ¬ object.isFin)
    : FinStep peer state (state.queueData now pad bytes) := by
  have noFin : ∀ next : CtcpState,
      next.FinAtEnd ((state.dataSegment pad bytes).stamp state.acknoField).segment :=
    fun next => CtcpState.finAtEnd_of_ack (SegmentRef.stamp_flags _ _)
  refine ⟨?_, ?_, ?_, List.prefix_refl _, fun _ member => Or.inl member,
    fun _ member _ => Or.inl member⟩
  · rintro segment ⟨seq, object, member, fin⟩
    have empty : bytes.val = [] := not_not.mp (fun some => last some object member fin)
    refine ⟨?_, object, List.mem_append_left _ member, fin⟩
    simp only [CtcpState.queueData, empty, List.length_nil, Nat.cast_zero, add_zero,
      uint32_int32]
    exact seq
  · intro sent member
    rcases List.mem_append.mp member with old | new
    · exact Or.inl old
    · exact Or.inr (List.mem_singleton.mp new ▸ noFin _)
  · intro node member
    rcases List.mem_append.mp member with old | new
    · exact Or.inl old
    · exact Or.inr (List.mem_singleton.mp new ▸ noFin _)

/-- A FIN that is sent again still stands where it stood. -/
theorem FinStep.retransmit (peer : CtcpState) {state : CtcpState} (now : Int)
    {node : SegmentRef} {next : List SegmentRef} (front : state.sw.segments = node :: next)
    (atEnd : state.FinAtEnd node.segment)
    : FinStep peer state (state.retransmit now node next) := by
  have stamped : (state.retransmit now node next).FinAtEnd
      (node.stamp state.acknoField).segment := by
    rw [CtcpState.FinAtEnd, SegmentRef.stamp_flags]
    intro finBit
    obtain ⟨seq, queued⟩ := atEnd finBit
    refine ⟨?_, queued⟩
    rw [Segment.seq, SegmentRef.stamp_seqno]
    exact seq
  refine ⟨id, ?_, ?_, List.prefix_refl _, fun _ member => Or.inl member,
    fun _ member _ => Or.inl member⟩
  · intro sent member
    rcases List.mem_append.mp member with old | new
    · exact Or.inl old
    · exact Or.inr (List.mem_singleton.mp new ▸ stamped)
  · intro other member
    rcases List.mem_cons.mp member with same | later
    · exact Or.inr (same ▸ stamped)
    · exact Or.inl (front ▸ List.mem_cons_of_mem node later)

/-- An acknowledgement may take off the FINs its sender has heard of. -/
theorem FinStep.slide {peer state : CtcpState} (now : Int) (segment : Segment)
    (known
      : ∀ node ∈ state.sw.segments, node.isFin → confirmed segment.receivedAckno node
        → ∃ fin ∈ peer.log.fins, fin.seq = node.segment.seq)
    : FinStep peer state (state.slide now segment) := by
  refine ⟨id, fun _ member => Or.inl member, ?_, List.prefix_refl _,
    fun _ member => Or.inl member, ?_⟩
  · exact fun node member => Or.inl (List.mem_of_mem_filter member)
  · intro object member isFin
    rcases List.mem_append.mp member with old | new
    · exact Or.inl old
    · obtain ⟨inWindow, covered⟩ := List.mem_filter.mp new
      exact Or.inr (known object inWindow isFin covered)

-----------------------------------------------------------------------------------------
-- Two connections
-----------------------------------------------------------------------------------------

/-- For every FIN taken off a send window, the other side has heard a copy. -/
def FinsReliable (states : Side → CtcpState) : Prop :=
  ∀ side, ∀ object ∈ (states side).log.acked, object.isFin
    → ∃ fin ∈ (states side.peer).log.fins, fin.seq = object.segment.seq

/-- What both sides know about the FINs of each other. -/
structure FinsKnown (states : Side → CtcpState) : Prop where
  flagged : ∀ side, Flagged (states side)
  sent
    : ∀ side, ∀ sent ∈ (states side).log.sent,
        (states side).FinAtEnd sent.object.segment
  window
    : ∀ side, ∀ node ∈ (states side).sw.segments, (states side).FinAtEnd node.segment
  heard : ∀ side, ∀ fin ∈ (states side).log.fins, (states side.peer).AtEnd fin
  reliable : FinsReliable states

theorem start_finsKnown (cfg : Side → CtcpConfig)
    : FinsKnown (fun side => ctcpInit (cfg side)) where
  flagged := fun side => ctcpInit_flagged (cfg side)
  sent := by simp [ctcpInit]
  window := by simp [ctcpInit]
  heard := by simp [ctcpInit]
  reliable := by simp [FinsReliable, ctcpInit]

/-- A call that treats FINs well keeps what both sides know. -/
theorem FinsKnown.step {states : Side → CtcpState} {side : Side} {next : CtcpState}
    (known : FinsKnown states) (stepped : FinStep (states side.peer) (states side) next)
    (flagged : Flagged next)
    : FinsKnown (Function.update states side next) := by
  have here : Function.update states side next side = next := Function.update_self ..
  have there : Function.update states side next side.peer = states side.peer :=
    Function.update_of_ne side.peer_ne ..
  constructor
  · intro other
    rcases Side.eq_or_eq_peer side other with rfl | rfl
    · rwa [here]
    · rw [there]
      exact known.flagged side.peer
  · intro other
    rcases Side.eq_or_eq_peer side other with rfl | rfl
    · rw [here]
      intro sent member
      rcases stepped.sent sent member with old | new
      · exact fun finBit => stepped.ended (known.sent other sent old finBit)
      · exact new
    · rw [there]
      exact known.sent side.peer
  · intro other
    rcases Side.eq_or_eq_peer side other with rfl | rfl
    · rw [here]
      intro node member
      rcases stepped.window node member with old | new
      · exact fun finBit => stepped.ended (known.window other node old finBit)
      · exact new
    · rw [there]
      exact known.window side.peer
  · intro other
    rcases Side.eq_or_eq_peer side other with rfl | rfl
    · rw [here, there]
      intro fin member
      exact (stepped.heard fin member).elim (known.heard other fin) id
    · rw [there, Side.peer_peer, here]
      intro fin member
      have atEnd := known.heard side.peer fin member
      rw [Side.peer_peer] at atEnd
      exact stepped.ended atEnd
  · intro other
    rcases Side.eq_or_eq_peer side other with rfl | rfl
    · rw [here, there]
      intro object member isFin
      exact (stepped.acked object member isFin).elim
        (fun old => known.reliable other object old isFin) id
    · rw [there, Side.peer_peer, here]
      intro object member isFin
      have reliable := known.reliable side.peer object member isFin
      rw [Side.peer_peer] at reliable
      obtain ⟨fin, heard, seq⟩ := reliable
      exact ⟨fin, stepped.grows.subset heard, seq⟩

/-- Whether acting on an acknowledgement takes a FIN off the send window. -/
def CtcpState.confirmsFin (segment : Segment) (state : CtcpState) : Bool :=
  match state.sw.segments with
  | [] => false
  | front :: next =>
      acknowledgesFront segment front
      && (front :: next).any (fun node => node.isFin && confirmed segment.receivedAckno node)

/-- An arriving ACK takes no FIN off the send window, and no data is read after a FIN was
queued.
-/
def KeepsFins (carrier : Carrier) (session : Session) : Side × Action → Prop
  | (side, .deliver _ index) =>
      ∀ arrived ∈ session.arrives carrier side index,
        checksum arrived → arrived.data = [] → arrived.flags &&& thAck ≠ 0
        → ¬ (session.state side).confirmsFin arrived
  | (side, .read _ offer) =>
      (session.state side).queuesData offer
      → ∀ object ∈ (session.state side).log.queued, ¬ object.isFin
  | _ => True

/-- The ACK branch takes off no FIN, or FINs whose copies the peer has heard. -/
theorem FinStep.receivedAck {peer state : CtcpState} (settled : Settled state) (env : Env)
    (arrived : Segment)
    (known
      : state.confirmsFin arrived
        → ∀ node ∈ state.sw.segments, node.isFin
          → ∃ fin ∈ peer.log.fins, fin.seq = node.segment.seq)
    : FinStep peer state (receivedAck env arrived.cleared state) := by
  rcases receivedAck_cases env arrived.cleared settled with
    same | ⟨front, next, window, acknowledged, slid⟩
  · rw [same]
    exact .refl peer state
  · rw [slid]
    refine .slide _ _ fun node member isFin covered => known ?_ node member isFin
    rw [acknowledgesFront_cleared] at acknowledged
    rw [Segment.cleared_receivedAckno] at covered
    simp only [CtcpState.confirmsFin, window, acknowledged, Bool.true_and, List.any_eq_true]
    exact ⟨node, window ▸ member, by rw [isFin, covered]; rfl⟩

/-- The FIN of a peer is answered, and noted at the end of the peer's stream. -/
theorem FinStep.finNoted {env : Env} {peer state : CtcpState} {sent : Transmission}
    {arrived : Segment} (carried : Carried sent.object.segment arrived)
    (peerFins : peer.FinAtEnd sent.object.segment) (flags : arrived.flags = thFin)
    : FinStep peer state (state.finNoted env arrived) := by
  have finBit : sent.object.segment.flags &&& thFin ≠ 0 := by
    rw [← carried.fin, flags]
    decide
  have atEnd : peer.AtEnd arrived.cleared := by
    obtain ⟨seq, queued⟩ := peerFins finBit
    refine ⟨?_, queued⟩
    rw [Segment.cleared_seq, carried.seq, seq]
  refine ⟨id, ?_, fun _ member => Or.inl member, List.prefix_append _ _, ?_,
    fun _ member _ => Or.inl member⟩
  · intro answer member
    rcases List.mem_append.mp member with old | new
    · exact Or.inl old
    · right
      rw [List.mem_singleton.mp new]
      exact fun noFinBit => absurd (show htonl 0x11 &&& thFin = 0 by decide) noFinBit
  · intro fin member
    rcases List.mem_append.mp member with old | new
    · exact Or.inl old
    · exact Or.inr (List.mem_singleton.mp new ▸ atEnd)

/-- The arrival of a segment that the peer has sent treats FINs well. -/
theorem FinStep.reaction {env : Env} {peer state next : CtcpState} {sent : Transmission}
    {arrived : Segment} (settled : Settled state) (carried : Carried sent.object.segment arrived)
    (peerFins : peer.FinAtEnd sent.object.segment)
    (kinds : ArrivingFlags peer arrived.flags)
    (heard : ∀ fin ∈ peer.log.fins, state.AtEnd fin)
    (window : ∀ node ∈ state.sw.segments, state.FinAtEnd node.segment)
    (keeps
      : checksum arrived → arrived.data = [] → arrived.flags &&& thAck ≠ 0
        → ¬ state.confirmsFin arrived)
    (reaction : Reaction env arrived state next)
    : FinStep peer state next := by
  have noted : FinStep peer state (state.noted arrived) :=
    .of_same rfl rfl rfl rfl rfl (fun _ member => Or.inl member)
  have finNoted (flags : arrived.flags = thFin) : FinStep peer state (state.finNoted env arrived) :=
    .finNoted carried peerFins flags
  cases reaction with
  | rejected invalid => exact .of_same rfl rfl rfl rfl rfl (fun _ member => Or.inl member)
  | data verified payload same sentAck =>
      refine noted.trans (.of_same ?_ ?_ same.queued same.fins same.acked ?_)
      · rw [same.sw]
      · rw [same.sw]
      · intro other member
        rcases sentAck with none | ⟨-, ack, log, -, flags⟩
        · exact Or.inl (none ▸ member)
        · rw [log] at member
          rcases List.mem_append.mp member with old | new
          · exact Or.inl old
          · right
            rw [List.mem_singleton.mp new, flags]
            decide
  | ack verified empty flags =>
      have ackBit : arrived.flags &&& thAck ≠ 0 := by rw [flags]; decide
      refine noted.trans (.receivedAck (settled.noted arrived) env arrived ?_)
      exact fun confirms => absurd confirms (keeps verified empty ackBit)
  | fin verified empty flags running => exact finNoted flags
  | finReturned verified empty flags stopped =>
      exact (finNoted flags).trans (.queueFin peer _ _ _)
  | finAck verified empty flags => exact noted
  | convertedFinAck verified empty flags =>
      have armed : FinStep peer state (state.armed env arrived) :=
        .of_same rfl rfl rfl rfl rfl (fun _ member => Or.inl member)
      have settledArmed : Settled (state.armed env arrived) :=
        ⟨settled.bufferEmpty, settled.stamped, settled.timed, settled.allocate.allocated⟩
      refine armed.trans (.receivedAck settledArmed env arrived ?_)
      intro _ node member isFin
      obtain ⟨fin, inFins⟩ := List.exists_mem_of_ne_nil _ (kinds.heard_fin flags)
      have finBit : node.segment.flags &&& thFin ≠ 0 := by
        simpa [SegmentRef.isFin] using isFin
      exact ⟨fin, inFins, (heard fin inFins).1.trans (window node member finBit).1.symm⟩

section Runs

variable {carrier : Carrier} {session : Session} {side : Side} {action : Action}

/-- Every call that meets the guard treats FINs well. -/
theorem FinStep.call {call : Call} {state : CtcpState} (running : session.Running)
    (known : FinsKnown session.state) (keeps : KeepsFins carrier session (side, action))
    (calls : session.Calls carrier side action call)
    (returned : Ctcp.step (session.state side) call = some state)
    : FinStep (session.state side.peer) (session.state side) state := by
  have settled := running.settled side
  cases calls with
  | read env offer =>
      obtain rfl := Option.some.inj returned
      rcases ctcpRead_cases env offer settled with
        ⟨-, same⟩ | ⟨-, -, fin⟩ | ⟨bytes, asks, given, data⟩
      · rw [same]
        exact .refl _ _
      · have ended : FinStep (session.state side.peer) (session.state side)
            { session.state side with log.inputEnded := true } :=
          .of_same rfl rfl rfl rfl rfl (fun _ member => Or.inl member)
        rw [fin]
        exact ended.trans (.queueFin _ _ _ _)
      · rw [data]
        exact .queueData _ _ _ bytes fun some => keeps ⟨asks, bytes.val, given, some⟩
  | output env =>
      obtain rfl := Option.some.inj returned
      obtain ⟨same, sent⟩ := ctcpOutput_sameSending env (session.state side)
      refine .of_same ?_ ?_ same.queued same.fins same.acked
        (fun other member => Or.inl (sent ▸ member))
      · rw [same.sw]
      · rw [same.sw]
  | timer env =>
      rcases timerCheck_cases settled (step_timer returned) with
        ⟨-, same⟩ | ⟨node, rest, front, -, -, -, again⟩
      · rw [same]
        exact .refl _ _
      · rw [again]
        exact .retransmit _ _ front (known.window side node (by simp [front]))
  | @deliver env index segment arrived flying carry =>
      obtain ⟨sent, member, carried⟩ := running.carried flying carry
      have kinds := (known.flagged side.peer).arriving member carried
      have arrives := Session.arrives_eq flying carry
      have heard := known.heard side.peer
      rw [Side.peer_peer] at heard
      exact .reaction settled carried (known.sent side.peer sent member) kinds heard
        (known.window side) (keeps arrived arrives) (arrival_reaction settled kinds returned)

/-- In every run in which no arriving ACK takes a FIN off a send window and no data is read
after a FIN was queued, a FIN is only taken off once the other side has heard a copy of it.
-/
theorem Session.runFrom_finsReliable {cfg : Side → CtcpConfig} {inputs : List (Side × Action)}
    (guarded
      : StepRuns.AllSteps (Session.step carrier) (KeepsFins carrier) (Session.start cfg) inputs)
    (reached : Session.runFrom carrier cfg inputs = some session)
    : FinsReliable session.state := by
  refine (Session.runFrom_invariant_of_guard (KeepsFins carrier) FinsKnown ?_
    (start_finsKnown cfg) guarded reached).2.reliable
  intro session side action call state running known keeps calls returned
  have updates := step_updates (running.settled side) returned
  have flagged : Flagged state :=
    updates.invariant (fun _ flagged update => update.flagged flagged) (running.settled side)
      (known.flagged side)
  exact known.step (FinStep.call running known keeps calls returned) flagged

end Runs

/-- One side reads a byte and the end of its input, and its FIN is lost. The other side
acknowledges the byte.
-/
def lostFin : List (Side × Action) :=
  let outside := Env.steady 0 10
  [
    (.a, .read outside (some [0x61])),
    (.a, .read outside none),
    (.b, .drop 1),
    (.b, .deliver outside 0),
    (.a, .deliver outside 0)
  ]

/-- The acknowledgement takes off the FIN, which nobody has heard. -/
theorem Session.lost_fin_forgotten
    : ¬ ∀ (carrier : Carrier) (cfg : Side → CtcpConfig) (inputs : List (Side × Action))
        (session : Session),
        Session.runFrom carrier cfg inputs = some session → FinsReliable session.state := by
  intro always
  obtain ⟨session, reached⟩ : ∃ session,
      Session.runFrom .asSent (fun _ => defaultConfig) lostFin = some session :=
    Option.isSome_iff_exists.mp (by decide +kernel)
  have forgotten : ∀ session ∈ Session.runFrom .asSent (fun _ => defaultConfig) lostFin,
      (∃ object ∈ (session.state .a).log.acked, object.isFin)
      ∧ (session.state .b).log.fins = [] := by
    decide +kernel
  obtain ⟨⟨object, acked, isFin⟩, none⟩ := forgotten session reached
  obtain ⟨fin, heard, -⟩ :=
    always .asSent (fun _ => defaultConfig) lostFin session reached .a object acked isFin
  rw [Side.peer, none] at heard
  cases heard

instance (state : CtcpState) (offer : Option (List UInt8))
    : Decidable (state.queuesData offer) :=
  inferInstanceAs (Decidable (_ ∧ ∃ bytes ∈ connInput state.bufferSize offer, bytes ≠ []))

instance (carrier : Carrier) (session : Session) (input : Side × Action)
    : Decidable (KeepsFins carrier session input) :=
  match input with
  | (side, .deliver _ index) =>
      inferInstanceAs (Decidable (∀ arrived ∈ session.arrives carrier side index, _))
  | (_, .read ..) => inferInstanceAs (Decidable (_ → _))
  | (_, .output _) | (_, .timer _) | (_, .duplicate _) | (_, .drop _) => isTrue trivial

/-- One side reads a byte and the end of its input. Both segments arrive, and then the
FIN-ACK.
-/
def answeredFin : List (Side × Action) :=
  let outside := Env.steady 0 10
  [
    (.a, .read outside (some [0x61])),
    (.a, .read outside none),
    (.b, .deliver outside 0),
    (.b, .deliver outside 0),
    (.a, .deliver outside 1)
  ]

/-- The FIN-ACK takes off the FIN that the other side has heard. -/
theorem Session.runFrom_finsReliable_answered
    : ∃ session,
        Session.runFrom (.packets fun _ => plainLink) (fun _ => defaultConfig) answeredFin
          = some session
        ∧ (∃ object ∈ (session.state .a).log.acked, object.isFin)
        ∧ FinsReliable session.state := by
  obtain ⟨session, reached⟩ : ∃ session,
      Session.runFrom (.packets fun _ => plainLink) (fun _ => defaultConfig) answeredFin
        = some session :=
    Option.isSome_iff_exists.mp (by decide +kernel)
  have acked : ∀ session
      ∈ Session.runFrom (.packets fun _ => plainLink) (fun _ => defaultConfig) answeredFin,
      ∃ object ∈ (session.state .a).log.acked, object.isFin := by
    decide +kernel
  exact ⟨session, reached, acked session reached,
    Session.runFrom_finsReliable (by decide +kernel) reached⟩

end Networks.Ctcp
