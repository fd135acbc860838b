import Networks.Ctcp.Arrivals

/-! How `ctcp_receive` dispatches a verified segment by the length it was received with: one
with data goes through the data branch, any other through the branches for FINs and ACKs.
-/

namespace Networks.Ctcp

open MachineIntegers

/-- By the length it was received with a segment has no data. -/
def Bare (len : Nat) : Prop := sizeT (len - segHeaderSize) = 0

instance (len : Nat) : Decidable (Bare len) := inferInstanceAs (Decidable (_ = _))

/-- What the branches for FINs and FIN-ACKs leave of a connection. -/
def CtcpState.reacted (env : Env) (arrived : Segment) (state : CtcpState) : CtcpState :=
  if arrived.flags &&& thFin ≠ 0 then
    if state.timerTeardown = -1 then
      (state.finNoted env arrived).queueFin (env.now 0) (env.pad 1)
    else
      state.finNoted env arrived
  else if arrived.flags = 0 then
    state.armed env arrived
  else
    state.noted arrived

/-- Whether the ACK branch runs for a segment without data. -/
def Segment.acks (segment : Segment) : Prop := segment.flags &&& thAck ≠ 0 ∨ segment.flags = 0

instance (segment : Segment) : Decidable segment.acks := inferInstanceAs (Decidable (_ ∨ _))

section Dispatch

variable {env : Env} {segment : Segment} {len : Nat} {state : CtcpState}

theorem finAckArrived_iff (segment : Segment) (len : Nat)
    : finAckArrived segment.cleared len = true ↔ segment.flags = 0 ∧ Bare len := by
  have masked : thAck &&& thFin = 0 := by decide
  rw [finAckArrived, decide_eq_true_eq, Segment.cleared_flags, masked, Bare]

theorem finArrived_iff (segment : Segment) (len : Nat)
    : finArrived segment.cleared len = true ↔ segment.flags &&& thFin ≠ 0 ∧ Bare len := by
  rw [finArrived, decide_eq_true_eq, Segment.cleared_flags, Bare]

/-- With data the window of the segment is noted, and nothing else. -/
theorem receivedHeader_of_data (env : Env) (segment : Segment) (state : CtcpState)
    (hasData : ¬ Bare len)
    : receivedHeader env segment.cleared len state.allocate = state.noted segment := by
  have noFin := mt (finArrived_iff segment len).mp (fun both => hasData both.2)
  have noFinAck := mt (finAckArrived_iff segment len).mp (fun both => hasData both.2)
  rw [receivedHeader, gotFinAck, if_neg noFinAck, gotFin, if_neg noFin, CtcpState.noted]

theorem receivedHeader_of_bare (env : Env) (segment : Segment) (settled : Settled state)
    (bare : Bare len)
    : receivedHeader env segment.cleared len state.allocate = state.reacted env segment := by
  by_cases finBit : segment.flags &&& thFin ≠ 0
  · have fin := (finArrived_iff segment len).mpr ⟨finBit, bare⟩
    have some : segment.flags ≠ 0 := by
      intro none
      rw [none] at finBit
      exact finBit (by decide)
    have noFinAck := mt (finAckArrived_iff segment len).mp (fun both => some both.1)
    rw [receivedHeader, gotFinAck, if_neg noFinAck, gotFin, if_pos fin, CtcpState.reacted,
      if_pos finBit]
    exact receivedFin_eq env segment.cleared (settled.noted segment)
  · have noFin := mt (finArrived_iff segment len).mp (fun both => finBit both.1)
    rw [receivedHeader, gotFinAck, gotFin, if_neg noFin, CtcpState.reacted, if_neg finBit]
    by_cases none : segment.flags = 0
    · rw [if_pos ((finAckArrived_iff segment len).mpr ⟨none, bare⟩), if_pos none]
      rfl
    · have noFinAck := mt (finAckArrived_iff segment len).mp (fun both => none both.1)
      rw [if_neg noFinAck, if_neg none]
      rfl

theorem Settled.reacted (settled : Settled state) (env : Env) (segment : Segment)
    : Settled (state.reacted env segment) := by
  have bare : Bare segHeaderSize := by decide
  rw [← receivedHeader_of_bare env segment settled bare]
  exact receivedHeader_settled env segment.cleared segHeaderSize settled.allocate

/-- A verified segment with data goes through the data branch. -/
theorem receive_of_data (env : Env) (verified : checksum segment) (hasData : ¬ Bare len)
    : step state (.receive env segment len)
      = receivedData env (state.receivedObject segment) len (state.noted segment) := by
  have size : sizeT (len - segHeaderSize) ≠ 0 := hasData
  rw [receive_eq, if_neg (by simp [verified]), receivedHeader_of_data env segment state hasData,
    receivedBody, if_pos size]

/-- A verified segment without data is reacted to, and acknowledges what it may. -/
theorem receive_of_bare (env : Env) (settled : Settled state) (verified : checksum segment)
    (bare : Bare len)
    : step state (.receive env segment len)
      = some
          (if segment.acks then receivedAck env segment.cleared (state.reacted env segment)
          else state.reacted env segment) := by
  have branch : ((state.receivedObject segment).segment.flags &&& thAck ≠ 0
        ∨ finAckArrived (state.receivedObject segment).segment len = true)
      ↔ segment.acks := by
    rw [CtcpState.receivedObject, finAckArrived_iff, Segment.cleared_flags, Segment.acks]
    exact or_congr_right (and_iff_left bare)
  have size : ¬ sizeT (len - segHeaderSize) ≠ 0 := not_not.mpr bare
  rw [receive_eq, if_neg (by simp [verified]), receivedHeader_of_bare env segment settled bare,
    receivedBody, if_neg size]
  by_cases acks : segment.acks
  · rw [if_pos (branch.mpr acks), if_pos acks]
    rfl
  · rw [if_neg (mt branch.mp acks), if_neg acks]

/-- A segment that is rejected takes up an address. -/
theorem receive_of_rejected (env : Env) (rejected : checksum segment = false)
    : step state (.receive env segment len) = some state.allocate := by
  rw [receive_eq, if_pos rejected]

/-- What the arrival of a segment does to a connection, by the kinds of segment a peer sends. -/
theorem arrival_reaction {next sender : CtcpState} (settled : Settled state)
    (flags : ArrivingFlags sender segment.flags)
    (taken : step state (segment.reception env) = some next)
    : Reaction env segment state next := by
  rw [Segment.reception] at taken
  by_cases verified : checksum segment
  · by_cases payload : segment.data = []
    · have bare : Bare _ := (received_length_eq_zero segment).mpr payload
      rw [receive_of_bare env settled verified bare] at taken
      obtain rfl := Option.some.inj taken
      generalize kind : segment.flags = mark at flags
      have acks : segment.acks ↔ mark &&& thAck ≠ 0 ∨ mark = 0 := by rw [Segment.acks, kind]
      rw [CtcpState.reacted, kind]
      cases flags with
      | ack =>
          rw [if_pos (acks.mpr (by decide)), if_neg (by decide), if_neg (by decide)]
          exact .ack verified payload kind
      | fin =>
          rw [if_neg (mt acks.mp (by decide)), if_pos (by decide)]
          by_cases stopped : state.timerTeardown = -1
          · rw [if_pos stopped]
            exact .finReturned verified payload kind stopped
          · rw [if_neg stopped]
            exact .fin verified payload kind stopped
      | finAck fins =>
          rw [if_neg (mt acks.mp (by decide)), if_neg (by decide), if_neg (by decide)]
          exact .finAck verified payload kind
      | convertedFinAck fins =>
          rw [if_pos (acks.mpr (by decide)), if_neg (by decide), if_pos rfl]
          exact .convertedFinAck verified payload kind
    · have hasData : ¬ Bare _ := mt (received_length_eq_zero segment).mp payload
      rw [receive_of_data env verified hasData] at taken
      have fresh := settled.arrived_noted segment
      obtain ⟨same, sent⟩ := receivedData_sending fresh taken
      refine .data verified payload same (sent.imp_right (And.imp_left ?_))
      simp only [CtcpState.acknowledges, CtcpState.inOrder, CtcpState.receivedObject_seq]
      exact id
  · rw [receive_of_rejected env (by simpa using verified)] at taken
    obtain rfl := Option.some.inj taken
    exact .rejected (by simpa using verified)

-----------------------------------------------------------------------------------------
-- The data branch
-----------------------------------------------------------------------------------------

theorem CtcpState.noted_rw (segment : Segment) (state : CtcpState)
    : (state.noted segment).rw = state.rw := rfl

/-- A segment behind ackno is answered by an ACK. -/
theorem receive_of_behind (env : Env) (verified : checksum segment) (hasData : ¬ Bare len)
    (behind : segment.seq < uint32 state.rw.ackno)
    : step state (.receive env segment len)
      = some ((state.noted segment).answer (env.pad 0) .ack) := by
  have behindObject : (state.receivedObject segment).segment.seq
      < uint32 (state.noted segment).rw.ackno := by
    rw [CtcpState.receivedObject_seq]
    exact behind
  have unexpected : ¬ (state.noted segment).inOrder (state.receivedObject segment).segment len :=
    fun expected => Nat.ne_of_lt behindObject (CtcpState.inOrder_iff.mp expected).1
  rw [receive_of_data env verified hasData, receivedData_unexpected unexpected, gotDuplicate,
    if_pos behindObject, ctcpMakeseg_ack]
  exact gotFuture_behind len (Nat.le_of_lt behindObject)

/-- The expected segment is accepted, and then looked at as a segment of the future. -/
theorem receive_of_expected (env : Env) (settled : Settled state) (verified : checksum segment)
    (hasData : ¬ Bare len) (expected : segment.seq = uint32 state.rw.ackno)
    (fits : state.payloadFits len)
    : step state (.receive env segment len)
      = gotFuture (state.receivedObject segment) len
          (ctcpOutput env
            ((state.noted segment).acknowledged (env.pad 0) (state.receivedObject segment))) := by
  have arrived := settled.arrived_noted segment
  rw [receive_of_data env verified hasData]
  exact receivedData_expected arrived (by rw [CtcpState.receivedObject_seq]; exact expected) fits

/-- A segment ahead of ackno is kept when it fits. -/
theorem receive_of_ahead (env : Env) (verified : checksum segment) (hasData : ¬ Bare len)
    (ahead : uint32 state.rw.ackno < segment.seq)
    : step state (.receive env segment len)
      = if state.payloadFits len then
          receivedFuture (state.receivedObject segment) (state.noted segment)
        else
          some (state.noted segment) := by
  have aheadObject : uint32 state.rw.ackno < (state.receivedObject segment).segment.seq := by
    rw [CtcpState.receivedObject_seq]
    exact ahead
  have unexpected : ¬ (state.noted segment).inOrder (state.receivedObject segment).segment len :=
    fun expected => Nat.ne_of_gt aheadObject (CtcpState.inOrder_iff.mp expected).1
  have notBehind : ¬ (state.receivedObject segment).segment.seq
      < uint32 (state.noted segment).rw.ackno := Nat.not_lt.mpr (Nat.le_of_lt aheadObject)
  rw [receive_of_data env verified hasData, receivedData_unexpected unexpected, gotDuplicate,
    if_neg notBehind, gotFuture]
  by_cases fits : state.payloadFits len
  · rw [if_pos fits, if_pos ⟨aheadObject, fits⟩]
  · rw [if_neg fits, if_neg fun both => fits both.2]

/-- The expected segment is dropped when it does not fit. -/
theorem receive_of_unfitting (env : Env) (verified : checksum segment) (hasData : ¬ Bare len)
    (expected : segment.seq = uint32 state.rw.ackno) (large : state.payloadFits len = false)
    : step state (.receive env segment len) = some (state.noted segment) := by
  have expectedObject : (state.receivedObject segment).segment.seq
      = uint32 (state.noted segment).rw.ackno := by
    rw [CtcpState.receivedObject_seq]
    exact expected
  have unexpected : ¬ (state.noted segment).inOrder (state.receivedObject segment).segment len :=
    fun inOrder => absurd (CtcpState.inOrder_iff.mp inOrder).2
      (by rw [CtcpState.payloadFits_of_rw_eq len (state.noted_rw segment), large]; simp)
  rw [receive_of_data env verified hasData, receivedData_unexpected unexpected, gotDuplicate,
    if_neg (Nat.not_lt.mpr (Nat.le_of_eq expectedObject.symm))]
  exact gotFuture_behind len (Nat.le_of_eq expectedObject)

/-- When `ctcp_output` empties the window, all of it was below ackno, by induction on it. -/
theorem outputLoop_emptied (bufspace : Nat → Nat) (call : Nat) {nodes : List SegmentRef}
    {state : CtcpState} (window : state.rw.segments = nodes)
    (emptied : (outputLoop bufspace call nodes state).rw.segments = [])
    : ∀ node ∈ nodes, node.segment.seq < uint32 state.rw.ackno := by
  induction nodes generalizing call state with
  | nil => simp
  | cons node next ih =>
      rw [outputLoop_cons] at emptied
      split at emptied
      · exact absurd (window.symm.trans emptied) (List.cons_ne_nil _ _)
      · next below =>
          intro other member
          rcases List.mem_cons.mp member with rfl | later
          · exact Nat.not_le.mp below
          · exact @ih (call + 1) (state.emit (bufspace call) node next) rfl emptied other later

theorem outputLoop_ackno (bufspace : Nat → Nat) (call : Nat) (nodes : List SegmentRef)
    (state : CtcpState)
    : (outputLoop bufspace call nodes state).rw.ackno = state.rw.ackno := by
  obtain ⟨_, _, _, equal, -⟩ := outputLoop_keeps bufspace call nodes state
  rw [equal]

/-- What `ctcp_output` leaves of a window never makes the future case dereference `NULL` for
an object of that window.
-/
theorem gotFuture_of_output (env : Env) (len : Nat) {object : SegmentRef} {state : CtcpState}
    (member : object ∈ state.rw.segments)
    : ∃ next, gotFuture object len (ctcpOutput env state) = some next := by
  by_cases emptied : (ctcpOutput env state).rw.segments = []
  · have below := outputLoop_emptied env.bufspace 0 rfl emptied object member
    refine ⟨_, gotFuture_behind len (Nat.le_of_lt ?_)⟩
    rw [ctcpOutput, outputLoop_ackno]
    exact below
  · exact Option.isSome_iff_exists.mp (gotFuture_isSome object len emptied)

/-- `ctcp_receive` dereferences `NULL` just for a segment of the future that fits an empty
window.
-/
theorem receive_returns_iff (env : Env) (settled : Settled state)
    : (∃ next, step state (.receive env segment len) = some next)
      ↔ ¬ (checksum segment ∧ ¬ Bare len ∧ uint32 state.rw.ackno < segment.seq
          ∧ state.payloadFits len ∧ state.rw.segments = []) := by
  constructor
  · rintro ⟨next, taken⟩ ⟨verified, hasData, ahead, fits, empty⟩
    rw [receive_future_empty env settled verified hasData ahead fits empty] at taken
    cases taken
  · intro sound
    by_cases verified : checksum segment
    · by_cases bare : Bare len
      · exact ⟨_, receive_of_bare env settled verified bare⟩
      · rcases Nat.lt_trichotomy segment.seq (uint32 state.rw.ackno) with behind | expected | ahead
        · exact ⟨_, receive_of_behind env verified bare behind⟩
        · by_cases fits : state.payloadFits len
          · rw [receive_of_expected env settled verified bare expected fits]
            exact gotFuture_of_output env len (List.mem_append_right _ (List.mem_singleton_self _))
          · exact ⟨_, receive_of_unfitting env verified bare expected (by simpa using fits)⟩
        · rw [receive_of_ahead env verified bare ahead]
          by_cases fits : state.payloadFits len
          · have filled : state.rw.segments ≠ [] := fun empty =>
              sound ⟨verified, bare, ahead, fits, empty⟩
            obtain ⟨⟨segments, inTheBack⟩, inserted⟩ := Option.isSome_iff_exists.mp
              (insertFuture_isSome (state.receivedObject segment) filled)
            rw [if_pos fits, receivedFuture, llFront, state.noted_rw, inserted]
            exact ⟨_, rfl⟩
          · rw [if_neg fits]
            exact ⟨_, rfl⟩
    · exact ⟨_, receive_of_rejected env (by simpa using verified)⟩

end Dispatch

end Networks.Ctcp
