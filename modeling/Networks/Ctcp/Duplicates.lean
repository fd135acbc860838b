import Networks.Ctcp.Acknowledgements

/-! What `ctcp_receive` does with a segment it was given just before. A second copy is absorbed
when the first one left nothing to do for it: a bare segment has confirmed what it confirms, a
segment with data is behind ackno, or was refused and is refused again.
-/

namespace Networks.Ctcp

open MachineIntegers

/-- A connection only answered a segment, by an ACK or a FIN-ACK, and restarted its timers. -/
structure Absorbed (env : Env) (state next : CtcpState) : Prop where
  sw : { next.sw with timer := state.sw.timer } = state.sw
  rw : next.rw = state.rw
  sendBuf : next.sendBuf = state.sendBuf
  timeoutStandard : next.timeoutStandard = state.timeoutStandard
  outputs : next.log.outputs = state.log.outputs
  timer : next.sw.timer = state.sw.timer ∨ ∃ site, next.sw.timer = env.now site
  teardown
    : next.timerTeardown = state.timerTeardown ∨ ∃ site, next.timerTeardown = env.now site
  sent
    : next.log.sent = state.log.sent
      ∨ ∃ answer,
          next.log.sent = state.log.sent ++ [answer]
          ∧ answer.object.segment.data = []
          ∧ (answer.object.segment.flags = thAck ∨ answer.object.segment.flags = htonl 0x11)

/-- Whether the payload would fit with some more bytes in the receive window. -/
def CtcpState.fitsBeside (held len : Nat) (state : CtcpState) : Bool :=
  { state with rw.size := int32 (state.rw.size + held) }.payloadFits len

/-- Whether the loop over the receive window would find no node to put a segment of the future
before.
-/
def GoesLast (segment : Segment) (segments : List SegmentRef) : Prop :=
  ∀ node ∈ segments.tail, node.segment.ackno.toNat ≤ segment.seq

/-- Whether a second copy of a segment would be absorbed, from the state before the first: no
own FIN is returned for it, or its data is behind ackno afterwards or does not fit any more, or
it has in truth no data and is counted in without being kept.
-/
def CtcpState.Repeatable (segment : Segment) (len : Nat) (state : CtcpState) : Prop :=
  if Bare len then
    ¬ state.ReturnsFin segment
  else
    segment.seq < uint32 state.rw.ackno
    ∨ state.payloadFits len = false
    ∨ (segment.seq = uint32 state.rw.ackno ∧ segment.data ≠ []
        ∧ (segment.seq + segment.data.length < 4294967296
          ∨ state.fitsBeside segment.data.length len = false
          ∨ state.fitsBeside (segment.data.length + segment.data.length) len = false))
    ∨ (uint32 state.rw.ackno < segment.seq
        ∧ (state.fitsBeside segment.data.length len = false
          ∨ segment.data = [] ∧ GoesLast segment state.rw.segments))

/-- Nothing is left to be done for a segment with data: it is behind ackno, does not fit, or has in
truth no payload and would go behind the last node.
-/
def Spent (segment : Segment) (len : Nat) (state : CtcpState) : Prop :=
  segment.seq < uint32 state.rw.ackno
  ∨ state.payloadFits len = false
  ∨ (uint32 state.rw.ackno < segment.seq ∧ segment.data = [] ∧ state.rw.segments ≠ []
      ∧ GoesLast segment state.rw.segments)

-----------------------------------------------------------------------------------------
-- Segments of the future
-----------------------------------------------------------------------------------------

section Future

variable {state next : CtcpState}

/-- A segment of the future that goes behind the last node leaves the list alone. -/
theorem insertFuture_goesLast {object : SegmentRef} {list : List SegmentRef} (front : list ≠ [])
    (goesLast : GoesLast object.segment list)
    : insertFuture object list = some (list, false) := by
  fun_induction insertFuture object list with
  | case1 => exact absurd rfl front
  | case2 last => rfl
  | case3 node nextSeg next before =>
      have notBefore := goesLast nextSeg (by simp)
      omega
  | case4 node nextSeg next notBefore ih =>
      have later := ih (List.cons_ne_nil _ _) fun other member =>
        goesLast other (List.mem_cons_of_mem nextSeg member)
      rw [later]
      rfl

/-- Any other is put between the nodes, before one with a larger ackno field. -/
theorem insertFuture_between {object : SegmentRef} {list : List SegmentRef}
    (between : ¬ GoesLast object.segment list)
    : ∃ segments,
        insertFuture object list = some (segments, true)
        ∧ segments.length = list.length + 1
        ∧ ¬ GoesLast object.segment segments := by
  fun_induction insertFuture object list with
  | case1 => exact absurd (by simp [GoesLast]) between
  | case2 last => exact absurd (by simp [GoesLast]) between
  | case3 node nextSeg next before =>
      refine ⟨_, rfl, by simp, fun goesLast => ?_⟩
      have notBefore := goesLast nextSeg (by simp)
      omega
  | case4 node nextSeg next notBefore ih =>
      have later : ¬ GoesLast object.segment (nextSeg :: next) := by
        intro goesLast
        refine between fun other member => ?_
        rcases List.mem_cons.mp member with rfl | behind
        · exact Nat.not_lt.mp notBefore
        · exact goesLast other behind
      obtain ⟨segments, inserted, length, still⟩ := ih later
      refine ⟨node :: segments, by rw [inserted]; rfl, by simp [length], fun goesLast => ?_⟩
      exact still fun other member => goesLast other (List.mem_of_mem_tail member)

/-- What a segment of the future leaves of the receive window: its payload is counted, and the
list is left alone just for one that goes behind the last node.
-/
theorem receivedFuture_window {object : SegmentRef}
    (future : receivedFuture object state = some next)
    : next.rw.ackno = state.rw.ackno
      ∧ next.rw.maxSize = state.rw.maxSize
      ∧ next.rw.size = int32 (state.rw.size + object.segment.data.length)
      ∧ state.rw.segments ≠ []
      ∧ (GoesLast object.segment state.rw.segments → next.rw.segments = state.rw.segments)
      ∧ (¬ GoesLast object.segment state.rw.segments →
          state.rw.segments.length < next.rw.segments.length
          ∧ ¬ GoesLast object.segment next.rw.segments) := by
  have front : state.rw.segments ≠ [] := by
    intro empty
    rw [receivedFuture, llFront, empty, insertFuture] at future
    cases future
  by_cases goesLast : GoesLast object.segment state.rw.segments
  · rw [receivedFuture, llFront, insertFuture_goesLast front goesLast] at future
    obtain rfl := Option.some.inj future
    rw [Segment.payloadSize_eq]
    exact ⟨rfl, rfl, rfl, front, fun _ => rfl, fun between => absurd goesLast between⟩
  · obtain ⟨segments, inserted, length, still⟩ := insertFuture_between goesLast
    rw [receivedFuture, llFront, inserted] at future
    obtain rfl := Option.some.inj future
    rw [Segment.payloadSize_eq]
    refine ⟨rfl, rfl, rfl, front, fun last => absurd last goesLast, fun _ => ⟨?_, fun last => ?_⟩⟩
    · simp only [if_true, llAdd, List.length_append, length]
      omega
    · refine still fun other member => last other ?_
      rw [if_pos rfl, llAdd, List.tail_append_of_ne_nil (List.ne_nil_of_length_eq_add_one length)]
      exact List.mem_append_left _ member

end Future

-----------------------------------------------------------------------------------------
-- The receive window between calls
-----------------------------------------------------------------------------------------

/-- The receive window as a call leaves it: no segment in front that could be output, and the
size a signed 32-bit value.
-/
structure Drained (state : CtcpState) : Prop where
  front : ∀ node ∈ state.rw.segments.head?, uint32 state.rw.ackno ≤ node.segment.seq
  size : int32 state.rw.size = state.rw.size

theorem ctcpInit_drained (cfg : CtcpConfig) : Drained (ctcpInit cfg) := by
  constructor <;> simp [ctcpInit]

theorem SameDelivery.drained {state next : CtcpState} (same : SameDelivery state next)
    (drained : Drained state)
    : Drained next :=
  ⟨same.rw ▸ drained.front, same.rw ▸ drained.size⟩

/-- The loop of `ctcp_output` stops at a segment that is not below ackno, by induction on the
window.
-/
theorem outputLoop_drained (bufspace : Nat → Nat) (call : Nat) {nodes : List SegmentRef}
    {state : CtcpState} (window : state.rw.segments = nodes)
    (wrapped : int32 state.rw.size = state.rw.size)
    : Drained (outputLoop bufspace call nodes state) := by
  induction nodes generalizing call state with
  | nil => exact ⟨by simp [outputLoop, window], wrapped⟩
  | cons node next ih =>
      rw [outputLoop_cons]
      split
      · next above => exact ⟨by simpa [window] using above, wrapped⟩
      · exact ih (call + 1) rfl (int32_int32 _)

theorem gotFuture_drained {object : SegmentRef} {len : Nat} {state next : CtcpState}
    (drained : Drained state) (future : gotFuture object len state = some next)
    : Drained next := by
  unfold gotFuture at future
  split at future
  · have kept := receivedFuture_kept future
    refine ⟨?_, ?_⟩
    · rw [kept.front, kept.ackno]
      exact drained.front
    · rw [(receivedFuture_window future).2.2.1, int32_int32]
  · exact Option.some.inj future ▸ drained

/-- A segment without data leaves the receive window alone. -/
theorem receive_of_bare_sameDelivery {env : Env} {segment : Segment} {len : Nat}
    {state next : CtcpState} (settled : Settled state) (verified : checksum segment)
    (bare : Bare len) (taken : step state (.receive env segment len) = some next)
    : SameDelivery state next := by
  have header : SameDelivery state (state.reacted env segment) := by
    rw [← receivedHeader_of_bare env segment settled bare]
    exact receivedHeader_sameDelivery env segment.cleared len settled
  rw [receive_of_bare env settled verified bare] at taken
  split at taken
  · obtain rfl := Option.some.inj taken
    have slid : Updates { Effects.any with delivers := False } (state.reacted env segment)
        (receivedAck env segment.cleared (state.reacted env segment)) :=
      receivedAck_updates (settled.reacted env segment) (fun _ => trivial) trivial
    exact header.trans (slid.sameDelivery (fun impossible => impossible))
  · exact Option.some.inj taken ▸ header

theorem receive_drained {env : Env} {segment : Segment} {len : Nat} {state next : CtcpState}
    (settled : Settled state) (drained : Drained state)
    (taken : step state (.receive env segment len) = some next)
    : Drained next := by
  by_cases verified : checksum segment
  · by_cases bare : Bare len
    · exact (receive_of_bare_sameDelivery settled verified bare taken).drained drained
    · have noted : Drained (state.noted segment) := ⟨drained.front, drained.size⟩
      rcases Nat.lt_trichotomy segment.seq (uint32 state.rw.ackno) with behind | expected | ahead
      · rw [receive_of_behind env verified bare behind] at taken
        exact Option.some.inj taken ▸ ⟨drained.front, drained.size⟩
      · by_cases fits : state.payloadFits len
        · rw [receive_of_expected env settled verified bare expected fits] at taken
          exact gotFuture_drained (outputLoop_drained env.bufspace 0 rfl (int32_int32 _)) taken
        · rw [receive_of_unfitting env verified bare expected (by simpa using fits)] at taken
          exact Option.some.inj taken ▸ noted
      · rw [receive_of_ahead env verified bare ahead] at taken
        split at taken
        · next fits =>
            have future : gotFuture (state.receivedObject segment) len (state.noted segment)
                = some next := by
              rw [gotFuture, if_pos ⟨by rw [CtcpState.receivedObject_seq]; exact ahead, fits⟩]
              exact taken
            exact gotFuture_drained noted future
        · exact Option.some.inj taken ▸ noted
  · rw [receive_of_rejected env (by simpa using verified)] at taken
    exact Option.some.inj taken ▸ ⟨drained.front, drained.size⟩

/-- Every reached connection is settled, and its receive window drained. -/
theorem runFrom_drained {cfg : CtcpConfig} {calls : List Call} {state : CtcpState}
    (reached : runFrom cfg calls = some state)
    : Settled state ∧ Drained state := by
  refine StepRuns.exec_invariant (fun state => Settled state ∧ Drained state) ?_
    ⟨ctcpInit_settled cfg, ctcpInit_drained cfg⟩ reached
  intro state call next held taken
  refine ⟨Updates.settled (step_updates held.1 taken) held.1, ?_⟩
  cases call with
  | receive env segment len => exact receive_drained held.1 held.2 taken
  | output env =>
      obtain rfl := Option.some.inj taken
      exact outputLoop_drained env.bufspace 0 rfl held.2.size
  | read | timer =>
      exact ((step_updates held.1 taken).sameDelivery (fun impossible => impossible)).drained
        held.2

-----------------------------------------------------------------------------------------
-- A bare segment again
-----------------------------------------------------------------------------------------

/-- An ACK finds nothing to confirm: it does not cover the first segment of the window, or it
confirms none and the counter is reset already.
-/
def NothingConfirmed (segment : Segment) (state : CtcpState) : Prop :=
  ∀ front ∈ state.sw.segments.head?,
    acknowledgesFront segment front
    → (∀ node ∈ state.sw.segments, confirmed segment.receivedAckno node = false)
      ∧ state.sw.retransCounter = 0

section Bare

variable {env : Env} {segment : Segment} {len : Nat} {state next : CtcpState}

/-- After an ACK the same one finds nothing more to confirm. -/
theorem receivedAck_nothingConfirmed (env : Env) (segment : Segment) (settled : Settled state)
    : NothingConfirmed segment (receivedAck env segment state) := by
  cases window : state.sw.segments with
  | nil =>
      rw [receivedAck_empty env segment window]
      simp [NothingConfirmed, window]
  | cons front rest =>
      by_cases acknowledged : acknowledgesFront segment front
      · rw [receivedAck_slides env settled window acknowledged]
        refine fun _ _ _ => ⟨fun node member => ?_, rfl⟩
        simpa using (List.mem_filter.mp member).2
      · rw [receivedAck_ignores env window (by simpa using acknowledged)]
        intro node isFront covered
        rw [window, List.head?_cons, Option.mem_some_iff] at isFront
        exact absurd (isFront ▸ covered) acknowledged

/-- Nothing is taken off a window of which nothing is confirmed. -/
theorem confirmLoop_none {receivedAckno size : Int} {segments : List SegmentRef}
    (none : ∀ node ∈ segments, confirmed receivedAckno node = false)
    : (confirmLoop receivedAckno size segments).size = size := by
  induction segments with
  | nil => rfl
  | cons node next ih =>
      have stays := none node (by simp)
      have later := ih fun other member => none other (by simp [member])
      simp [confirmLoop, stays, later]

/-- Confirming nothing once the counter is reset restarts the timer. -/
theorem CtcpState.slide_nothing (now : Int) (front : state.sw.segments ≠ [])
    (none : ∀ node ∈ state.sw.segments, confirmed segment.receivedAckno node = false)
    (reset : state.sw.retransCounter = 0)
    : state.slide now segment = { state with sw.timer := now } := by
  have kept : state.unconfirmed segment = state.sw.segments :=
    List.filter_eq_self.mpr fun node member => by simp [none node member]
  have removed : state.sw.segments.filter (confirmed segment.receivedAckno) = [] :=
    List.filter_eq_nil_iff.mpr fun node member => by simp [none node member]
  have running : state.sw.segments.isEmpty = false := by simpa using front
  simp only [CtcpState.slide, confirmLoop_none none, kept, removed, List.append_nil, running,
    Bool.false_eq_true, if_false, ← reset]

/-- An ACK that confirms nothing at most restarts the timer. -/
theorem receivedAck_restarts (env : Env) (settled : Settled state)
    (nothing : NothingConfirmed segment state)
    : ∃ timer,
        (timer = state.sw.timer ∨ timer = env.now 2)
        ∧ receivedAck env segment state = { state with sw.timer := timer } := by
  rcases receivedAck_cases env segment settled with same | ⟨front, rest, window, covered, slid⟩
  · exact ⟨_, Or.inl rfl, same⟩
  · obtain ⟨none, reset⟩ := nothing front (by simp [window]) covered
    have restarted := state.slide_nothing (env.now 2) (by simp [window]) none reset
    exact ⟨_, Or.inr rfl, slid.trans restarted⟩

/-- The ACK branch sends nothing here, and leaves the peer's window and the teardown timer
alone.
-/
theorem receivedAck_leaves_others (env : Env) (segment : Segment) (settled : Settled state)
    : (receivedAck env segment state).sw.recvWinSize = state.sw.recvWinSize
      ∧ (receivedAck env segment state).timerTeardown = state.timerTeardown
      ∧ (receivedAck env segment state).log.sent = state.log.sent := by
  rcases receivedAck_cases env segment settled with same | ⟨_, _, _, _, slid⟩
  · rw [same]
    exact ⟨rfl, rfl, rfl⟩
  · rw [slid]
    exact ⟨rfl, rfl, rfl⟩

theorem noted_recvWinSize (segment : Segment) (state : CtcpState)
    : (state.noted segment).sw = { state.sw with recvWinSize := (ntohs segment.window).toNat } := by
  rw [← segment.cleared_window]
  rfl

theorem reacted_recvWinSize (env : Env) (segment : Segment) (state : CtcpState)
    : (state.reacted env segment).sw.recvWinSize = (ntohs segment.window).toNat := by
  have window : (state.noted segment).sw.recvWinSize = (ntohs segment.window).toNat := by
    rw [noted_recvWinSize]
  rw [← window, CtcpState.reacted]
  split
  · split <;> rfl
  · split <;> rfl

/-- A segment whose window is noted already, and that is not answered by an own FIN, is
absorbed by the branches for FINs and FIN-ACKs.
-/
theorem reacted_absorbs (env : Env) (segment : Segment) (settled : Settled state)
    (window : state.sw.recvWinSize = (ntohs segment.window).toNat)
    (noFin : ¬ state.ReturnsFin segment)
    : Absorbed env state (state.reacted env segment)
      ∧ (state.reacted env segment).sw = state.sw := by
  have sw : (state.noted segment).sw = state.sw := by rw [noted_recvWinSize, ← window]
  have empty : state.sendBuf.val = [] := congrArg Subtype.val settled.bufferEmpty
  rw [CtcpState.reacted]
  split
  · next finBit =>
      rw [if_neg fun stopped => noFin ⟨finBit, stopped⟩]
      exact ⟨⟨sw, rfl, rfl, rfl, rfl, Or.inl rfl, Or.inl rfl,
        Or.inr ⟨_, rfl, empty, Or.inr rfl⟩⟩, sw⟩
  · split
    · exact ⟨⟨sw, rfl, rfl, rfl, rfl, Or.inl rfl, Or.inr ⟨1, rfl⟩, Or.inl rfl⟩, sw⟩
    · exact ⟨⟨sw, rfl, rfl, rfl, rfl, Or.inl rfl, Or.inl rfl, Or.inl rfl⟩, sw⟩

/-- An own FIN and a FIN-ACK are two segments. -/
theorem reacted_returns_fin (env : Env) (segment : Segment) (returns : state.ReturnsFin segment)
    : (state.reacted env segment).log.sent.length = state.log.sent.length + 2
      ∧ (state.reacted env segment).timerTeardown = state.timerTeardown := by
  rw [CtcpState.reacted, if_pos returns.1, if_pos returns.2]
  refine ⟨?_, rfl⟩
  simp [CtcpState.queueFin, CtcpState.transmitNew, CtcpState.finNoted, CtcpState.answerFin,
    CtcpState.answer, CtcpState.noted, noteWindow, CtcpState.allocate]

/-- No FIN is returned once the teardown timer runs, and only a segment without the FIN bit
starts it.
-/
theorem reacted_returnsFin_iff (env : Env) (segment : Segment) (state : CtcpState)
    : (state.reacted env segment).ReturnsFin segment ↔ state.ReturnsFin segment := by
  refine and_congr_right fun finBit => ?_
  rw [CtcpState.reacted, if_pos finBit]
  split <;> rfl

/-- A second copy of a bare segment is absorbed unless it is answered by an own FIN. -/
theorem receive_again_of_bare (again : Env) (settled : Settled state) (verified : checksum segment)
    (bare : Bare len) (taken : step state (.receive env segment len) = some next)
    : (∃ last, step next (.receive again segment len) = some last ∧ Absorbed again next last)
      ↔ ¬ state.ReturnsFin segment := by
  have settledNext := Updates.settled (step_updates settled taken) settled
  have reacted := settled.reacted env segment
  obtain ⟨sameWindow, sameTeardown, -⟩ := receivedAck_leaves_others env segment.cleared reacted
  rw [receive_of_bare env settled verified bare] at taken
  have known : next.sw.recvWinSize = (ntohs segment.window).toNat
      ∧ (next.ReturnsFin segment ↔ state.ReturnsFin segment)
      ∧ (segment.acks → NothingConfirmed segment.cleared next) := by
    rw [← reacted_recvWinSize env segment state, ← reacted_returnsFin_iff env segment state]
    split at taken
    · obtain rfl := Option.some.inj taken
      rw [CtcpState.ReturnsFin, sameTeardown]
      exact ⟨sameWindow, Iff.rfl, fun _ => receivedAck_nothingConfirmed env _ reacted⟩
    · next noAck =>
        obtain rfl := Option.some.inj taken
        exact ⟨rfl, Iff.rfl, fun acks => absurd acks noAck⟩
  obtain ⟨window, returns, nothing⟩ := known
  rw [receive_of_bare again settledNext verified bare, ← returns]
  simp only [Option.some.injEq, exists_eq_left']
  have reactedNext := settledNext.reacted again segment
  constructor
  · intro absorbed fin
    have two := (reacted_returns_fin again segment fin).1
    have more : next.log.sent.length + 2
        = (if segment.acks then receivedAck again segment.cleared (next.reacted again segment)
            else next.reacted again segment).log.sent.length := by
      split
      · rw [(receivedAck_leaves_others again segment.cleared reactedNext).2.2, two]
      · exact two.symm
    rcases absorbed.sent with same | ⟨answer, sent, -⟩
    · rw [same] at more
      omega
    · rw [sent, List.length_append, List.length_singleton] at more
      omega
  · intro noFin
    obtain ⟨absorbed, sw⟩ := reacted_absorbs again segment settledNext window noFin
    split
    · next acks =>
        have still : NothingConfirmed segment.cleared (next.reacted again segment) := by
          rw [NothingConfirmed, sw]
          exact nothing acks
        obtain ⟨timer, restarted, result⟩ := receivedAck_restarts again reactedNext still
        rw [result]
        exact ⟨absorbed.sw, absorbed.rw, absorbed.sendBuf, absorbed.timeoutStandard,
          absorbed.outputs, restarted.imp (sw ▸ ·) (⟨2, ·⟩), absorbed.teardown, absorbed.sent⟩
    · exact absorbed

end Bare

-----------------------------------------------------------------------------------------
-- A segment with data again
-----------------------------------------------------------------------------------------

section Data

variable {env : Env} {segment : Segment} {len : Nat} {state next : CtcpState}

theorem CtcpState.acknowledged_size (pad : UInt16) (object : SegmentRef) (state : CtcpState)
    : (state.acknowledged pad object).rw.size
      = int32 (state.rw.size + object.segment.data.length) := rfl

theorem CtcpState.acknowledged_ackno (pad : UInt16) (object : SegmentRef) (state : CtcpState)
    : (state.acknowledged pad object).rw.ackno
      = int32 (state.rw.ackno + object.segment.data.length) := rfl

/-- Where the expected segment leaves the receive window. -/
theorem acknowledged_received_ackno (state : CtcpState) (pad : UInt16) (segment : Segment)
    : uint32 ((state.noted segment).acknowledged pad (state.receivedObject segment)).rw.ackno
      = uint32 (state.rw.ackno + segment.data.length) := by
  rw [CtcpState.acknowledged_ackno, CtcpState.receivedObject_data, state.noted_rw, uint32_int32]

theorem acknowledged_received_size (state : CtcpState) (pad : UInt16) (segment : Segment)
    : ((state.noted segment).acknowledged pad (state.receivedObject segment)).rw.size
      = int32 (state.rw.size + segment.data.length) := by
  rw [CtcpState.acknowledged_size, CtcpState.receivedObject_data, state.noted_rw]

/-- An expected segment that leaves ackno at or below its start is not output. -/
theorem receive_of_expected_idle (env : Env) (settled : Settled state) (drained : Drained state)
    (verified : checksum segment) (hasData : ¬ Bare len)
    (expected : segment.seq = uint32 state.rw.ackno) (fits : state.payloadFits len)
    (notAbove : uint32 (state.rw.ackno + segment.data.length) ≤ segment.seq)
    : step state (.receive env segment len)
      = gotFuture (state.receivedObject segment) len
          ((state.noted segment).acknowledged (env.pad 0) (state.receivedObject segment)) := by
  rw [receive_of_expected env settled verified hasData expected fits, ctcpOutput_idle]
  intro node isFront
  have window : ((state.noted segment).acknowledged (env.pad 0)
      (state.receivedObject segment)).rw.segments
        = state.rw.segments ++ [state.receivedObject segment] := rfl
  rw [acknowledged_received_ackno]
  refine Nat.le_trans notAbove ?_
  rw [window, List.head?_append] at isFront
  cases held : state.rw.segments.head? with
  | some front =>
      rw [expected]
      exact drained.front node (by rw [held]; simpa [held] using isFront)
  | none =>
      have same : state.receivedObject segment = node := by simpa [held] using isFront
      rw [← same, CtcpState.receivedObject_seq]

/-- A segment without data that is taken for the expected one stays in the window. -/
theorem receive_of_expected_empty (env : Env) (settled : Settled state) (drained : Drained state)
    (verified : checksum segment) (hasData : ¬ Bare len)
    (expected : segment.seq = uint32 state.rw.ackno) (fits : state.payloadFits len)
    (empty : segment.data = [])
    : step state (.receive env segment len)
      = some ((state.noted segment).acknowledged (env.pad 0) (state.receivedObject segment)) := by
  have ackno : uint32 (state.rw.ackno + segment.data.length) = segment.seq := by
    rw [empty, List.length_nil, Nat.cast_zero, Int.add_zero, expected]
  rw [receive_of_expected_idle env settled drained verified hasData expected fits ackno.le]
  refine gotFuture_behind len (Nat.le_of_eq ?_)
  rw [CtcpState.receivedObject_seq, acknowledged_received_ackno, ackno]

/-- An expected segment that fits changes the receive window. -/
theorem receive_of_expected_not_absorbed (env : Env) (settled : Settled state)
    (drained : Drained state) (verified : checksum segment) (hasData : ¬ Bare len)
    (expected : segment.seq = uint32 state.rw.ackno) (fits : state.payloadFits len)
    : ¬ ∃ next, step state (.receive env segment len) = some next ∧ Absorbed env state next := by
  rintro ⟨next, taken, absorbed⟩
  by_cases empty : segment.data = []
  · rw [receive_of_expected_empty env settled drained verified hasData expected fits empty] at taken
    obtain rfl := Option.some.inj taken
    have longer := congrArg (fun window => window.segments.length) absorbed.rw
    simp [CtcpState.acknowledged, CtcpState.answer, llAdd, state.noted_rw] at longer
  · rw [receive_of_expected env settled verified hasData expected fits] at taken
    have ackno : next.rw.ackno = int32 (state.rw.ackno + segment.data.length) := by
      have output : (ctcpOutput env ((state.noted segment).acknowledged (env.pad 0)
          (state.receivedObject segment))).rw.ackno
            = int32 (state.rw.ackno + segment.data.length) := by
        rw [ctcpOutput, outputLoop_ackno, CtcpState.acknowledged_ackno,
          CtcpState.receivedObject_data, state.noted_rw]
      rcases gotFuture_cases taken with rfl | ⟨-, kept⟩
      · exact output
      · exact kept.ackno.trans output
    have positive := List.length_pos_iff.mpr empty
    have small := segment.length_data_lt
    have same := congrArg uint32 (ackno.symm.trans (congrArg RecvWindow.ackno absorbed.rw))
    have bound := uint32_lt state.rw.ackno
    rw [uint32_int32, uint32_add] at same
    omega

theorem goesLast_receivedObject (segment : Segment) (state : CtcpState)
    (segments : List SegmentRef)
    : GoesLast (state.receivedObject segment).segment segments ↔ GoesLast segment segments := by
  rw [GoesLast, CtcpState.receivedObject_seq, GoesLast]

/-- A segment of the future without payload that goes behind the last node leaves no trace. -/
theorem receivedFuture_traceless {object : SegmentRef}
    (wrapped : int32 state.rw.size = state.rw.size) (empty : object.segment.data = [])
    (front : state.rw.segments ≠ []) (goesLast : GoesLast object.segment state.rw.segments)
    : receivedFuture object state = some state := by
  have size : int32 (state.rw.size + ([] : List UInt8).length) = state.rw.size := by
    rw [List.length_nil, Nat.cast_zero, Int.add_zero, wrapped]
  rw [receivedFuture, llFront, insertFuture_goesLast front goesLast, Segment.payloadSize_eq, empty]
  simp only [Bool.false_eq_true, if_false, size]

/-- Any other that fits changes the receive window. -/
theorem receivedFuture_same_rw {object : SegmentRef}
    (future : receivedFuture object state = some next) (same : next.rw = state.rw)
    : object.segment.data = [] ∧ state.rw.segments ≠ []
      ∧ GoesLast object.segment state.rw.segments := by
  obtain ⟨-, -, size, front, -, between⟩ := receivedFuture_window future
  refine ⟨?_, front, ?_⟩
  · have small := object.segment.length_data_lt
    rw [same, int32] at size
    exact List.length_eq_zero_iff.mp (by omega)
  · by_contra notLast
    have longer := (between notLast).1
    rw [same] at longer
    exact Nat.lt_irrefl _ longer

/-- With its window noted already, a segment with data is absorbed just when it is spent. -/
theorem receive_absorbed_iff (env : Env) (settled : Settled state) (drained : Drained state)
    (verified : checksum segment) (hasData : ¬ Bare len)
    (window : state.sw.recvWinSize = (ntohs segment.window).toNat)
    : (∃ next, step state (.receive env segment len) = some next ∧ Absorbed env state next)
      ↔ Spent segment len state := by
  have sw : (state.noted segment).sw = state.sw := by rw [noted_recvWinSize, ← window]
  have empty : state.sendBuf.val = [] := congrArg Subtype.val settled.bufferEmpty
  have noted : Absorbed env state (state.noted segment) :=
    ⟨sw, rfl, rfl, rfl, rfl, Or.inl rfl, Or.inl rfl, Or.inl rfl⟩
  rcases Nat.lt_trichotomy segment.seq (uint32 state.rw.ackno) with behind | expected | ahead
  · rw [receive_of_behind env verified hasData behind]
    refine iff_of_true ⟨_, rfl, ?_⟩ (Or.inl behind)
    exact ⟨sw, rfl, rfl, rfl, rfl, Or.inl rfl, Or.inl rfl, Or.inr ⟨_, rfl, empty, Or.inl rfl⟩⟩
  · by_cases fits : state.payloadFits len
    · refine iff_of_false ?_ (by simp [Spent, expected, fits])
      exact receive_of_expected_not_absorbed env settled drained verified hasData expected fits
    · have large : state.payloadFits len = false := by simpa using fits
      rw [receive_of_unfitting env verified hasData expected large]
      exact iff_of_true ⟨_, rfl, noted⟩ (Or.inr (Or.inl large))
  · rw [receive_of_ahead env verified hasData ahead]
    by_cases fits : state.payloadFits len
    · rw [if_pos fits, Spent, fits]
      simp only [Nat.not_lt.mpr (Nat.le_of_lt ahead), ahead, Bool.true_eq_false, false_or, true_and]
      constructor
      · rintro ⟨next, taken, absorbed⟩
        have same := receivedFuture_same_rw taken absorbed.rw
        rw [CtcpState.receivedObject_data, goesLast_receivedObject] at same
        exact same
      · rintro ⟨none, front, goesLast⟩
        refine ⟨_, receivedFuture_traceless drained.size ?_ front ?_, noted⟩
        · rw [CtcpState.receivedObject_data, none]
        · rw [goesLast_receivedObject]
          exact goesLast
    · rw [if_neg fits]
      exact iff_of_true ⟨_, rfl, noted⟩ (Or.inr (Or.inl (by simpa using fits)))

theorem CtcpState.fitsBeside_of_size {held : Nat} (len : Nat)
    (maxSize : next.rw.maxSize = state.rw.maxSize)
    (size : next.rw.size = int32 (state.rw.size + held))
    : next.payloadFits len = state.fitsBeside held len := by
  rw [payloadFits, fitsBeside, payloadFits, maxSize, size]

/-- A segment without data is expected again. -/
theorem not_spent_of_empty (settled : Settled state) (drained : Drained state)
    (verified : checksum segment) (hasData : ¬ Bare len)
    (expected : segment.seq = uint32 state.rw.ackno) (fits : state.payloadFits len)
    (empty : segment.data = []) (taken : step state (.receive env segment len) = some next)
    : ¬ Spent segment len next := by
  rw [receive_of_expected_empty env settled drained verified hasData expected fits empty] at taken
  obtain rfl := Option.some.inj taken
  have size := acknowledged_received_size state (env.pad 0) segment
  have ackno := acknowledged_received_ackno state (env.pad 0) segment
  rw [empty, List.length_nil, Nat.cast_zero, Int.add_zero, drained.size] at size
  rw [empty, List.length_nil, Nat.cast_zero, Int.add_zero, ← expected] at ackno
  have still : ((state.noted segment).acknowledged (env.pad 0)
      (state.receivedObject segment)).payloadFits len = true := by
    rw [CtcpState.payloadFits, size]
    exact fits
  rw [Spent, ackno, still]
  simp

/-- An expected segment is all that is received unless the sequence numbers wrap. -/
theorem receive_of_expected_no_wrap (env : Env) (settled : Settled state)
    (verified : checksum segment) (hasData : ¬ Bare len)
    (expected : segment.seq = uint32 state.rw.ackno) (fits : state.payloadFits len)
    (noWrap : segment.seq + segment.data.length < 4294967296)
    : step state (.receive env segment len)
      = some (ctcpOutput env ((state.noted segment).acknowledged (env.pad 0)
          (state.receivedObject segment))) := by
  have sum := uint32_add state.rw.ackno segment.data.length
  rw [← expected, Nat.mod_eq_of_lt noWrap] at sum
  rw [receive_of_expected env settled verified hasData expected fits]
  refine gotFuture_behind len ?_
  rw [ctcpOutput, outputLoop_ackno, acknowledged_received_ackno, sum, CtcpState.receivedObject_seq]
  exact Nat.le_add_right _ _

/-- A segment is behind once its data have been accepted, unless the sequence numbers wrap. -/
theorem spent_of_no_wrap (settled : Settled state) (verified : checksum segment)
    (hasData : ¬ Bare len) (expected : segment.seq = uint32 state.rw.ackno)
    (fits : state.payloadFits len) (payload : segment.data ≠ [])
    (noWrap : segment.seq + segment.data.length < 4294967296)
    (taken : step state (.receive env segment len) = some next)
    : Spent segment len next := by
  have positive := List.length_pos_iff.mpr payload
  have sum := uint32_add state.rw.ackno segment.data.length
  rw [← expected, Nat.mod_eq_of_lt noWrap] at sum
  rw [receive_of_expected_no_wrap env settled verified hasData expected fits noWrap] at taken
  obtain rfl := Option.some.inj taken
  rw [Spent, ctcpOutput, outputLoop_ackno, acknowledged_received_ackno, sum]
  exact Or.inl (by omega)

/-- Where the sequence numbers wrap, a segment is ahead once its data have been accepted, and it
is added a second time if it fits.
-/
theorem spent_iff_of_wrap (settled : Settled state) (drained : Drained state)
    (verified : checksum segment) (hasData : ¬ Bare len)
    (expected : segment.seq = uint32 state.rw.ackno) (fits : state.payloadFits len)
    (payload : segment.data ≠ [])
    (wraps : uint32 (state.rw.ackno + segment.data.length) < segment.seq)
    (taken : step state (.receive env segment len) = some next)
    : Spent segment len next
      ↔ state.fitsBeside segment.data.length len = false
        ∨ state.fitsBeside (segment.data.length + segment.data.length) len = false := by
  have size := acknowledged_received_size state (env.pad 0) segment
  have ackno := acknowledged_received_ackno state (env.pad 0) segment
  have fitsNow : ((state.noted segment).acknowledged (env.pad 0)
      (state.receivedObject segment)).payloadFits len
        = state.fitsBeside segment.data.length len :=
    CtcpState.fitsBeside_of_size len rfl size
  rw [receive_of_expected_idle env settled drained verified hasData expected fits wraps.le,
    gotFuture, CtcpState.receivedObject_seq, ackno, fitsNow] at taken
  by_cases again : state.fitsBeside segment.data.length len
  · rw [if_pos ⟨wraps, again⟩] at taken
    obtain ⟨sameAckno, sameMax, twice, -⟩ := receivedFuture_window taken
    rw [size, CtcpState.receivedObject_data, int32_int32_add, Int.add_assoc, ← Nat.cast_add]
      at twice
    have fitsNext : next.payloadFits len
        = state.fitsBeside (segment.data.length + segment.data.length) len :=
      CtcpState.fitsBeside_of_size len sameMax twice
    rw [Spent, fitsNext, sameAckno, ackno]
    simp [payload, again, Nat.not_lt.mpr wraps.le]
  · rw [if_neg fun both => again both.2] at taken
    obtain rfl := Option.some.inj taken
    have large : state.fitsBeside segment.data.length len = false := by simpa using again
    exact iff_of_true (Or.inr (Or.inl (fitsNow.trans large))) (Or.inl large)

/-- An expected segment that was accepted is behind ackno, unless it has no payload or ackno has
wrapped around; then it is taken for one of the future.
-/
theorem spent_iff_of_expected (settled : Settled state) (drained : Drained state)
    (verified : checksum segment) (hasData : ¬ Bare len)
    (expected : segment.seq = uint32 state.rw.ackno) (fits : state.payloadFits len)
    (taken : step state (.receive env segment len) = some next)
    : Spent segment len next
      ↔ segment.data ≠ []
        ∧ (segment.seq + segment.data.length < 4294967296
          ∨ state.fitsBeside segment.data.length len = false
          ∨ state.fitsBeside (segment.data.length + segment.data.length) len = false) := by
  by_cases empty : segment.data = []
  · exact iff_of_false
      (not_spent_of_empty settled drained verified hasData expected fits empty taken)
      (fun spent => spent.1 empty)
  · by_cases noWrap : segment.seq + segment.data.length < 4294967296
    · exact iff_of_true
        (spent_of_no_wrap settled verified hasData expected fits empty noWrap taken)
        ⟨empty, Or.inl noWrap⟩
    · have small := segment.length_data_lt
      have seqBound := segment.seq_lt
      have sum := uint32_add state.rw.ackno segment.data.length
      rw [← expected] at sum
      rw [spent_iff_of_wrap settled drained verified hasData expected fits empty (by omega) taken]
      simp [empty, noWrap]

/-- Whether a segment with data that has been received once is spent, from the state before it.
-/
theorem spent_iff_repeatable (settled : Settled state) (drained : Drained state)
    (verified : checksum segment) (hasData : ¬ Bare len)
    (taken : step state (.receive env segment len) = some next)
    : Spent segment len next ↔ state.Repeatable segment len := by
  rw [CtcpState.Repeatable, if_neg hasData]
  rcases Nat.lt_trichotomy segment.seq (uint32 state.rw.ackno) with behind | expected | ahead
  · rw [receive_of_behind env verified hasData behind] at taken
    obtain rfl := Option.some.inj taken
    exact iff_of_true (Or.inl behind) (Or.inl behind)
  · by_cases fits : state.payloadFits len
    · rw [spent_iff_of_expected settled drained verified hasData expected fits taken]
      simp [expected, fits]
    · have large : state.payloadFits len = false := by simpa using fits
      rw [receive_of_unfitting env verified hasData expected large] at taken
      obtain rfl := Option.some.inj taken
      exact iff_of_true (Or.inr (Or.inl large)) (Or.inr (Or.inl large))
  · have notBehind := Nat.not_lt.mpr (Nat.le_of_lt ahead)
    rw [receive_of_ahead env verified hasData ahead] at taken
    by_cases fits : state.payloadFits len
    · rw [if_pos fits] at taken
      obtain ⟨ackno, maxSize, size, front, same, between⟩ := receivedFuture_window taken
      simp only [goesLast_receivedObject, state.noted_rw] at same between
      rw [CtcpState.receivedObject_data, state.noted_rw] at size
      rw [Spent, CtcpState.fitsBeside_of_size len maxSize size, ackno, state.noted_rw]
      simp only [notBehind, fits, ahead, Nat.ne_of_gt ahead, Bool.true_eq_false, false_or,
        false_and, true_and]
      refine or_congr_right (and_congr_right fun _ => ⟨fun held => ?_, fun goesLast => ?_⟩)
      · by_contra notLast
        exact (between notLast).2 held.2
      · rw [same goesLast]
        exact ⟨front, goesLast⟩
    · have large : state.payloadFits len = false := by simpa using fits
      rw [if_neg fits] at taken
      obtain rfl := Option.some.inj taken
      have refused : Spent segment len (state.noted segment) := Or.inr (Or.inl large)
      exact iff_of_true refused (Or.inr (Or.inl large))

/-- After a segment with data its window is noted. -/
theorem receive_of_data_window (settled : Settled state) (verified : checksum segment)
    (hasData : ¬ Bare len) (taken : step state (.receive env segment len) = some next)
    : next.sw.recvWinSize = (ntohs segment.window).toNat := by
  have arrived := settled.arrived_noted segment
  rw [receive_of_data env verified hasData] at taken
  rw [(receivedData_sending arrived taken).1.sw, noted_recvWinSize]

/-- A segment that is delivered twice is absorbed the second time, but for an ACK or a FIN-ACK and
restarted timers, exactly when it is repeatable.
-/
theorem receive_again_iff (again : Env) {cfg : CtcpConfig} {calls : List Call}
    (reached : runFrom cfg calls = some state) (verified : checksum segment)
    (taken : step state (.receive env segment len) = some next)
    : (∃ last, step next (.receive again segment len) = some last ∧ Absorbed again next last)
      ↔ state.Repeatable segment len := by
  obtain ⟨settled, drained⟩ := runFrom_drained reached
  by_cases bare : Bare len
  · rw [receive_again_of_bare again settled verified bare taken, CtcpState.Repeatable, if_pos bare]
  · have settledNext := Updates.settled (step_updates settled taken) settled
    have drainedNext := receive_drained settled drained taken
    have window := receive_of_data_window settled verified bare taken
    rw [receive_absorbed_iff again settledNext drainedNext verified bare window,
      spent_iff_repeatable settled drained verified bare taken]

end Data

/-- The FIN of a peer that has sent nothing else. -/
def finOfPeer : Segment := ((ctcpInit defaultConfig).newSegment 0 .fin).segment.summed

/-- The rule at the ACK of a byte that was read, delivered twice. -/
theorem receive_again_iff_ack
    : ∃ state next last,
        runFrom defaultConfig oneByteRead = some state
        ∧ step state (.receive (.steady 0 0) ackOfByte segHeaderSize) = some next
        ∧ step next (.receive (.steady 1 0) ackOfByte segHeaderSize) = some last
        ∧ Absorbed (.steady 1 0) next last := by
  have bare : Bare segHeaderSize := by decide
  obtain ⟨state, reached⟩ := Option.isSome_iff_exists.mp
    (by decide +kernel : (runFrom defaultConfig oneByteRead).isSome)
  have settled := (runFrom_drained reached).1
  have verified : checksum ackOfByte := by decide +kernel
  have taken := receive_of_bare (.steady 0 0) settled verified bare
  obtain ⟨last, again, absorbed⟩ :=
    (receive_again_iff (.steady 1 0) reached verified taken).mpr (by
      rw [CtcpState.Repeatable, if_pos bare]
      exact fun returns => returns.1 (by decide +kernel))
  exact ⟨state, _, last, reached, taken, again, absorbed⟩

/-- A FIN that is delivered twice makes a connection queue two FINs. -/
theorem repeated_fin_queued_again
    : ¬ ∀ (env again : Env) (cfg : CtcpConfig) (calls : List Call) (state next : CtcpState)
        (segment : Segment) (len : Nat),
        runFrom cfg calls = some state → checksum segment
        → step state (.receive env segment len) = some next
        → ∃ last,
            step next (.receive again segment len) = some last ∧ Absorbed again next last := by
  intro always
  have queues : (step (ctcpInit defaultConfig) (.receive (.steady 0 0) finOfPeer segHeaderSize)).any
      (fun next => next.sw.segments.length = 1
        ∧ (step next (.receive (.steady 0 0) finOfPeer segHeaderSize)).all
            (fun last => last.sw.segments.length = 2)) := by
    decide +kernel
  obtain ⟨next, taken, facts⟩ := (Option.any_eq_true _ _).mp queues
  obtain ⟨one, two⟩ := of_decide_eq_true facts
  obtain ⟨last, again, absorbed⟩ := always (.steady 0 0) (.steady 0 0) defaultConfig []
    (ctcpInit defaultConfig) next finOfPeer segHeaderSize rfl (by decide +kernel) taken
  rw [again, Option.all_some, decide_eq_true_iff] at two
  have same := congrArg (fun window => window.segments.length) absorbed.sw
  simp only at same
  omega

end Networks.Ctcp
