import Networks.Ctcp.Updates

/-! What `ctcp_receive` and `ctcp_output` do to the receive window: a segment is accepted and
offered for output at once, or the window keeps its front.
-/

namespace Networks.Ctcp

open MachineIntegers

/-- The receive window, the accepted bytes and the outputs are the same. -/
structure SameDelivery (state next : CtcpState) : Prop where
  rw : next.rw = state.rw
  accepted : next.log.accepted = state.log.accepted
  outputs : next.log.outputs = state.log.outputs

theorem SameDelivery.trans {first second third : CtcpState}
    (left : SameDelivery first second) (right : SameDelivery second third)
    : SameDelivery first third :=
  ⟨right.rw.trans left.rw, right.accepted.trans left.accepted,
    right.outputs.trans left.outputs⟩

theorem Update.sameDelivery {effects : Effects} {state next : CtcpState}
    (never : ¬ effects.delivers) (update : Update effects state next)
    : SameDelivery state next := by
  cases update with
  | accept segment segments size received delivers => exact absurd delivers never
  | keep segments size outputs delivers => exact absurd delivers never
  | _ => exact ⟨rfl, rfl, rfl⟩

theorem Updates.sameDelivery {effects : Effects} {state next : CtcpState}
    (never : ¬ effects.delivers) (updates : Updates effects state next)
    : SameDelivery state next := by
  induction updates with
  | refl => exact ⟨rfl, rfl, rfl⟩
  | tail _ update ih => exact ih.trans (update.sameDelivery never)

/-- The steps before the data and ACK branches leave the receive window alone. -/
theorem receivedHeader_sameDelivery (env : Env) (segment : Segment) (len : Nat)
    {state : CtcpState} (settled : Settled state)
    : SameDelivery state (receivedHeader env segment len state.allocate) := by
  have header : Updates { Effects.any with delivers := False } state.allocate
      (receivedHeader env segment len state.allocate) :=
    receivedHeader_updates len settled.allocate (fun _ => trivial) trivial (fun _ => trivial)
  have same := header.sameDelivery (fun impossible => impossible)
  exact ⟨same.rw, same.accepted, same.outputs⟩

-----------------------------------------------------------------------------------------
-- Output
-----------------------------------------------------------------------------------------

/-- The first node is taken off the window, and as much of its payload output as fits. -/
def CtcpState.emit (room : Nat) (node : SegmentRef) (next : List SegmentRef)
    (state : CtcpState)
    : CtcpState :=
  { state with
    log.outputs := state.log.outputs ++ [node.segment.data.take room]
    rw.size := int32 (state.rw.size - node.segment.data.length)
    rw.segments := next }

/-- The loop of `ctcp_output` stops at a node that is not below ackno, and takes off any
other.
-/
theorem outputLoop_cons (bufspace : Nat → Nat) (call : Nat) (node : SegmentRef)
    (next : List SegmentRef) (state : CtcpState)
    : outputLoop bufspace call (node :: next) state
      = if uint32 state.rw.ackno ≤ node.segment.seq then
          state
        else
          outputLoop bufspace (call + 1) next (state.emit (bufspace call) node next) := by
  have size : node.segment.data.take
        (if bufspace call < node.segment.data.length then bufspace call
        else node.segment.data.length)
      = node.segment.data.take (bufspace call) := by
    split
    · rfl
    · next enough =>
        rw [List.take_length, List.take_of_length_le (Nat.not_lt.mp enough)]
  simp only [outputLoop, Segment.payloadSize_eq, size, ge_iff_le, CtcpState.emit]

/-- `ctcp_output` stops at a first segment that is not below ackno. -/
theorem ctcpOutput_idle (env : Env) {state : CtcpState}
    (above : ∀ node ∈ state.rw.segments.head?, uint32 state.rw.ackno ≤ node.segment.seq)
    : ctcpOutput env state = state := by
  unfold ctcpOutput llFront
  cases window : state.rw.segments with
  | nil => rfl
  | cons node next =>
      rw [outputLoop_cons, if_pos (above node (by simp [window]))]

/-- `ctcp_output` takes off a first segment below ackno, whatever part of it fits. -/
theorem ctcpOutput_cons (env : Env) {state : CtcpState} {node : SegmentRef}
    {next : List SegmentRef} (window : state.rw.segments = node :: next)
    (below : node.segment.seq < uint32 state.rw.ackno)
    : ctcpOutput env state
      = outputLoop env.bufspace 1 next (state.emit (env.bufspace 0) node next) := by
  rw [ctcpOutput, llFront, window, outputLoop_cons, if_neg (Nat.not_le.mpr below)]

/-- `ctcp_output` only adds outputs, by induction on the nodes. -/
theorem outputLoop_outputs (bufspace : Nat → Nat) (call : Nat) (nodes : List SegmentRef)
    (state : CtcpState)
    : state.log.outputs <+: (outputLoop bufspace call nodes state).log.outputs := by
  induction nodes generalizing call state with
  | nil => exact List.prefix_refl _
  | cons node next ih =>
      rw [outputLoop_cons]
      split
      · exact List.prefix_refl _
      · exact (List.prefix_append _ _).trans (ih (call + 1) (state.emit _ node next))

-----------------------------------------------------------------------------------------
-- Accepted segments
-----------------------------------------------------------------------------------------

/-- Whether `ctcp_receive` accepts a segment: it verifies, has data by its received length,
is the expected one and fits.
-/
def CtcpState.accepts (segment : Segment) (len : Nat) (state : CtcpState) : Bool :=
  checksum segment && sizeT (len - segHeaderSize) ≠ 0 && state.inOrder segment len

/-- The expected segment is accepted and acknowledged, and waits for output. -/
def CtcpState.acknowledged (pad : UInt16) (object : SegmentRef) (state : CtcpState)
    : CtcpState :=
  { state with
    rw.segments := llAdd state.rw.segments object
    rw.size := int32 (state.rw.size + object.segment.data.length)
    rw.ackno := int32 (state.rw.ackno + object.segment.data.length)
    log.accepted := state.log.accepted ++ object.segment.data }.answer pad .ack

theorem CtcpState.inOrder_iff {segment : Segment} {len : Nat} {state : CtcpState}
    : state.inOrder segment len
      ↔ segment.seq = uint32 state.rw.ackno ∧ state.payloadFits len := by
  simp only [inOrder, decide_eq_true_eq]

theorem CtcpState.payloadFits_of_rw_eq {state next : CtcpState} (len : Nat)
    (same : next.rw = state.rw)
    : next.payloadFits len = state.payloadFits len := by
  rw [payloadFits, payloadFits, same]

/-- The expected segment goes through the in-order case. -/
theorem receivedData_expected {env : Env} {object : SegmentRef} {len : Nat}
    {state : CtcpState} (arrived : Arrived object state)
    (expected : object.segment.seq = uint32 state.rw.ackno) (fits : state.payloadFits len)
    : receivedData env object len state
      = gotFuture object len (ctcpOutput env (state.acknowledged (env.pad 0) object)) := by
  have notDuplicate : ¬ object.segment.seq < uint32 state.rw.ackno := by omega
  have inOrder : state.inOrder object.segment len := CtcpState.inOrder_iff.mpr ⟨expected, fits⟩
  rw [receivedData, gotDuplicate, if_neg notDuplicate, gotExpected, if_pos inOrder,
    receivedInOrder_eq arrived.fresh, Option.bind_some, CtcpState.acknowledged]

@[simp] theorem CtcpState.receivedObject_seq (segment : Segment) (state : CtcpState)
    : (state.receivedObject segment).segment.seq = segment.seq :=
  segment.cleared_seq

@[simp] theorem CtcpState.receivedObject_data (segment : Segment) (state : CtcpState)
    : (state.receivedObject segment).segment.data = segment.data :=
  segment.cleared_data

/-- The state after an object was accepted, and before it is output. -/
structure Acceptance (object : SegmentRef) (state accepted : CtcpState) : Prop where
  expected : object.segment.seq = uint32 state.rw.ackno
  segments : accepted.rw.segments = state.rw.segments ++ [object]
  maxSize : accepted.rw.maxSize = state.rw.maxSize
  size : accepted.rw.size = int32 (state.rw.size + object.segment.data.length)
  ackno : accepted.rw.ackno = int32 (state.rw.ackno + object.segment.data.length)
  bytes : accepted.log.accepted = state.log.accepted ++ object.segment.data
  outputs : accepted.log.outputs = state.log.outputs

theorem SameDelivery.acceptance {state next : CtcpState} (same : SameDelivery state next)
    (pad : UInt16) {object : SegmentRef} (expected : object.segment.seq = uint32 state.rw.ackno)
    : Acceptance object state (next.acknowledged pad object) := by
  obtain ⟨sameRw, sameAccepted, sameOutputs⟩ := same
  refine ⟨expected, ?_, ?_, ?_, ?_, ?_, ?_⟩
  · rw [← sameRw]
    rfl
  · rw [← sameRw]
    rfl
  · rw [← sameRw]
    rfl
  · rw [← sameRw]
    rfl
  · rw [← sameAccepted]
    rfl
  · rw [← sameOutputs]
    rfl

/-- An accepted segment goes through the in-order case. -/
theorem receive_accepts (env : Env) {segment : Segment} {len : Nat} {state : CtcpState}
    (settled : Settled state) (accepts : state.accepts segment len)
    : ∃ accepted,
        Acceptance (state.receivedObject segment) state accepted
        ∧ step state (.receive env segment len)
          = gotFuture (state.receivedObject segment) len (ctcpOutput env accepted) := by
  simp only [CtcpState.accepts, Bool.and_eq_true, decide_eq_true_eq, CtcpState.inOrder_iff]
    at accepts
  obtain ⟨⟨verified, hasData⟩, expected, fits⟩ := accepts
  rw [← state.receivedObject_seq segment] at expected
  have same := receivedHeader_sameDelivery env segment.cleared len settled
  have expectedNow := expected
  rw [← same.rw] at expectedNow
  rw [← CtcpState.payloadFits_of_rw_eq len same.rw] at fits
  have arrived : Arrived (state.receivedObject segment)
      (receivedHeader env segment.cleared len state.allocate) :=
    receivedHeader_arrived settled.allocate (settled.arrived segment)
  refine ⟨_, same.acceptance (env.pad 0) expected, ?_⟩
  rw [receive_eq, if_neg (by simp [verified]), receivedBody, if_pos hasData,
    receivedData_expected arrived expectedNow fits]

/-- The future case keeps the front of the window, by induction on the nodes. -/
theorem insertFuture_head {object : SegmentRef} {list segments : List SegmentRef}
    {inTheBack : Bool} (inserted : insertFuture object list = some (segments, inTheBack))
    : segments.head? = list.head? ∧ segments ≠ [] := by
  fun_induction insertFuture object list generalizing segments inTheBack with
  | case1 => cases inserted
  | case2 last =>
      obtain ⟨rfl, rfl⟩ := Prod.mk.inj (Option.some.inj inserted)
      exact ⟨rfl, List.cons_ne_nil _ _⟩
  | case3 node nextSeg next before =>
      obtain ⟨rfl, rfl⟩ := Prod.mk.inj (Option.some.inj inserted)
      exact ⟨rfl, List.cons_ne_nil _ _⟩
  | case4 node nextSeg next notBefore ih =>
      obtain ⟨⟨rest, flag⟩, later, same⟩ := Option.map_eq_some_iff.mp inserted
      obtain ⟨rfl, rfl⟩ := Prod.mk.inj same
      exact ⟨rfl, List.cons_ne_nil _ _⟩

/-- The future case dereferences `NULL` on an empty window only. -/
theorem insertFuture_isSome (object : SegmentRef) {list : List SegmentRef} (front : list ≠ [])
    : (insertFuture object list).isSome := by
  fun_induction insertFuture object list with
  | case1 => exact absurd rfl front
  | case2 last => rfl
  | case3 node nextSeg next before => rfl
  | case4 node nextSeg next notBefore ih => simpa using ih (List.cons_ne_nil _ _)

/-- What the future case leaves: the same front, no node but the old ones and the new
object, and the same ackno and outputs.
-/
structure KeptFuture (object : SegmentRef) (state next : CtcpState) : Prop where
  front : next.rw.segments.head? = state.rw.segments.head?
  nodes : ∀ node ∈ next.rw.segments, node = object ∨ node ∈ state.rw.segments
  ackno : next.rw.ackno = state.rw.ackno
  accepted : next.log.accepted = state.log.accepted
  outputs : next.log.outputs = state.log.outputs

theorem receivedFuture_kept {object : SegmentRef} {state next : CtcpState}
    (received : receivedFuture object state = some next)
    : KeptFuture object state next := by
  unfold receivedFuture at received
  split at received
  · cases received
  · next segments inTheBack inserted =>
      obtain rfl := Option.some.inj received
      have inside := insertFuture_mem inserted
      obtain ⟨sameFront, nonempty⟩ := insertFuture_head inserted
      refine ⟨?_, ?_, rfl, rfl, rfl⟩
      · cases inTheBack with
        | false => exact sameFront
        | true =>
            have front : (llAdd segments object).head? = segments.head? :=
              List.head?_append_of_ne_nil _ nonempty
            exact front.trans sameFront
      · intro node member
        cases inTheBack with
        | false => exact inside node member
        | true =>
            rcases List.mem_append.mp member with old | new
            · exact inside node old
            · exact Or.inl (List.mem_singleton.mp new)

/-- A segment that is not ahead of ackno is no segment of the future. -/
theorem gotFuture_behind {object : SegmentRef} (len : Nat) {state : CtcpState}
    (behind : object.segment.seq ≤ uint32 state.rw.ackno)
    : gotFuture object len state = some state := by
  rw [gotFuture, if_neg (fun ahead => Nat.not_lt.mpr behind ahead.1)]

theorem gotFuture_isSome (object : SegmentRef) (len : Nat) {state : CtcpState}
    (front : state.rw.segments ≠ [])
    : (gotFuture object len state).isSome := by
  obtain ⟨result, inserted⟩ := Option.isSome_iff_exists.mp (insertFuture_isSome object front)
  rw [gotFuture, receivedFuture, llFront, inserted]
  split <;> rfl

theorem gotFuture_cases {object : SegmentRef} {len : Nat} {state next : CtcpState}
    (future : gotFuture object len state = some next)
    : next = state
      ∨ (uint32 state.rw.ackno < object.segment.seq ∧ KeptFuture object state next) := by
  unfold gotFuture at future
  split at future
  · next ahead => exact Or.inr ⟨ahead.1, receivedFuture_kept future⟩
  · exact Or.inl (Option.some.inj future).symm

theorem gotDuplicate_sameDelivery (env : Env) (segment : Segment) (state : CtcpState)
    : SameDelivery state (gotDuplicate env segment state) := by
  unfold gotDuplicate
  split
  · exact ⟨rfl, rfl, rfl⟩
  · exact ⟨rfl, rfl, rfl⟩

/-- Any but the expected segment is at most a duplicate, and then one of the future. -/
theorem receivedData_unexpected {env : Env} {object : SegmentRef} {len : Nat}
    {state : CtcpState} (unexpected : ¬ state.inOrder object.segment len)
    : receivedData env object len state
      = gotFuture object len (gotDuplicate env object.segment state) := by
  have same := gotDuplicate_sameDelivery env object.segment state
  have still : ¬ (gotDuplicate env object.segment state).inOrder object.segment len := by
    rwa [CtcpState.inOrder_iff, same.rw, CtcpState.payloadFits_of_rw_eq len same.rw,
      ← CtcpState.inOrder_iff]
  rw [receivedData, gotExpected, if_neg still, Option.bind_some]

theorem SameDelivery.keptFuture {object : SegmentRef} {state middle next : CtcpState}
    (same : SameDelivery state middle) (kept : KeptFuture object middle next)
    : KeptFuture object state next :=
  ⟨by rw [kept.front, same.rw], by rw [← same.rw]; exact kept.nodes,
    by rw [kept.ackno, same.rw], kept.accepted.trans same.accepted,
    kept.outputs.trans same.outputs⟩

/-- A verified segment with data that is not accepted is not the expected one. -/
theorem unexpected_of_declines (env : Env) {segment : Segment} {len : Nat} {state : CtcpState}
    (settled : Settled state) (verified : checksum segment)
    (hasData : sizeT (len - segHeaderSize) ≠ 0) (declines : ¬ state.accepts segment len)
    : ¬ (receivedHeader env segment.cleared len state.allocate).inOrder
        (state.receivedObject segment).segment len := by
  have same := receivedHeader_sameDelivery env segment.cleared len settled
  rw [CtcpState.inOrder_iff, same.rw, CtcpState.payloadFits_of_rw_eq len same.rw,
    CtcpState.receivedObject_seq]
  simp only [CtcpState.accepts, verified, Bool.true_and, Bool.and_eq_true, decide_eq_true_eq,
    not_and, CtcpState.inOrder_iff] at declines
  rintro ⟨expected, fits⟩
  exact declines hasData expected fits

/-- A segment that is not accepted leaves what was accepted and output, and at most adds
itself behind the front, as a segment of the future.
-/
theorem receive_declines {env : Env} {segment : Segment} {len : Nat}
    {state next : CtcpState} (settled : Settled state)
    (declines : ¬ state.accepts segment len)
    (taken : step state (.receive env segment len) = some next)
    : SameDelivery state next
      ∨ (uint32 state.rw.ackno < segment.seq
        ∧ KeptFuture (state.receivedObject segment) state next) := by
  rcases receive_cases taken with ⟨-, rfl⟩ | ⟨verified, body⟩
  · exact Or.inl ⟨rfl, rfl, rfl⟩
  have same := receivedHeader_sameDelivery env segment.cleared len settled
  unfold receivedBody at body
  split at body
  · next hasData =>
      rw [receivedData_unexpected (unexpected_of_declines env settled verified hasData declines)]
        at body
      have duplicate := same.trans
        (gotDuplicate_sameDelivery env (state.receivedObject segment).segment _)
      rcases gotFuture_cases body with rfl | ⟨ahead, kept⟩
      · exact Or.inl duplicate
      · rw [duplicate.rw, CtcpState.receivedObject_seq] at ahead
        exact Or.inr ⟨ahead, duplicate.keptFuture kept⟩
  · refine Or.inl (same.trans ?_)
    have header := receivedHeader_settled env segment.cleared len settled.allocate
    split at body
    · obtain rfl := Option.some.inj body
      have slid : Updates { Effects.any with delivers := False } _
          (receivedAck env (state.receivedObject segment).segment _) :=
        receivedAck_updates header (fun _ => trivial) trivial
      exact slid.sameDelivery (fun impossible => impossible)
    · obtain rfl := Option.some.inj body
      exact ⟨rfl, rfl, rfl⟩

/-- A segment that is neither accepted nor ahead of ackno leaves the receive window alone. -/
theorem receive_behind (env : Env) {segment : Segment} {len : Nat} {state : CtcpState}
    (settled : Settled state) (declines : ¬ state.accepts segment len)
    (behind : segment.seq ≤ uint32 state.rw.ackno)
    : ∃ next, step state (.receive env segment len) = some next ∧ SameDelivery state next := by
  have returns : ∃ next, step state (.receive env segment len) = some next := by
    rw [receive_eq]
    split
    · exact ⟨_, rfl⟩
    · next notRejected =>
        have verified : checksum segment = true := by simpa using notRejected
        have same := receivedHeader_sameDelivery env segment.cleared len settled
        unfold receivedBody
        split
        · next hasData =>
            have duplicate := same.trans
              (gotDuplicate_sameDelivery env (state.receivedObject segment).segment _)
            have behindNow := behind
            rw [← duplicate.rw, ← state.receivedObject_seq segment] at behindNow
            rw [receivedData_unexpected
              (unexpected_of_declines env settled verified hasData declines)]
            exact ⟨_, gotFuture_behind len behindNow⟩
        · split
          · exact ⟨_, rfl⟩
          · exact ⟨_, rfl⟩
  obtain ⟨next, taken⟩ := returns
  rcases receive_declines settled declines taken with same | ⟨ahead, -⟩
  · exact ⟨next, taken, same⟩
  · exact absurd ahead (Nat.not_lt.mpr behind)

/-- A segment of the future that fits an empty receive window makes `ctcp_receive`
dereference `NULL`.
-/
theorem receive_future_empty (env : Env) {segment : Segment} {len : Nat} {state : CtcpState}
    (settled : Settled state) (verified : checksum segment)
    (hasData : sizeT (len - segHeaderSize) ≠ 0) (ahead : uint32 state.rw.ackno < segment.seq)
    (fits : state.payloadFits len) (window : state.rw.segments = [])
    : step state (.receive env segment len) = none := by
  have declines : ¬ state.accepts segment len := by
    simp only [CtcpState.accepts, Bool.and_eq_true, CtcpState.inOrder_iff, not_and]
    intro _ expected
    exact absurd expected (Nat.ne_of_gt ahead)
  have same := receivedHeader_sameDelivery env segment.cleared len settled
  have duplicate := same.trans
    (gotDuplicate_sameDelivery env (state.receivedObject segment).segment _)
  have aheadNow := ahead
  rw [← duplicate.rw, ← state.receivedObject_seq segment] at aheadNow
  have fitsNow := fits
  rw [← CtcpState.payloadFits_of_rw_eq len duplicate.rw] at fitsNow
  rw [receive_eq, if_neg (by simp [verified]), receivedBody, if_pos hasData,
    receivedData_unexpected (unexpected_of_declines env settled verified hasData declines),
    gotFuture, if_pos ⟨aheadNow, fitsNow⟩, receivedFuture, llFront, duplicate.rw, window,
    insertFuture]

/-- The receive window never changes its capacity. -/
theorem Update.recvMaxSize {effects : Effects} {state next : CtcpState}
    (update : Update effects state next)
    : next.rw.maxSize = state.rw.maxSize := by
  cases update <;> rfl

/-- Ackno is always a signed 32-bit value. -/
theorem Update.ackno_wrapped {effects : Effects} {state next : CtcpState}
    (wrapped : int32 state.rw.ackno = state.rw.ackno) (update : Update effects state next)
    : int32 next.rw.ackno = next.rw.ackno := by
  cases update with
  | accept => exact int32_int32 _
  | _ => exact wrapped

end Networks.Ctcp
