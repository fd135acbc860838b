import Networks.Ctcp.Delivery
import Mathlib.Data.List.TakeWhile

/-! Which arrival orders of a stream's segments are reassembled. A segment that arrives ahead
of its turn finds an empty receive window, and one that ends beyond the sequence numbers is
never output, so only first arrivals in stream order are put together.
-/

namespace Networks.Ctcp

open MachineIntegers StreamPieces

/-- Verified data segments with consecutive sequence numbers from a position on. -/
def CutFrom : Nat → List Segment → Prop
  | _, [] => True
  | position, segment :: rest =>
      segment.seq = position % 4294967296
      ∧ segment.data ≠ []
      ∧ checksum segment
      ∧ CutFrom (position + segment.data.length) rest

instance CutFrom.decide : (position : Nat) → (segments : List Segment)
    → Decidable (CutFrom position segments)
  | _, [] => isTrue trivial
  | position, segment :: rest =>
      have := CutFrom.decide (position + segment.data.length) rest
      inferInstanceAs (Decidable (_ ∧ _ ∧ _ ∧ _))

/-- The bytes the segments of a stream carry. -/
abbrev streamOf (segments : List Segment) : List UInt8 :=
  content Segment.data segments

/-- A segment arriving, with what the outside answers meanwhile. -/
structure Arrival where
  env : Env
  segment : Segment

/-- The call an arrival makes, with the segment's own length. -/
def Arrival.call (arrival : Arrival) : Call :=
  .receive arrival.env arrival.segment (segHeaderSize + arrival.segment.data.length : Nat)

/-- Every segment arrives after all segments that stand before it in the stream. -/
def InStreamOrder (segments : List Segment) : List Segment → List Segment → Prop
  | _, [] => True
  | before, arrival :: rest =>
      (∀ earlier ∈ segments.takeWhile (fun segment => segment ≠ arrival), earlier ∈ before)
      ∧ InStreamOrder segments (arrival :: before) rest

instance InStreamOrder.decide (segments : List Segment)
    : (before arrivals : List Segment) → Decidable (InStreamOrder segments before arrivals)
  | _, [] => isTrue trivial
  | before, arrival :: rest =>
      have := InStreamOrder.decide segments (arrival :: before) rest
      inferInstanceAs (Decidable (_ ∧ _))

/-- The arrivals return, ackno is behind the stream, the receive window is empty, and the
stream was output once and in order.
-/
def Reassembled (first : CtcpState) (stream : List UInt8) (arrivals : List Arrival) : Prop :=
  ∃ last,
    StepRuns.exec step first (arrivals.map Arrival.call) = some last
    ∧ last.rw.ackno = int32 (first.rw.ackno + stream.length)
    ∧ last.rw.segments = []
    ∧ last.rw.size = 0
    ∧ last.log.outputs.flatten = first.log.outputs.flatten ++ stream

/-- A segment of a stream stands at its position and carries data, by induction on the
segments before it.
-/
theorem CutFrom.segment {position : Nat} {before after : List Segment} {segment : Segment}
    (cut : CutFrom position (before ++ segment :: after))
    : segment.seq = (position + (streamOf before).length) % 4294967296
      ∧ segment.data ≠ []
      ∧ checksum segment := by
  induction before generalizing position with
  | nil => exact ⟨cut.1, cut.2.1, cut.2.2.1⟩
  | cons head rest ih =>
      have later := ih cut.2.2.2
      rw [Nat.add_assoc] at later
      simpa [streamOf] using later

/-- A stream that ends before sequence number 2^32 is a tiling, by induction on its
segments.
-/
theorem CutFrom.chained {position : Nat} {segments : List Segment}
    (cut : CutFrom position segments)
    (noWrap : position + (streamOf segments).length < 4294967296)
    : Chained Segment.seq Segment.data position segments
        (position + (streamOf segments).length) := by
  induction segments generalizing position with
  | nil => rfl
  | cons head rest ih =>
      simp only [streamOf, content_cons, List.length_append] at noWrap ⊢
      have later := ih cut.2.2.2 (by simp only [streamOf]; omega)
      rw [Nat.add_assoc] at later
      exact ⟨cut.1.trans (Nat.mod_eq_of_lt (by omega)), later⟩

theorem streamOf_cons (segment : Segment) (rest : List Segment)
    : (streamOf (segment :: rest)).length = segment.data.length + (streamOf rest).length := by
  rw [streamOf, content_cons, List.length_append]

theorem streamOf_append (before after : List Segment)
    : (streamOf (before ++ after)).length
      = (streamOf before).length + (streamOf after).length := by
  rw [streamOf, content_append, List.length_append]

-----------------------------------------------------------------------------------------
-- Single arrivals
-----------------------------------------------------------------------------------------

/-- The arrival's received length is that of its payload. -/
theorem sizeT_payload (segment : Segment)
    : sizeT (((segHeaderSize + segment.data.length : Nat) : Int) - segHeaderSize)
      = segment.data.length := by
  have small := segment.length_data_lt
  have difference : ((segHeaderSize + segment.data.length : Nat) : Int) - segHeaderSize
      = segment.data.length := by omega
  rw [difference, sizeT_natCast (by omega)]

theorem sizeT_payload_ne_zero {segment : Segment} (nonempty : segment.data ≠ [])
    : sizeT (((segHeaderSize + segment.data.length : Nat) : Int) - segHeaderSize) ≠ 0 := by
  rw [sizeT_payload]
  exact Nat.ne_of_gt (List.length_pos_iff.mpr nonempty)

/-- What a connection has reassembled of a stream since it was in the state `first`. -/
structure Assembled (first state : CtcpState) (done : List Segment) : Prop where
  settled : Settled state
  window : state.rw.segments = []
  size : state.rw.size = 0
  maxSize : state.rw.maxSize = first.rw.maxSize
  ackno : state.rw.ackno = int32 (first.rw.ackno + (streamOf done).length)
  outputs : state.log.outputs.flatten = first.log.outputs.flatten ++ streamOf done

/-- The connection and the stream it receives, cut into the segments already reassembled and
those still to come, before the end of the sequence numbers.
-/
structure Receiving (first : CtcpState) (done pending : List Segment) (state : CtcpState)
    : Prop where
  assembled : Assembled first state done
  cut : CutFrom (uint32 first.rw.ackno) (done ++ pending)
  fits : ((streamOf (done ++ pending)).length : Int) ≤ first.rw.maxSize
  maxSize : first.rw.maxSize ≤ 65535
  noWrap : uint32 first.rw.ackno + (streamOf (done ++ pending)).length < 4294967296

section Receiving

variable {first state : CtcpState} {done pending : List Segment}

theorem Receiving.ackno (receiving : Receiving first done pending state)
    : uint32 state.rw.ackno = uint32 first.rw.ackno + (streamOf done).length := by
  have noWrap := receiving.noWrap
  rw [streamOf_append] at noWrap
  rw [receiving.assembled.ackno, uint32_int32, uint32_add, Nat.mod_eq_of_lt (by omega)]

/-- Any payload of the stream fits the empty receive window. -/
theorem Receiving.payloadFits (receiving : Receiving first done pending state)
    {segment : Segment} (member : segment ∈ done ++ pending)
    : state.payloadFits (segHeaderSize + segment.data.length : Nat) := by
  have inside := (receiving.cut.chained receiving.noWrap).piece_end_le member
  have fits := receiving.fits
  have small := receiving.maxSize
  have starts := inside.1
  have free : sizeT (int32 (state.rw.maxSize - state.rw.size)) = first.rw.maxSize.toNat := by
    rw [receiving.assembled.maxSize, receiving.assembled.size, Int.sub_zero,
      int32_eq_self (by omega) (by omega), ← Int.toNat_of_nonneg (by omega : 0 ≤ first.rw.maxSize),
      sizeT_natCast (by omega), Int.toNat_natCast]
  rw [CtcpState.payloadFits, sizeT_payload, free, decide_eq_true_eq]
  omega

/-- A segment that arrives again is ignored. -/
theorem Receiving.again (receiving : Receiving first done pending state) (env : Env)
    {segment : Segment} (member : segment ∈ done)
    : ∃ next,
        step state (Arrival.mk env segment).call = some next
        ∧ Receiving first done pending next := by
  have assembled := receiving.assembled
  have tiling := receiving.cut.chained receiving.noWrap
  obtain ⟨middle, doneTiling, -⟩ := chained_append.mp tiling
  have ends := (doneTiling.piece_end_le member).2
  have middleEnd : middle = uint32 first.rw.ackno + (streamOf done).length :=
    doneTiling.stop_eq
  obtain ⟨before, after, split⟩ := List.append_of_mem member
  have cut := receiving.cut
  rw [split, List.append_assoc] at cut
  have positive := List.length_pos_iff.mpr cut.segment.2.1
  have below : segment.seq < uint32 state.rw.ackno := by
    rw [receiving.ackno]
    omega
  have declines : ¬ state.accepts segment (segHeaderSize + segment.data.length : Nat) := by
    simp only [CtcpState.accepts, Bool.and_eq_true, CtcpState.inOrder_iff, not_and]
    intro _ expected
    exact absurd expected (Nat.ne_of_lt below)
  obtain ⟨next, taken, same⟩ :=
    receive_behind env assembled.settled declines (Nat.le_of_lt below)
  refine ⟨next, taken, ⟨⟨?_, ?_, ?_, ?_, ?_, ?_⟩, receiving.cut, receiving.fits,
    receiving.maxSize, receiving.noWrap⟩⟩
  · exact Updates.settled (step_updates assembled.settled taken) assembled.settled
  · rw [same.rw, assembled.window]
  · rw [same.rw, assembled.size]
  · rw [same.rw, assembled.maxSize]
  · rw [same.rw, assembled.ackno]
  · rw [same.outputs, assembled.outputs]

/-- The next segment of the stream is accepted and output. -/
theorem Receiving.next {segment : Segment}
    (receiving : Receiving first done (segment :: pending) state) {env : Env}
    (room : segment.data.length ≤ env.bufspace 0)
    : ∃ next,
        step state (Arrival.mk env segment).call = some next
        ∧ Receiving first (done ++ [segment]) pending next := by
  have assembled := receiving.assembled
  obtain ⟨position, nonempty, verified⟩ := receiving.cut.segment
  have noWrap := receiving.noWrap
  rw [streamOf_append, streamOf_cons] at noWrap
  have expected : segment.seq = uint32 state.rw.ackno := by
    rw [receiving.ackno, position, Nat.mod_eq_of_lt (by omega)]
  have accepts : state.accepts segment (segHeaderSize + segment.data.length : Nat) := by
    simp only [CtcpState.accepts, Bool.and_eq_true, CtcpState.inOrder_iff, decide_eq_true_eq]
    exact ⟨⟨verified, sizeT_payload_ne_zero nonempty⟩, expected,
      receiving.payloadFits (by simp)⟩
  obtain ⟨accepted, acceptance, result⟩ := receive_accepts env assembled.settled accepts
  have sameData := state.receivedObject_data segment
  have noWrapNow : uint32 state.rw.ackno
      + (state.receivedObject segment).segment.data.length < 4294967296 := by
    rw [receiving.ackno, sameData]
    omega
  rw [acceptance.emitted (by rwa [sameData]) assembled.window noWrapNow] at result
  refine ⟨_, result, ⟨⟨?_, rfl, ?_, ?_, ?_, ?_⟩, ?_, ?_, receiving.maxSize, ?_⟩⟩
  · exact Updates.settled (step_updates assembled.settled result) assembled.settled
  · simp only [CtcpState.emit, acceptance.size, assembled.size, int32_add_sub_self, int32_zero]
  · simp only [CtcpState.emit, acceptance.maxSize, assembled.maxSize]
  · simp only [CtcpState.emit, acceptance.ackno, assembled.ackno, sameData, int32_int32_add,
      streamOf_append, streamOf, content_cons, content_nil, List.append_nil, Nat.cast_add,
      add_assoc]
  · simp only [CtcpState.emit, acceptance.outputs, List.flatten_append, assembled.outputs,
      sameData, List.take_of_length_le room, List.flatten_singleton, streamOf, content_append,
      content_cons, content_nil, List.append_nil, List.append_assoc]
  · rw [List.append_assoc]
    exact receiving.cut
  · rw [List.append_assoc]
    exact receiving.fits
  · rw [List.append_assoc]
    exact receiving.noWrap

/-- Any later segment of the stream makes `ctcp_receive` dereference `NULL`. -/
theorem Receiving.ahead {segment later : Segment}
    (receiving : Receiving first done (segment :: pending) state) (env : Env)
    (member : later ∈ pending)
    : step state (Arrival.mk env later).call = none := by
  obtain ⟨before, after, split⟩ := List.append_of_mem member
  have cut := receiving.cut
  rw [split, ← List.cons_append, ← List.append_assoc] at cut
  obtain ⟨-, nonempty, verified⟩ := cut.segment
  have firstNonempty := List.length_pos_iff.mpr receiving.cut.segment.2.1
  obtain ⟨middle, doneTiling, pendingTiling⟩ :=
    chained_append.mp (receiving.cut.chained receiving.noWrap)
  have starts := (pendingTiling.2.piece_end_le member).1
  have middleEnd : middle = uint32 first.rw.ackno + (streamOf done).length :=
    doneTiling.stop_eq
  have ahead : uint32 state.rw.ackno < later.seq := by
    rw [receiving.ackno]
    omega
  exact receive_future_empty env receiving.assembled.settled verified
    (sizeT_payload_ne_zero nonempty) ahead (receiving.payloadFits (by simp [member]))
    receiving.assembled.window

end Receiving

-----------------------------------------------------------------------------------------
-- Arrivals below the end of the sequence numbers
-----------------------------------------------------------------------------------------

/-- The segments before a member of the first part lie in the first part, by induction on
it.
-/
theorem mem_of_mem_takeWhile {before after : List Segment} {segment earlier : Segment}
    (member : segment ∈ before)
    (precedes
      : earlier ∈ (before ++ after).takeWhile (fun other => other ≠ segment))
    : earlier ∈ before := by
  induction before with
  | nil => cases member
  | cons head rest ih =>
      rw [List.cons_append, List.takeWhile_cons] at precedes
      split at precedes
      · next differs =>
          have inRest : segment ∈ rest := by
            rcases List.mem_cons.mp member with same | later
            · simp [same] at differs
            · exact later
          rcases List.mem_cons.mp precedes with same | later
          · simp [same]
          · exact List.mem_cons_of_mem head (ih inRest later)
      · cases precedes

/-- Which arrivals are in turn: repetitions and the next segment, but no later one. The part
`done` of the stream is what has arrived before.
-/
theorem Receiving.inTurn_iff {first state : CtcpState} {done pending before : List Segment}
    {segment : Segment} (receiving : Receiving first done pending state)
    (arrived : ∀ other, other ∈ before ↔ other ∈ done)
    (member : segment ∈ done ++ pending)
    : (∀ earlier ∈ (done ++ pending).takeWhile (fun other => other ≠ segment),
        earlier ∈ before)
      ↔ segment ∈ done ∨ ∃ rest, pending = segment :: rest := by
  constructor
  · intro inTurn
    by_contra late
    obtain ⟨notDone, notNext⟩ := not_or.mp late
    have inPending : segment ∈ pending := (List.mem_append.mp member).resolve_left notDone
    obtain ⟨next, rest, rfl⟩ := List.exists_cons_of_ne_nil (List.ne_nil_of_mem inPending)
    have nextDiffers : next ≠ segment := fun same => notNext ⟨rest, by rw [same]⟩
    have doneDiffers : ∀ other ∈ done, decide (other ≠ segment) = true := by
      intro other inDone
      exact decide_eq_true fun same => notDone (same ▸ inDone)
    have precedes : next ∈ (done ++ next :: rest).takeWhile (fun other => other ≠ segment) := by
      rw [List.takeWhile_append_of_pos doneDiffers, List.takeWhile_cons_of_pos (by simpa)]
      simp
    have inDone := (arrived next).mp (inTurn next precedes)
    -- The next segment would stand before its own position.
    have tiling := receiving.cut.chained receiving.noWrap
    obtain ⟨middle, doneTiling, pendingTiling⟩ := chained_append.mp tiling
    have ends := (doneTiling.piece_end_le inDone).2
    have starts := pendingTiling.1
    have positive := List.length_pos_iff.mpr receiving.cut.segment.2.1
    omega
  · rintro (inDone | ⟨rest, rfl⟩) earlier precedes
    · exact (arrived earlier).mpr (mem_of_mem_takeWhile inDone precedes)
    · have differs : earlier ≠ segment := by simpa using List.mem_takeWhile_imp precedes
      rw [← List.singleton_append, ← List.append_assoc] at precedes
      have inFirst := mem_of_mem_takeWhile (by simp) precedes
      rcases List.mem_append.mp inFirst with inDone | isSegment
      · exact (arrived earlier).mpr inDone
      · exact absurd (List.mem_singleton.mp isSegment) differs

/-- An arrival in turn is taken, and the stream is cut behind what has arrived by then. -/
theorem Receiving.taken {first state : CtcpState} {done pending before : List Segment}
    {segment : Segment} (receiving : Receiving first done pending state) (env : Env)
    (room : segment.data.length ≤ env.bufspace 0)
    (arrived : ∀ other, other ∈ before ↔ other ∈ done)
    (inTurn : segment ∈ done ∨ ∃ rest, pending = segment :: rest)
    : ∃ next doneNext pendingNext,
        step state (Arrival.mk env segment).call = some next
        ∧ Receiving first doneNext pendingNext next
        ∧ done ++ pending = doneNext ++ pendingNext
        ∧ ∀ other, other ∈ segment :: before ↔ other ∈ doneNext := by
  by_cases inDone : segment ∈ done
  · obtain ⟨next, taken, receivingNext⟩ := receiving.again env inDone
    refine ⟨next, done, pending, taken, receivingNext, rfl, fun other => ?_⟩
    simp only [List.mem_cons, arrived]
    exact ⟨fun either => either.elim (fun same => same ▸ inDone) id, Or.inr⟩
  · obtain ⟨rest, rfl⟩ := inTurn.resolve_left inDone
    obtain ⟨next, taken, receivingNext⟩ := receiving.next room
    refine ⟨next, done ++ [segment], rest, taken, receivingNext, by simp, fun other => ?_⟩
    simp only [List.mem_cons, arrived, List.mem_append, List.not_mem_nil, or_false]
    exact Or.comm

/-- An arrival out of turn makes `ctcp_receive` dereference `NULL`. -/
theorem Receiving.outOfTurn {first state : CtcpState} {done pending : List Segment}
    {segment : Segment} (receiving : Receiving first done pending state) (env : Env)
    (member : segment ∈ done ++ pending)
    (late : ¬ (segment ∈ done ∨ ∃ rest, pending = segment :: rest))
    : step state (Arrival.mk env segment).call = none := by
  obtain ⟨notDone, notNext⟩ := not_or.mp late
  have inPending := (List.mem_append.mp member).resolve_left notDone
  obtain ⟨next, rest, rfl⟩ := List.exists_cons_of_ne_nil (List.ne_nil_of_mem inPending)
  have differs : segment ≠ next := fun same => notNext ⟨rest, by rw [same]⟩
  exact receiving.ahead env ((List.mem_cons.mp inPending).resolve_left differs)

/-- Below the end of the sequence numbers the arrivals return exactly if they are in stream
order, and then everything that arrived is reassembled. Witness: induction on the arrivals,
the stream being cut into what arrived before and the rest.
-/
theorem Receiving.run {first state : CtcpState} {segments done pending before : List Segment}
    {arrivals : List Arrival} (receiving : Receiving first done pending state)
    (stream : segments = done ++ pending) (arrived : ∀ other, other ∈ before ↔ other ∈ done)
    (members : ∀ arrival ∈ arrivals, arrival.segment ∈ segments)
    (room
      : ∀ arrival ∈ arrivals, arrival.segment.data.length ≤ arrival.env.bufspace 0)
    : ((∃ last, StepRuns.exec step state (arrivals.map Arrival.call) = some last)
        ↔ InStreamOrder segments before (arrivals.map Arrival.segment))
      ∧ ∀ last, StepRuns.exec step state (arrivals.map Arrival.call) = some last
        → ∃ doneLast pendingLast,
            segments = doneLast ++ pendingLast
            ∧ Receiving first doneLast pendingLast last
            ∧ (∀ segment ∈ done, segment ∈ doneLast)
            ∧ ∀ arrival ∈ arrivals, arrival.segment ∈ doneLast := by
  induction arrivals generalizing state done pending before with
  | nil =>
      refine ⟨iff_of_true ⟨state, rfl⟩ trivial, ?_⟩
      intro last ends
      obtain rfl := Option.some.inj ends
      exact ⟨done, pending, stream, receiving, fun _ member => member, by simp⟩
  | cons arrival rest ih =>
      obtain ⟨env, segment⟩ := arrival
      have member := members ⟨env, segment⟩ (by simp)
      have later : ∀ other ∈ rest, other.segment ∈ segments :=
        fun other inRest => members other (by simp [inRest])
      have roomLater : ∀ other ∈ rest, other.segment.data.length ≤ other.env.bufspace 0 :=
        fun other inRest => room other (by simp [inRest])
      have inTurn := receiving.inTurn_iff arrived (stream ▸ member)
      rw [← stream] at inTurn
      simp only [List.map_cons, InStreamOrder, StepRuns.exec_cons_eq_some, inTurn]
      by_cases turn : segment ∈ done ∨ ∃ rest, pending = segment :: rest
      · obtain ⟨next, doneNext, pendingNext, taken, receivingNext, cut, arrivedNext⟩ :=
          receiving.taken env (room ⟨env, segment⟩ (by simp)) arrived turn
        obtain ⟨returns, reached⟩ :=
          ih receivingNext (stream.trans cut) arrivedNext later roomLater
        simp only [taken, Option.some.injEq, exists_eq_left', turn, true_and]
        refine ⟨returns, fun last ends => ?_⟩
        obtain ⟨doneLast, pendingLast, split, receivingLast, kept, all⟩ := reached last ends
        refine ⟨doneLast, pendingLast, split, receivingLast, fun other inDone => ?_, ?_⟩
        · have inBefore := (arrived other).mpr inDone
          exact kept other ((arrivedNext other).mp (List.mem_cons_of_mem segment inBefore))
        · have inNext := (arrivedNext segment).mp List.mem_cons_self
          exact List.forall_mem_cons.mpr ⟨kept segment inNext, all⟩
      · have stuck := receiving.outOfTurn env (stream ▸ member) turn
        simp [stuck, turn]

-----------------------------------------------------------------------------------------
-- Arrivals across the end of the sequence numbers
-----------------------------------------------------------------------------------------

/-- How far a connection is in a stream that starts at a position: either below the end of
the sequence numbers with an empty window, or beyond it with a segment stuck in front.
-/
def Progress (position total : Nat) (state : CtcpState) : Prop :=
  ∃ reached ≤ total,
    uint32 state.rw.ackno = (position + reached) % 4294967296
    ∧ ((position + reached < 4294967296 ∧ state.rw.segments = [])
      ∨ (4294967296 ≤ position + reached
        ∧ ∃ front ∈ state.rw.segments.head?, position ≤ front.segment.seq))

theorem SameDelivery.progress {position total : Nat} {state next : CtcpState}
    (same : SameDelivery state next) (progress : Progress position total state)
    : Progress position total next := by
  unfold Progress
  rw [same.rw]
  exact progress

theorem KeptFuture.progress {object : SegmentRef} {position total : Nat}
    {state next : CtcpState} (kept : KeptFuture object state next)
    (progress : Progress position total state)
    : Progress position total next := by
  obtain ⟨reached, within, ackno, below | ⟨beyond, stuck⟩⟩ := progress
  · have front := kept.front
    rw [below.2, List.head?_nil, List.head?_eq_none_iff] at front
    exact ⟨reached, within, by rw [kept.ackno, ackno], Or.inl ⟨below.1, front⟩⟩
  · exact ⟨reached, within, by rw [kept.ackno, ackno],
      Or.inr ⟨beyond, by rw [kept.front]; exact stuck⟩⟩

/-- Accepting a segment of the stream makes progress: it is output at once below the end of
the sequence numbers, and stuck or behind a stuck segment beyond it.
-/
theorem Acceptance.progress {env : Env} {object : SegmentRef} {len position before total : Nat}
    {state accepted next : CtcpState} (acceptance : Acceptance object state accepted)
    (progress : Progress position total state) (small : total ≤ 65535)
    (positionLt : position < 4294967296)
    (starts : object.segment.seq = (position + before) % 4294967296)
    (inside : before + object.segment.data.length ≤ total)
    (nonempty : object.segment.data ≠ [])
    (future : gotFuture object len (ctcpOutput env accepted) = some next)
    : Progress position total next := by
  obtain ⟨reached, within, ackno, place⟩ := progress
  have positive := List.length_pos_iff.mpr nonempty
  have inTurn : before = reached := by
    have expected := acceptance.expected
    omega
  have acknoNext : uint32 accepted.rw.ackno
      = (position + (reached + object.segment.data.length)) % 4294967296 := by
    rw [acceptance.ackno, uint32_int32, uint32_add]
    omega
  by_cases below : position + (reached + object.segment.data.length) < 4294967296
  · have window : state.rw.segments = [] := by
      rcases place with early | ⟨beyond, -⟩
      · exact early.2
      · omega
    have noWrap : uint32 state.rw.ackno + object.segment.data.length < 4294967296 := by omega
    rw [acceptance.emitted nonempty window noWrap] at future
    obtain rfl := Option.some.inj future
    exact ⟨reached + object.segment.data.length, by omega, acknoNext, Or.inl ⟨below, rfl⟩⟩
  · have stuck : ∃ front ∈ accepted.rw.segments.head?, position ≤ front.segment.seq := by
      rw [acceptance.segments]
      rcases place with early | ⟨-, front, isFront, above⟩
      · refine ⟨object, by simp [early.2], ?_⟩
        omega
      · exact ⟨front, by simp [List.head?_append, Option.mem_def.mp isFront], above⟩
    have progressed : Progress position total accepted :=
      ⟨reached + object.segment.data.length, by omega, acknoNext,
        Or.inr ⟨Nat.le_of_not_lt below, stuck⟩⟩
    have idle : ctcpOutput env accepted = accepted := by
      obtain ⟨front, isFront, above⟩ := stuck
      refine ctcpOutput_idle env fun node isNode => ?_
      obtain rfl := Option.mem_unique isFront isNode
      omega
    rw [idle] at future
    rcases gotFuture_cases future with rfl | ⟨-, kept⟩
    · exact progressed
    · exact kept.progress progressed

/-- Every arrival of a segment of the stream makes progress, or ends the run. -/
theorem Arrival.progress {arrival : Arrival} {position : Nat} {segments : List Segment}
    {state next : CtcpState} (settled : Settled state) (cut : CutFrom position segments)
    (positionLt : position < 4294967296) (small : (streamOf segments).length ≤ 65535)
    (member : arrival.segment ∈ segments)
    (progress : Progress position (streamOf segments).length state)
    (taken : step state arrival.call = some next)
    : Progress position (streamOf segments).length next := by
  obtain ⟨env, segment⟩ := arrival
  obtain ⟨before, after, rfl⟩ := List.append_of_mem member
  obtain ⟨starts, nonempty, -⟩ := cut.segment
  have inside : (streamOf before).length + segment.data.length
      ≤ (streamOf (before ++ segment :: after)).length := by
    rw [streamOf_append, streamOf_cons]
    omega
  by_cases accepts : state.accepts segment (segHeaderSize + segment.data.length : Nat)
  · obtain ⟨accepted, acceptance, result⟩ := receive_accepts env settled accepts
    rw [Arrival.call, result] at taken
    rw [← state.receivedObject_data segment] at inside nonempty
    rw [← state.receivedObject_seq segment] at starts
    exact acceptance.progress progress small positionLt starts inside nonempty taken
  · rcases receive_declines settled accepts taken with same | ⟨-, kept⟩
    · exact same.progress progress
    · exact kept.progress progress

/-- A stream that does not end below sequence number 2^32 is never reassembled: ackno gets
beyond it only behind a stuck segment.
-/
theorem not_reassembled_of_wrap {first : CtcpState} {segments : List Segment}
    {arrivals : List Arrival} (settled : Settled first) (window : first.rw.segments = [])
    (cut : CutFrom (uint32 first.rw.ackno) segments)
    (small : (streamOf segments).length ≤ 65535)
    (members : ∀ arrival ∈ arrivals, arrival.segment ∈ segments)
    (wrap : 4294967296 ≤ uint32 first.rw.ackno + (streamOf segments).length)
    : ¬ Reassembled first (streamOf segments) arrivals := by
  rintro ⟨last, ends, ackno, empty, -, -⟩
  have positionLt := uint32_lt first.rw.ackno
  have start : Progress (uint32 first.rw.ackno) (streamOf segments).length first :=
    ⟨0, Nat.zero_le _, by rw [Nat.add_zero, Nat.mod_eq_of_lt positionLt],
      Or.inl ⟨positionLt, window⟩⟩
  have guarded : ∀ call ∈ arrivals.map Arrival.call,
      ∃ arrival : Arrival, arrival.segment ∈ segments ∧ call = arrival.call := by
    intro call member
    obtain ⟨arrival, inArrivals, rfl⟩ := List.mem_map.mp member
    exact ⟨arrival, members arrival inArrivals, rfl⟩
  have progress : Settled last
      ∧ Progress (uint32 first.rw.ackno) (streamOf segments).length last := by
    refine StepRuns.exec_invariant_of_guard
      (fun _ call => ∃ arrival : Arrival, arrival.segment ∈ segments ∧ call = arrival.call)
      (fun state => Settled state
        ∧ Progress (uint32 first.rw.ackno) (streamOf segments).length state)
      ?_ ⟨settled, start⟩ (StepRuns.allSteps_of_forall guarded) ends
    rintro state call next ⟨settledNow, progressNow⟩ ⟨arrival, member, rfl⟩ taken
    exact ⟨Updates.settled (step_updates settledNow taken) settledNow,
      Arrival.progress settledNow cut positionLt small member progressNow taken⟩
  obtain ⟨-, reached, within, acknoLast, below | ⟨-, front, isFront, -⟩⟩ := progress
  · rw [ackno, uint32_int32, uint32_add] at acknoLast
    omega
  · rw [empty] at isFront
    cases isFront

/-- On an empty receive window, a stream whose segments all arrive, in any order and any
number of times, is reassembled exactly if its segments first arrive in stream order and it
ends below sequence number 2^32.
-/
theorem reassembled_iff {cfg : CtcpConfig} {calls : List Call} {first : CtcpState}
    {segments : List Segment} {arrivals : List Arrival}
    (connected : runFrom cfg calls = some first) (window : first.rw.segments = [])
    (size : first.rw.size = 0) (cut : CutFrom (uint32 first.rw.ackno) segments)
    (fits : ((streamOf segments).length : Int) ≤ first.rw.maxSize)
    (members : ∀ segment, segment ∈ arrivals.map Arrival.segment ↔ segment ∈ segments)
    (room
      : ∀ arrival ∈ arrivals, ∀ segment ∈ segments, ∀ site,
          segment.data.length ≤ arrival.env.bufspace site)
    : Reassembled first (streamOf segments) arrivals
      ↔ InStreamOrder segments [] (arrivals.map Arrival.segment)
        ∧ uint32 first.rw.ackno + (streamOf segments).length < 4294967296 := by
  obtain ⟨settled, maxSize, wrapped⟩ := runFrom_invariant (fun _ => True)
    (fun state => state.rw.maxSize = cfg.recvWindow.toNat
      ∧ int32 state.rw.ackno = state.rw.ackno)
    (fun _ _ held update => ⟨update.recvMaxSize.trans held.1, update.ackno_wrapped held.2⟩)
    ⟨rfl, by simp [ctcpInit, int32]⟩ (fun _ _ => trivial) connected
  have maxSizeLt := cfg.recvWindow.toNat_lt
  have small : (streamOf segments).length ≤ 65535 := by omega
  have inStream : ∀ arrival ∈ arrivals, arrival.segment ∈ segments :=
    fun arrival member => (members _).mp (List.mem_map_of_mem member)
  by_cases noWrap : uint32 first.rw.ackno + (streamOf segments).length < 4294967296
  · have receiving : Receiving first [] segments first :=
      ⟨⟨settled, window, size, rfl, by simp [streamOf, wrapped], by simp [streamOf]⟩,
        cut, fits, by omega, noWrap⟩
    obtain ⟨returns, reached⟩ := receiving.run (List.nil_append segments).symm
      (fun _ => Iff.rfl) inStream
      (fun arrival member => room arrival member _ (inStream arrival member) 0)
    rw [← returns, and_iff_left noWrap]
    refine exists_congr fun last => and_iff_left_of_imp fun ends => ?_
    obtain ⟨done, pending, split, receivingLast, -, all⟩ := reached last ends
    have complete : pending = [] := by
      by_contra some
      obtain ⟨next, rest, rfl⟩ := List.exists_cons_of_ne_nil some
      have arrivedNext := (members next).mpr (by simp [split])
      obtain ⟨arrival, inArrivals, rfl⟩ := List.mem_map.mp arrivedNext
      have inDone := all arrival inArrivals
      obtain ⟨middle, doneTiling, pendingTiling⟩ :=
        chained_append.mp (receivingLast.cut.chained receivingLast.noWrap)
      have ends := (doneTiling.piece_end_le inDone).2
      have starts := pendingTiling.1
      have positive := List.length_pos_iff.mpr receivingLast.cut.segment.2.1
      omega
    have whole : segments = done := by rw [split, complete, List.append_nil]
    have assembled := receivingLast.assembled
    rw [← whole] at assembled
    exact ⟨assembled.ackno, assembled.window, assembled.size, assembled.outputs⟩
  · rw [iff_false_right (fun both => noWrap both.2)]
    exact not_reassembled_of_wrap settled window cut small inStream (Nat.le_of_not_lt noWrap)

/-- Three bytes in two segments. -/
def twoSegments : List Segment :=
  let sender := ctcpInit defaultConfig
  let first := { sender with sendBuf := ⟨[0x61, 0x62], by decide⟩ }
  let second := { sender with sw.seqno := 3, sendBuf := ⟨[0x63], by decide⟩ }
  [(first.newSegment 0 .data).segment.summed, (second.newSegment 0 .data).segment.summed]

/-- Segments arriving while the output buffer is empty. -/
def arrivalsOf (segments : List Segment) : List Arrival :=
  segments.map (Arrival.mk (.steady 0 8192))

theorem arrivalsOf_room {segments stream : List Segment}
    (short : ∀ segment ∈ stream, segment.data.length ≤ 8192)
    : ∀ arrival ∈ arrivalsOf segments, ∀ segment ∈ stream, ∀ site,
        segment.data.length ≤ arrival.env.bufspace site := by
  intro arrival member segment inStream site
  obtain ⟨_, -, rfl⟩ := List.mem_map.mp member
  exact short segment inStream

/-- The rule for two segments, the first of which arrives twice. -/
theorem reassembled_iff_repeated
    : Reassembled (ctcpInit defaultConfig) (streamOf twoSegments)
        (arrivalsOf (twoSegments.take 1 ++ twoSegments)) := by
  have members : ∀ segment,
      segment ∈ (arrivalsOf (twoSegments.take 1 ++ twoSegments)).map Arrival.segment
      ↔ segment ∈ twoSegments := by
    simp [arrivalsOf, twoSegments]
  have connected : runFrom defaultConfig [] = some (ctcpInit defaultConfig) := rfl
  exact (reassembled_iff connected rfl rfl (by decide +kernel) (by decide +kernel)
    members (arrivalsOf_room (by decide +kernel))).mpr (by decide +kernel)

/-- Two segments that change places on the way dereference `NULL`. -/
theorem swapped_segments_not_reassembled
    : ¬ ∀ cfg calls first segments arrivals,
        runFrom cfg calls = some first → first.rw.segments = [] → first.rw.size = 0
        → CutFrom (uint32 first.rw.ackno) segments
        → ((streamOf segments).length : Int) ≤ first.rw.maxSize
        → (∀ segment, segment ∈ arrivals.map Arrival.segment ↔ segment ∈ segments)
        → (∀ arrival ∈ arrivals, ∀ segment ∈ segments, ∀ site,
            segment.data.length ≤ arrival.env.bufspace site)
        → Reassembled first (streamOf segments) arrivals := by
  intro always
  have members : ∀ segment,
      segment ∈ (arrivalsOf twoSegments.reverse).map Arrival.segment ↔ segment ∈ twoSegments := by
    simp [arrivalsOf, twoSegments, or_comm]
  obtain ⟨last, ends, -⟩ := always defaultConfig [] _ twoSegments (arrivalsOf twoSegments.reverse)
    rfl rfl rfl (by decide +kernel) (by decide +kernel) members
    (arrivalsOf_room (by decide +kernel))
  have failed : (StepRuns.exec step (ctcpInit defaultConfig)
      ((arrivalsOf twoSegments.reverse).map Arrival.call)).isNone := by
    decide +kernel
  rw [Option.isNone_iff_eq_none.mp failed] at ends
  cases ends

end Networks.Ctcp
