import Networks.Ctcp.Reception
import Networks.Ctcp.SendWindow
import Networks.Ctcp.StreamEnd
import Networks.Ctcp.Verifiability

/-! What the window field of a transmitted segment says. `ctcp_makeseg` writes the free space
of the send window into it, and a retransmission leaves it as it was.
-/

namespace Networks.Ctcp

open MachineIntegers

/-- Every segment handed to `conn_send` so far advertised the receive window's free space. -/
def CtcpState.Advertises (state : CtcpState) : Prop :=
  ∀ entry ∈ state.log.windows, ((ntohs entry.1).toNat : Int) = entry.2

/-- Both windows have the same free space. -/
def CtcpState.SameSpace (state : CtcpState) : Prop :=
  state.sw.maxSize - state.sw.size = state.freeSpace

theorem advertises_append (state : CtcpState) {next : CtcpState} {entry : UInt16 × Int}
    (log : next.log.windows = state.log.windows ++ [entry])
    : next.Advertises ↔ state.Advertises ∧ ((ntohs entry.1).toNat : Int) = entry.2 := by
  simp only [CtcpState.Advertises, log, List.forall_mem_append, List.forall_mem_singleton]

theorem advertises_same {state next : CtcpState}
    (log : next.log.windows = state.log.windows)
    : next.Advertises ↔ state.Advertises := by
  rw [CtcpState.Advertises, CtcpState.Advertises, log]

/-- A built segment advertises the free space of the send window. -/
theorem Sized.newSegment_window {state : CtcpState} (sized : Sized state) (pad : UInt16)
    (mode : Mode)
    : ((ntohs (state.newSegment pad mode).segment.window).toNat : Int)
      = state.sw.maxSize - state.sw.size := by
  have size := sized.size
  have fits := sized.fits
  have maxSize := sized.maxSize
  simp only [CtcpState.newSegment, ntohs_htons, UInt16.toNat_ofNat']
  rw [int32_eq_self (by omega) (by omega)]
  unfold uint16
  omega

theorem Sized.answer_advertises {state : CtcpState} (sized : Sized state) (pad : UInt16)
    (mode : Mode)
    : (state.answer pad mode).Advertises ↔ state.Advertises ∧ state.SameSpace := by
  rw [advertises_append state rfl, Segment.summed_window, sized.newSegment_window,
    CtcpState.SameSpace]

theorem Sized.queueFin_advertises {state : CtcpState} (sized : Sized state) (now : Int)
    (pad : UInt16)
    : (state.queueFin now pad).Advertises ↔ state.Advertises ∧ state.SameSpace := by
  rw [advertises_append state rfl, SegmentRef.stamp_window, sized.newSegment_window,
    CtcpState.SameSpace]

theorem Sized.queueData_advertises {state : CtcpState} (sized : Sized state) (now : Int)
    (pad : UInt16) (bytes : SendBuf)
    : (state.queueData now pad bytes).Advertises ↔ state.Advertises ∧ state.SameSpace := by
  have buffered : Sized { state with sendBuf := bytes } :=
    ⟨sized.size, sized.fits, sized.maxSize, sized.payloads⟩
  rw [advertises_append state rfl, SegmentRef.stamp_window, CtcpState.dataSegment,
    buffered.newSegment_window, CtcpState.SameSpace]

theorem retransmit_advertises (now : Int) (node : SegmentRef) (next : List SegmentRef)
    (state : CtcpState)
    : (state.retransmit now node next).Advertises
      ↔ state.Advertises ∧ ((ntohs node.segment.window).toNat : Int) = state.freeSpace := by
  rw [advertises_append state rfl, SegmentRef.stamp_window]

-----------------------------------------------------------------------------------------
-- Transmissions of ctcp_receive
-----------------------------------------------------------------------------------------

/-- The sizes of both windows, and all of the receive window, are the same. -/
structure SameSizes (state next : CtcpState) : Prop where
  maxSize : next.sw.maxSize = state.sw.maxSize
  size : next.sw.size = state.sw.size
  rw : next.rw = state.rw

theorem SameSizes.sameSpace {state next : CtcpState} (same : SameSizes state next)
    : next.SameSpace ↔ state.SameSpace := by
  rw [CtcpState.SameSpace, CtcpState.SameSpace, CtcpState.freeSpace, CtcpState.freeSpace,
    same.maxSize, same.size, same.rw]

/-- The FIN branch answers, and possibly queues a FIN, on windows of the same sizes. -/
theorem gotFin_advertises (env : Env) (segment : Segment) (len : Nat) {state : CtcpState}
    (settled : Settled state) (sized : Sized state)
    : ((gotFin env segment len state).Advertises
        ↔ state.Advertises ∧ (finArrived segment len → state.SameSpace))
      ∧ SameSizes state (gotFin env segment len state) := by
  unfold gotFin
  by_cases fin : finArrived segment len
  · have noted : Sized { state with log.fins := state.log.fins ++ [segment] } :=
      ⟨sized.size, sized.fits, sized.maxSize, sized.payloads⟩
    have answered : (state.answerFin (env.pad 0) segment).Advertises
        ↔ state.Advertises ∧ state.SameSpace := noted.answer_advertises (env.pad 0) .finAck
    rw [if_pos fin, receivedFin_eq env segment settled]
    split
    · refine ⟨?_, ⟨rfl, rfl, rfl⟩⟩
      have answeredSized : Sized (state.answerFin (env.pad 0) segment) :=
        ⟨sized.size, sized.fits, sized.maxSize, sized.payloads⟩
      have sameSpace : SameSizes state (state.answerFin (env.pad 0) segment) :=
        ⟨rfl, rfl, rfl⟩
      rw [answeredSized.queueFin_advertises, answered, sameSpace.sameSpace, and_assoc, and_self]
      simp only [fin, true_implies]
    · refine ⟨?_, ⟨rfl, rfl, rfl⟩⟩
      rw [answered]
      simp only [fin, true_implies]
  · rw [if_neg fin]
    exact ⟨by simp [fin], ⟨rfl, rfl, rfl⟩⟩

theorem receivedHeader_advertises (env : Env) (segment : Segment) (len : Nat)
    {state : CtcpState} (settled : Settled state) (sized : Sized state)
    : ((receivedHeader env segment len state).Advertises
        ↔ state.Advertises ∧ (finArrived segment len → state.SameSpace))
      ∧ SameSizes state (receivedHeader env segment len state) := by
  have noted : Settled (noteWindow segment state) :=
    ⟨settled.bufferEmpty, settled.stamped, settled.timed, settled.allocated⟩
  have notedSized : Sized (noteWindow segment state) :=
    ⟨sized.size, sized.fits, sized.maxSize, sized.payloads⟩
  obtain ⟨advertises, sizes⟩ := gotFin_advertises env segment len noted notedSized
  have sameNoted : SameSizes state (noteWindow segment state) := ⟨rfl, rfl, rfl⟩
  rw [sameNoted.sameSpace] at advertises
  unfold receivedHeader gotFinAck
  split
  · exact ⟨advertises, ⟨sizes.maxSize, sizes.size, sizes.rw⟩⟩
  · exact ⟨advertises, ⟨sizes.maxSize, sizes.size, sizes.rw⟩⟩

theorem gotDuplicate_advertises (env : Env) (segment : Segment) {state : CtcpState}
    (sized : Sized state)
    : (gotDuplicate env segment state).Advertises
      ↔ state.Advertises ∧ (segment.seq < uint32 state.rw.ackno → state.SameSpace) := by
  unfold gotDuplicate
  by_cases duplicate : segment.seq < uint32 state.rw.ackno
  · rw [if_pos duplicate, ctcpMakeseg_ack, sized.answer_advertises]
    simp only [duplicate, true_implies]
  · rw [if_neg duplicate]
    simp only [duplicate, false_implies, and_true]

/-- `ctcp_output` and the future case transmit nothing. -/
theorem ctcpOutput_advertises (env : Env) (state : CtcpState)
    : (ctcpOutput env state).Advertises ↔ state.Advertises := by
  obtain ⟨_, _, _, equal, -⟩ :=
    outputLoop_keeps env.bufspace 0 (llFront state.rw.segments) state
  exact advertises_same (by rw [ctcpOutput, equal])

theorem gotFuture_advertises {object : SegmentRef} {len : Nat} {state next : CtcpState}
    (future : gotFuture object len state = some next)
    : next.Advertises ↔ state.Advertises := by
  unfold gotFuture receivedFuture at future
  split at future
  · split at future
    · cases future
    · obtain rfl := Option.some.inj future
      exact Iff.rfl
  · obtain rfl := Option.some.inj future
    exact Iff.rfl

/-- Both windows have the same free space once `payload` more bytes wait in the receive
window.
-/
def CtcpState.SameSpaceAfter (payload : Nat) (state : CtcpState) : Prop :=
  state.sw.maxSize - state.sw.size
    = state.rw.maxSize - int32 (state.rw.size + payload)

theorem acknowledged_advertises (pad : UInt16) (object : SegmentRef) {state : CtcpState}
    (sized : Sized state)
    : (state.acknowledged pad object).Advertises
      ↔ state.Advertises ∧ state.SameSpaceAfter object.segment.data.length := by
  have queued : Sized
      { state with
        rw.segments := llAdd state.rw.segments object
        rw.size := int32 (state.rw.size + object.segment.data.length)
        rw.ackno := int32 (state.rw.ackno + object.segment.data.length)
        log.accepted := state.log.accepted ++ object.segment.data } :=
    ⟨sized.size, sized.fits, sized.maxSize, sized.payloads⟩
  rw [CtcpState.acknowledged, queued.answer_advertises]
  rfl

/-- What the data branch transmits: an ACK for a duplicate, or for the expected segment,
which then waits in the receive window.
-/
theorem receivedData_advertises {env : Env} {object : SegmentRef} {len : Nat}
    {state next : CtcpState} (arrived : Arrived object state) (sized : Sized state)
    (data : receivedData env object len state = some next)
    : next.Advertises
      ↔ state.Advertises
        ∧ (object.segment.seq < uint32 state.rw.ackno → state.SameSpace)
        ∧ (state.inOrder object.segment len
          → state.SameSpaceAfter object.segment.data.length) := by
  by_cases inOrder : state.inOrder object.segment len
  · obtain ⟨expected, fits⟩ := CtcpState.inOrder_iff.mp inOrder
    have notDuplicate : ¬ object.segment.seq < uint32 state.rw.ackno := by omega
    rw [receivedData_expected arrived expected fits] at data
    rw [gotFuture_advertises data, ctcpOutput_advertises, acknowledged_advertises _ _ sized]
    simp only [notDuplicate, inOrder, false_implies, true_implies, true_and]
  · rw [receivedData_unexpected inOrder] at data
    rw [gotFuture_advertises data, gotDuplicate_advertises env object.segment sized]
    simp only [inOrder, Bool.false_eq_true, false_implies, and_true]

/-- Every segment a call builds is built while both windows have the same free space, and a
retransmitted segment has the free space of the receive window in its field already.
-/
def AdvertisesReceiveWindow (state : CtcpState) : Call → Prop
  | .read _ _ => 0 < state.bufferSize → state.SameSpace
  | .output _ => True
  | .timer env =>
      state.retransmits env.now
      → ∀ node ∈ state.sw.segments.head?,
          ((ntohs node.segment.window).toNat : Int) = state.freeSpace
  | .receive _ segment len =>
      checksum segment
      → (finArrived segment len → state.SameSpace)
        ∧ (sizeT (len - segHeaderSize) ≠ 0
          → (segment.seq < uint32 state.rw.ackno → state.SameSpace)
            ∧ (state.inOrder segment len → state.SameSpaceAfter segment.data.length))

theorem read_advertises_iff (env : Env) (offer : Option (List UInt8)) {state : CtcpState}
    (settled : Settled state) (sized : Sized state)
    : (ctcpRead env offer state).Advertises
      ↔ state.Advertises ∧ (0 < state.bufferSize → state.SameSpace) := by
  rcases ctcpRead_cases env offer settled with
    ⟨full, same⟩ | ⟨room, -, fin⟩ | ⟨bytes, room, -, data⟩
  · rw [same]
    simp only [Int.not_lt.mpr full, false_implies, and_true]
  · have noted : Sized { state with log.inputEnded := true } :=
      ⟨sized.size, sized.fits, sized.maxSize, sized.payloads⟩
    rw [fin, CtcpState.endInput, noted.queueFin_advertises]
    simp only [room, true_implies]
    rfl
  · rw [data, sized.queueData_advertises]
    simp only [room, true_implies]

theorem timer_advertises_iff {now : Nat → Int} {state next : CtcpState}
    (settled : Settled state) (checked : timerCheck now state = .ok next)
    : next.Advertises
      ↔ state.Advertises
        ∧ (state.retransmits now
          → ∀ node ∈ state.sw.segments.head?,
              ((ntohs node.segment.window).toNat : Int) = state.freeSpace) := by
  rcases timerCheck_cases settled checked with
    ⟨notDue, rfl⟩ | ⟨node, rest, front, notTeardown, due, tries, rfl⟩
  · simp [CtcpState.retransmits, notDue]
  · rw [retransmit_advertises]
    simp [CtcpState.retransmits, notTeardown, due, tries, front]

theorem receive_advertises_iff {env : Env} {segment : Segment} {len : Nat}
    {state next : CtcpState} (settled : Settled state) (sized : Sized state)
    (taken : step state (.receive env segment len) = some next)
    : next.Advertises
      ↔ state.Advertises ∧ AdvertisesReceiveWindow state (.receive env segment len) := by
  rcases receive_cases taken with ⟨rejected, rfl⟩ | ⟨verified, body⟩
  · simp only [AdvertisesReceiveWindow, rejected, Bool.false_eq_true, false_implies, and_true]
    exact Iff.rfl
  have allocated : Sized state.allocate :=
    ⟨sized.size, sized.fits, sized.maxSize, sized.payloads⟩
  obtain ⟨header, sizes⟩ :=
    receivedHeader_advertises env segment.cleared len settled.allocate allocated
  have headerSettled := receivedHeader_settled env segment.cleared len settled.allocate
  have sameAllocated : SameSizes state state.allocate := ⟨rfl, rfl, rfl⟩
  have sameSizes : SameSizes state (receivedHeader env segment.cleared len state.allocate) :=
    ⟨sizes.maxSize, sizes.size, sizes.rw⟩
  have headerIff : (receivedHeader env segment.cleared len state.allocate).Advertises
      ↔ state.Advertises ∧ (finArrived segment len → state.SameSpace) := by
    rw [header, finArrived_cleared, sameAllocated.sameSpace]
    exact Iff.rfl
  simp only [AdvertisesReceiveWindow, verified, true_implies]
  unfold receivedBody at body
  split at body
  · next hasData =>
      have updates : Updates .any state.allocate
          (receivedHeader env segment.cleared len state.allocate) :=
        receivedHeader_updates len settled.allocate (fun _ => trivial) trivial (fun _ => trivial)
      have headerSized := updates.invariant
        (fun settled sized update => update.sized settled sized) settled.allocate allocated
      have arrived : Arrived (state.receivedObject segment)
          (receivedHeader env segment.cleared len state.allocate) :=
        receivedHeader_arrived settled.allocate (settled.arrived segment)
      have after : (receivedHeader env segment.cleared len state.allocate).SameSpaceAfter
            segment.data.length
          ↔ state.SameSpaceAfter segment.data.length := by
        rw [CtcpState.SameSpaceAfter, CtcpState.SameSpaceAfter, sameSizes.maxSize,
          sameSizes.size, sameSizes.rw]
      have sameOrder : (receivedHeader env segment.cleared len state.allocate).inOrder
            (state.receivedObject segment).segment len
          ↔ state.inOrder segment len := by
        rw [CtcpState.inOrder_iff, CtcpState.inOrder_iff, sameSizes.rw,
          CtcpState.payloadFits_of_rw_eq len sameSizes.rw, CtcpState.receivedObject_seq]
      rw [receivedData_advertises arrived headerSized body, headerIff, sameOrder,
        CtcpState.receivedObject_seq, CtcpState.receivedObject_data, sameSizes.rw,
        sameSizes.sameSpace, after, and_assoc]
      simp only [ne_eq, hasData, not_false_eq_true, true_implies]
  · next noData =>
      simp only [noData, false_implies, and_true]
      split at body
      · obtain rfl := Option.some.inj body
        rcases receivedAck_cases env (state.receivedObject segment).segment headerSettled with
          same | ⟨node, rest, front, acknowledged, slid⟩
        · rw [same]
          exact headerIff
        · rw [slid]
          exact headerIff
      · obtain rfl := Option.some.inj body
        exact headerIff

/-- A step advertises the receive window exactly when it meets the condition. -/
theorem step_advertises_iff {state next : CtcpState} {call : Call}
    (held : Settled state ∧ Sized state) (taken : step state call = some next)
    : next.Advertises ↔ state.Advertises ∧ AdvertisesReceiveWindow state call := by
  obtain ⟨settled, sized⟩ := held
  cases call with
  | read env offer =>
      obtain rfl := Option.some.inj taken
      exact read_advertises_iff env offer settled sized
  | output env =>
      obtain rfl := Option.some.inj taken
      rw [ctcpOutput_advertises]
      simp only [AdvertisesReceiveWindow, and_true]
  | timer env => exact timer_advertises_iff settled (step_timer taken)
  | receive env segment len => exact receive_advertises_iff settled sized taken

/-- All segments a run transmits advertise the free space of the receive window exactly when
every step of it meets the condition.
-/
theorem runFrom_advertises_iff {cfg : CtcpConfig} {calls : List Call} {state : CtcpState}
    (reached : runFrom cfg calls = some state)
    : state.Advertises ↔ StepRuns.AllSteps step AdvertisesReceiveWindow (ctcpInit cfg) calls := by
  have runs := StepRuns.exec_property_iff AdvertisesReceiveWindow
    (fun state => Settled state ∧ Sized state) CtcpState.Advertises
    step_sized step_advertises_iff ⟨ctcpInit_settled cfg, ctcpInit_sized cfg⟩ reached
  rw [runs]
  exact and_iff_right (by simp [CtcpState.Advertises, ctcpInit])

theorem peerByte_fits : [(0x62 : UInt8)].length ≤ maxSegDataSize := singleton_fits 0x62

/-- Two bytes are read, and one is received. The receive window has room for 1439 more bytes
when that one is acknowledged, the send window for 1438.
-/
def bothDirections : List Call :=
  let sender := { ctcpInit defaultConfig with sendBuf := ⟨[0x62], peerByte_fits⟩ }
  [
    .read (.steady 0 0) (some [0x61, 0x63]),
    .receive (.steady 0 1) (sender.newSegment 0 .data).segment.summed 21
  ]

/-- The ACK of the received byte advertises the free space of the send window. -/
theorem ack_advertises_send_window
    : ¬ ∀ cfg calls state, runFrom cfg calls = some state → state.Advertises := by
  intro always
  have reached : (runFrom defaultConfig bothDirections).isSome := by decide +kernel
  have advertised := always defaultConfig bothDirections _ (Option.some_get reached).symm
  revert advertised
  unfold CtcpState.Advertises
  decide +kernel +revert

/-- The rule at a run that reads two bytes and nothing else. -/
theorem runFrom_advertises_iff_read
    : ∃ state,
        runFrom defaultConfig (bothDirections.take 1) = some state
        ∧ (state.Advertises
            ↔ StepRuns.AllSteps step AdvertisesReceiveWindow (ctcpInit defaultConfig)
                (bothDirections.take 1)) := by
  have reached : (runFrom defaultConfig (bothDirections.take 1)).isSome := by decide +kernel
  exact ⟨_, (Option.some_get reached).symm,
    runFrom_advertises_iff (Option.some_get reached).symm⟩

end Networks.Ctcp
