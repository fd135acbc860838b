import Networks.Ctcp.Updates

/-! Where the FIN stands among the segments a connection queues. FINs are queued by
`ctcp_read` and by `ctcp_receive`, and neither looks for an earlier one.
-/

namespace Networks.Ctcp

/-- Whether a queued segment ends the stream. -/
def SegmentRef.isFin (object : SegmentRef) : Bool :=
  object.segment.flags &&& thFin ≠ 0

/-- At most one FIN was queued, and no data segment after it. -/
def FinEndsStream (queued : List SegmentRef) : Prop :=
  queued.countP SegmentRef.isFin ≤ 1
  ∧ queued.Pairwise (fun before after => before.isFin → after.isFin)

/-- Another segment may be queued exactly as long as no FIN was: after a FIN a data segment
would follow it, and a FIN would be the second.
-/
theorem finEndsStream_append {queued : List SegmentRef} {object : SegmentRef}
    : FinEndsStream (queued ++ [object])
      ↔ FinEndsStream queued ∧ ∀ before ∈ queued, before.isFin = false := by
  constructor
  · rintro ⟨count, ordered⟩
    rw [List.countP_append] at count
    obtain ⟨earlier, -, last⟩ := List.pairwise_append.mp ordered
    refine ⟨⟨by omega, earlier⟩, ?_⟩
    intro before member
    by_contra isFin
    have finBefore : before.isFin := by simpa using isFin
    have finLast := last before member object (by simp) finBefore
    have one : 0 < queued.countP SegmentRef.isFin :=
      List.countP_pos_iff.mpr ⟨before, member, finBefore⟩
    have two : [object].countP SegmentRef.isFin = 1 := by simp [finLast]
    omega
  · rintro ⟨⟨-, ordered⟩, noFin⟩
    have none : queued.countP SegmentRef.isFin = 0 := by simpa using noFin
    constructor
    · have single : [object].countP SegmentRef.isFin ≤ [object].length := List.countP_le_length
      rw [List.countP_append, none]
      simpa using single
    · refine List.pairwise_append.mpr ⟨ordered, by simp, ?_⟩
      intro before member after _ finBefore
      rw [noFin before member] at finBefore
      cases finBefore

/-- An update that may not queue leaves the queued segments alone. -/
theorem Update.queued_eq {effects : Effects} {state next : CtcpState}
    (never : ¬ effects.queues) (update : Update effects state next)
    : next.log.queued = state.log.queued := by
  cases update with
  | endInput now pad reading queues | queueFin now pad reading queues =>
      exact absurd queues never
  | queueData now pad bytes reading queues => exact absurd queues never
  | _ => rfl

theorem Updates.queued_eq {effects : Effects} {state next : CtcpState}
    (never : ¬ effects.queues) (updates : Updates effects state next)
    : next.log.queued = state.log.queued := by
  induction updates with
  | refl => rfl
  | tail _ update ih => rw [update.queued_eq never, ih]

/-- The segment built for a FIN is one. -/
theorem newSegment_fin_isFin (state : CtcpState) (pad : UInt16)
    : (state.newSegment pad .fin).isFin := by
  have fin : Mode.fin.flags &&& thFin ≠ 0 := by decide
  exact decide_eq_true fin

/-- Whether a received segment makes `ctcp_receive` queue a FIN. -/
def CtcpState.answersWithFin (segment : Segment) (len : Nat) (state : CtcpState) : Bool :=
  checksum segment && finArrived segment len && state.timerTeardown = -1

/-- The FIN branch queues a FIN unless the teardown timer runs. -/
theorem gotFin_queued (env : Env) (segment : Segment) (len : Nat) {state : CtcpState}
    (settled : Settled state)
    : (finArrived segment len ∧ state.timerTeardown = -1
        ∧ ∃ fin, fin.isFin
            ∧ (gotFin env segment len state).log.queued = state.log.queued ++ [fin])
      ∨ (¬ (finArrived segment len ∧ state.timerTeardown = -1)
        ∧ (gotFin env segment len state).log.queued = state.log.queued) := by
  unfold gotFin
  by_cases fin : finArrived segment len
  · rw [if_pos fin, receivedFin_eq env segment settled]
    by_cases waiting : state.timerTeardown = -1
    · rw [if_pos waiting]
      exact Or.inl ⟨fin, waiting, _, newSegment_fin_isFin _ _, rfl⟩
    · rw [if_neg waiting]
      exact Or.inr ⟨fun both => waiting both.2, rfl⟩
  · rw [if_neg fin]
    exact Or.inr ⟨fun both => fin both.1, rfl⟩

theorem finArrived_cleared (segment : Segment) (len : Nat)
    : finArrived segment.cleared len = finArrived segment len := by
  rw [finArrived, finArrived, Segment.cleared_flags]

/-- After the FIN branch `ctcp_receive` queues nothing. -/
theorem receive_queued_eq {env : Env} {segment : Segment} {len : Nat}
    {state next : CtcpState} (settled : Settled state)
    (body
      : receivedBody env (state.receivedObject segment) len
          (receivedHeader env segment.cleared len state.allocate)
        = some next)
    : next.log.queued
      = (gotFin env segment.cleared len
          (noteWindow segment.cleared state.allocate)).log.queued := by
  have header := receivedHeader_settled env segment.cleared len settled.allocate
  have branches : Updates { Effects.any with queues := False } _ next :=
    receivedBody_updates header
      (receivedHeader_arrived settled.allocate (settled.arrived segment)) (fun _ => trivial)
      trivial trivial body
  have armed : Updates { Effects.any with queues := False } _
      (receivedHeader env segment.cleared len state.allocate) :=
    gotFinAck_updates
  rw [branches.queued_eq (fun impossible => impossible)]
  exact armed.queued_eq (fun impossible => impossible)

/-- `ctcp_receive` queues one FIN, or nothing. -/
theorem receive_queued {env : Env} {segment : Segment} {len : Nat} {state next : CtcpState}
    (settled : Settled state) (taken : step state (.receive env segment len) = some next)
    : (state.answersWithFin segment len = true
        ∧ ∃ fin, fin.isFin ∧ next.log.queued = state.log.queued ++ [fin])
      ∨ (state.answersWithFin segment len = false
        ∧ next.log.queued = state.log.queued) := by
  rcases receive_cases taken with ⟨rejected, rfl⟩ | ⟨verified, body⟩
  · exact Or.inr ⟨by simp [CtcpState.answersWithFin, rejected], rfl⟩
  · have noted : Settled (noteWindow segment.cleared state.allocate) :=
      ⟨settled.bufferEmpty, settled.stamped, settled.timed, settled.allocate.allocated⟩
    rw [receive_queued_eq settled body]
    rcases gotFin_queued env segment.cleared len noted with
      ⟨fin, waiting, object⟩ | ⟨silent, queued⟩
    · rw [finArrived_cleared] at fin
      have stopped : state.timerTeardown = -1 := waiting
      exact Or.inl ⟨by simp [CtcpState.answersWithFin, verified, fin, stopped], object⟩
    · rw [finArrived_cleared] at silent
      refine Or.inr ⟨?_, queued⟩
      simp only [CtcpState.answersWithFin, verified, Bool.true_and, Bool.and_eq_false_imp,
        decide_eq_false_iff_not]
      exact fun fin waiting => silent ⟨fin, waiting⟩

/-- `ctcp_read` queues one segment, or nothing when there is no room. -/
theorem read_queued (env : Env) (offer : Option (List UInt8)) {state : CtcpState}
    (settled : Settled state)
    : (0 < state.bufferSize
        ∧ ∃ object, (ctcpRead env offer state).log.queued = state.log.queued ++ [object])
      ∨ (state.bufferSize ≤ 0
        ∧ (ctcpRead env offer state).log.queued = state.log.queued) := by
  rcases ctcpRead_cases env offer settled with
    ⟨full, same⟩ | ⟨room, -, fin⟩ | ⟨bytes, room, -, data⟩
  · exact Or.inr ⟨full, by rw [same]⟩
  · exact Or.inl ⟨room, _, by rw [fin]; rfl⟩
  · exact Or.inl ⟨room, _, by rw [data]; rfl⟩

/-- Once a FIN has been queued, `ctcp_read` finds no room and no FIN is received that would
be answered with another one.
-/
def SilentAfterFin (state : CtcpState) (call : Call) : Prop :=
  (∃ object ∈ state.log.queued, object.isFin) →
    match call with
    | .read _ _ => state.bufferSize ≤ 0
    | .receive _ segment len => state.answersWithFin segment len = false
    | .output _ | .timer _ => True

/-- A call that queues one segment keeps the order exactly if no FIN was queued before. -/
theorem finEndsStream_queue {state next : CtcpState} {object : SegmentRef}
    (queued : next.log.queued = state.log.queued ++ [object])
    : FinEndsStream next.log.queued
      ↔ FinEndsStream state.log.queued ∧ ¬ ∃ object ∈ state.log.queued, object.isFin := by
  rw [queued, finEndsStream_append]
  simp

/-- A step keeps the FIN last exactly when it is silent after a FIN. -/
theorem step_finEndsStream_iff {state next : CtcpState} {call : Call}
    (settled : Settled state) (taken : step state call = some next)
    : FinEndsStream next.log.queued
      ↔ FinEndsStream state.log.queued ∧ SilentAfterFin state call := by
  have updates := step_updates settled taken
  cases call with
  | read env offer =>
      obtain rfl := Option.some.inj taken
      rcases read_queued env offer settled with
        ⟨room, object, queued⟩ | ⟨full, queued⟩
      · rw [finEndsStream_queue queued]
        simp [SilentAfterFin, Int.not_le.mpr room]
      · rw [queued]
        simp [SilentAfterFin, full]
  | receive env segment len =>
      rcases receive_queued settled taken with ⟨answers, object, -, queued⟩ | ⟨silent, queued⟩
      · rw [finEndsStream_queue queued]
        simp [SilentAfterFin, answers]
      · rw [queued]
        simp [SilentAfterFin, silent]
  | output env | timer env =>
      rw [updates.queued_eq (fun impossible => impossible)]
      simp [SilentAfterFin]

/-- A run queues at most one FIN, and no data after it, exactly when none of its steps finds
a FIN already queued and queues another segment.
-/
theorem runFrom_finEndsStream_iff {cfg : CtcpConfig} {calls : List Call} {state : CtcpState}
    (reached : runFrom cfg calls = some state)
    : FinEndsStream state.log.queued
      ↔ StepRuns.AllSteps step SilentAfterFin (ctcpInit cfg) calls := by
  have runs := StepRuns.exec_property_iff SilentAfterFin Settled
    (fun state => FinEndsStream state.log.queued)
    (fun settled taken => Updates.settled (step_updates settled taken) settled)
    step_finEndsStream_iff (ctcpInit_settled cfg) reached
  rw [runs]
  exact and_iff_right (by simp [FinEndsStream, ctcpInit])

/-- `conn_input` returns -1 as often as it is called. -/
def endedTwice : List Call :=
  [.read (.steady 0 0) none, .read (.steady 0 0) none]

/-- Each end of input queues a FIN. -/
theorem second_fin_queued
    : ¬ ∀ cfg calls state,
        runFrom cfg calls = some state → FinEndsStream state.log.queued := by
  intro always
  have reached : (runFrom defaultConfig endedTwice).isSome := by decide +kernel
  have twice : ((runFrom defaultConfig endedTwice).get reached).log.queued.countP
      SegmentRef.isFin = 2 := by
    decide +kernel +revert
  have once := (always defaultConfig endedTwice _ (Option.some_get reached).symm).1
  omega

/-- The rule at a run that reads one byte and then the end of input. -/
theorem runFrom_finEndsStream_iff_endedOnce
    : ∃ state,
        runFrom defaultConfig (.read (.steady 0 0) (some [0x61]) :: endedTwice.take 1)
          = some state
        ∧ (FinEndsStream state.log.queued
            ↔ StepRuns.AllSteps step SilentAfterFin (ctcpInit defaultConfig)
                (.read (.steady 0 0) (some [0x61]) :: endedTwice.take 1)) := by
  have reached
      : (runFrom defaultConfig
          (.read (.steady 0 0) (some [0x61]) :: endedTwice.take 1)).isSome := by
    decide +kernel
  exact ⟨_, (Option.some_get reached).symm,
    runFrom_finEndsStream_iff (Option.some_get reached).symm⟩

end Networks.Ctcp
