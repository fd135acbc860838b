import Networks.Ctcp.Updates

/-! Which transmitted segments the other end's `checksum` accepts. Every transmission but a
retransmission computes the checksum over a field that is still zero.
-/

namespace Networks.Ctcp

/-- A checksum written over the field's old value verifies exactly when that old value was a
one's-complement zero.
-/
theorem checksum_summed (segment : Segment)
    : checksum segment.summed ↔ segment.cksum = 0 ∨ segment.cksum = 0xffff := by
  have sameCleared : segment.summed.cleared = segment.cleared := by
    simp only [Segment.summed, Segment.cleared]
  rw [← segment.cksum_bytes_eq_cleared, checksum, sameCleared, beq_iff_eq]
  rfl

/-- The ackno does not matter: a stamped segment verifies by its old checksum field. -/
theorem checksum_stamp (ackno : UInt32) (object : SegmentRef)
    : checksum (object.stamp ackno).segment
      ↔ object.segment.cksum = 0 ∨ object.segment.cksum = 0xffff :=
  checksum_summed _

/-- A new segment's checksum field is zero. -/
@[simp] theorem CtcpState.newSegment_cksum (state : CtcpState) (pad : UInt16) (mode : Mode)
    : (state.newSegment pad mode).segment.cksum = 0 := by
  simp only [newSegment, htons_zero]

/-- Everything handed to `conn_send` so far is accepted by `checksum`. -/
def CtcpState.Verifiable (state : CtcpState) : Prop :=
  ∀ sent ∈ state.log.sent, checksum sent.object.segment

/-- One more transmission is one more segment to verify. -/
theorem verifiable_append (state : CtcpState) {next : CtcpState} {sent : Transmission}
    (log : next.log.sent = state.log.sent ++ [sent])
    : next.Verifiable ↔ state.Verifiable ∧ checksum sent.object.segment := by
  simp only [CtcpState.Verifiable, log, List.forall_mem_append, List.forall_mem_singleton]

/-- Without a retransmission, an update transmits verifiable segments only. -/
theorem Update.verifiable_iff {effects : Effects} {state next : CtcpState}
    (never : ¬ effects.retransmits) (update : Update effects state next)
    : next.Verifiable ↔ state.Verifiable := by
  cases update with
  | ack pad =>
      rw [verifiable_append state rfl]
      exact and_iff_left ((checksum_summed _).mpr (Or.inl (state.newSegment_cksum pad .ack)))
  | finAck pad segment received isFin =>
      rw [verifiable_append state rfl]
      exact and_iff_left
        ((checksum_summed _).mpr (Or.inl (CtcpState.newSegment_cksum _ pad .finAck)))
  | endInput now pad reading queues | queueFin now pad reading queues =>
      rw [verifiable_append state rfl]
      exact and_iff_left
        ((checksum_stamp _ _).mpr (Or.inl (CtcpState.newSegment_cksum _ pad .fin)))
  | queueData now pad bytes reading queues room fits =>
      rw [verifiable_append state rfl]
      exact and_iff_left
        ((checksum_stamp _ _).mpr (Or.inl (CtcpState.newSegment_cksum _ pad .data)))
  | retransmit now node next reading retransmits => exact absurd retransmits never
  | _ => exact Iff.rfl

/-- Without a retransmission, a sequence of updates transmits verifiable segments only. -/
theorem Updates.verifiable_iff {effects : Effects} {state next : CtcpState}
    (never : ¬ effects.retransmits) (updates : Updates effects state next)
    : next.Verifiable ↔ state.Verifiable := by
  induction updates with
  | refl => exact Iff.rfl
  | tail _ update ih => exact (update.verifiable_iff never).trans ih

/-- Whether `ctcp_timer` retransmits the first segment of the window. -/
def CtcpState.retransmits (now : Nat → Int) (state : CtcpState) : Bool :=
  !state.teardownDue (now 0) && state.retransDue (now 1) && state.sw.retransCounter < 5

/-- A call does not retransmit a segment whose checksum field holds anything but 0xffff. -/
def RestampsOnes (state : CtcpState) : Call → Prop
  | .timer env =>
      state.retransmits env.now → ∀ node ∈ state.sw.segments.head?, node.segment.cksum = 0xffff
  | _ => True

/-- A step transmits verifiable segments exactly when it retransmits over 0xffff at most.
Witness: the field of a queued segment is not zero, so 0xffff is the only other
one's-complement zero.
-/
theorem step_verifiable_iff {state next : CtcpState} {call : Call} (settled : Settled state)
    (taken : step state call = some next)
    : next.Verifiable ↔ state.Verifiable ∧ RestampsOnes state call := by
  have updates := step_updates settled taken
  cases call with
  | timer env =>
      rcases timerCheck_cases settled (step_timer taken) with
        ⟨notDue, rfl⟩ | ⟨node, rest, front, notTeardown, due, tries, rfl⟩
      · simp [RestampsOnes, CtcpState.retransmits, notDue]
      · have nonzero := settled.stamped node (by simp [front])
        rw [verifiable_append state rfl, checksum_stamp]
        simp [RestampsOnes, CtcpState.retransmits, notTeardown, due, tries, front, nonzero]
  | _ =>
      rw [updates.verifiable_iff (fun impossible => impossible)]
      simp [RestampsOnes]

/-- Every transmitted segment of a run is verifiable exactly when no step of the run
retransmits over a checksum field other than 0xffff.
-/
theorem runFrom_verifiable_iff {cfg : CtcpConfig} {calls : List Call} {state : CtcpState}
    (reached : runFrom cfg calls = some state)
    : state.Verifiable ↔ StepRuns.AllSteps step RestampsOnes (ctcpInit cfg) calls := by
  have runs := StepRuns.exec_property_iff RestampsOnes Settled CtcpState.Verifiable
    (fun settled taken => Updates.settled (step_updates settled taken) settled)
    step_verifiable_iff (ctcpInit_settled cfg) reached
  rw [runs]
  exact and_iff_right (by simp [CtcpState.Verifiable, ctcpInit])

/-- The retransmission of a one-byte segment does not verify. -/
theorem retransmission_not_verifiable
    : ¬ ∀ cfg calls state, runFrom cfg calls = some state → state.Verifiable := by
  intro always
  have reached : (runFrom defaultConfig timedOutByte).isSome := by decide +kernel
  have verified := always defaultConfig timedOutByte _ (Option.some_get reached).symm
  revert verified
  unfold CtcpState.Verifiable
  decide +kernel +revert

/-- The calls of a connection that reads two bytes whose segment has the checksum 0xffff, and
retransmits it once.
-/
def timedOutOnes : List Call :=
  [.read (.steady 0 0) (some [0xea, 0x47]), .timer (.steady 201 0)]

/-- The rule at a run whose retransmission finds 0xffff in the checksum field. -/
theorem runFrom_verifiable_iff_ones
    : ∃ state,
        runFrom defaultConfig timedOutOnes = some state ∧ state.log.sent.length = 2
        ∧ state.Verifiable
        ∧ (state.Verifiable
            ↔ StepRuns.AllSteps step RestampsOnes (ctcpInit defaultConfig) timedOutOnes) := by
  have reached : (runFrom defaultConfig timedOutOnes).isSome := by decide +kernel
  obtain ⟨state, run⟩ := Option.isSome_iff_exists.mp reached
  have facts : ∀ state ∈ runFrom defaultConfig timedOutOnes,
      state.log.sent.length = 2 ∧ ∀ sent ∈ state.log.sent, checksum sent.object.segment := by
    decide +kernel
  obtain ⟨transmissions, verifiable⟩ := facts state run
  exact ⟨state, run, transmissions, verifiable, runFrom_verifiable_iff run⟩

end Networks.Ctcp
