import Networks.Ctcp.StreamEnd
import Networks.Ctcp.Teardown

/-! Whether a connection sends again only what its peer has to acknowledge. `ctcp_read` makes a
data segment of every result of `conn_input` but -1, so also of the 0 that stands for no data,
and nobody answers the empty segment that is then kept in the window.
-/

namespace Networks.Ctcp

/-- A segment the peer must acknowledge: it carries data or ends the stream. -/
def SegmentRef.Owed (object : SegmentRef) : Prop :=
  object.segment.data ≠ [] ∨ object.isFin

/-- All data and FINs queued so far have been taken off the window by an acknowledgement. -/
def CtcpState.AllAcked (state : CtcpState) : Prop :=
  ∀ object ∈ state.log.queued, object.Owed
    → ∃ removed ∈ state.log.acked, removed.address = object.address

/-- The window holds only what the peer must acknowledge, so that nothing is left in it, and
the retransmission limit is never reached, once all of that has been acknowledged.
-/
structure RetransmitsOwed (state : CtcpState) : Prop where
  window : ∀ node ∈ state.sw.segments, node.Owed
  emptied : state.AllAcked → state.sw.segments = []
  kept : state.AllAcked → ∀ env, (Call.timer env).run state ≠ .destroyed .unresponsive

/-- A call of `ctcp_read` to which `conn_input` returns 0. -/
def CtcpState.FindsNoData (state : CtcpState) : Call → Prop
  | .read _ offer => 0 < state.bufferSize ∧ connInput state.bufferSize offer = some []
  | .receive .. | .output _ | .timer _ => False

/-- Along the whole run only owed segments are kept for retransmission, and a `ctcp_read` that
finds no data changes nothing.
-/
structure SendsOwed (cfg : CtcpConfig) (calls : List Call) : Prop where
  states
    : ∀ done, done <+: calls → ∀ state, runFrom cfg done = some state → RetransmitsOwed state
  reads
    : ∀ done call rest state,
        calls = done ++ call :: rest → runFrom cfg done = some state
        → state.FindsNoData call → step state call = some state

-----------------------------------------------------------------------------------------
-- The objects of the window
-----------------------------------------------------------------------------------------

/-- The objects that acknowledgements took off the window, and those still in it. -/
def CtcpState.addresses (state : CtcpState) : List Nat :=
  (state.log.acked ++ state.sw.segments).map SegmentRef.address

/-- Every object of the window was queued and has not been taken off it. -/
structure Tracked (state : CtcpState) : Prop where
  queued
    : ∀ node ∈ state.sw.segments,
        ∃ object ∈ state.log.queued,
          object.address = node.address ∧ (object.Owed → node.Owed)
  distinct : state.addresses.Nodup
  allocated : ∀ address ∈ state.addresses, address < state.nextAddress

theorem ctcpInit_tracked (cfg : CtcpConfig) : Tracked (ctcpInit cfg) := by
  constructor <;> simp [ctcpInit, CtcpState.addresses]

@[simp] theorem SegmentRef.stamp_owed (ackno : UInt32) (object : SegmentRef)
    : (object.stamp ackno).Owed ↔ object.Owed := by
  simp only [Owed, isFin, stamp_data, stamp_flags]

section Tracking

variable {state next : CtcpState}

/-- What only the window and the queued and acknowledged objects decide. -/
theorem Tracked.same (tracked : Tracked state)
    (segments : next.sw.segments = state.sw.segments)
    (queued : next.log.queued = state.log.queued) (acked : next.log.acked = state.log.acked)
    (above : state.nextAddress ≤ next.nextAddress)
    : Tracked next := by
  have addresses : next.addresses = state.addresses := by
    rw [CtcpState.addresses, CtcpState.addresses, acked, segments]
  constructor
  · rw [segments, queued]
    exact tracked.queued
  · rw [addresses]
    exact tracked.distinct
  · rw [addresses]
    exact fun address member => Nat.lt_of_lt_of_le (tracked.allocated address member) above

/-- A newly allocated segment may be queued. -/
theorem Tracked.transmitNew (tracked : Tracked state) (now : Int) {object : SegmentRef}
    (new : object.address = state.nextAddress)
    : Tracked (state.transmitNew now object) := by
  have addresses
      : (state.transmitNew now object).addresses = state.addresses ++ [state.nextAddress] := by
    simp [CtcpState.addresses, CtcpState.transmitNew, new]
  constructor
  · intro node member
    rcases List.mem_append.mp member with old | last
    · obtain ⟨before, queued, same⟩ := tracked.queued node old
      exact ⟨before, List.mem_append_left _ queued, same⟩
    · rw [List.mem_singleton.mp last]
      exact ⟨object, List.mem_append_right _ (by simp), by simp⟩
  · rw [addresses, List.nodup_append]
    refine ⟨tracked.distinct, by simp, ?_⟩
    intro address old last isNew
    have below := tracked.allocated address old
    rw [List.mem_singleton.mp isNew]
    exact Nat.ne_of_lt below
  · intro address member
    rw [addresses] at member
    rcases List.mem_append.mp member with old | last
    · exact Nat.lt_succ_of_lt (tracked.allocated address old)
    · exact List.mem_singleton.mp last ▸ Nat.lt_succ_self _

/-- An acknowledgement moves objects from the window to the acknowledged ones. -/
theorem slide_addresses (now : Int) (segment : Segment) (state : CtcpState)
    : (state.slide now segment).addresses.Perm state.addresses := by
  apply List.Perm.map
  rw [CtcpState.slide, List.append_assoc]
  apply List.Perm.append_left
  exact List.filter_append_perm _ _

theorem Tracked.slide (tracked : Tracked state) (now : Int) (segment : Segment)
    : Tracked (state.slide now segment) := by
  have moved := slide_addresses now segment state
  constructor
  · exact fun node member => tracked.queued node (List.mem_of_mem_filter member)
  · exact moved.nodup_iff.mpr tracked.distinct
  · exact fun address member => tracked.allocated address (moved.mem_iff.mp member)

theorem Tracked.retransmit (tracked : Tracked state) (now : Int) {node : SegmentRef}
    {rest : List SegmentRef} (front : state.sw.segments = node :: rest)
    : Tracked (state.retransmit now node rest) := by
  have addresses : (state.retransmit now node rest).addresses = state.addresses := by
    simp [CtcpState.addresses, CtcpState.retransmit, front]
  constructor
  · intro other member
    rcases List.mem_cons.mp member with rfl | later
    · obtain ⟨object, queued, same, owed⟩ := tracked.queued node (by simp [front])
      exact ⟨object, queued, by simpa using same, by simpa using owed⟩
    · exact tracked.queued other (by simp [front, later])
  · exact addresses ▸ tracked.distinct
  · exact addresses ▸ tracked.allocated

theorem Update.tracked {effects : Effects} (update : Update effects state next)
    (tracked : Tracked state)
    : Tracked next := by
  cases update with
  | allocate | ack | finAck => exact tracked.same rfl rfl rfl (Nat.le_succ _)
  | window | arm | accept | keep => exact tracked.same rfl rfl rfl (Nat.le_refl _)
  | endInput now pad =>
      have ended : Tracked { state with log.inputEnded := true } :=
        tracked.same rfl rfl rfl (Nat.le_refl _)
      exact ended.transmitNew now rfl
  | queueFin now pad => exact tracked.transmitNew now rfl
  | queueData now pad bytes =>
      have queued : Tracked (state.transmitNew now (state.dataSegment pad bytes)) :=
        tracked.transmitNew now rfl
      exact queued.same rfl rfl rfl (Nat.le_refl _)
  | slide now segment => exact tracked.slide now segment
  | retransmit now node rest reading retransmits front => exact tracked.retransmit now front

/-- What is in the window has not been acknowledged. -/
theorem Tracked.not_acked (tracked : Tracked state) {node removed : SegmentRef}
    (inWindow : node ∈ state.sw.segments) (acked : removed ∈ state.log.acked)
    : removed.address ≠ node.address := by
  have distinct := tracked.distinct
  rw [CtcpState.addresses, List.map_append, List.nodup_append] at distinct
  exact distinct.2.2 _ (List.mem_map_of_mem acked) _ (List.mem_map_of_mem inWindow)

end Tracking

-----------------------------------------------------------------------------------------
-- Runs
-----------------------------------------------------------------------------------------

/-- Everything queued so far was owed. -/
structure QueuedOwed (state : CtcpState) : Prop where
  settled : Settled state
  tracked : Tracked state
  owed : ∀ object ∈ state.log.queued, object.Owed

/-- A connection that queued only owed segments retransmits only those. -/
theorem QueuedOwed.retransmitsOwed {state : CtcpState} (queued : QueuedOwed state)
    : RetransmitsOwed state := by
  have emptied : state.AllAcked → state.sw.segments = [] := by
    intro allAcked
    apply List.eq_nil_iff_forall_not_mem.mpr
    intro node member
    obtain ⟨object, isQueued, same, -⟩ := queued.tracked.queued node member
    obtain ⟨removed, acked, sameRemoved⟩ := allAcked object isQueued (queued.owed object isQueued)
    exact queued.tracked.not_acked member acked (sameRemoved.trans same)
  constructor
  · intro node member
    obtain ⟨object, isQueued, -, owed⟩ := queued.tracked.queued node member
    exact owed (queued.owed object isQueued)
  · exact emptied
  · intro allAcked env destroyed
    obtain ⟨_, same, stopped⟩ := Call.run_destroyed destroyed
    rcases timerCheck_error stopped with ⟨teardown, -⟩ | ⟨-, due, -⟩
    · cases teardown
    · simp only [CtcpState.retransDue, decide_eq_true_eq] at due
      exact queued.settled.timed due.1 (emptied allAcked)

/-- A call of `ctcp_read` that finds no data queues an empty segment. -/
theorem ctcpRead_noData {env : Env} {offer : Option (List UInt8)} {state : CtcpState}
    (settled : Settled state) (noData : state.FindsNoData (.read env offer))
    : ctcpRead env offer state
      = state.queueData (env.now 0) (env.pad 0) ⟨[], Nat.zero_le _⟩ := by
  obtain ⟨room, returned⟩ := noData
  rcases ctcpRead_cases env offer settled with
    ⟨full, -⟩ | ⟨-, ended, -⟩ | ⟨bytes, -, found, read⟩
  · exact absurd room (Int.not_lt.mpr full)
  · rw [ended] at returned
    cases returned
  · obtain rfl : bytes = ⟨[], Nat.zero_le _⟩ :=
      Subtype.ext (Option.some.inj (found.symm.trans returned))
    exact read

/-- The empty segment is not owed. -/
theorem dataSegment_not_owed (state : CtcpState) (pad : UInt16)
    : ¬ (state.dataSegment pad ⟨[], Nat.zero_le _⟩).Owed := by
  rintro (data | fin)
  · exact data rfl
  · have noFin : Mode.data.flags &&& thFin = 0 := by decide
    exact of_decide_eq_true fin noFin

/-- A call queues only owed segments, unless it finds no data. -/
theorem step_owed {state next : CtcpState} {call : Call} (queued : QueuedOwed state)
    (found : ¬ state.FindsNoData call) (taken : step state call = some next)
    : ∀ object ∈ next.log.queued, object.Owed := by
  have one : ∀ {added : SegmentRef},
      added.Owed → next.log.queued = state.log.queued ++ [added]
      → ∀ object ∈ next.log.queued, object.Owed := by
    intro added owed log object member
    rw [log] at member
    rcases List.mem_append.mp member with old | last
    · exact queued.owed object old
    · exact List.mem_singleton.mp last ▸ owed
  have updates := step_updates queued.settled taken
  cases call with
  | read env offer =>
      obtain rfl := Option.some.inj taken
      rcases ctcpRead_cases env offer queued.settled with
        ⟨-, same⟩ | ⟨-, -, ended⟩ | ⟨bytes, room, returned, read⟩
      · rw [same]
        exact queued.owed
      · apply one (Or.inr (newSegment_fin_isFin { state with log.inputEnded := true } (env.pad 0)))
        rw [ended]
        rfl
      · have carries : (state.dataSegment (env.pad 0) bytes).Owed := by
          refine Or.inl fun empty => found ⟨room, ?_⟩
          rw [returned]
          exact congrArg some empty
        apply one carries
        rw [read]
        rfl
  | receive env segment len =>
      rcases receive_queued queued.settled taken with ⟨-, fin, isFin, log⟩ | ⟨-, log⟩
      · exact one (Or.inr isFin) log
      · rw [log]
        exact queued.owed
  | output env | timer env =>
      rw [updates.queued_eq (fun impossible => impossible)]
      exact queued.owed

/-- A call that finds data, or does not read, leads on to owed segments only. -/
theorem QueuedOwed.step {state next : CtcpState} {call : Call} (queued : QueuedOwed state)
    (found : ¬ state.FindsNoData call) (taken : step state call = some next)
    : QueuedOwed next := by
  have updates := step_updates queued.settled taken
  exact {
    settled := Updates.settled updates queued.settled
    tracked :=
      updates.invariant (fun _ tracked update => update.tracked tracked) queued.settled
        queued.tracked
    owed := step_owed queued found taken }

/-- The window holds only owed segments after a call exactly if the call did not read and
find no data.
-/
theorem step_retransmitsOwed_iff {state : CtcpState} {call : Call} (queued : QueuedOwed state)
    : ¬ state.FindsNoData call
      ↔ ∀ next, step state call = some next → RetransmitsOwed next := by
  constructor
  · exact fun found next taken => (queued.step found taken).retransmitsOwed
  · intro keeps noData
    cases call with
    | receive | output | timer => exact noData
    | read env offer =>
        have owed := (keeps _ rfl).window
        rw [ctcpRead_noData queued.settled noData] at owed
        have added := owed _ (List.mem_append_right _ (List.mem_singleton_self _))
        exact dataSegment_not_owed state (env.pad 0) ((SegmentRef.stamp_owed _ _).mp added)

/-- Only segments the peer must acknowledge are retransmitted along a run exactly when no
`ctcp_read` of it that finds room in the window finds no data.
-/
theorem runFrom_sendsOwed_iff (cfg : CtcpConfig) (calls : List Call)
    : SendsOwed cfg calls
      ↔ StepRuns.AllSteps step (fun state call => ¬ state.FindsNoData call) (ctcpInit cfg)
          calls := by
  have start : QueuedOwed (ctcpInit cfg) :=
    ⟨ctcpInit_settled cfg, ctcpInit_tracked cfg, by simp [ctcpInit]⟩
  have always := @StepRuns.exec_always_iff _ _ step
    (fun state call => ¬ CtcpState.FindsNoData state call) QueuedOwed RetransmitsOwed _
    calls step_retransmitsOwed_iff QueuedOwed.step QueuedOwed.retransmitsOwed start
  constructor
  · exact fun sends => always.mp sends.states
  · intro found
    constructor
    · exact always.mpr found
    · intro done call rest state split reached noData
      have finds := StepRuns.allSteps_iff_reached.mp found done call rest state split reached
      exact absurd noData finds

/-- A connection reads once without finding data, and its timer runs out five times. -/
def idleCalls : List Call :=
  [.read (.steady 0 0) (some []), .timer (.steady 201 0), .timer (.steady 402 0),
    .timer (.steady 603 0), .timer (.steady 804 0), .timer (.steady 1005 0)]

/-- A connection that never had anything to send is torn down as unresponsive. -/
theorem idle_connection_destroyed
    : ¬ ∀ cfg calls, SendsOwed cfg calls := by
  intro always
  have reached : (runFrom defaultConfig idleCalls).isSome := by decide +kernel
  have idle : ∀ object ∈ ((runFrom defaultConfig idleCalls).get reached).log.queued,
      object.segment.data = [] ∧ object.isFin = false := by
    decide +kernel +revert
  have destroyed
      : (Call.timer (.steady 1206 0)).run ((runFrom defaultConfig idleCalls).get reached)
        = .destroyed .unresponsive := by
    decide +kernel +revert
  have kept :=
    ((always defaultConfig idleCalls).states idleCalls (List.prefix_refl _) _
      (Option.some_get reached).symm).kept
  refine kept ?_ _ destroyed
  intro object queued owed
  obtain ⟨empty, notFin⟩ := idle object queued
  rcases owed with data | fin
  · exact absurd empty data
  · rw [notFin] at fin
    cases fin

end Networks.Ctcp
