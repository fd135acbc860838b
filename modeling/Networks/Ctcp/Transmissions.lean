import Networks.Ctcp.Updates

/-! Every segment of the send window has been transmitted and is being timed. Each queued
object is transmitted by `ctcp_send` once, and by `ctcp_retrans` from then on.
-/

namespace Networks.Ctcp

/-- The transmissions of one object, oldest first. -/
def CtcpState.transmissionsOf (object : SegmentRef) (state : CtcpState)
    : List Transmission :=
  state.log.sent.filter (fun sent => sent.object.address == object.address)

/-- The transmissions of a queued object: one by `ctcp_send`, then only retransmissions. -/
def SentOnce : List Transmission → Prop
  | [] => False
  | first :: rest =>
      (∃ time, first.origin = .send time) ∧ ∀ later ∈ rest, ∃ time, later.origin = .retrans time

/-- A retransmission may always follow. -/
theorem SentOnce.retransmitted {history : List Transmission} (once : SentOnce history)
    (time : Int) (object : SegmentRef)
    : SentOnce (history ++ [⟨.retrans time, object⟩]) := by
  cases history with
  | nil => exact once.elim
  | cons first rest =>
      refine ⟨once.1, ?_⟩
      intro later member
      rcases List.mem_append.mp member with old | new
      · exact once.2 later old
      · exact ⟨time, by rw [List.mem_singleton.mp new]⟩

/-- What the send window owes to the transmission history. Addresses identify objects, and
all that are in use lie below the next one to be allocated.
-/
structure Transmitted (state : CtcpState) : Prop where
  timed : state.sw.timer ≠ -1 ↔ state.sw.segments ≠ []
  queued : ∀ node ∈ state.sw.segments, ∃ object ∈ state.log.queued, object.address = node.address
  once : ∀ object ∈ state.log.queued, SentOnce (state.transmissionsOf object)
  queuedBelow : ∀ object ∈ state.log.queued, object.address < state.nextAddress
  sentBelow : ∀ sent ∈ state.log.sent, sent.object.address < state.nextAddress

theorem ctcpInit_transmitted (cfg : CtcpConfig) : Transmitted (ctcpInit cfg) := by
  constructor <;> simp [ctcpInit]

/-- A transmission of one object is no transmission of another. -/
theorem transmissionsOf_other {state next : CtcpState} {object : SegmentRef}
    {sent : Transmission} (log : next.log.sent = state.log.sent ++ [sent])
    (other : sent.object.address ≠ object.address)
    : next.transmissionsOf object = state.transmissionsOf object := by
  simp [CtcpState.transmissionsOf, log, other]

/-- A transmission of an object extends the object's own transmissions. -/
theorem transmissionsOf_same {state next : CtcpState} {object : SegmentRef}
    {sent : Transmission} (log : next.log.sent = state.log.sent ++ [sent])
    (same : sent.object.address = object.address)
    : next.transmissionsOf object = state.transmissionsOf object ++ [sent] := by
  simp [CtcpState.transmissionsOf, log, same]

/-- An object that is still to be allocated has not been transmitted. -/
theorem Transmitted.transmissionsOf_new {state : CtcpState} (held : Transmitted state)
    {object : SegmentRef} (new : object.address = state.nextAddress)
    : state.transmissionsOf object = [] := by
  rw [CtcpState.transmissionsOf, List.filter_eq_nil_iff]
  intro sent member
  have below := held.sentBelow sent member
  simp only [beq_iff_eq]
  omega

/-- Sending one more object extends the bound on the transmitted addresses. -/
theorem Transmitted.sentBelow_append {state : CtcpState} (held : Transmitted state)
    {sent : Transmission} (new : sent.object.address = state.nextAddress)
    : ∀ other ∈ state.log.sent ++ [sent], other.object.address < state.nextAddress + 1 := by
  intro other member
  rcases List.mem_append.mp member with old | last
  · exact Nat.lt_succ_of_lt (held.sentBelow other old)
  · rw [List.mem_singleton.mp last, new]
    exact Nat.lt_succ_self _

/-- Building and sending an ACK or FIN-ACK transmits no queued object. -/
theorem Transmitted.answer {state : CtcpState} (held : Transmitted state) (pad : UInt16)
    (mode : Mode)
    : Transmitted (state.answer pad mode) := by
  refine ⟨held.timed, held.queued, ?_, ?_, held.sentBelow_append rfl⟩
  · intro object member
    have below := held.queuedBelow object member
    have sent : (state.answer pad mode).log.sent = state.log.sent ++ [_] := rfl
    rw [transmissionsOf_other sent (Nat.ne_of_gt below)]
    exact held.once object member
  · exact fun object member => Nat.lt_succ_of_lt (held.queuedBelow object member)

/-- A queued segment is new, so its transmission is its first. -/
theorem Transmitted.transmitNew {state : CtcpState} (held : Transmitted state) {now : Int}
    (object : SegmentRef) (reading : 0 ≤ now) (new : object.address = state.nextAddress)
    : Transmitted (state.transmitNew now object) := by
  have sent : (state.transmitNew now object).log.sent
      = state.log.sent ++ [⟨.send now, object.stamp state.acknoField⟩] := rfl
  have sameObject := object.stamp_address state.acknoField
  refine ⟨?_, ?_, ?_, ?_, held.sentBelow_append (sameObject.trans new)⟩
  · have started : now ≠ -1 := by omega
    have queued : state.sw.segments ++ [object.stamp state.acknoField] ≠ [] := by simp
    exact iff_of_true started queued
  · intro node member
    rcases List.mem_append.mp member with old | last
    · obtain ⟨origin, inLog, same⟩ := held.queued node old
      exact ⟨origin, List.mem_append_left _ inLog, same⟩
    · refine ⟨object, List.mem_append_right _ (by simp), ?_⟩
      rw [List.mem_singleton.mp last]
      exact sameObject.symm
  · intro other member
    rcases List.mem_append.mp member with old | last
    · have below := held.queuedBelow other old
      have differs : object.address ≠ other.address := by omega
      rw [transmissionsOf_other sent (sameObject.trans_ne differs)]
      exact held.once other old
    · obtain rfl := List.mem_singleton.mp last
      rw [transmissionsOf_same sent sameObject, held.transmissionsOf_new new]
      exact ⟨⟨now, rfl⟩, by simp⟩
  · intro other member
    rcases List.mem_append.mp member with old | last
    · exact Nat.lt_succ_of_lt (held.queuedBelow other old)
    · rw [List.mem_singleton.mp last, new]
      exact Nat.lt_succ_self _

/-- The retransmitted segment was queued, so it has been sent before. -/
theorem Transmitted.retransmit {state : CtcpState} (held : Transmitted state) {now : Int}
    (reading : 0 ≤ now) {node : SegmentRef} {next : List SegmentRef}
    (front : state.sw.segments = node :: next)
    : Transmitted (state.retransmit now node next) := by
  have inWindow : node ∈ state.sw.segments := by simp [front]
  obtain ⟨origin, inLog, sameOrigin⟩ := held.queued node inWindow
  have sent : (state.retransmit now node next).log.sent
      = state.log.sent ++ [⟨.retrans now, node.stamp state.acknoField⟩] := rfl
  have sameObject := node.stamp_address state.acknoField
  refine ⟨?_, ?_, ?_, held.queuedBelow, ?_⟩
  · have running : now ≠ -1 := by omega
    exact iff_of_true running (List.cons_ne_nil _ _)
  · intro other member
    rcases List.mem_cons.mp member with same | later
    · exact ⟨origin, inLog, by rw [same, sameObject, sameOrigin]⟩
    · exact held.queued other (by simp [front, later])
  · intro other member
    by_cases same : node.address = other.address
    · rw [transmissionsOf_same sent (sameObject.trans same)]
      exact (held.once other member).retransmitted now _
    · rw [transmissionsOf_other sent (sameObject.trans_ne same)]
      exact held.once other member
  · intro sent member
    rcases List.mem_append.mp member with old | last
    · exact held.sentBelow sent old
    · rw [List.mem_singleton.mp last, sameObject, ← sameOrigin]
      exact held.queuedBelow origin inLog

/-- Every update at a non-negative clock keeps the transmission history in order. -/
theorem Update.transmitted {effects : Effects} {state next : CtcpState}
    (clock : ∀ time, effects.clock time → 0 ≤ time) (held : Transmitted state)
    (update : Update effects state next)
    : Transmitted next := by
  cases update with
  | allocate =>
      exact ⟨held.timed, held.queued, held.once,
        fun object member => Nat.lt_succ_of_lt (held.queuedBelow object member),
        fun sent member => Nat.lt_succ_of_lt (held.sentBelow sent member)⟩
  | ack pad => exact held.answer pad .ack
  | finAck pad segment received isFin =>
      have noted : Transmitted { state with log.fins := state.log.fins ++ [segment] } :=
        ⟨held.timed, held.queued, held.once, held.queuedBelow, held.sentBelow⟩
      exact noted.answer pad .finAck
  | endInput now pad reading queues =>
      have noted : Transmitted { state with log.inputEnded := true } :=
        ⟨held.timed, held.queued, held.once, held.queuedBelow, held.sentBelow⟩
      exact noted.transmitNew _ (clock now reading) rfl
  | queueFin now pad reading queues => exact held.transmitNew _ (clock now reading) rfl
  | queueData now pad bytes reading queues room fits =>
      have sent := held.transmitNew (state.dataSegment pad bytes) (clock now reading) rfl
      exact ⟨sent.timed, sent.queued, sent.once, sent.queuedBelow, sent.sentBelow⟩
  | slide now segment node next reading received front acknowledged =>
      refine ⟨?_, ?_, held.once, held.queuedBelow, held.sentBelow⟩
      · have nonneg := clock now reading
        by_cases empty : state.unconfirmed segment = []
        · simp [CtcpState.slide, empty]
        · have running : now ≠ -1 := by omega
          simp [CtcpState.slide, empty, running]
      · exact fun node member => held.queued node (List.mem_of_mem_filter member)
  | retransmit now node next reading retransmits front running tries =>
      exact held.retransmit (clock now reading) front
  | window | arm | accept | keep =>
      exact ⟨held.timed, held.queued, held.once, held.queuedBelow, held.sentBelow⟩

/-- The retransmission timer runs exactly for a non-empty window, whose segments carry a
checksum and have been sent; and every object ever queued has been handed to `conn_send`
once by `ctcp_send`, every further time by `ctcp_retrans`.
-/
structure SentAndTimed (state : CtcpState) : Prop where
  timed : state.sw.timer ≠ -1 ↔ state.sw.segments ≠ []
  stamped : ∀ node ∈ state.sw.segments, node.segment.cksum ≠ 0
  sent
    : ∀ node ∈ state.sw.segments,
        ∃ sent ∈ state.log.sent, sent.object.address = node.address
  windowQueued
    : ∀ node ∈ state.sw.segments, ∃ object ∈ state.log.queued, object.address = node.address
  queuedOnce : ∀ object ∈ state.log.queued, SentOnce (state.transmissionsOf object)

/-- Nothing in the send window is left unsent or untimed, in every state a run reaches while
the clock reads no negative time.
-/
theorem runFrom_sentAndTimed {cfg : CtcpConfig} {calls : List Call} {state : CtcpState}
    (readings : ∀ call ∈ calls, ∀ site, 0 ≤ call.env.now site)
    (reached : runFrom cfg calls = some state)
    : SentAndTimed state := by
  have kept : ∀ {call : Call} {state next : CtcpState}, (∀ site, 0 ≤ call.env.now site)
      → Settled state → Transmitted state → Update call.effects state next
      → Transmitted next := by
    intro call state next nonneg _ held update
    refine update.transmitted ?_ held
    rintro time ⟨site, rfl⟩
    exact nonneg site
  obtain ⟨settled, held⟩ :=
    runFrom_invariant _ Transmitted kept (ctcpInit_transmitted cfg) readings reached
  refine ⟨held.timed, settled.stamped, ?_, held.queued, held.once⟩
  intro node member
  obtain ⟨object, inLog, same⟩ := held.queued node member
  have once := held.once object inLog
  cases history : state.transmissionsOf object with
  | nil => exact (history ▸ once : SentOnce []).elim
  | cons first rest =>
      have inHistory : first ∈ state.transmissionsOf object := by simp [history]
      obtain ⟨inSent, sameAddress⟩ := List.mem_filter.mp inHistory
      exact ⟨first, inSent, (beq_iff_eq.mp sameAddress).trans same⟩

/-- The history of one byte: sent, then sent again by the timer. -/
theorem runFrom_sentAndTimed_timedOutByte
    : ∃ state, runFrom defaultConfig timedOutByte = some state ∧ SentAndTimed state := by
  have reached : (runFrom defaultConfig timedOutByte).isSome := by decide +kernel
  exact ⟨_, (Option.some_get reached).symm,
    runFrom_sentAndTimed (by simp [timedOutByte, Call.env, Env.steady])
      (Option.some_get reached).symm⟩

end Networks.Ctcp
