import Networks.Ctcp.Acknowledgements
import Networks.Ctcp.Transmissions
import Mathlib.Data.List.Chain

/-! The limit on retransmissions. `retrans_counter` and the timer belong to the connection, not
to a segment: they count and time the first segment of the send window as long as nothing
resets them while it stays there.
-/

namespace Networks.Ctcp

/-- The clock reading with which a queued segment was handed to `conn_send`. -/
def Origin.time? : Origin → Option Int
  | .makeseg => none
  | .send time | .retrans time => some time

/-- Whether a segment was handed to `conn_send` by `ctcp_retrans`. -/
def Origin.isRetrans : Origin → Bool
  | .retrans _ => true
  | .makeseg | .send _ => false

/-- The retransmissions of one object, oldest first. -/
def CtcpState.retransmissionsOf (object : SegmentRef) (state : CtcpState) : List Transmission :=
  (state.transmissionsOf object).filter (fun sent => sent.origin.isRetrans)

/-- The second transmission happened more than the timeout after the first. -/
def MoreThanApart (timeout : Int) (first second : Transmission) : Prop :=
  ∃ before after,
    first.origin.time? = some before ∧ second.origin.time? = some after
    ∧ timeout < after - before

/-- Retransmissions are limited: at most five for each segment, each more than the timeout after
the transmission before, and when the first segment of the window has had five and the
timeout has passed once more, `ctcp_timer` destroys the connection.
-/
structure RetransmissionsLimited (cfg : CtcpConfig) (state : CtcpState) : Prop where
  atMostFive : ∀ object, (state.retransmissionsOf object).length ≤ 5
  spaced : ∀ object, (state.transmissionsOf object).IsChain (MoreThanApart cfg.rtTimeout)
  givesUp
    : ∀ front ∈ state.sw.segments.head?,
        (state.retransmissionsOf front).length = 5
        → ∀ last ∈ (state.transmissionsOf front).getLast?,
            ∀ time,
              last.origin.time? = some time
              → ∀ env : Env,
                  cfg.rtTimeout < env.now 1 - time
                  → ∃ cause, (Call.timer env).run state = .destroyed cause

/-- Later call sites read no earlier time. -/
def Forward (now : Nat → Int) : Prop :=
  ∀ ⦃first second⦄, first ≤ second → now first ≤ now second

/-- `current_time` reads no negative time, and never a time before one it has read, whether in
the same call or in one before.
-/
structure Clocked (calls : List Call) : Prop where
  nonneg : ∀ call ∈ calls, ∀ site, 0 ≤ call.env.now site
  within : ∀ call ∈ calls, Forward call.env.now
  forward
    : calls.Pairwise fun earlier later =>
        ∀ first second, earlier.env.now first ≤ later.env.now second

/-- Once the first segment has been retransmitted, the counter is reset only when it leaves the
window: `ctcp_read` finds no room, no FIN is answered by an own one, and no ACK covers the
first segment without confirming it.
-/
def KeepsCount (state : CtcpState) (call : Call) : Prop :=
  0 < state.sw.retransCounter
  → match call with
    | .read _ _ => state.bufferSize ≤ 0
    | .receive _ segment len =>
        checksum segment → Bare len
        → ¬ state.ReturnsFin segment
          ∧ (segment.acks
            → ∀ front ∈ state.sw.segments.head?,
                acknowledgesFront segment front → confirmed segment.receivedAckno front)
    | .output _ | .timer _ => True

-----------------------------------------------------------------------------------------
-- The invariant
-----------------------------------------------------------------------------------------

/-- The counter counts the retransmissions of the first segment, of which the last was at the
time in the timer; the segments behind it have been sent, but not again.
-/
structure Counted (state : CtcpState) : Prop where
  sentBelow : ∀ sent ∈ state.log.sent, sent.object.address < state.nextAddress
  windowBelow : ∀ node ∈ state.sw.segments, node.address < state.nextAddress
  distinct : state.sw.segments.Pairwise (fun node other => node.address ≠ other.address)
  front
    : ∀ front ∈ state.sw.segments.head?,
        ((state.retransmissionsOf front).length : Int) = state.sw.retransCounter
  behind : ∀ other ∈ state.sw.segments.tail, state.retransmissionsOf other = []
  limit : ∀ object, (state.retransmissionsOf object).length ≤ 5
  spaced : ∀ object, (state.transmissionsOf object).IsChain (MoreThanApart state.timeoutStandard)
  since
    : ∀ node ∈ state.sw.segments,
        ∃ last ∈ (state.transmissionsOf node).getLast?,
          ∃ time, last.origin.time? = some time ∧ time ≤ state.sw.timer
  latest
    : 0 < state.sw.retransCounter
      → ∀ front ∈ state.sw.segments.head?,
          ∃ last ∈ (state.transmissionsOf front).getLast?,
            last.origin.time? = some state.sw.timer

/-- Every transmission so far was not after a time. -/
def SentBy (time : Int) (state : CtcpState) : Prop :=
  ∀ sent ∈ state.log.sent, ∀ before, sent.origin.time? = some before → before ≤ time

theorem SentBy.mono {state : CtcpState} {time later : Int} (past : SentBy time state)
    (forward : time ≤ later)
    : SentBy later state :=
  fun sent member before reading => Int.le_trans (past sent member before reading) forward

theorem ctcpInit_counted (cfg : CtcpConfig) : Counted (ctcpInit cfg) := by
  constructor <;> simp [ctcpInit, CtcpState.retransmissionsOf, CtcpState.transmissionsOf]

section Counting

variable {state next : CtcpState}

/-- What only the transmissions, the window and its counter and timer decide. -/
theorem Counted.same (counted : Counted state) (sent : next.log.sent = state.log.sent)
    (segments : next.sw.segments = state.sw.segments) (timer : next.sw.timer = state.sw.timer)
    (counter : next.sw.retransCounter = state.sw.retransCounter)
    (timeout : next.timeoutStandard = state.timeoutStandard)
    (above : state.nextAddress ≤ next.nextAddress)
    : Counted next := by
  have transmissions : ∀ object, next.transmissionsOf object = state.transmissionsOf object := by
    intro object
    rw [CtcpState.transmissionsOf, CtcpState.transmissionsOf, sent]
  have retransmissions : ∀ object,
      next.retransmissionsOf object = state.retransmissionsOf object := by
    intro object
    rw [CtcpState.retransmissionsOf, CtcpState.retransmissionsOf, transmissions]
  constructor
  · exact fun other member => Nat.lt_of_lt_of_le (counted.sentBelow other (sent ▸ member)) above
  · exact fun other member =>
      Nat.lt_of_lt_of_le (counted.windowBelow other (segments ▸ member)) above
  · exact segments ▸ counted.distinct
  · intro front isFront
    rw [retransmissions, counter]
    exact counted.front front (segments ▸ isFront)
  · intro other member
    rw [retransmissions]
    exact counted.behind other (segments ▸ member)
  · intro object
    rw [retransmissions]
    exact counted.limit object
  · intro object
    rw [transmissions, timeout]
    exact counted.spaced object
  · intro node member
    rw [transmissions, timer]
    exact counted.since node (segments ▸ member)
  · intro running front isFront
    rw [transmissions, timer]
    exact counted.latest (counter ▸ running) front (segments ▸ isFront)

/-- What has not been sent has no transmissions. -/
theorem Counted.transmissionsOf_new (counted : Counted state) {object : SegmentRef}
    (new : object.address = state.nextAddress)
    : state.transmissionsOf object = [] := by
  rw [CtcpState.transmissionsOf, List.filter_eq_nil_iff]
  intro sent member
  have below := counted.sentBelow sent member
  simp only [beq_iff_eq]
  omega

/-- Sending a new object leaves every object with its transmissions, or gives it its first. -/
theorem Counted.transmissionsOf_sent (counted : Counted state) {sent : Transmission}
    (log : next.log.sent = state.log.sent ++ [sent])
    (new : sent.object.address = state.nextAddress) (object : SegmentRef)
    : (object.address ≠ sent.object.address
        ∧ next.transmissionsOf object = state.transmissionsOf object)
      ∨ (state.transmissionsOf object = [] ∧ next.transmissionsOf object = [sent]) := by
  by_cases same : object.address = sent.object.address
  · have none := counted.transmissionsOf_new (same.trans new)
    refine Or.inr ⟨none, ?_⟩
    rw [transmissionsOf_same log same.symm, none, List.nil_append]
  · exact Or.inl ⟨same, transmissionsOf_other log (Ne.symm same)⟩

theorem retransmissionsOf_of_same {object : SegmentRef}
    (same : next.transmissionsOf object = state.transmissionsOf object)
    : next.retransmissionsOf object = state.retransmissionsOf object := by
  rw [CtcpState.retransmissionsOf, CtcpState.retransmissionsOf, same]

/-- A new object is not sent by `ctcp_retrans`, and limits and distances stay. -/
theorem Counted.limit_sent (counted : Counted state) {sent : Transmission}
    (log : next.log.sent = state.log.sent ++ [sent])
    (new : sent.object.address = state.nextAddress) (first : sent.origin.isRetrans = false)
    (timeout : next.timeoutStandard = state.timeoutStandard) (object : SegmentRef)
    : (next.retransmissionsOf object).length ≤ 5
      ∧ (next.transmissionsOf object).IsChain (MoreThanApart next.timeoutStandard) := by
  rcases counted.transmissionsOf_sent log new object with ⟨-, same⟩ | ⟨-, only⟩
  · rw [retransmissionsOf_of_same same, same, timeout]
    exact ⟨counted.limit object, counted.spaced object⟩
  · rw [CtcpState.retransmissionsOf, only]
    simp [first]

/-- Objects that are in the window already keep their transmissions when a new one is sent. -/
theorem Counted.transmissionsOf_window (counted : Counted state) {sent : Transmission}
    (log : next.log.sent = state.log.sent ++ [sent])
    (new : sent.object.address = state.nextAddress)
    : ∀ node ∈ state.sw.segments, next.transmissionsOf node = state.transmissionsOf node := by
  intro node member
  have below := counted.windowBelow node member
  exact transmissionsOf_other log (by omega)

theorem Counted.sentBelow_append (counted : Counted state) {sent : Transmission}
    (new : sent.object.address = state.nextAddress)
    : ∀ other ∈ state.log.sent ++ [sent], other.object.address < state.nextAddress + 1 := by
  intro other member
  rcases List.mem_append.mp member with old | last
  · exact Nat.lt_succ_of_lt (counted.sentBelow other old)
  · rw [List.mem_singleton.mp last, new]
    exact Nat.lt_succ_self _

/-- An ACK or FIN-ACK is a new object outside of the window. -/
theorem Counted.answer (counted : Counted state) (pad : UInt16) (mode : Mode)
    : Counted (state.answer pad mode) := by
  have log : (state.answer pad mode).log.sent = state.log.sent ++ [_] := rfl
  have window := counted.transmissionsOf_window log rfl
  have retrans : ∀ node ∈ state.sw.segments,
      (state.answer pad mode).retransmissionsOf node = state.retransmissionsOf node :=
    fun node member => retransmissionsOf_of_same (window node member)
  constructor
  · exact counted.sentBelow_append rfl
  · exact fun node member => Nat.lt_succ_of_lt (counted.windowBelow node member)
  · exact counted.distinct
  · intro front isFront
    rw [retrans front (List.mem_of_mem_head? isFront)]
    exact counted.front front isFront
  · intro other member
    rw [retrans other (List.mem_of_mem_tail member)]
    exact counted.behind other member
  · exact fun object => (counted.limit_sent log rfl rfl rfl object).1
  · exact fun object => (counted.limit_sent log rfl rfl rfl object).2
  · intro node member
    rw [window node member]
    exact counted.since node member
  · intro running front isFront
    rw [window front (List.mem_of_mem_head? isFront)]
    exact counted.latest running front isFront

/-- With the counter at zero, no segment of the window has been sent again. -/
theorem Counted.unsent (counted : Counted state) (fresh : ¬ 0 < state.sw.retransCounter)
    : ∀ node ∈ state.sw.segments, state.retransmissionsOf node = [] := by
  intro node member
  cases window : state.sw.segments with
  | nil => simp [window] at member
  | cons front rest =>
      rw [window] at member
      rcases List.mem_cons.mp member with rfl | later
      · have count := counted.front node (by simp [window])
        exact List.length_eq_zero_iff.mp (by omega)
      · exact counted.behind node (by simpa [window] using later)

/-- The last transmission of a segment in the window was not after a time that none was after. -/
theorem Counted.since_of_sentBy (counted : Counted state) {now : Int} (past : SentBy now state)
    : ∀ node ∈ state.sw.segments,
        ∃ last ∈ (state.transmissionsOf node).getLast?,
          ∃ time, last.origin.time? = some time ∧ time ≤ now := by
  intro node member
  obtain ⟨last, isLast, time, reading, -⟩ := counted.since node member
  have sent := (List.mem_filter.mp (List.mem_of_mem_getLast? isLast)).1
  exact ⟨last, isLast, time, reading, past last sent time reading⟩

/-- A new segment may be queued while the first has not been retransmitted. -/
theorem Counted.transmitNew (counted : Counted state) {now : Int} (object : SegmentRef)
    (new : object.address = state.nextAddress) (past : SentBy now state)
    (fresh : ¬ 0 < state.sw.retransCounter)
    : Counted (state.transmitNew now object) := by
  have sameObject := object.stamp_address state.acknoField
  have log : (state.transmitNew now object).log.sent
      = state.log.sent ++ [⟨.send now, object.stamp state.acknoField⟩] := rfl
  have stampedNew : (object.stamp state.acknoField).address = state.nextAddress :=
    sameObject.trans new
  have window := counted.transmissionsOf_window log stampedNew
  have only : (state.transmitNew now object).transmissionsOf (object.stamp state.acknoField)
      = [⟨.send now, object.stamp state.acknoField⟩] := by
    rw [transmissionsOf_same log rfl, counted.transmissionsOf_new stampedNew, List.nil_append]
  have unsent : ∀ node ∈ state.sw.segments ++ [object.stamp state.acknoField],
      (state.transmitNew now object).retransmissionsOf node = [] := by
    intro node member
    rcases List.mem_append.mp member with old | last
    · rw [retransmissionsOf_of_same (window node old)]
      exact counted.unsent fresh node old
    · rw [List.mem_singleton.mp last, CtcpState.retransmissionsOf, only]
      rfl
  constructor
  · exact counted.sentBelow_append stampedNew
  · intro node member
    rcases List.mem_append.mp member with old | last
    · exact Nat.lt_succ_of_lt (counted.windowBelow node old)
    · rw [List.mem_singleton.mp last, stampedNew]
      exact Nat.lt_succ_self _
  · refine List.pairwise_append.mpr ⟨counted.distinct, List.pairwise_singleton _ _, ?_⟩
    intro node old last isNew
    have below := counted.windowBelow node old
    rw [List.mem_singleton.mp isNew, stampedNew]
    exact Nat.ne_of_lt below
  · intro front isFront
    rw [unsent front (List.mem_of_mem_head? isFront)]
    rfl
  · exact fun other member => unsent other (List.mem_of_mem_tail member)
  · exact fun other => (counted.limit_sent log stampedNew rfl rfl other).1
  · exact fun other => (counted.limit_sent log stampedNew rfl rfl other).2
  · intro node member
    rcases List.mem_append.mp member with old | last
    · rw [window node old]
      exact counted.since_of_sentBy past node old
    · rw [List.mem_singleton.mp last, only]
      exact ⟨_, rfl, now, rfl, Int.le_refl now⟩
  · exact fun running => absurd running (Int.lt_irrefl 0)

/-- The window slides while the first segment has not been retransmitted, or is taken off. -/
theorem Counted.slide (counted : Counted state) {now : Int} {segment : Segment}
    (past : SentBy now state)
    (removed
      : 0 < state.sw.retransCounter
        → ∀ front ∈ state.sw.segments.head?, confirmed segment.receivedAckno front)
    : Counted (state.slide now segment) := by
  have unsent : ∀ node ∈ state.unconfirmed segment, state.retransmissionsOf node = [] := by
    intro node member
    obtain ⟨old, stays⟩ := List.mem_filter.mp member
    by_cases running : 0 < state.sw.retransCounter
    · cases window : state.sw.segments with
      | nil => simp [window] at old
      | cons front rest =>
          have gone := removed running front (by simp [window])
          rw [window] at old
          rcases List.mem_cons.mp old with rfl | later
          · simp [gone] at stays
          · exact counted.behind node (by simpa [window] using later)
    · exact counted.unsent running node old
  constructor
  · exact counted.sentBelow
  · exact fun node member => counted.windowBelow node (List.mem_of_mem_filter member)
  · exact counted.distinct.sublist List.filter_sublist
  · intro front isFront
    have none := unsent front (List.mem_of_mem_head? isFront)
    exact congrArg (fun list => (list.length : Int)) none
  · exact fun other member => unsent other (List.mem_of_mem_tail member)
  · exact counted.limit
  · exact counted.spaced
  · intro node member
    have inside : node ∈ state.unconfirmed segment := member
    have some : (state.unconfirmed segment).isEmpty = false := by
      simpa using List.ne_nil_of_mem inside
    have timer : (state.slide now segment).sw.timer = now := by
      rw [CtcpState.slide, some]
      rfl
    rw [timer]
    exact counted.since_of_sentBy past node (List.mem_of_mem_filter member)
  · exact fun running => absurd running (Int.lt_irrefl 0)

/-- The first segment is sent once more. -/
theorem transmissionsOf_again {now : Int} {node object : SegmentRef} {rest : List SegmentRef}
    (same : node.address = object.address)
    : (state.retransmit now node rest).transmissionsOf object
      = state.transmissionsOf node ++ [⟨.retrans now, node.stamp state.acknoField⟩] := by
  have log : (state.retransmit now node rest).log.sent
      = state.log.sent ++ [⟨.retrans now, node.stamp state.acknoField⟩] := rfl
  have sameAs : state.transmissionsOf object = state.transmissionsOf node := by
    rw [CtcpState.transmissionsOf, CtcpState.transmissionsOf, same]
  rw [transmissionsOf_same log ((node.stamp_address _).trans same), sameAs]

theorem retransmissionsOf_again {now : Int} {node object : SegmentRef} {rest : List SegmentRef}
    (same : node.address = object.address)
    : ((state.retransmit now node rest).retransmissionsOf object).length
      = (state.retransmissionsOf node).length + 1 := by
  rw [CtcpState.retransmissionsOf, transmissionsOf_again same, List.filter_append,
    List.length_append, CtcpState.retransmissionsOf]
  simp [Origin.isRetrans]

/-- No other segment is sent with the first one. -/
theorem transmissionsOf_not_again {now : Int} {node object : SegmentRef} {rest : List SegmentRef}
    (apart : node.address ≠ object.address)
    : (state.retransmit now node rest).transmissionsOf object = state.transmissionsOf object := by
  have log : (state.retransmit now node rest).log.sent
      = state.log.sent ++ [⟨.retrans now, node.stamp state.acknoField⟩] := rfl
  exact transmissionsOf_other log ((node.stamp_address _).trans_ne apart)

/-- The first segment is sent again no sooner than a timeout after its last transmission. -/
theorem Counted.spaced_retransmit (counted : Counted state) {now : Int} {node : SegmentRef}
    {rest : List SegmentRef} (inWindow : node ∈ state.sw.segments)
    (due : state.timeoutStandard < now - state.sw.timer) (object : SegmentRef)
    : ((state.retransmit now node rest).transmissionsOf object).IsChain
        (MoreThanApart state.timeoutStandard) := by
  by_cases same : node.address = object.address
  · rw [transmissionsOf_again same]
    refine List.isChain_append.mpr ⟨counted.spaced node, List.isChain_singleton _, ?_⟩
    intro last isLast first isFirst
    obtain rfl := Option.some.inj (Option.mem_def.mp isFirst)
    obtain ⟨latest, isLatest, time, reading, before⟩ := counted.since node inWindow
    obtain rfl := Option.some.inj (Eq.trans (Eq.symm isLatest) isLast)
    exact ⟨time, now, reading, rfl, Int.lt_of_lt_of_le due (by omega)⟩
  · rw [transmissionsOf_not_again same]
    exact counted.spaced object

/-- The first segment is sent again when the timeout has passed, unless it was five times. -/
theorem Counted.retransmit (counted : Counted state) {now : Int} {node : SegmentRef}
    {rest : List SegmentRef} (window : state.sw.segments = node :: rest)
    (past : SentBy now state) (due : state.timeoutStandard < now - state.sw.timer)
    (tries : state.sw.retransCounter < 5)
    : Counted (state.retransmit now node rest) := by
  have sameObject := node.stamp_address state.acknoField
  have isFront : node ∈ state.sw.segments.head? := by simp [window]
  have inWindow := List.mem_of_mem_head? isFront
  have count := counted.front node isFront
  have distinct := counted.distinct
  rw [window] at distinct
  obtain ⟨apart, distinctRest⟩ := List.pairwise_cons.mp distinct
  have others : ∀ other ∈ rest,
      (state.retransmit now node rest).transmissionsOf other = state.transmissionsOf other :=
    fun other member => transmissionsOf_not_again (apart other member)
  constructor
  · intro sent member
    rcases List.mem_append.mp member with old | last
    · exact counted.sentBelow sent old
    · rw [List.mem_singleton.mp last, sameObject]
      exact counted.windowBelow node inWindow
  · intro other member
    rcases List.mem_cons.mp member with rfl | later
    · rw [sameObject]
      exact counted.windowBelow node inWindow
    · exact counted.windowBelow other (by simp [window, later])
  · refine List.pairwise_cons.mpr ⟨fun other member => ?_, distinctRest⟩
    rw [sameObject]
    exact apart other member
  · intro front frontNew
    obtain rfl := Option.some.inj (Option.mem_def.mp frontNew)
    rw [retransmissionsOf_again sameObject.symm, Nat.cast_add, count]
    rfl
  · intro other member
    have later : other ∈ rest := member
    rw [retransmissionsOf_of_same (others other later)]
    exact counted.behind other (by rw [window]; exact later)
  · intro object
    by_cases same : node.address = object.address
    · have bound := counted.limit node
      rw [retransmissionsOf_again same]
      omega
    · rw [retransmissionsOf_of_same (transmissionsOf_not_again same)]
      exact counted.limit object
  · exact counted.spaced_retransmit inWindow due
  · intro other member
    rcases List.mem_cons.mp member with rfl | later
    · rw [transmissionsOf_again sameObject.symm]
      exact ⟨_, List.getLast?_concat, now, rfl, Int.le_refl now⟩
    · rw [others other later]
      exact counted.since_of_sentBy past other (by simp [window, later])
  · intro _ front frontNew
    obtain rfl := Option.some.inj (Option.mem_def.mp frontNew)
    rw [transmissionsOf_again sameObject.symm]
    exact ⟨_, List.getLast?_concat, rfl⟩

end Counting

-----------------------------------------------------------------------------------------
-- Updates and calls
-----------------------------------------------------------------------------------------

/-- The effects of a handler that stores no clock reading: it queues, retransmits and slides
nothing.
-/
def Effects.untimed : Effects where
  clock := fun _ => False
  received := fun _ => True
  queues := False
  retransmits := False
  delivers := True

theorem Update.counted {state next : CtcpState} (update : Update .untimed state next)
    (counted : Counted state)
    : Counted next := by
  cases update with
  | allocate => exact counted.same rfl rfl rfl rfl rfl (Nat.le_succ _)
  | window | arm | accept | keep => exact counted.same rfl rfl rfl rfl rfl (Nat.le_refl _)
  | ack pad => exact counted.answer pad .ack
  | finAck pad segment received isFin =>
      have noted : Counted { state with log.fins := state.log.fins ++ [segment] } :=
        counted.same rfl rfl rfl rfl rfl (Nat.le_refl _)
      exact noted.answer pad .finAck
  | endInput now pad reading | queueFin now pad reading | queueData now pad bytes reading =>
      exact reading.elim
  | slide now segment node rest reading => exact reading.elim
  | retransmit now node rest reading => exact reading.elim

theorem Updates.counted {state next : CtcpState} (updates : Updates .untimed state next)
    (counted : Counted state)
    : Counted next := by
  induction updates with
  | refl => exact counted
  | tail _ update ih => exact update.counted ih

/-- An update logs transmissions at the clock readings it stores. -/
theorem Update.sentBy {effects : Effects} {state next : CtcpState} {time : Int}
    (update : Update effects state next) (clock : ∀ reading, effects.clock reading → reading ≤ time)
    (past : SentBy time state)
    : SentBy time next := by
  have append : ∀ {sent : Transmission}, (∀ before, sent.origin.time? = some before → before ≤ time)
      → ∀ other ∈ state.log.sent ++ [sent], ∀ before,
          other.origin.time? = some before → before ≤ time := by
    intro sent new other member
    rcases List.mem_append.mp member with old | last
    · exact past other old
    · rw [List.mem_singleton.mp last]
      exact new
  have stored : ∀ {reading : Int}, effects.clock reading
      → ∀ before, some reading = some before → before ≤ time := by
    intro reading stores before same
    exact Option.some.inj same ▸ clock reading stores
  cases update with
  | ack | finAck => exact append (by simp [Origin.time?])
  | endInput now pad reading | queueFin now pad reading | queueData now pad bytes reading =>
      exact append (stored reading)
  | retransmit now node rest reading => exact append (stored reading)
  | allocate | window | arm | accept | keep | slide => exact past

theorem Updates.sentBy {effects : Effects} {state next : CtcpState} {time : Int}
    (updates : Updates effects state next)
    (clock : ∀ reading, effects.clock reading → reading ≤ time) (past : SentBy time state)
    : SentBy time next := by
  induction updates with
  | refl => exact past
  | tail _ update ih => exact update.sentBy clock ih

theorem Update.timeoutStandard {effects : Effects} {state next : CtcpState}
    (update : Update effects state next)
    : next.timeoutStandard = state.timeoutStandard := by
  cases update <;> rfl

section Calls

variable {env : Env} {segment : Segment} {len : Nat} {state next : CtcpState}

theorem noted_updates (segment : Segment) (state : CtcpState)
    : Updates .untimed state (state.noted segment) :=
  (Updates.one .allocate).tail (.window segment.cleared trivial)

/-- A FIN is noted and answered without a clock reading. -/
theorem finNoted_updates (env : Env) (state : CtcpState)
    (finBit : segment.flags &&& thFin ≠ 0)
    : Updates .untimed state (state.finNoted env segment) := by
  have isFin : segment.cleared.flags &&& thFin ≠ 0 := by
    rw [Segment.cleared_flags]
    exact finBit
  exact (noted_updates segment state).tail (.finAck (env.pad 0) segment.cleared trivial isFin)

theorem Counted.queueFin (counted : Counted state) {now : Int} (pad : UInt16)
    (past : SentBy now state) (fresh : ¬ 0 < state.sw.retransCounter)
    : Counted (state.queueFin now pad) :=
  counted.transmitNew _ rfl past fresh

/-- The branches for FINs and FIN-ACKs keep the count unless an own FIN is queued too late. -/
theorem Counted.reacted (counted : Counted state) (env : Env) (segment : Segment)
    (past : SentBy (env.now 0) state)
    (fresh : state.ReturnsFin segment → ¬ 0 < state.sw.retransCounter)
    : Counted (state.reacted env segment) := by
  rw [CtcpState.reacted]
  split
  · next finBit =>
      have updates := finNoted_updates env state finBit
      split
      · next stopped =>
          exact (updates.counted counted).queueFin _
            (updates.sentBy (fun _ impossible => impossible.elim) past) (fresh ⟨finBit, stopped⟩)
      · exact updates.counted counted
  · have noted := (noted_updates segment state).counted counted
    split
    · exact noted.same rfl rfl rfl rfl rfl (Nat.le_refl _)
    · exact noted

theorem SentBy.reacted {time : Int} (past : SentBy time state) (segment : Segment)
    (reading : env.now 0 ≤ time)
    : SentBy time (state.reacted env segment) := by
  rw [CtcpState.reacted]
  split
  · next finBit =>
      have noted := (finNoted_updates env state finBit).sentBy
        (fun _ impossible => impossible.elim) past
      split
      · have queued : Update { Effects.any with clock := (· ≤ time) } (state.finNoted env segment)
            ((state.finNoted env segment).queueFin (env.now 0) (env.pad 1)) :=
          .queueFin _ _ reading trivial
        exact queued.sentBy (fun _ stored => stored) noted
      · exact noted
  · split <;> exact past

/-- Only queueing an own FIN resets the counter before the ACK branch. -/
theorem reacted_counter (env : Env) (segment : Segment)
    (running : 0 < (state.reacted env segment).sw.retransCounter)
    : ¬ state.ReturnsFin segment ∧ 0 < state.sw.retransCounter
      ∧ (state.reacted env segment).sw.segments = state.sw.segments := by
  rw [CtcpState.reacted] at running ⊢
  split
  · next finBit =>
      rw [if_pos finBit] at running
      split
      · next stopped =>
          rw [if_pos stopped] at running
          exact absurd running (Int.lt_irrefl 0)
      · next started =>
          rw [if_neg started] at running
          exact ⟨fun returns => started returns.2, running, rfl⟩
  · next noFin =>
      rw [if_neg noFin] at running
      refine ⟨fun returns => noFin returns.1, ?_⟩
      split
      · next none =>
          rw [if_pos none] at running
          exact ⟨running, rfl⟩
      · next some =>
          rw [if_neg some] at running
          exact ⟨running, rfl⟩

/-- A bare segment keeps the count. -/
theorem receive_of_bare_counted (settled : Settled state) (counted : Counted state)
    (forward : Forward env.now) (past : SentBy (env.now 0) state)
    (keeps : KeepsCount state (.receive env segment len)) (verified : checksum segment)
    (bare : Bare len) (taken : step state (.receive env segment len) = some next)
    : Counted next := by
  have reacted := counted.reacted env segment past fun returns running =>
    (keeps running verified bare).1 returns
  rw [receive_of_bare env settled verified bare] at taken
  split at taken
  · next acks =>
      have settledNow := settled.reacted env segment
      obtain rfl := Option.some.inj taken
      rcases receivedAck_cases env segment.cleared settledNow with
        same | ⟨front, rest, window, covered, slid⟩
      · rw [same]
        exact reacted
      · rw [slid]
        refine reacted.slide ?_ ?_
        · have later := past.mono (forward (Nat.zero_le 2))
          exact later.reacted segment (forward (Nat.zero_le 2))
        · intro running other isFront
          obtain ⟨-, before, sameWindow⟩ := reacted_counter env segment running
          have same : front = other := by simpa [window] using isFront
          rw [sameWindow] at isFront
          rw [Segment.cleared_receivedAckno]
          rw [same, acknowledgesFront_cleared] at covered
          exact (keeps before verified bare).2 acks other isFront covered
  · exact Option.some.inj taken ▸ reacted

/-- A call keeps the count when it meets the condition, and the clock does not go back. -/
theorem step_counted {call : Call} (settled : Settled state) (counted : Counted state)
    (forward : Forward call.env.now) (past : SentBy (call.env.now 0) state)
    (keeps : KeepsCount state call) (taken : step state call = some next)
    : Counted next := by
  cases call with
  | read env offer =>
      obtain rfl := Option.some.inj taken
      rcases ctcpRead_cases env offer settled with
        ⟨-, same⟩ | ⟨room, -, fin⟩ | ⟨bytes, room, -, data⟩
      · rw [same]
        exact counted
      · have noted : Counted { state with log.inputEnded := true } :=
          counted.same rfl rfl rfl rfl rfl (Nat.le_refl _)
        rw [fin]
        exact noted.queueFin _ past fun running => Int.not_le.mpr room (keeps running)
      · have queued := counted.transmitNew (state.dataSegment (env.pad 0) bytes) rfl past
          fun running => Int.not_le.mpr room (keeps running)
        rw [data]
        exact queued.same rfl rfl rfl rfl rfl (Nat.le_refl _)
  | output env =>
      obtain rfl := Option.some.inj taken
      have updates : Updates .untimed state (ctcpOutput env state) :=
        ctcpOutput_updates env settled trivial
      exact updates.counted counted
  | timer env =>
      rcases timerCheck_cases settled (step_timer taken) with
        ⟨-, rfl⟩ | ⟨node, rest, window, -, due, tries, rfl⟩
      · exact counted
      · simp only [CtcpState.retransDue, decide_eq_true_eq] at due
        have later : env.now 1 ≤ env.now 3 := forward (by decide)
        have passed : state.timeoutStandard < env.now 3 - state.sw.timer := by omega
        exact counted.retransmit window (past.mono (forward (Nat.zero_le 3))) passed tries
  | receive env segment len =>
      by_cases verified : checksum segment
      · by_cases bare : Bare len
        · exact receive_of_bare_counted settled counted forward past keeps verified bare taken
        · have arrived := settled.arrived_noted segment
          rw [receive_of_data env verified bare] at taken
          have updates : Updates .untimed (state.noted segment) next :=
            receivedData_updates (settled.noted segment) arrived trivial trivial taken
          exact updates.counted ((noted_updates segment state).counted counted)
      · rw [receive_of_rejected env (by simpa using verified)] at taken
        exact Option.some.inj taken ▸ counted.same rfl rfl rfl rfl rfl (Nat.le_succ _)

/-- The clock of a call does not go back behind a transmission. -/
def ReadsForward (state : CtcpState) (call : Call) : Prop :=
  Forward call.env.now ∧ SentBy (call.env.now 0) state

/-- On a clock that does not go back no call reads a time before a transmission, by induction on
the calls.
-/
theorem Clocked.readsForward {calls : List Call} (clocked : Clocked calls) (settled : Settled state)
    (past : ∀ call ∈ calls, SentBy (call.env.now 0) state)
    : StepRuns.AllSteps step ReadsForward state calls := by
  induction calls generalizing state with
  | nil => trivial
  | cons call rest ih =>
      obtain ⟨nonneg, within, forward⟩ := clocked
      obtain ⟨before, between⟩ := List.pairwise_cons.mp forward
      refine ⟨⟨within call (by simp), past call (by simp)⟩, fun next taken => ?_⟩
      have updates := step_updates settled taken
      refine ih ⟨fun other member => nonneg other (by simp [member]),
        fun other member => within other (by simp [member]), between⟩
        (Updates.settled updates settled) fun other member => ?_
      refine updates.sentBy ?_ (past other (by simp [member]))
      rintro reading ⟨site, rfl⟩
      exact before other member site 0

/-- With the counter at five, `ctcp_timer` gives up once the timeout has passed since the last
transmission of the first segment.
-/
theorem Counted.givesUp (counted : Counted state) (timed : state.sw.timer ≠ -1)
    {front : SegmentRef} (isFront : front ∈ state.sw.segments.head?)
    (five : (state.retransmissionsOf front).length = 5) {last : Transmission}
    (isLast : last ∈ (state.transmissionsOf front).getLast?) {time : Int}
    (reading : last.origin.time? = some time) (passed : state.timeoutStandard < env.now 1 - time)
    : ∃ cause, (Call.timer env).run state = .destroyed cause := by
  have count := counted.front front isFront
  have tries : state.sw.retransCounter = 5 := by omega
  obtain ⟨latest, isLatest, timer⟩ := counted.latest (by omega) front isFront
  obtain rfl := Option.some.inj (Eq.trans (Eq.symm isLatest) isLast)
  have same : time = state.sw.timer := Option.some.inj (reading.symm.trans timer)
  have due : state.retransDue (env.now 1) = true := by
    rw [CtcpState.retransDue, decide_eq_true_eq]
    exact ⟨timed, by omega⟩
  rw [Call.run, timerCheck]
  by_cases teardown : state.teardownDue (env.now 0)
  · exact ⟨_, by rw [if_pos teardown]⟩
  · exact ⟨_, by rw [if_neg teardown, if_pos due, if_pos (by omega)]⟩

/-- In every run whose calls keep the count, on a clock that does not go back, retransmissions
are limited.
-/
theorem runFrom_retransmissionsLimited {cfg : CtcpConfig} {calls : List Call}
    (clocked : Clocked calls)
    (keeps : StepRuns.AllSteps step KeepsCount (ctcpInit cfg) calls)
    (reached : runFrom cfg calls = some state)
    : RetransmissionsLimited cfg state := by
  have forward := clocked.readsForward (ctcpInit_settled cfg) fun _ _ _ member =>
    absurd member List.not_mem_nil
  obtain ⟨-, timeout, counted⟩ := StepRuns.exec_invariant_of_guard _
    (fun state => Settled state ∧ state.timeoutStandard = cfg.rtTimeout ∧ Counted state)
    (fun {state call next} held guarded taken => by
      obtain ⟨settled, timeout, counted⟩ := held
      have updates := step_updates settled taken
      exact ⟨Updates.settled updates settled,
        updates.invariant (fun _ same update => update.timeoutStandard.trans same) settled timeout,
        step_counted settled counted guarded.2.1 guarded.2.2 guarded.1 taken⟩)
    ⟨ctcpInit_settled cfg, rfl, ctcpInit_counted cfg⟩ (keeps.and forward) reached
  have timed := (runFrom_sentAndTimed clocked.nonneg reached).timed
  refine ⟨counted.limit, timeout ▸ counted.spaced, ?_⟩
  intro front isFront five last isLast time reading env passed
  have queued : state.sw.segments ≠ [] := List.ne_nil_of_mem (List.mem_of_mem_head? isFront)
  exact counted.givesUp (timed.mpr queued) isFront five isLast reading (timeout ▸ passed)

end Calls

theorem Clocked.timedOutByte : Clocked timedOutByte where
  nonneg := by simp [Ctcp.timedOutByte, Call.env, Env.steady]
  within := by simp [Ctcp.timedOutByte, Call.env, Env.steady, Forward]
  forward := by simp [Ctcp.timedOutByte, Call.env, Env.steady]

/-- The rule at one byte that is sent again once. -/
theorem runFrom_retransmissionsLimited_timedOutByte
    : ∃ state,
        runFrom defaultConfig timedOutByte = some state
        ∧ RetransmissionsLimited defaultConfig state := by
  obtain ⟨state, reached⟩ : ∃ state, runFrom defaultConfig timedOutByte = some state :=
    Option.isSome_iff_exists.mp (by decide +kernel)
  have keeps : StepRuns.AllSteps step KeepsCount (ctcpInit defaultConfig) timedOutByte :=
    ⟨fun running => absurd running (Int.lt_irrefl 0),
      fun _ _ => ⟨fun _ => trivial, fun _ _ => trivial⟩⟩
  exact ⟨state, reached, runFrom_retransmissionsLimited .timedOutByte keeps reached⟩

/-- A byte is sent again five times, the application supplies another one, and the timeout passes
once more.
-/
def suppliedByte : List Call :=
  .read (.steady 0 0) (some [0x61])
  :: [201, 402, 603, 804, 1005].map (fun time => .timer (.steady time 0))
  ++ [.read (.steady 1006 0) (some [0x62]), .timer (.steady 1207 0)]

theorem Clocked.suppliedByte : Clocked suppliedByte where
  nonneg := by simp [Ctcp.suppliedByte, Call.env, Env.steady]
  within := by simp [Ctcp.suppliedByte, Call.env, Env.steady, Forward]
  forward := by simp [Ctcp.suppliedByte, Call.env, Env.steady]

/-- The first byte is then sent again for the sixth time. -/
theorem suppliedByte_six_times
    : ¬ ∀ (cfg : CtcpConfig) (calls : List Call) (state : CtcpState),
        Clocked calls → runFrom cfg calls = some state → RetransmissionsLimited cfg state := by
  intro always
  have six : (runFrom defaultConfig suppliedByte).any (fun state =>
      state.sw.segments.any (fun node => (state.retransmissionsOf node).length = 6)) := by
    decide +kernel
  obtain ⟨state, reached, again⟩ := (Option.any_eq_true _ _).mp six
  obtain ⟨node, -, count⟩ := List.any_eq_true.mp again
  have limited := (always defaultConfig suppliedByte state .suppliedByte reached).atMostFive node
  rw [of_decide_eq_true count] at limited
  exact absurd limited (by decide)

end Networks.Ctcp
