import Networks.Ctcp.Reception
import Networks.Library.StreamPieces

/-! Whether the accepted bytes reach the application. `ctcp_output` drops what does not fit,
so nothing is lost exactly as long as each accepted payload fits at once.
-/

namespace Networks.Ctcp

open MachineIntegers

/-- The payload bytes held in the receive window below ackno. -/
def CtcpState.heldBytes (state : CtcpState) : List UInt8 :=
  (state.rw.segments.filter (fun node => node.segment.seq < uint32 state.rw.ackno)).flatMap
    (fun node => node.segment.data)

/-- What was output, followed by what is still held, is what was accepted, and no output
signalled the end of the stream.
-/
structure Delivered (state : CtcpState) : Prop where
  lossless : state.log.outputs.flatten ++ state.heldBytes = state.log.accepted
  noEof : [] ∉ state.log.outputs

/-- The receive window holds nothing below ackno, and in front of it only a segment without
data that was taken for the expected one.
-/
structure Waiting (state : CtcpState) : Prop where
  above : ∀ node ∈ state.rw.segments, uint32 state.rw.ackno ≤ node.segment.seq
  front
    : ∀ node ∈ state.rw.segments.head?,
        node.segment.seq = uint32 state.rw.ackno ∧ node.segment.data = []

/-- With nothing below ackno, nothing is held. -/
theorem heldBytes_eq_nil {state : CtcpState}
    (above : ∀ node ∈ state.rw.segments, uint32 state.rw.ackno ≤ node.segment.seq)
    : state.heldBytes = [] := by
  have none : state.rw.segments.filter (fun node => node.segment.seq < uint32 state.rw.ackno)
      = [] := by
    rw [List.filter_eq_nil_iff]
    intro node member
    have bound := above node member
    simp only [decide_eq_true_eq]
    omega
  rw [CtcpState.heldBytes, none, List.flatMap_nil]

/-- Handlers that leave the receive window alone neither deliver nor lose anything. -/
theorem SameDelivery.delivered_iff {state next : CtcpState} (same : SameDelivery state next)
    : Delivered next ↔ Delivered state := by
  have held : next.heldBytes = state.heldBytes := by
    rw [CtcpState.heldBytes, CtcpState.heldBytes, same.rw]
  constructor
  · rintro ⟨lossless, noEof⟩
    rw [same.outputs, held, same.accepted] at lossless
    exact ⟨lossless, same.outputs ▸ noEof⟩
  · rintro ⟨lossless, noEof⟩
    rw [← same.outputs, ← held, ← same.accepted] at lossless
    exact ⟨lossless, same.outputs ▸ noEof⟩

theorem SameDelivery.waiting {state next : CtcpState} (same : SameDelivery state next)
    (waiting : Waiting state)
    : Waiting next :=
  ⟨by rw [same.rw]; exact waiting.above, by rw [same.rw]; exact waiting.front⟩

theorem KeptFuture.waiting {object : SegmentRef} {state next : CtcpState}
    (kept : KeptFuture object state next)
    (ahead : uint32 state.rw.ackno < object.segment.seq) (waiting : Waiting state)
    : Waiting next := by
  refine ⟨?_, ?_⟩
  · intro node member
    rw [kept.ackno]
    rcases kept.nodes node member with rfl | old
    · exact Nat.le_of_lt ahead
    · exact waiting.above node old
  · rw [kept.front, kept.ackno]
    exact waiting.front

theorem KeptFuture.delivered_iff {object : SegmentRef} {state next : CtcpState}
    (kept : KeptFuture object state next)
    (ahead : uint32 state.rw.ackno < object.segment.seq) (waiting : Waiting state)
    : Delivered next ↔ Delivered state := by
  have heldNext := heldBytes_eq_nil (kept.waiting ahead waiting).above
  have held := heldBytes_eq_nil waiting.above
  constructor
  · rintro ⟨lossless, noEof⟩
    rw [kept.outputs, heldNext, ← held, kept.accepted] at lossless
    exact ⟨lossless, kept.outputs ▸ noEof⟩
  · rintro ⟨lossless, noEof⟩
    rw [← kept.outputs, held, ← heldNext, ← kept.accepted] at lossless
    exact ⟨lossless, kept.outputs ▸ noEof⟩

-----------------------------------------------------------------------------------------
-- Accepting a segment
-----------------------------------------------------------------------------------------

section Accepting

variable {env : Env} {object : SegmentRef} {len : Nat} {state accepted next : CtcpState}

/-- An accepted segment without data waits in the window. -/
theorem Acceptance.empty (acceptance : Acceptance object state accepted)
    (waiting : Waiting state) (empty : object.segment.data = [])
    (future : gotFuture object len (ctcpOutput env accepted) = some next)
    : Waiting next ∧ (Delivered next ↔ Delivered state) := by
  have sameAckno : uint32 accepted.rw.ackno = uint32 state.rw.ackno := by
    rw [acceptance.ackno, empty, uint32_int32]
    simp
  have idle : Waiting accepted := by
    refine ⟨?_, ?_⟩
    · intro node member
      rw [acceptance.segments] at member
      rcases List.mem_append.mp member with old | new
      · exact sameAckno ▸ waiting.above node old
      · rw [List.mem_singleton.mp new, sameAckno, acceptance.expected]
    · intro node isFront
      rw [acceptance.segments, List.head?_append] at isFront
      cases window : state.rw.segments with
      | nil =>
          have same : object = node := by simpa [window] using isFront
          rw [← same, sameAckno]
          exact ⟨acceptance.expected, empty⟩
      | cons front rest =>
          have same : front = node := by simpa [window] using isFront
          rw [← same, sameAckno]
          exact waiting.front front (by simp [window])
  rw [ctcpOutput_idle env (fun node isFront => (idle.front node isFront).1.ge)] at future
  rcases gotFuture_cases future with rfl | ⟨ahead, -⟩
  · refine ⟨idle, ?_⟩
    have held := heldBytes_eq_nil waiting.above
    have heldNext := heldBytes_eq_nil idle.above
    have bytes := acceptance.bytes
    rw [empty, List.append_nil] at bytes
    constructor
    · rintro ⟨lossless, noEof⟩
      rw [acceptance.outputs, heldNext, ← held, bytes] at lossless
      exact ⟨lossless, acceptance.outputs ▸ noEof⟩
    · rintro ⟨lossless, noEof⟩
      rw [← acceptance.outputs, held, ← heldNext, ← bytes] at lossless
      exact ⟨lossless, acceptance.outputs ▸ noEof⟩
  · rw [acceptance.expected, sameAckno] at ahead
    exact absurd ahead (Nat.lt_irrefl _)

/-- Ackno moves past an accepted segment that does not reach the end of the sequence
numbers.
-/
theorem Acceptance.ackno_eq (acceptance : Acceptance object state accepted)
    (noWrap : uint32 state.rw.ackno + object.segment.data.length < 4294967296)
    : uint32 accepted.rw.ackno = uint32 state.rw.ackno + object.segment.data.length := by
  rw [acceptance.ackno, uint32_int32, uint32_add, Nat.mod_eq_of_lt noWrap]

/-- An accepted segment that fits is output whole, and the window is empty again. -/
theorem Acceptance.whole (acceptance : Acceptance object state accepted) (env : Env)
    (nonempty : object.segment.data ≠ []) (window : state.rw.segments = [])
    (noWrap : uint32 state.rw.ackno + object.segment.data.length < 4294967296)
    : ctcpOutput env accepted = accepted.emit (env.bufspace 0) object [] := by
  have positive := List.length_pos_iff.mpr nonempty
  have only : accepted.rw.segments = [object] := by rw [acceptance.segments, window]; rfl
  have below : object.segment.seq < uint32 accepted.rw.ackno := by
    rw [acceptance.ackno_eq noWrap, acceptance.expected]
    omega
  rw [ctcpOutput_cons env only below, outputLoop]

/-- Nothing but that output is left to do for an accepted segment. -/
theorem Acceptance.emitted (acceptance : Acceptance object state accepted)
    (nonempty : object.segment.data ≠ []) (window : state.rw.segments = [])
    (noWrap : uint32 state.rw.ackno + object.segment.data.length < 4294967296)
    : gotFuture object len (ctcpOutput env accepted)
      = some (accepted.emit (env.bufspace 0) object []) := by
  rw [acceptance.whole env nonempty window noWrap]
  have behind : object.segment.seq
      ≤ uint32 (accepted.emit (env.bufspace 0) object []).rw.ackno := by
    rw [acceptance.expected]
    exact Nat.le_trans (Nat.le_add_right _ _) (acceptance.ackno_eq noWrap).ge
  exact gotFuture_behind len behind

/-- An accepted segment that fits is delivered. -/
theorem Acceptance.delivers (acceptance : Acceptance object state accepted)
    (nonempty : object.segment.data ≠ []) (window : state.rw.segments = [])
    (fits : object.segment.data.length ≤ env.bufspace 0)
    (noWrap : uint32 state.rw.ackno + object.segment.data.length < 4294967296)
    (delivered : Delivered state)
    (future : gotFuture object len (ctcpOutput env accepted) = some next)
    : Waiting next ∧ Delivered next := by
  rw [acceptance.emitted nonempty window noWrap] at future
  obtain rfl := Option.some.inj future
  have held : state.heldBytes = [] := heldBytes_eq_nil (by simp [window])
  have lossless := delivered.lossless
  rw [held, List.append_nil] at lossless
  refine ⟨⟨by simp [CtcpState.emit], by simp [CtcpState.emit]⟩, ⟨?_, ?_⟩⟩
  · have heldNext : (accepted.emit (env.bufspace 0) object []).heldBytes = [] :=
      heldBytes_eq_nil (by simp [CtcpState.emit])
    rw [heldNext, List.append_nil]
    simp only [CtcpState.emit, acceptance.outputs, acceptance.bytes, List.flatten_append,
      lossless, List.take_of_length_le fits, List.flatten_singleton]
  · simp only [CtcpState.emit, acceptance.outputs, List.take_of_length_le fits,
      List.mem_append, List.mem_singleton, not_or]
    exact ⟨delivered.noEof, Ne.symm nonempty⟩

/-- What the application misses for good: it got fewer bytes than were accepted. -/
theorem not_delivered_of_length {state : CtcpState} (held : state.heldBytes = [])
    (short : state.log.outputs.flatten.length < state.log.accepted.length)
    : ¬ Delivered state := by
  rintro ⟨lossless, -⟩
  rw [held, List.append_nil] at lossless
  exact Nat.ne_of_lt short (congrArg List.length lossless)

/-- An accepted segment that does not fit is cut. -/
theorem Acceptance.cuts (acceptance : Acceptance object state accepted)
    (nonempty : object.segment.data ≠ []) (window : state.rw.segments = [])
    (tight : env.bufspace 0 < object.segment.data.length)
    (noWrap : uint32 state.rw.ackno + object.segment.data.length < 4294967296)
    (delivered : Delivered state)
    : ∃ next, gotFuture object len (ctcpOutput env accepted) = some next ∧ ¬ Delivered next := by
  refine ⟨_, acceptance.emitted nonempty window noWrap, not_delivered_of_length ?_ ?_⟩
  · exact heldBytes_eq_nil (by simp [CtcpState.emit])
  · have held : state.heldBytes = [] := heldBytes_eq_nil (by simp [window])
    have lossless := congrArg List.length delivered.lossless
    rw [held, List.append_nil] at lossless
    simp only [CtcpState.emit, acceptance.outputs, acceptance.bytes, List.flatten_append,
      List.flatten_singleton, List.length_append, List.length_take, lossless]
    omega

/-- A waiting segment without data is output as the end of the stream as soon as data
follows it.
-/
theorem Acceptance.signalsEof (acceptance : Acceptance object state accepted)
    (waiting : Waiting state) (nonempty : object.segment.data ≠ [])
    (window : state.rw.segments ≠ [])
    (noWrap : uint32 state.rw.ackno + object.segment.data.length < 4294967296)
    : ∃ next, gotFuture object len (ctcpOutput env accepted) = some next ∧ ¬ Delivered next := by
  have positive := List.length_pos_iff.mpr nonempty
  obtain ⟨front, rest, cons⟩ := List.exists_cons_of_ne_nil window
  obtain ⟨frontSeq, frontEmpty⟩ := waiting.front front (by simp [cons])
  have acceptedCons : accepted.rw.segments = front :: (rest ++ [object]) := by
    rw [acceptance.segments, cons]
    rfl
  have below : front.segment.seq < uint32 accepted.rw.ackno := by
    rw [acceptance.ackno_eq noWrap, frontSeq]
    omega
  have eof : [] ∈ (ctcpOutput env accepted).log.outputs := by
    rw [ctcpOutput_cons env acceptedCons below]
    refine (outputLoop_outputs _ _ _ _).subset ?_
    simp [CtcpState.emit, frontEmpty]
  have behind : object.segment.seq ≤ uint32 (ctcpOutput env accepted).rw.ackno := by
    obtain ⟨_, _, _, equal, -⟩ :=
      outputLoop_keeps env.bufspace 0 (llFront accepted.rw.segments) accepted
    have sameAckno : (ctcpOutput env accepted).rw.ackno = accepted.rw.ackno := by
      rw [ctcpOutput, equal]
    rw [sameAckno, acceptance.ackno_eq noWrap, acceptance.expected]
    omega
  exact ⟨_, gotFuture_behind len behind, fun delivered => delivered.noEof eof⟩

/-- A segment accepted across the end of the sequence numbers is never output. -/
theorem Acceptance.wraps (acceptance : Acceptance object state accepted)
    (waiting : Waiting state) (delivered : Delivered state)
    (nonempty : object.segment.data ≠ [])
    (wrap : 4294967296 ≤ uint32 state.rw.ackno + object.segment.data.length)
    : ∃ next, gotFuture object len (ctcpOutput env accepted) = some next ∧ ¬ Delivered next := by
  have positive := List.length_pos_iff.mpr nonempty
  have small := object.segment.length_data_lt
  have acknoLt := uint32_lt state.rw.ackno
  have lower : uint32 accepted.rw.ackno < uint32 state.rw.ackno := by
    rw [acceptance.ackno, uint32_int32, uint32_add]
    omega
  have above : ∀ node ∈ accepted.rw.segments, uint32 accepted.rw.ackno ≤ node.segment.seq := by
    intro node member
    rw [acceptance.segments] at member
    rcases List.mem_append.mp member with old | new
    · exact Nat.le_trans (Nat.le_of_lt lower) (waiting.above node old)
    · rw [List.mem_singleton.mp new, acceptance.expected]
      exact Nat.le_of_lt lower
  have missing : ∀ reached, reached.log.outputs = accepted.log.outputs
      → reached.log.accepted = accepted.log.accepted → reached.heldBytes = []
      → ¬ Delivered reached := by
    intro reached sameOutputs sameAccepted held
    refine not_delivered_of_length held ?_
    have lossless := congrArg List.length delivered.lossless
    rw [heldBytes_eq_nil waiting.above, List.append_nil] at lossless
    rw [sameOutputs, sameAccepted, acceptance.outputs, acceptance.bytes, List.length_append,
      lossless]
    omega
  have front : accepted.rw.segments ≠ [] := by simp [acceptance.segments]
  rw [ctcpOutput_idle env (fun node isFront => above node (List.mem_of_mem_head? isFront))]
  obtain ⟨next, future⟩ := Option.isSome_iff_exists.mp (gotFuture_isSome object len front)
  refine ⟨next, future, ?_⟩
  rcases gotFuture_cases future with rfl | ⟨-, kept⟩
  · exact missing _ rfl rfl (heldBytes_eq_nil above)
  · refine missing _ kept.outputs kept.accepted (heldBytes_eq_nil ?_)
    intro node member
    rw [kept.ackno]
    rcases kept.nodes node member with rfl | old
    · rw [acceptance.expected]
      exact Nat.le_of_lt lower
    · exact above node old

end Accepting

/-- When `ctcp_receive` accepts data, no segment without data waits in the window, the output
buffer has room for the whole payload, and the payload ends before sequence number 2^32.
-/
def DeliversWhole (state : CtcpState) : Call → Prop
  | .receive env segment len =>
      state.accepts segment len → segment.data ≠ []
      → state.rw.segments = []
        ∧ segment.data.length ≤ env.bufspace 0
        ∧ uint32 state.rw.ackno + segment.data.length < 4294967296
  | _ => True

/-- The states from which delivery can only fail through the guard. -/
structure Delivering (state : CtcpState) : Prop where
  settled : Settled state
  waiting : Waiting state
  delivered : Delivered state

theorem ctcpInit_delivering (cfg : CtcpConfig) : Delivering (ctcpInit cfg) where
  settled := ctcpInit_settled cfg
  waiting := by constructor <;> simp [ctcpInit]
  delivered := by constructor <;> simp [ctcpInit, CtcpState.heldBytes]

/-- Calls other than `ctcp_receive` deliver nothing: `ctcp_output` finds nothing below ackno.
-/
theorem step_sameDelivery {state next : CtcpState} {call : Call} (settled : Settled state)
    (waiting : Waiting state) (other : ∀ env segment len, call ≠ .receive env segment len)
    (taken : step state call = some next)
    : SameDelivery state next := by
  have updates := step_updates settled taken
  cases call with
  | receive env segment len => exact absurd rfl (other env segment len)
  | output env =>
      have idle : step state (.output env) = some state := congrArg some
        (ctcpOutput_idle env (fun node isFront => (waiting.front node isFront).1.ge))
      obtain rfl := Option.some.inj (idle.symm.trans taken)
      exact ⟨rfl, rfl, rfl⟩
  | read env offer | timer env =>
      exact updates.sameDelivery (fun impossible => impossible)

/-- A step that meets the guard keeps waiting and delivers. -/
theorem step_delivers {state next : CtcpState} {call : Call} (delivering : Delivering state)
    (whole : DeliversWhole state call) (taken : step state call = some next)
    : Waiting next ∧ Delivered next := by
  obtain ⟨settled, waiting, delivered⟩ := delivering
  cases call with
  | receive env segment len =>
      by_cases accepts : state.accepts segment len
      · obtain ⟨accepted, acceptance, result⟩ := receive_accepts env settled accepts
        rw [result] at taken
        by_cases empty : segment.data = []
        · have kept := acceptance.empty waiting
            ((state.receivedObject_data segment).trans empty) taken
          exact ⟨kept.1, kept.2.mpr delivered⟩
        · obtain ⟨window, fits, noWrap⟩ := whole accepts empty
          rw [← state.receivedObject_data segment] at empty fits noWrap
          exact acceptance.delivers empty window fits noWrap delivered taken
      · rcases receive_declines settled accepts taken with same | ⟨ahead, kept⟩
        · exact ⟨same.waiting waiting, same.delivered_iff.mpr delivered⟩
        · rw [← state.receivedObject_seq segment] at ahead
          exact ⟨kept.waiting ahead waiting, (kept.delivered_iff ahead waiting).mpr delivered⟩
  | read | output | timer =>
      have same := step_sameDelivery settled waiting (by simp) taken
      exact ⟨same.waiting waiting, same.delivered_iff.mpr delivered⟩

/-- A step that does not meet the guard returns, and loses bytes or signals the end of the
stream. Witness: the three parts of the guard, the last one first.
-/
theorem step_loses {state : CtcpState} {call : Call} (delivering : Delivering state)
    (notWhole : ¬ DeliversWhole state call)
    : ∃ next, step state call = some next ∧ ¬ Delivered next := by
  obtain ⟨settled, waiting, delivered⟩ := delivering
  cases call with
  | receive env segment len =>
      simp only [DeliversWhole, Classical.not_imp] at notWhole
      obtain ⟨accepts, nonempty, failed⟩ := notWhole
      obtain ⟨accepted, acceptance, result⟩ := receive_accepts env settled accepts
      rw [result]
      rw [← state.receivedObject_data segment] at nonempty failed
      by_cases noWrap : uint32 state.rw.ackno
          + (state.receivedObject segment).segment.data.length < 4294967296
      · by_cases window : state.rw.segments = []
        · have tight := Nat.lt_of_not_le (fun fits => failed ⟨window, fits, noWrap⟩)
          exact acceptance.cuts nonempty window tight noWrap delivered
        · exact acceptance.signalsEof waiting nonempty window noWrap
      · exact acceptance.wraps waiting delivered nonempty (Nat.le_of_not_lt noWrap)
  | read | output | timer => exact absurd trivial notWhole

/-- In all states along a run everything accepted is delivered or still held, without an end
of stream between, exactly when every accepted payload fits the output at once.
-/
theorem delivered_throughout_iff (cfg : CtcpConfig) (calls : List Call)
    : (∀ done, done <+: calls → ∀ state, runFrom cfg done = some state → Delivered state)
      ↔ StepRuns.AllSteps step DeliversWhole (ctcpInit cfg) calls := by
  refine StepRuns.exec_always_iff DeliversWhole Delivering Delivered ?_ ?_ Delivering.delivered
    (ctcpInit_delivering cfg)
  · intro state call delivering
    refine ⟨fun whole next taken => (step_delivers delivering whole taken).2, fun always => ?_⟩
    by_contra notWhole
    obtain ⟨next, taken, lost⟩ := step_loses delivering notWhole
    exact lost (always next taken)
  · intro state call next delivering whole taken
    obtain ⟨waiting, delivered⟩ := step_delivers delivering whole taken
    exact ⟨Updates.settled (step_updates delivering.settled taken) delivering.settled, waiting,
      delivered⟩

/-- A segment of five bytes arrives while the output buffer has room for three. -/
def slowConsumer : List Call :=
  let sender := { ctcpInit defaultConfig with sendBuf := ⟨[1, 2, 3, 4, 5], by decide⟩ }
  [.receive (.steady 0 3) (sender.newSegment 0 .data).segment.summed 25]

/-- The last two bytes are acknowledged and discarded. -/
theorem slow_consumer_loses
    : ¬ ∀ cfg calls state, runFrom cfg calls = some state → Delivered state := by
  intro always
  have reached : (runFrom defaultConfig slowConsumer).isSome := by decide +kernel
  have lost : ((runFrom defaultConfig slowConsumer).get reached).log.outputs.flatten
      ++ ((runFrom defaultConfig slowConsumer).get reached).heldBytes
      ≠ ((runFrom defaultConfig slowConsumer).get reached).log.accepted := by
    decide +kernel +revert
  exact lost (always defaultConfig slowConsumer _ (Option.some_get reached).symm).lossless

end Networks.Ctcp
