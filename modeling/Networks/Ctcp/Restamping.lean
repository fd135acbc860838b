import Mathlib.Data.List.Chain
import Mathlib.Data.List.Induction
import Networks.Ctcp.OwedSegments
import Networks.Ctcp.Transmissions
import Networks.Ctcp.Verifiability

/-! Which transmissions of a segment verify. `ctcp_retrans` sums a segment over the checksum
field that the transmission before left in it, so the fields of all transmissions of one
segment depend on each other.
-/

namespace Networks.Ctcp

open OnesComplement

-----------------------------------------------------------------------------------------
-- Stamping a segment again
-----------------------------------------------------------------------------------------

/-- A transmission is the one before with an ackno and a checksum written into it. -/
def Segment.Restamps (before after : Segment) : Prop :=
  ∃ ackno, after = { before with ackno := ackno }.summed

/-- The transmissions of one segment: the first one verifies, and each of the others stamps
what the one before left.
-/
structure Stampings (history : List Segment) : Prop where
  first : ∀ segment ∈ history.head?, checksum segment
  again : history.IsChain Segment.Restamps

/-- The sum of a segment without its checksum field. -/
def Segment.bodySum (segment : Segment) : Nat := wordSum segment.cleared.bytes

/-- The host-order value of the checksum field. -/
def Segment.field (segment : Segment) : Nat := (ntohs segment.cksum).toNat

/-- The last sum minus the one before, plus the one before that, and so on. -/
def alternating (sums : List Nat) : Int :=
  sums.foldl (fun (total : Int) (sum : Nat) => (sum : Int) - total) 0

@[simp] theorem alternating_concat (sums : List Nat) (sum : Nat)
    : alternating (sums ++ [sum]) = sum - alternating sums := by
  simp [alternating]

section Stamping

variable {segment before after : Segment} {history : List Segment}

theorem Segment.bodySum_eq (segment : Segment)
    : segment.bodySum = wordSum segment.headerBytes + wordSum segment.data := by
  have zero : (ntohs segment.cleared.cksum).toNat = 0 := by
    rw [cleared, ntohs_htons, UInt16.toNat_zero]
  rw [bodySum, wordSum_bytes, zero, cleared_headerBytes, cleared_data, Nat.add_zero]

/-- The bytes add up to the body and the checksum field. -/
theorem Segment.wordSum_bytes_eq (segment : Segment)
    : wordSum segment.bytes = segment.bodySum + segment.field := by
  rw [wordSum_bytes, bodySum_eq, field]
  omega

/-- The value that `cksum` returns completes a sum to a multiple of 65535. -/
theorem ntohs_cksum {bytes : List UInt8} (short : bytes.length ≤ 65535)
    : (ntohs (cksum bytes)).toNat = 65535 - wordSum bytes % 65535 := by
  have le := wordSum_le bytes
  rw [cksum_eq short, ntohs_htons, complement_eq (by omega), UInt16.toNat_ofNat']
  omega

/-- A field that is a one's-complement zero is a multiple of 65535. -/
theorem Segment.field_mod_eq_zero (segment : Segment)
    : segment.field % 65535 = 0 ↔ segment.cksum = 0 ∨ segment.cksum = 0xffff := by
  have bound := (ntohs segment.cksum).toNat_lt
  have swapped := htons_toNat segment.cksum
  have fieldBound := segment.cksum.toNat_lt
  rw [field, ntohs, swapped, ← UInt16.toNat_inj, ← UInt16.toNat_inj]
  simp only [UInt16.toNat_zero, UInt16.reduceToNat]
  omega

/-- A segment that verifies has the field that completes its body. -/
theorem checksum_field (verified : checksum segment)
    : (segment.field + segment.bodySum) % 65535 = 0 := by
  have sum := ((checksum_iff segment).mp verified).2
  rw [segment.wordSum_bytes_eq] at sum
  rw [Nat.add_comm]
  exact sum

/-- The field of a transmission completes its body and the field before. -/
theorem Segment.Restamps.field_add (restamps : before.Restamps after)
    : (after.field + after.bodySum + before.field) % 65535 = 0 := by
  obtain ⟨ackno, rfl⟩ := restamps
  let stamped : Segment := { before with ackno := ackno }
  have field : stamped.summed.field = 65535 - wordSum stamped.bytes % 65535 :=
    ntohs_cksum stamped.length_bytes_le
  have body : stamped.summed.bodySum = stamped.bodySum := by
    simp only [Segment.bodySum, Segment.summed, Segment.cleared]
  have same : stamped.field = before.field := rfl
  change (stamped.summed.field + stamped.summed.bodySum + before.field) % 65535 = 0
  rw [field, body, stamped.wordSum_bytes_eq, ← same]
  omega

/-- A transmission verifies when the field before was a one's-complement zero. -/
theorem Segment.Restamps.checksum_iff (restamps : before.Restamps after)
    : checksum after ↔ before.field % 65535 = 0 := by
  obtain ⟨ackno, rfl⟩ := restamps
  rw [checksum_summed, before.field_mod_eq_zero]

/-- The first transmissions of a history. -/
theorem Stampings.front {rest : List Segment} (stampings : Stampings (history ++ rest))
    : Stampings history := by
  refine ⟨fun first isFirst => stampings.first first ?_, ?_⟩
  · rw [List.head?_append, isFirst]
    rfl
  · exact (List.isChain_append.mp stampings.again).1

/-- A transmission stamps the one before. -/
theorem Stampings.restamps {rest : List Segment}
    (stampings : Stampings (history ++ [before] ++ after :: rest))
    : before.Restamps after :=
  (List.isChain_append.mp stampings.again).2.2 before (by simp) after (by simp)

/-- The last field of a history completes the alternating sum of the bodies, by induction from
its end.
-/
theorem Stampings.field_last (stampings : Stampings (history ++ [segment]))
    : (65535 : Int) ∣ segment.field + alternating ((history ++ [segment]).map Segment.bodySum) := by
  induction history using List.reverseRecOn generalizing segment with
  | nil =>
      have sum := checksum_field (stampings.first segment rfl)
      simp only [List.nil_append, List.map_singleton, alternating, List.foldl_cons,
        List.foldl_nil]
      omega
  | append_singleton earlier previous ih =>
      have sum := stampings.restamps.field_add
      have before := ih stampings.front
      rw [List.map_append, List.map_singleton, alternating_concat]
      omega

/-- A transmission verifies exactly when the alternating sum of the bodies of those before it
is a multiple of 65535.
-/
theorem Stampings.checksum_iff {rest : List Segment}
    (stampings : Stampings (history ++ segment :: rest))
    : checksum segment ↔ (65535 : Int) ∣ alternating (history.map Segment.bodySum) := by
  rcases List.eq_nil_or_concat history with rfl | ⟨earlier, previous, rfl⟩
  · exact iff_of_true (stampings.first segment rfl) (Int.dvd_zero _)
  · rw [List.concat_eq_append] at *
    have field := stampings.front.field_last
    rw [stampings.restamps.checksum_iff]
    omega

end Stamping

-----------------------------------------------------------------------------------------
-- The transmissions of a connection
-----------------------------------------------------------------------------------------

/-- The segments that were transmitted for an object, oldest first. -/
def CtcpState.segmentsOf (object : SegmentRef) (state : CtcpState) : List Segment :=
  (state.transmissionsOf object).map (fun sent => sent.object.segment)

/-- Every queued object has a history of stampings, which ends with the segment that lies in
the window as long as the object does.
-/
structure Restamped (state : CtcpState) : Prop where
  tracked : Tracked state
  sentBelow : ∀ sent ∈ state.log.sent, sent.object.address < state.nextAddress
  queuedBelow : ∀ object ∈ state.log.queued, object.address < state.nextAddress
  histories : ∀ object ∈ state.log.queued, Stampings (state.segmentsOf object)
  window
    : ∀ node ∈ state.sw.segments, ∃ earlier, state.segmentsOf node = earlier ++ [node.segment]

theorem ctcpInit_restamped (cfg : CtcpConfig) : Restamped (ctcpInit cfg) := by
  refine ⟨ctcpInit_tracked cfg, ?_, ?_, ?_, ?_⟩ <;> simp [ctcpInit]

section Transmitting

variable {state next : CtcpState}

theorem segmentsOf_other {object : SegmentRef} {sent : Transmission}
    (log : next.log.sent = state.log.sent ++ [sent])
    (other : sent.object.address ≠ object.address)
    : next.segmentsOf object = state.segmentsOf object := by
  rw [CtcpState.segmentsOf, transmissionsOf_other log other, CtcpState.segmentsOf]

theorem segmentsOf_same {object : SegmentRef} {sent : Transmission}
    (log : next.log.sent = state.log.sent ++ [sent])
    (same : sent.object.address = object.address)
    : next.segmentsOf object = state.segmentsOf object ++ [sent.object.segment] := by
  rw [CtcpState.segmentsOf, transmissionsOf_same log same, List.map_append, List.map_singleton,
    CtcpState.segmentsOf]

theorem segmentsOf_of_sent {object : SegmentRef} (log : next.log.sent = state.log.sent)
    : next.segmentsOf object = state.segmentsOf object := by
  rw [CtcpState.segmentsOf, CtcpState.transmissionsOf, log]
  rfl

/-- What is not transmitted for a queued object changes no history. -/
theorem Restamped.same (restamped : Restamped state) (sent : next.log.sent = state.log.sent)
    (segments : next.sw.segments = state.sw.segments)
    (queued : next.log.queued = state.log.queued) (acked : next.log.acked = state.log.acked)
    (above : state.nextAddress ≤ next.nextAddress)
    : Restamped next := by
  refine ⟨restamped.tracked.same segments queued acked above, ?_, ?_, ?_, ?_⟩
  · rw [sent]
    exact fun other member => Nat.lt_of_lt_of_le (restamped.sentBelow other member) above
  · rw [queued]
    exact fun object member => Nat.lt_of_lt_of_le (restamped.queuedBelow object member) above
  · rw [queued]
    intro object member
    rw [segmentsOf_of_sent sent]
    exact restamped.histories object member
  · rw [segments]
    intro node member
    rw [segmentsOf_of_sent sent]
    exact restamped.window node member

/-- An object that lies in the window has been allocated. -/
theorem Restamped.windowBelow (restamped : Restamped state) {node : SegmentRef}
    (member : node ∈ state.sw.segments)
    : node.address < state.nextAddress := by
  obtain ⟨object, queued, same, -⟩ := restamped.tracked.queued node member
  exact same ▸ restamped.queuedBelow object queued

/-- An answer is a new object that is not queued. -/
theorem Restamped.answer (restamped : Restamped state) (pad : UInt16) (mode : Mode)
    : Restamped (state.answer pad mode) := by
  have sent : (state.answer pad mode).log.sent = state.log.sent ++ [_] := rfl
  refine ⟨restamped.tracked.same rfl rfl rfl (Nat.le_succ _), ?_, ?_, ?_, ?_⟩
  · intro other member
    rcases List.mem_append.mp member with old | last
    · exact Nat.lt_succ_of_lt (restamped.sentBelow other old)
    · rw [List.mem_singleton.mp last]
      exact Nat.lt_succ_self _
  · exact fun object member => Nat.lt_succ_of_lt (restamped.queuedBelow object member)
  · intro object member
    rw [segmentsOf_other sent (Nat.ne_of_gt (restamped.queuedBelow object member))]
    exact restamped.histories object member
  · intro node member
    rw [segmentsOf_other sent (Nat.ne_of_gt (restamped.windowBelow member))]
    exact restamped.window node member

/-- A new object is queued, and its first transmission verifies. -/
theorem Restamped.transmitNew (restamped : Restamped state) (now : Int) {object : SegmentRef}
    (new : object.address = state.nextAddress) (unstamped : object.segment.cksum = 0)
    : Restamped (state.transmitNew now object) := by
  have sent : (state.transmitNew now object).log.sent
      = state.log.sent ++ [⟨.send now, object.stamp state.acknoField⟩] := rfl
  have sameObject := object.stamp_address state.acknoField
  have none : state.segmentsOf object = [] := by
    rw [CtcpState.segmentsOf, CtcpState.transmissionsOf, List.map_eq_nil_iff,
      List.filter_eq_nil_iff]
    intro other member
    have below := restamped.sentBelow other member
    simp only [beq_iff_eq]
    omega
  have first : (state.transmitNew now object).segmentsOf object
      = [(object.stamp state.acknoField).segment] := by
    rw [segmentsOf_same sent sameObject, none, List.nil_append]
  refine ⟨restamped.tracked.transmitNew now new, ?_, ?_, ?_, ?_⟩
  · intro other member
    rcases List.mem_append.mp member with old | last
    · exact Nat.lt_succ_of_lt (restamped.sentBelow other old)
    · rw [List.mem_singleton.mp last, sameObject, new]
      exact Nat.lt_succ_self _
  · intro other member
    rcases List.mem_append.mp member with old | last
    · exact Nat.lt_succ_of_lt (restamped.queuedBelow other old)
    · rw [List.mem_singleton.mp last, new]
      exact Nat.lt_succ_self _
  · intro other member
    rcases List.mem_append.mp member with old | last
    · have below := restamped.queuedBelow other old
      have differs : object.address ≠ other.address := by omega
      rw [segmentsOf_other sent (sameObject.trans_ne differs)]
      exact restamped.histories other old
    · obtain rfl := List.mem_singleton.mp last
      rw [first]
      refine ⟨?_, .singleton _⟩
      intro segment isFirst
      obtain rfl := Option.some.inj isFirst
      exact (checksum_stamp _ _).mpr (Or.inl unstamped)
  · intro node member
    rcases List.mem_append.mp member with old | last
    · have below := restamped.windowBelow old
      have differs : object.address ≠ node.address := by omega
      rw [segmentsOf_other sent (sameObject.trans_ne differs)]
      exact restamped.window node old
    · obtain rfl := List.mem_singleton.mp last
      refine ⟨[], ?_⟩
      rw [List.nil_append, ← first, CtcpState.segmentsOf, CtcpState.transmissionsOf, sameObject]
      rfl

theorem Restamped.slide (restamped : Restamped state) (now : Int) (segment : Segment)
    : Restamped (state.slide now segment) where
  tracked := restamped.tracked.slide now segment
  sentBelow := restamped.sentBelow
  queuedBelow := restamped.queuedBelow
  histories := restamped.histories
  window := fun node member => restamped.window node (List.mem_of_mem_filter member)

/-- The objects of the window are different ones. -/
theorem Tracked.window_distinct (tracked : Tracked state) {node : SegmentRef}
    {rest : List SegmentRef} (front : state.sw.segments = node :: rest) {other : SegmentRef}
    (member : other ∈ rest)
    : node.address ≠ other.address := by
  have distinct := tracked.distinct
  rw [CtcpState.addresses, List.map_append, List.nodup_append, front, List.map_cons,
    List.nodup_cons] at distinct
  exact fun same => distinct.2.1.1 (same ▸ List.mem_map_of_mem member)

/-- A retransmission stamps what lies in front of the window. -/
theorem Restamped.retransmit (restamped : Restamped state) (now : Int) {node : SegmentRef}
    {rest : List SegmentRef} (front : state.sw.segments = node :: rest)
    : Restamped (state.retransmit now node rest) := by
  have inWindow : node ∈ state.sw.segments := by simp [front]
  have sent : (state.retransmit now node rest).log.sent
      = state.log.sent ++ [⟨.retrans now, node.stamp state.acknoField⟩] := rfl
  have sameObject := node.stamp_address state.acknoField
  obtain ⟨earlier, history⟩ := restamped.window node inWindow
  refine ⟨restamped.tracked.retransmit now front, ?_, restamped.queuedBelow, ?_, ?_⟩
  · intro other member
    rcases List.mem_append.mp member with old | last
    · exact restamped.sentBelow other old
    · rw [List.mem_singleton.mp last, sameObject]
      exact restamped.windowBelow inWindow
  · intro object member
    by_cases same : node.address = object.address
    · have before : state.segmentsOf object = earlier ++ [node.segment] := by
        rw [← history, CtcpState.segmentsOf, CtcpState.transmissionsOf, ← same]
        rfl
      have stampings := restamped.histories object member
      rw [segmentsOf_same sent (sameObject.trans same), before]
      rw [before] at stampings
      refine ⟨fun first isFirst => stampings.first first ?_, ?_⟩
      · rwa [List.head?_append_of_ne_nil _ (by simp)] at isFirst
      · refine List.isChain_append.mpr ⟨stampings.again, .singleton _, ?_⟩
        intro previous isPrevious segment isSegment
        obtain rfl : node.segment = previous := by simpa using isPrevious
        obtain rfl := Option.some.inj isSegment
        exact ⟨state.acknoField, rfl⟩
    · rw [segmentsOf_other sent (sameObject.trans_ne same)]
      exact restamped.histories object member
  · intro other member
    rcases List.mem_cons.mp member with rfl | later
    · refine ⟨state.segmentsOf node, ?_⟩
      rw [segmentsOf_same sent rfl]
      rw [CtcpState.segmentsOf, CtcpState.transmissionsOf, sameObject]
      rfl
    · have differs := restamped.tracked.window_distinct front later
      rw [segmentsOf_other sent (sameObject.trans_ne differs)]
      exact restamped.window other (by simp [front, later])

/-- Every update keeps the histories. -/
theorem Update.restamped {effects : Effects} (update : Update effects state next)
    (restamped : Restamped state)
    : Restamped next := by
  cases update with
  | allocate => exact restamped.same rfl rfl rfl rfl (Nat.le_succ _)
  | window | arm | accept | keep => exact restamped.same rfl rfl rfl rfl (Nat.le_refl _)
  | ack pad => exact restamped.answer pad .ack
  | finAck pad segment =>
      have noted : Restamped { state with log.fins := state.log.fins ++ [segment] } :=
        restamped.same rfl rfl rfl rfl (Nat.le_refl _)
      exact noted.answer pad .finAck
  | endInput now pad =>
      have noted : Restamped { state with log.inputEnded := true } :=
        restamped.same rfl rfl rfl rfl (Nat.le_refl _)
      exact noted.transmitNew now rfl (CtcpState.newSegment_cksum _ pad .fin)
  | queueFin now pad => exact restamped.transmitNew now rfl (state.newSegment_cksum pad .fin)
  | queueData now pad bytes =>
      have queued : Restamped (state.transmitNew now (state.dataSegment pad bytes)) :=
        restamped.transmitNew now rfl (CtcpState.newSegment_cksum _ pad .data)
      exact queued.same rfl rfl rfl rfl (Nat.le_refl _)
  | slide now segment => exact restamped.slide now segment
  | retransmit now node rest reading retransmits front => exact restamped.retransmit now front

end Transmitting

-----------------------------------------------------------------------------------------
-- Runs
-----------------------------------------------------------------------------------------

/-- In every run a transmission of a queued segment verifies exactly when the bodies of the
transmissions before it, added and subtracted in turn, sum to a multiple of 65535. So the first
one does, and the second one only by chance.
-/
theorem runFrom_transmission_verifies_iff {cfg : CtcpConfig} {calls : List Call}
    {state : CtcpState} (reached : runFrom cfg calls = some state) {object : SegmentRef}
    (queued : object ∈ state.log.queued) {before after : List Segment} {segment : Segment}
    (history : state.segmentsOf object = before ++ segment :: after)
    : checksum segment ↔ (65535 : Int) ∣ alternating (before.map Segment.bodySum) := by
  have held := runFrom_invariant (fun _ => True) Restamped
    (fun _ _ held update => update.restamped held) (ctcpInit_restamped cfg)
    (fun _ _ => trivial) reached
  have stampings := held.2.histories object queued
  rw [history] at stampings
  exact stampings.checksum_iff

/-- The calls of a connection that reads one byte and retransmits its segment twice. -/
def timedOutTwice : List Call := timedOutByte ++ [.timer (.steady 402 0)]

/-- Of the three transmissions of that byte the last one verifies again: the first two have the
same body.
-/
theorem runFrom_transmission_verifies_timedOutTwice
    : ∃ state object before segment,
        runFrom defaultConfig timedOutTwice = some state
        ∧ state.segmentsOf object = before ++ [segment]
        ∧ before.map (fun sent => checksum sent) = [true, false]
        ∧ (checksum segment ↔ (65535 : Int) ∣ alternating (before.map Segment.bodySum))
        ∧ (65535 : Int) ∣ alternating (before.map Segment.bodySum) := by
  have reached : (runFrom defaultConfig timedOutTwice).isSome := by decide +kernel
  obtain ⟨state, run⟩ := Option.isSome_iff_exists.mp reached
  have found : ∀ state ∈ runFrom defaultConfig timedOutTwice,
      ∃ object ∈ state.log.queued, ∃ segment ∈ (state.segmentsOf object).getLast?,
        state.segmentsOf object = (state.segmentsOf object).take 2 ++ [segment]
        ∧ ((state.segmentsOf object).take 2).map (fun sent => checksum sent) = [true, false]
        ∧ (65535 : Int) ∣ alternating (((state.segmentsOf object).take 2).map Segment.bodySum) := by
    decide +kernel
  obtain ⟨object, queued, segment, -, history, verified, sum⟩ := found state run
  exact ⟨state, object, _, segment, run, history, verified,
    runFrom_transmission_verifies_iff run queued history, sum⟩

end Networks.Ctcp
