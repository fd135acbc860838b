import Networks.Ctcp.Dispatch
import Networks.Ctcp.SendWindow

/-! What acknowledgements take off the send window: a bare one, wherever the window lies in
the space of sequence numbers, and one that comes with data.
-/

namespace Networks.Ctcp

open MachineIntegers StreamPieces

-----------------------------------------------------------------------------------------
-- The ACK branch on any window
-----------------------------------------------------------------------------------------

/-- The position behind the last byte of a queued object. -/
def SegmentRef.ending (object : SegmentRef) : Nat := object.position + object.payload.length

/-- The send window holds `total` bytes in segments that follow each other modulo 2^32, from
`start` to `seqno`.
-/
structure ContiguousWindow (start total : Nat) (state : CtcpState) : Prop where
  chained
    : Chained (fun node => serialOffset start node.position) SegmentRef.payload 0
        state.sw.segments total
  seqno : serialOffset start (uint32 state.sw.seqno) = total
  size : state.sw.size = total
  small : total ≤ 65535

/-- The segments an ackno confirms in serial order, unless it is older than the window. -/
def covers (start ackno : Nat) (node : SegmentRef) : Bool :=
  serialLe start ackno && serialLe node.ending ackno

/-- What identifies a queued object, whatever `ctcp_send` stamps into it. -/
def SegmentRef.place (object : SegmentRef) : Nat × Nat × List UInt8 :=
  (object.address, object.position, object.payload)

/-- From `state` to `next` exactly the given segments were removed, which are the first ones,
and the size has decreased by their payload.
-/
structure RemovesFirst (removed : SegmentRef → Bool) (state next : CtcpState) : Prop where
  first
    : state.sw.segments
      = state.sw.segments.filter removed ++ state.sw.segments.filter (fun node => !removed node)
  kept
    : next.sw.segments.map SegmentRef.place
      = (state.sw.segments.filter (fun node => !removed node)).map SegmentRef.place
  size
    : next.sw.size
      = state.sw.size - (content SegmentRef.payload (state.sw.segments.filter removed)).length

/-- The segments that the ACK branch removes from a window with that front. -/
def removedBy (segment : Segment) (front node : SegmentRef) : Bool :=
  acknowledgesFront segment front && confirmed segment.receivedAckno node

/-- The loop of `ctcp_send` leaves every object in its place, by induction on the window. -/
theorem sendLoop_place (time : Int) (ackno : UInt32) (segments : List SegmentRef)
    : (sendLoop time ackno segments).1.map SegmentRef.place
      = segments.map SegmentRef.place := by
  induction segments with
  | nil => rfl
  | cons node next ih =>
      have same : (node.stamp ackno).place = node.place := by
        simp only [SegmentRef.place, SegmentRef.stamp_address, SegmentRef.stamp_position,
          SegmentRef.stamp_payload]
      simp only [sendLoop]
      split
      · rw [List.map_cons, List.map_cons, ih, same]
      · rw [List.map_cons, List.map_cons, ih]

theorem ctcpSend_place (now : Int) (state : CtcpState)
    : (ctcpSend now state).sw.segments.map SegmentRef.place
        = state.sw.segments.map SegmentRef.place
      ∧ (ctcpSend now state).sw.size = state.sw.size := by
  refine ⟨sendLoop_place _ _ _, ?_⟩
  by_cases empty : state.sw.segments = []
  · simp only [ctcpSend, llFront, empty, ne_eq, not_true_eq_false, if_false]
  · simp only [ctcpSend, llFront, empty, ne_eq, not_false_eq_true, if_true]

/-- Two tests of which one implies the other agree on a list when they leave as many. -/
theorem agree_of_length_kept {α : Type} {test other : α → Bool} {list : List α}
    (implies : ∀ item ∈ list, test item = true → other item = true)
    (length
      : (list.filter (fun item => !test item)).length
        = (list.filter (fun item => !other item)).length)
    : ∀ item ∈ list, test item = other item := by
  have same : (list.filter (fun item => !test item)).filter (fun item => !other item)
      = list.filter (fun item => !other item) := by
    rw [List.filter_filter]
    refine List.filter_congr fun item member => ?_
    cases passed : test item with
    | false => exact Bool.and_true _
    | true => rw [implies item member passed, Bool.not_true, Bool.false_and]
  have all := List.Sublist.eq_of_length
    (List.filter_sublist (p := fun item => !other item)
      (l := list.filter (fun item => !test item))) (by rw [same, length])
  intro item member
  cases passed : test item with
  | true => exact (implies item member passed).symm
  | false =>
      have kept := List.filter_eq_self.mp all item
        (List.mem_filter.mpr ⟨member, by rw [passed, Bool.not_false]⟩)
      exact (Bool.not_eq_true' _ ▸ kept).symm

theorem filter_congr_both {α : Type} {test other : α → Bool} {list : List α}
    (agree : ∀ item ∈ list, test item = other item)
    : list.filter test = list.filter other
      ∧ list.filter (fun item => !test item) = list.filter (fun item => !other item) :=
  ⟨List.filter_congr agree, List.filter_congr fun item member => congrArg _ (agree item member)⟩

theorem ending_of_place {node other : SegmentRef} (same : node.place = other.place)
    : node.ending = other.ending := by
  have fields := (Prod.mk.inj (Prod.mk.inj same).2)
  rw [SegmentRef.ending, SegmentRef.ending, fields.1, fields.2]

section AckBranch

variable {env : Env} {segment : Segment} {state : CtcpState} {front : SegmentRef}
  {rest : List SegmentRef} {total : Nat}

/-- What the ACK branch leaves of a window that is not empty. -/
theorem receivedAck_leaves (env : Env) (segment : Segment)
    (window : state.sw.segments = front :: rest)
    : (receivedAck env segment state).sw.segments.map SegmentRef.place
        = (state.sw.segments.filter (fun node => !removedBy segment front node)).map
          SegmentRef.place := by
  simp only [removedBy]
  cases acknowledged : acknowledgesFront segment front with
  | true =>
      simp only [receivedAck_confirms env window acknowledged, (ctcpSend_place _ _).1,
        CtcpState.confirm, CtcpState.unconfirmed, Bool.true_and]
  | false =>
      simp only [receivedAck_ignores env window acknowledged, Bool.false_and, Bool.not_false,
        List.filter_true]

theorem receivedAck_size (env : Env) (segment : Segment)
    (window : state.sw.segments = front :: rest)
    (size : state.sw.size = state.windowBytes.length) (small : state.sw.size ≤ 65535)
    : (receivedAck env segment state).sw.size
      = state.sw.size
        - (content SegmentRef.payload
            (state.sw.segments.filter (removedBy segment front))).length := by
  have covers : ((content SegmentRef.payload state.sw.segments).length : Int)
      ≤ state.sw.size := Int.le_of_eq size.symm
  cases acknowledged : acknowledgesFront segment front with
  | true =>
      have removes : removedBy segment front = confirmed segment.receivedAckno := by
        funext node
        rw [removedBy, acknowledged, Bool.true_and]
      rw [removes, ← confirmLoop_size covers small, receivedAck_confirms env window acknowledged,
        (ctcpSend_place _ _).2, CtcpState.confirm]
  | false =>
      have removes : removedBy segment front = fun _ => false := by
        funext node
        rw [removedBy, acknowledged, Bool.false_and]
      simp only [receivedAck_ignores env window acknowledged, removes, List.filter_false,
        content_nil, List.length_nil, Nat.cast_zero, sub_zero]

/-- Which acknos the ACK branch treats as it should. Inside of the window: those that do not
cover the front, those below 2^31 that have not wrapped around, and from 2^31 on only the
one that covers all, when the front ends there too. Among the older ones: all, unless the
front straddles 2^31 or a segment has wrapped around.
-/
def CutsExactly (ackno total : Nat) (front : SegmentRef) (segments : List SegmentRef)
    : Prop :=
  if serialLe front.position ackno then
    serialOffset front.position ackno < front.payload.length
    ∨ (front.position ≤ ackno ∧ ackno < 2147483648)
    ∨ (2147483648 ≤ ackno ∧ 2147483648 ≤ front.ending
        ∧ serialOffset front.position ackno = total)
  else
    ¬ (front.position < 2147483648 ∧ 2147483648 ≤ front.ending ∧ 2147483648 ≤ ackno)
    ∧ ¬ (ackno < 2147483648 ∧ 2147483648 ≤ front.position
        ∧ ∃ node ∈ segments, node.position < front.position)

theorem Segment.ack_lt (segment : Segment) : segment.ack < 4294967296 :=
  (ntohl segment.ackno).toNat_lt

theorem confirmed_iff (receivedAckno : Int) (node : SegmentRef)
    : confirmed receivedAckno node = true ↔ node.ending ≤ sizeT receivedAckno := by
  rw [confirmed_eq_endsBy]
  simp only [endsBy, decide_eq_true_eq, SegmentRef.ending]

theorem acknowledgesFront_iff
    : acknowledgesFront segment front = true ↔ int32 front.ending ≤ segment.receivedAckno := by
  have seqBound := front.segment.seq_lt
  have dataBound := front.segment.length_data_lt
  have noWrap : front.segment.endSize = front.ending := by
    rw [Segment.endSize, Segment.payloadSize_eq, sizeT_natCast (by omega), Nat.add_comm]
    rfl
  simp only [acknowledgesFront, noWrap, decide_eq_true_eq, ge_iff_le]

/-- An ackno is large when it is negative, and confirms anything that is queued then. -/
theorem ending_le_sizeT_iff (segment : Segment) (node : SegmentRef)
    : node.ending ≤ sizeT segment.receivedAckno
      ↔ 2147483648 ≤ segment.ack ∨ node.ending ≤ segment.ack := by
  have ackBound := segment.ack_lt
  have seqBound := node.segment.seq_lt
  have dataBound := node.segment.length_data_lt
  simp only [SegmentRef.ending, SegmentRef.position, SegmentRef.payload, Segment.receivedAckno,
    sizeT, int32]
  omega

/-- Below 2^31 the ACK branch takes off what ends by the ackno, and from 2^31 on anything. -/
theorem removedBy_iff (node : SegmentRef)
    : removedBy segment front node = true
      ↔ int32 front.ending ≤ int32 segment.ack
        ∧ (2147483648 ≤ segment.ack ∨ node.ending ≤ segment.ack) := by
  rw [removedBy, Bool.and_eq_true, acknowledgesFront_iff, confirmed_iff, ending_le_sizeT_iff,
    Segment.receivedAckno]

/-- A queued segment lies inside of the window. -/
theorem ContiguousWindow.inside {start : Nat} (window : ContiguousWindow start total state)
    {node : SegmentRef} (member : node ∈ state.sw.segments)
    : serialOffset start node.position + node.payload.length ≤ total :=
  (window.chained.piece_end_le member).2

/-- Some segment ends where the window does. -/
theorem ContiguousWindow.last {start : Nat} (window : ContiguousWindow start total state)
    (front : state.sw.segments ≠ [])
    : ∃ node ∈ state.sw.segments,
        serialOffset start node.position + node.payload.length = total := by
  obtain ⟨last, isLast⟩ := Option.isSome_iff_exists.mp (List.getLast?_isSome.mpr front)
  exact ⟨last, List.mem_of_getLast? isLast, window.chained.getLast?_end isLast⟩

/-- Inside of the window, the ackno covers what ends at or before its offset. -/
theorem ContiguousWindow.covers_iff {start : Nat} (window : ContiguousWindow start total state)
    {ackno : Nat} (inWindow : serialOffset start ackno ≤ total) {node : SegmentRef}
    (member : node ∈ state.sw.segments)
    : covers start ackno node = true
      ↔ serialOffset start node.position + node.payload.length ≤ serialOffset start ackno := by
  have inside := window.inside member
  have small := window.small
  have near : serialOffset start ackno < 2147483648 := by omega
  rw [covers, (serialLe_iff _ _).mpr near, Bool.true_and]
  exact serialLe_add_iff (by omega) near

/-- An older ackno covers nothing. -/
theorem covers_older {start ackno : Nat} (older : serialLe start ackno = false)
    (node : SegmentRef)
    : covers start ackno node = false := by
  rw [covers, older, Bool.false_and]

/-- Where an ackno is compared with the front of the window as a signed number. -/
theorem front_le_iff {front : SegmentRef} (segment : Segment)
    : int32 front.ending ≤ int32 segment.ack
      ↔ (2147483648 ≤ front.ending % 4294967296 ∧ segment.ack < 2147483648)
        ∨ (front.ending % 4294967296 ≤ segment.ack
          ∧ (2147483648 ≤ front.ending % 4294967296 ↔ 2147483648 ≤ segment.ack)) := by
  have ackBound := segment.ack_lt
  simp only [int32]
  omega

/-- Where a queued segment lies, and that it ends behind the payload of the front. -/
theorem ContiguousWindow.position (window : ContiguousWindow front.position total state)
    (head : state.sw.segments = front :: rest) {node : SegmentRef}
    (member : node ∈ state.sw.segments)
    : front.payload.length ≤ serialOffset front.position node.position + node.payload.length
      ∧ (node.position = front.position + serialOffset front.position node.position
        ∨ node.position + 4294967296
          = front.position + serialOffset front.position node.position) := by
  refine ⟨?_, serialOffset_cases front.segment.seq_lt node.segment.seq_lt⟩
  have chained := window.chained
  rw [head, chained_cons] at chained
  rw [head] at member
  rcases List.mem_cons.mp member with rfl | later
  · exact Nat.le_add_left _ _
  · have behind := (chained.2.piece_end_le later).1
    omega

theorem ackno_cases (segment : Segment) (front : SegmentRef)
    : serialOffset front.position segment.ack < 4294967296
      ∧ (segment.ack = front.position + serialOffset front.position segment.ack
        ∨ segment.ack + 4294967296
          = front.position + serialOffset front.position segment.ack) :=
  ⟨uint32_lt _, serialOffset_cases front.segment.seq_lt segment.ack_lt⟩

/-- One of the two tests implies the other on the whole window. -/
theorem ContiguousWindow.comparable (window : ContiguousWindow front.position total state)
    (head : state.sw.segments = front :: rest)
    (lies
      : serialOffset front.position segment.ack ≤ total
        ∨ serialLe front.position segment.ack = false)
    : (∀ node ∈ state.sw.segments,
          removedBy segment front node = true → covers front.position segment.ack node = true)
      ∨ ∀ node ∈ state.sw.segments,
          covers front.position segment.ack node = true → removedBy segment front node = true := by
  have small := window.small
  have ackno := ackno_cases segment front
  rcases lies with inWindow | older
  · by_cases acknowledged : int32 front.ending ≤ int32 segment.ack
    · by_cases high : 2147483648 ≤ segment.ack
      · exact Or.inr fun node _ _ => (removedBy_iff node).mpr ⟨acknowledged, Or.inl high⟩
      · refine Or.inl fun node member removed => (window.covers_iff inWindow member).mpr ?_
        have ends := (removedBy_iff node).mp removed
        have inside := window.inside member
        obtain ⟨-, place⟩ := window.position head member
        simp only [SegmentRef.ending] at ends
        omega
    · exact Or.inl fun node _ removed => absurd ((removedBy_iff node).mp removed).1 acknowledged
  · exact Or.inr fun node _ covered => absurd covered (by simp [covers_older older])

/-- Inside of the window the ACK branch removes what is covered only if the ackno is treated as
it should be.
-/
theorem ContiguousWindow.agree_inside (window : ContiguousWindow front.position total state)
    (head : state.sw.segments = front :: rest)
    (inWindow : serialOffset front.position segment.ack ≤ total)
    : (∀ node ∈ state.sw.segments,
          removedBy segment front node = covers front.position segment.ack node)
      ↔ CutsExactly segment.ack total front state.sw.segments := by
  have frontBound : front.position < 4294967296 := front.segment.seq_lt
  have ackBound := segment.ack_lt
  have small := window.small
  have ackno := ackno_cases segment front
  have frontMember : front ∈ state.sw.segments := by simp [head]
  have frontInside := window.inside frontMember
  have origin := serialOffset_self front.position
  have near : serialOffset front.position segment.ack < 2147483648 := by omega
  rw [CutsExactly, if_pos ((serialLe_iff _ _).mpr near)]
  constructor
  · intro agree
    by_cases covered : serialOffset front.position segment.ack < front.payload.length
    · exact Or.inl covered
    · have first := agree front frontMember
      obtain ⟨last, member, ends⟩ := window.last (List.ne_nil_of_mem frontMember)
      have final := agree last member
      rw [Bool.eq_iff_iff, removedBy_iff, front_le_iff, window.covers_iff inWindow frontMember]
        at first
      rw [Bool.eq_iff_iff, removedBy_iff, front_le_iff, window.covers_iff inWindow member, ends]
        at final
      simp only [SegmentRef.ending] at *
      omega
  · intro cuts node member
    have inside := window.inside member
    obtain ⟨behind, place⟩ := window.position head member
    rw [Bool.eq_iff_iff, removedBy_iff, front_le_iff, window.covers_iff inWindow member]
    simp only [SegmentRef.ending] at *
    omega

theorem ContiguousWindow.agree_older (window : ContiguousWindow front.position total state)
    (head : state.sw.segments = front :: rest)
    (older : serialLe front.position segment.ack = false)
    : (∀ node ∈ state.sw.segments,
          removedBy segment front node = covers front.position segment.ack node)
      ↔ CutsExactly segment.ack total front state.sw.segments := by
  have offset : ¬ serialOffset front.position segment.ack < 2147483648 := by
    rw [← serialLe_iff, older]
    simp
  have frontBound : front.position < 4294967296 := front.segment.seq_lt
  have ackBound := segment.ack_lt
  have small := window.small
  have ackno := ackno_cases segment front
  have frontInside := window.inside (show front ∈ state.sw.segments by simp [head])
  have origin := serialOffset_self front.position
  rw [CutsExactly, if_neg (by simp [older])]
  simp only [covers_older older]
  constructor
  · intro agree
    refine ⟨fun straddles => ?_, fun wraps => ?_⟩
    · have kept := agree front (by simp [head])
      rw [Bool.eq_false_iff, ne_eq, removedBy_iff, front_le_iff] at kept
      simp only [SegmentRef.ending] at *
      omega
    · obtain ⟨low, high, node, member, wrapped⟩ := wraps
      have kept := agree node member
      have inside := window.inside member
      obtain ⟨-, place⟩ := window.position head member
      rw [Bool.eq_false_iff, ne_eq, removedBy_iff, front_le_iff] at kept
      simp only [SegmentRef.ending] at *
      omega
  · rintro ⟨straight, unwrapped⟩ node member
    have inside := window.inside member
    obtain ⟨-, place⟩ := window.position head member
    have noWrap : segment.ack < 2147483648 → 2147483648 ≤ front.position
        → front.position ≤ node.position := fun low high =>
      Nat.not_lt.mp fun wrapped => unwrapped ⟨low, high, node, member, wrapped⟩
    rw [Bool.eq_false_iff, ne_eq, removedBy_iff, front_le_iff]
    simp only [SegmentRef.ending] at *
    omega

/-- Taking off what is covered takes off the first segments of the window. -/
theorem ContiguousWindow.split {start : Nat} (window : ContiguousWindow start total state)
    {ackno : Nat}
    (lies : serialOffset start ackno ≤ total ∨ serialLe start ackno = false)
    : state.sw.segments
      = state.sw.segments.filter (covers start ackno)
        ++ state.sw.segments.filter (fun node => !covers start ackno node) := by
  rcases lies with inWindow | older
  · obtain ⟨middle, parts, -⟩ := window.chained.split_at (serialOffset start ackno)
    have same : ∀ node ∈ state.sw.segments,
        covers start ackno node
          = endsBy (fun node => serialOffset start node.position) SegmentRef.payload
              (serialOffset start ackno) node := by
      intro node member
      rw [Bool.eq_iff_iff, window.covers_iff inWindow member, endsBy, decide_eq_true_eq]
    obtain ⟨first, others⟩ := filter_congr_both same
    rw [first, others]
    exact parts
  · have none : ∀ node ∈ state.sw.segments, covers start ackno node = false :=
      fun node _ => covers_older older node
    obtain ⟨first, others⟩ := filter_congr_both none
    rw [first, others, List.filter_false, Bool.not_false, List.filter_true, List.nil_append]

/-- The ACK branch removes exactly the segments that an ackno covers in serial order just for the
acknos that it treats as it should, wherever the window lies.
-/
theorem receivedAck_cumulative_iff (env : Env) {segment : Segment} {state : CtcpState}
    {front : SegmentRef} {rest : List SegmentRef} {total : Nat}
    (head : state.sw.segments = front :: rest)
    (window : ContiguousWindow front.position total state)
    (lies
      : serialOffset front.position segment.ack
          ≤ serialOffset front.position (uint32 state.sw.seqno)
        ∨ serialLe front.position segment.ack = false)
    : RemovesFirst (covers front.position segment.ack) state (receivedAck env segment state)
      ↔ CutsExactly segment.ack total front state.sw.segments := by
  rw [window.seqno] at lies
  have agree_iff : (∀ node ∈ state.sw.segments,
        removedBy segment front node = covers front.position segment.ack node)
      ↔ CutsExactly segment.ack total front state.sw.segments := by
    rcases lies with inWindow | older
    · exact window.agree_inside head inWindow
    · exact window.agree_older head older
  have leaves := receivedAck_leaves env segment head
  rw [← agree_iff]
  constructor
  · intro removes
    have lengths := congrArg List.length (leaves.symm.trans removes.kept)
    simp only [List.length_map] at lengths
    rcases window.comparable head lies with fewer | more
    · exact agree_of_length_kept fewer lengths
    · exact fun node member => (agree_of_length_kept more lengths.symm node member).symm
  · intro agree
    obtain ⟨removed, kept⟩ := filter_congr_both agree
    have bytes : state.sw.size = state.windowBytes.length := by
      have ends := window.chained.stop_eq
      rw [window.size, ends, Nat.zero_add]
      rfl
    have small : state.sw.size ≤ 65535 := by
      have small := window.small
      rw [window.size]
      omega
    refine ⟨window.split lies, by rw [leaves, kept], ?_⟩
    rw [receivedAck_size env segment head bytes small, removed]

end AckBranch

/-- A stamped segment with one byte, at a position. -/
def byteAtPosition (address position : Nat) : SegmentRef :=
  let sender :=
    { ctcpInit defaultConfig with
      sw.seqno := int32 position
      sendBuf := ⟨[0x61], singleton_fits _⟩ }
  { address := address, segment := { (sender.newSegment 0 .data).segment with cksum := 1 } }

theorem byteAtPosition_position (address : Nat) {position : Nat}
    (bound : position < 4294967296)
    : (byteAtPosition address position).position = position := by
  have written := CtcpState.newSegment_position
    { ctcpInit defaultConfig with
      sw.seqno := int32 position
      sendBuf := ⟨[0x61], singleton_fits _⟩ }
    0 .data
  rw [uint32_int32, uint32_natCast bound] at written
  exact written

/-- A send window of two such segments. -/
def twoByteWindow (start : Nat) : CtcpState :=
  { ctcpInit defaultConfig with
    sw.segments := [byteAtPosition 0 start, byteAtPosition 1 (start + 1)]
    sw.size := 2
    sw.seqno := int32 (start + 2) }

theorem twoByteWindow_contiguous {start : Nat} (bound : start + 2 < 4294967296)
    : ContiguousWindow (byteAtPosition 0 start).position 2 (twoByteWindow start) := by
  have first := @byteAtPosition_position 0 start (by omega)
  have second := @byteAtPosition_position 1 (start + 1) (by omega)
  refine ⟨?_, ?_, rfl, by decide⟩
  · simp only [twoByteWindow, chained_cons, chained_nil, first, second]
    refine ⟨serialOffset_self start, ?_, rfl⟩
    simp only [serialOffset, uint32, Nat.cast_add, Nat.cast_one, add_sub_cancel_left]
    rfl
  · have written : uint32 (twoByteWindow start).sw.seqno = start + 2 := by
      simp only [twoByteWindow, uint32_int32]
      exact_mod_cast uint32_natCast bound
    rw [written, first]
    simp only [serialOffset, uint32, Nat.cast_add, Nat.cast_ofNat, add_sub_cancel_left]
    rfl

/-- An ACK with an ackno. -/
def ackOf (ackno : Nat) : Segment :=
  ({ ctcpInit defaultConfig with rw.ackno := int32 ackno }.newSegment 0 .ack).segment

/-- The rule at an ACK for the first of two bytes. -/
theorem receivedAck_cumulative_iff_first
    : RemovesFirst (covers (byteAtPosition 0 1).position (ackOf 2).ack) (twoByteWindow 1)
        (receivedAck (.steady 0 0) (ackOf 2) (twoByteWindow 1)) := by
  have cuts : CutsExactly (ackOf 2).ack 2 (byteAtPosition 0 1)
      (twoByteWindow 1).sw.segments := by
    rw [CutsExactly, if_pos (by decide +kernel)]
    exact Or.inr (Or.inl (by decide +kernel))
  have head : (twoByteWindow 1).sw.segments = [byteAtPosition 0 1, byteAtPosition 1 2] := rfl
  exact (receivedAck_cumulative_iff (.steady 0 0) head (twoByteWindow_contiguous (by decide))
    (Or.inl (by decide +kernel))).mpr cuts

/-- In a window across 2^31 the ACK for the first byte removes the second byte as well. -/
theorem straddling_window_emptied
    : ¬ ∀ (env : Env) (segment : Segment) (state : CtcpState) (front : SegmentRef)
        (rest : List SegmentRef) (total : Nat),
        state.sw.segments = front :: rest → ContiguousWindow front.position total state
        → serialOffset front.position segment.ack
            ≤ serialOffset front.position (uint32 state.sw.seqno)
          ∨ serialLe front.position segment.ack = false
        → RemovesFirst (covers front.position segment.ack) state
            (receivedAck env segment state) := by
  intro always
  have removes := always (.steady 0 0) (ackOf 2147483648) (twoByteWindow 2147483647) _ _ 2 rfl
    (twoByteWindow_contiguous (by decide)) (Or.inl (by decide +kernel))
  exact absurd removes.size (by decide +kernel)

-----------------------------------------------------------------------------------------
-- Acknowledgements in any segment
-----------------------------------------------------------------------------------------

/-- From `state` to `next` the segments that end by the ackno have left the window, and the size
has decreased by their payload.
-/
structure Honours (ackno : Nat) (state next : CtcpState) : Prop where
  gone : ∀ node ∈ next.sw.segments, ackno < node.ending
  size
    : next.sw.size
      = state.sw.size
        - (content SegmentRef.payload
            (state.sw.segments.filter (fun node => node.ending ≤ ackno))).length

/-- A received FIN makes the connection queue its own. -/
def CtcpState.ReturnsFin (segment : Segment) (state : CtcpState) : Prop :=
  segment.flags &&& thFin ≠ 0 ∧ state.timerTeardown = -1

/-- When an acknowledgement is honoured. One with data must have nothing to take off, and be
received without a fault; a bare one must not be negative as a signed number, unless all
that is queued ends at 2^31.
-/
def CtcpState.Honourable (segment : Segment) (len : Nat) (state : CtcpState) : Prop :=
  if Bare len then
    segment.ack < 2147483648
    ∨ (∀ node ∈ state.sw.segments, 2147483648 ≤ node.ending)
      ∧ (state.ReturnsFin segment → 2147483648 ≤ uint32 state.sw.seqno)
  else
    (∀ node ∈ state.sw.segments, segment.ack < node.ending)
    ∧ ¬ (uint32 state.rw.ackno < segment.seq ∧ state.payloadFits len
        ∧ state.rw.segments = [])

section Carried

variable {env : Env} {segment : Segment} {len : Nat} {state next : CtcpState}

theorem Settled.finNoted (env : Env) (segment : Segment) (settled : Settled state)
    : Settled (state.finNoted env segment) :=
  ⟨settled.bufferEmpty, settled.stamped, settled.timed,
    fun node member => Nat.lt_add_right 2 (settled.allocated node member)⟩

/-- The window after a FIN has been reacted to: an own FIN may have been queued. -/
theorem reacted_segments (env : Env) (segment : Segment) (settled : Settled state)
    : (state.reacted env segment).sw.size = state.sw.size
      ∧ ∃ fins,
          (state.reacted env segment).sw.segments = state.sw.segments ++ fins
          ∧ (fins ≠ [] ↔ state.ReturnsFin segment)
          ∧ ∀ node ∈ fins, node.payload = [] ∧ node.position = uint32 state.sw.seqno := by
  simp only [CtcpState.reacted, CtcpState.ReturnsFin]
  by_cases finBit : segment.flags &&& thFin ≠ 0
  · rw [if_pos finBit]
    by_cases stopped : state.timerTeardown = -1
    · rw [if_pos stopped]
      refine ⟨rfl, [_], rfl, by simp [finBit, stopped], ?_⟩
      intro node member
      rw [List.mem_singleton.mp member, SegmentRef.stamp_payload, SegmentRef.stamp_position,
        CtcpState.newSegment_position]
      exact ⟨(settled.finNoted env segment).fin_payload (env.pad 1), rfl⟩
    · rw [if_neg stopped]
      exact ⟨rfl, [], (List.append_nil _).symm, by simp [stopped], by simp⟩
  · rw [if_neg finBit]
    split
    · exact ⟨rfl, [], (List.append_nil _).symm, by simp [not_not.mp finBit], by simp⟩
    · exact ⟨rfl, [], (List.append_nil _).symm, by simp [not_not.mp finBit], by simp⟩

/-- Reacting to a FIN keeps the window settled, sized and tiled. -/
theorem reacted_tiled (env : Env) (segment : Segment) (settled : Settled state)
    (sized : Sized state) (tiled : Tiled state)
    (short : state.log.input.length < 2147483648)
    : Settled (state.reacted env segment) ∧ Sized (state.reacted env segment)
      ∧ Tiled (state.reacted env segment) := by
  have finNoted := settled.finNoted env segment
  have finSized : Sized (state.finNoted env segment) :=
    ⟨sized.size, sized.fits, sized.maxSize, sized.payloads⟩
  have finTiled : Tiled (state.finNoted env segment) :=
    ⟨tiled.acked, tiled.window, tiled.bytes, tiled.seqno⟩
  rw [CtcpState.reacted]
  split
  · split
    · have queued : Update .any (state.finNoted env segment) _ :=
        .queueFin (env.now 0) (env.pad 1) trivial trivial
      exact ⟨queued.settled finNoted, finSized.queueFin finNoted _ _,
        finTiled.queueFin finNoted short _ _⟩
    · exact ⟨finNoted, finSized, finTiled⟩
  · have noted := settled.noted segment
    split
    · exact ⟨⟨noted.bufferEmpty, noted.stamped, noted.timed, noted.allocated⟩,
        ⟨sized.size, sized.fits, sized.maxSize, sized.payloads⟩,
        ⟨tiled.acked, tiled.window, tiled.bytes, tiled.seqno⟩⟩
    · exact ⟨noted, ⟨sized.size, sized.fits, sized.maxSize, sized.payloads⟩,
        ⟨tiled.acked, tiled.window, tiled.bytes, tiled.seqno⟩⟩

theorem reacted_input (env : Env) (segment : Segment) (state : CtcpState)
    : (state.reacted env segment).log.input = state.log.input := by
  rw [CtcpState.reacted]
  split
  · split <;> rfl
  · split <;> rfl

/-- The endings in a send window on less than 2^31 bytes are in order and at most 2^31. -/
theorem Tiled.endings (tiled : Tiled state) (short : state.log.input.length < 2147483648)
    {front : SegmentRef} {rest : List SegmentRef} (head : state.sw.segments = front :: rest)
    : ∀ node ∈ state.sw.segments, front.ending ≤ node.ending ∧ node.ending ≤ 2147483648 := by
  intro node member
  have inside := (tiled.window.piece_end_le member).2
  have window := tiled.window
  rw [head, chained_cons] at window
  rw [head] at member
  simp only [SegmentRef.ending]
  rcases List.mem_cons.mp member with rfl | later
  · omega
  · have behind := (window.2.piece_end_le later).1
    omega

/-- A bare ACK on less than 2^31 bytes is honoured unless its ackno is negative as a signed
number and some queued segment ends before 2^31.
-/
theorem receivedAck_honours_iff (env : Env) (segment : Segment) (sized : Sized state)
    (tiled : Tiled state) (short : state.log.input.length < 2147483648)
    : Honours segment.ack state (receivedAck env segment state)
      ↔ segment.ack < 2147483648 ∨ ∀ node ∈ state.sw.segments, 2147483648 ≤ node.ending := by
  cases head : state.sw.segments with
  | nil =>
      rw [receivedAck_empty env segment head]
      exact iff_of_true ⟨by simp [head], by simp [head]⟩ (Or.inr (by simp))
  | cons front rest =>
      have ackBound := segment.ack_lt
      have endings := tiled.endings short head
      have leaves := receivedAck_leaves env segment head
      have size := receivedAck_size env segment head sized.size
        (Int.le_trans sized.fits sized.maxSize)
      rw [← head]
      have frontMember : front ∈ state.sw.segments := by simp [head]
      have frontEnd := endings front frontMember
      by_cases honoured : segment.ack < 2147483648 ∨ 2147483648 ≤ front.ending
      · have removes : ∀ node ∈ state.sw.segments,
            removedBy segment front node = decide (node.ending ≤ segment.ack) := by
          intro node member
          have ends := endings node member
          rw [Bool.eq_iff_iff, removedBy_iff, front_le_iff, decide_eq_true_iff]
          omega
        obtain ⟨removed, kept⟩ := filter_congr_both removes
        refine iff_of_true ⟨?_, ?_⟩
          (honoured.imp_right fun high node member =>
            Nat.le_trans high (endings node member).1)
        · intro node member
          have placed := List.mem_map_of_mem (f := SegmentRef.place) member
          rw [leaves, kept] at placed
          obtain ⟨other, stays, place⟩ := List.mem_map.mp placed
          have behind := (List.mem_filter.mp stays).2
          rw [← ending_of_place place]
          simpa using behind
        · rw [size, removed]
      · have ignored : acknowledgesFront segment front = false := by
          rw [Bool.eq_false_iff, ne_eq, acknowledgesFront_iff, Segment.receivedAckno, front_le_iff]
          omega
        refine iff_of_false (fun honours => ?_) (fun high => ?_)
        · have gone := honours.gone front
          rw [receivedAck_ignores env head ignored] at gone
          have above := gone frontMember
          omega
        · exact honoured (high.imp_right fun all => all front frontMember)

/-- An own FIN has no payload that could leave the window. -/
theorem honours_reacted_iff (env : Env) (segment : Segment) (ackno : Nat)
    (settled : Settled state)
    : Honours ackno (state.reacted env segment) next ↔ Honours ackno state next := by
  obtain ⟨size, fins, window, -, empty⟩ := reacted_segments env segment settled
  have none : content SegmentRef.payload (fins.filter (fun node => node.ending ≤ ackno)) = [] :=
    List.flatMap_eq_nil_iff.mpr fun node member =>
      (empty node (List.mem_of_mem_filter member)).1
  have same : content SegmentRef.payload
        ((state.reacted env segment).sw.segments.filter (fun node => node.ending ≤ ackno))
      = content SegmentRef.payload
        (state.sw.segments.filter (fun node => node.ending ≤ ackno)) := by
    rw [window, List.filter_append, content_append, none, List.append_nil]
  constructor
  · exact fun honours => ⟨honours.gone, by rw [honours.size, size, same]⟩
  · exact fun honours => ⟨honours.gone, by rw [honours.size, size, same]⟩

/-- A window that is left alone honours an ackno that it ends behind. -/
theorem honours_iff_of_same (segments : next.sw.segments = state.sw.segments)
    (size : next.sw.size = state.sw.size) (ackno : Nat)
    : Honours ackno state next ↔ ∀ node ∈ state.sw.segments, ackno < node.ending := by
  constructor
  · exact fun honours => segments ▸ honours.gone
  · intro behind
    have none : state.sw.segments.filter (fun node => node.ending ≤ ackno) = [] :=
      List.filter_eq_nil_iff.mpr fun node member =>
        by simpa using behind node member
    exact ⟨segments ▸ behind, by rw [size, none]; simp⟩

/-- The endings of what is queued after a FIN, its own FIN included. -/
theorem reacted_endings (env : Env) (segment : Segment) (settled : Settled state) (limit : Nat)
    : (∀ node ∈ (state.reacted env segment).sw.segments, limit ≤ node.ending)
      ↔ (∀ node ∈ state.sw.segments, limit ≤ node.ending)
        ∧ (state.ReturnsFin segment → limit ≤ uint32 state.sw.seqno) := by
  obtain ⟨-, fins, window, returns, own⟩ := reacted_segments env segment settled
  have ending : ∀ node ∈ fins, node.ending = uint32 state.sw.seqno := by
    intro node member
    obtain ⟨empty, position⟩ := own node member
    rw [SegmentRef.ending, empty, position]
    rfl
  rw [window, List.forall_mem_append]
  refine and_congr_right fun _ => ?_
  constructor
  · intro above returned
    obtain ⟨node, member⟩ := List.exists_mem_of_ne_nil _ (returns.mpr returned)
    exact ending node member ▸ above node member
  · intro above node member
    rw [ending node member]
    exact above (returns.mp (List.ne_nil_of_mem member))

/-- Acknowledgements are honoured, whatever they come with, exactly when a segment with data has
nothing to acknowledge and is received without a fault, or a bare one is not negative as a
signed number or finds nothing that ends before 2^31.
-/
theorem receive_honours_iff (env : Env) {cfg : CtcpConfig} {calls : List Call}
    {state : CtcpState} {segment : Segment} {len : Nat}
    (reached : runFrom cfg calls = some state)
    (short : state.log.input.length < 2147483648) (verified : checksum segment)
    (ack : segment.flags &&& thAck ≠ 0)
    : (∃ next,
        step state (.receive env segment len) = some next ∧ Honours segment.ack state next)
      ↔ state.Honourable segment len := by
  obtain ⟨settled, sized, tile⟩ := runFrom_invariant (fun _ => True)
    (fun state => Sized state ∧ (state.log.input.length < 2147483648 → Tiled state))
    (fun _ settled held update => ⟨update.sized settled held.1, update.tiled settled held.2⟩)
    ⟨ctcpInit_sized cfg, fun _ => ctcpInit_tiled cfg⟩ (fun _ _ => trivial) reached
  have tiled := tile short
  have acks : segment.acks := Or.inl ack
  rw [CtcpState.Honourable]
  split
  · next bare =>
      obtain ⟨-, sizedNow, tiledNow⟩ := reacted_tiled env segment settled sized tiled short
      have honours := receivedAck_honours_iff env segment.cleared sizedNow tiledNow
        (by rw [reacted_input]; exact short)
      rw [Segment.cleared_ack, honours_reacted_iff env segment _ settled,
        reacted_endings env segment settled] at honours
      rw [receive_of_bare env settled verified bare, if_pos acks, ← honours]
      simp only [Option.some.injEq, exists_eq_left']
  · next hasData =>
      have arrived := settled.arrived_noted segment
      have returns := @receive_returns_iff segment len state env settled
      have same : ∀ next, step state (.receive env segment len) = some next
          → (Honours segment.ack state next
            ↔ ∀ node ∈ state.sw.segments, segment.ack < node.ending) := by
        intro next taken
        rw [receive_of_data env verified hasData] at taken
        have sw := (receivedData_sending arrived taken).1.sw
        exact honours_iff_of_same (by rw [sw]; rfl) (by rw [sw]; rfl) _
      constructor
      · rintro ⟨next, taken, honours⟩
        refine ⟨(same next taken).mp honours, fun faulty => ?_⟩
        exact returns.mp ⟨next, taken⟩ ⟨verified, hasData, faulty⟩
      · rintro ⟨behind, sound⟩
        obtain ⟨next, taken⟩ := returns.mpr fun faulty => sound faulty.2.2
        exact ⟨next, taken, (same next taken).mpr behind⟩

end Carried

/-- A connection reads one byte. -/
def oneByteRead : List Call := [.read (.steady 0 0) (some [0x61])]

/-- An ACK for that byte. -/
def ackOfByte : Segment := (ackOf 2).summed

/-- The same acknowledgement with a byte of data. -/
def dataWithAck : Segment :=
  ({ ctcpInit defaultConfig with rw.ackno := 2, sendBuf := ⟨[0x62], singleton_fits _⟩ }.newSegment
    0 .data).segment.summed

/-- The rule at a bare ACK for the byte. -/
theorem receive_honours_iff_bare
    : ∃ state next,
        runFrom defaultConfig oneByteRead = some state
        ∧ step state (.receive (.steady 0 0) ackOfByte segHeaderSize) = some next
        ∧ Honours ackOfByte.ack state next := by
  have reached : (runFrom defaultConfig oneByteRead).isSome := by decide +kernel
  have bare : Bare segHeaderSize := by decide
  have short : ((runFrom defaultConfig oneByteRead).get reached).log.input.length
      < 2147483648 := by
    decide +kernel +revert
  have honourable : ((runFrom defaultConfig oneByteRead).get reached).Honourable ackOfByte
      segHeaderSize := by
    rw [CtcpState.Honourable, if_pos bare]
    exact Or.inl (by decide +kernel)
  obtain ⟨next, taken, honours⟩ :=
    (receive_honours_iff (.steady 0 0) (Option.some_get reached).symm short (by decide +kernel)
      (by decide +kernel)).mpr honourable
  exact ⟨_, next, (Option.some_get reached).symm, taken, honours⟩

/-- The byte stays queued when its acknowledgement comes with data. -/
theorem dataWithAck_not_honoured
    : ¬ ∀ (env : Env) (cfg : CtcpConfig) (calls : List Call) (state : CtcpState)
        (segment : Segment) (len : Nat),
        runFrom cfg calls = some state → state.log.input.length < 2147483648
        → checksum segment → segment.flags &&& thAck ≠ 0
        → ∃ next,
            step state (.receive env segment len) = some next
            ∧ Honours segment.ack state next := by
  intro always
  have stays : (runFrom defaultConfig oneByteRead).any (fun state =>
      state.log.input.length = 1
      && (step state (.receive (.steady 0 0) dataWithAck 21)).all (fun next =>
        next.sw.segments.any (fun node => node.ending ≤ dataWithAck.ack))) := by
    decide +kernel
  obtain ⟨state, reached, facts⟩ := (Option.any_eq_true _ _).mp stays
  obtain ⟨length, queued⟩ := (Bool.and_eq_true _ _).mp facts
  have short : state.log.input.length < 2147483648 := by
    rw [of_decide_eq_true length]
    decide
  obtain ⟨next, taken, honours⟩ := always (.steady 0 0) defaultConfig oneByteRead state
    dataWithAck 21 reached short (by decide +kernel) (by decide +kernel)
  rw [taken, Option.all_some, List.any_eq_true] at queued
  obtain ⟨node, member, ends⟩ := queued
  exact Nat.not_le.mpr (honours.gone node member) (of_decide_eq_true ends)

end Networks.Ctcp
