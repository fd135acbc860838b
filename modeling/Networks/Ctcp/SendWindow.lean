import Networks.Ctcp.Updates
import Networks.Library.StreamPieces

/-! The send window is an exact piece of the input stream: the segments that were confirmed
and those still queued cut the bytes read from the application into consecutive pieces.
-/

namespace Networks.Ctcp

open MachineIntegers StreamPieces

/-- The stream position a queued object starts at. -/
abbrev SegmentRef.position (object : SegmentRef) : Nat := object.segment.seq

/-- The payload of a queued object. -/
abbrev SegmentRef.payload (object : SegmentRef) : List UInt8 := object.segment.data

/-- The bytes confirmed by the other end and dropped from the send window. -/
def CtcpState.ackedBytes (state : CtcpState) : List UInt8 :=
  content SegmentRef.payload state.log.acked

/-- The bytes queued in the send window. -/
def CtcpState.windowBytes (state : CtcpState) : List UInt8 :=
  content SegmentRef.payload state.sw.segments

/-- `size` counts the queued bytes, and they fit. -/
structure Sized (state : CtcpState) : Prop where
  size : state.sw.size = state.windowBytes.length
  fits : state.sw.size ≤ state.sw.maxSize
  maxSize : state.sw.maxSize ≤ 65535
  payloads : ∀ node ∈ state.sw.segments, node.payload.length ≤ maxSegDataSize

/-- The confirmed and the queued segments tile the input stream. Its positions start at one,
the first sequence number.
-/
structure Tiled (state : CtcpState) : Prop where
  acked
    : Chained SegmentRef.position SegmentRef.payload 1 state.log.acked
        (1 + state.ackedBytes.length)
  window
    : Chained SegmentRef.position SegmentRef.payload (1 + state.ackedBytes.length)
        state.sw.segments (1 + state.log.input.length)
  bytes : state.ackedBytes ++ state.windowBytes = state.log.input
  seqno : state.sw.seqno = int32 (1 + state.log.input.length)

theorem ctcpInit_sized (cfg : CtcpConfig) : Sized (ctcpInit cfg) where
  size := rfl
  fits := Int.natCast_nonneg _
  maxSize := by
    have bound := cfg.sendWindow.toNat_lt
    simp only [ctcpInit]
    omega
  payloads := by simp [ctcpInit]

theorem ctcpInit_tiled (cfg : CtcpConfig) : Tiled (ctcpInit cfg) where
  acked := rfl
  window := rfl
  bytes := rfl
  seqno := by simp [ctcpInit, int32]

theorem SegmentRef.stamp_position (ackno : UInt32) (object : SegmentRef)
    : (object.stamp ackno).position = object.position := by
  simp only [position, Segment.seq, stamp_seqno]

theorem SegmentRef.stamp_payload (ackno : UInt32) (object : SegmentRef)
    : (object.stamp ackno).payload = object.payload :=
  object.stamp_data ackno

/-- A built segment starts at the next sequence number. -/
theorem CtcpState.newSegment_position (state : CtcpState) (pad : UInt16) (mode : Mode)
    : (state.newSegment pad mode).position = uint32 state.sw.seqno := by
  have bound := uint32_lt state.sw.seqno
  simp only [SegmentRef.position, Segment.seq, newSegment, ntohl_htonl, UInt32.toNat_ofNat']
  omega

@[simp] theorem CtcpState.newSegment_payload (state : CtcpState) (pad : UInt16) (mode : Mode)
    : (state.newSegment pad mode).payload = state.sendBuf.val := by
  simp only [SegmentRef.payload, newSegment]

/-- While the input stream is short enough, the next segment starts right behind it. -/
theorem Tiled.next_position {state : CtcpState} (tiled : Tiled state)
    (short : state.log.input.length < 2147483648)
    : uint32 state.sw.seqno = 1 + state.log.input.length := by
  rw [tiled.seqno, uint32_int32]
  have high : 1 + state.log.input.length < 4294967296 := by omega
  exact_mod_cast uint32_natCast high

/-- The loop of the ACK branch removes the segments that end by the received ackno. -/
theorem confirmed_eq_endsBy (receivedAckno : Int)
    : confirmed receivedAckno
      = endsBy SegmentRef.position SegmentRef.payload (sizeT receivedAckno) := by
  funext node
  have seqBound := node.segment.seq_lt
  have dataBound := node.segment.length_data_lt
  have noWrap : node.segment.endSize = node.position + node.payload.length := by
    rw [Segment.endSize, Segment.payloadSize_eq, sizeT_natCast (by omega), Nat.add_comm]
  simp only [confirmed, endsBy, noWrap]

/-- The loop of the ACK branch takes the removed payloads off the size, by induction on the
window.
-/
theorem confirmLoop_size {receivedAckno size : Int} {segments : List SegmentRef}
    (covers : ((content SegmentRef.payload segments).length : Int) ≤ size)
    (small : size ≤ 65535)
    : (confirmLoop receivedAckno size segments).size
      = size
        - (content SegmentRef.payload (segments.filter (confirmed receivedAckno))).length := by
  induction segments generalizing size with
  | nil => simp [confirmLoop]
  | cons node next ih =>
      simp only [content_cons, List.length_append, Nat.cast_add] at covers
      by_cases gone : confirmed receivedAckno node
      · have noWrap : int32 (size - node.segment.payloadSize) = size - node.payload.length := by
          rw [Segment.payloadSize_eq]
          simp only [SegmentRef.payload] at covers
          exact int32_eq_self (by omega) (by omega)
        simp only [confirmLoop, gone, if_true, noWrap, List.filter_cons_of_pos, content_cons,
          List.length_append, Nat.cast_add]
        rw [ih (by omega) (by omega)]
        omega
      · simp only [confirmLoop, gone, Bool.false_eq_true, if_false, not_false_eq_true,
          List.filter_cons_of_neg]
        exact ih (by omega) small

/-- The bytes of the segments an acknowledgement confirms. -/
def CtcpState.confirmedBytes (segment : Segment) (state : CtcpState) : List UInt8 :=
  content SegmentRef.payload (state.sw.segments.filter (confirmed segment.receivedAckno))

theorem CtcpState.slide_ackedBytes (now : Int) (segment : Segment) (state : CtcpState)
    : (state.slide now segment).ackedBytes
      = state.ackedBytes ++ state.confirmedBytes segment := by
  simp only [ackedBytes, slide, content_append, confirmedBytes]

/-- A new FIN has no payload: nothing waits in the send buffer. -/
theorem Settled.fin_payload {state : CtcpState} (settled : Settled state) (pad : UInt16)
    : (state.newSegment pad .fin).payload = [] := by
  rw [CtcpState.newSegment_payload, settled.bufferEmpty]

theorem CtcpState.transmitNew_windowBytes (now : Int) (object : SegmentRef)
    (state : CtcpState)
    : (state.transmitNew now object).windowBytes = state.windowBytes ++ object.payload := by
  simp only [windowBytes, transmitNew, content_append, content_cons, content_nil,
    SegmentRef.stamp_payload, List.append_nil]

theorem CtcpState.queueData_windowBytes (now : Int) (pad : UInt16) (bytes : SendBuf)
    (state : CtcpState)
    : (state.queueData now pad bytes).windowBytes = state.windowBytes ++ bytes.val :=
  state.transmitNew_windowBytes now (state.dataSegment pad bytes)

theorem CtcpState.retransmit_windowBytes (now : Int) {node : SegmentRef}
    {next : List SegmentRef} {state : CtcpState} (front : state.sw.segments = node :: next)
    : (state.retransmit now node next).windowBytes = state.windowBytes := by
  simp only [windowBytes, retransmit, front, content_cons, SegmentRef.stamp_payload]

/-- Stamping a segment for the window keeps its payload within the limit. -/
theorem stamp_payloads {segments : List SegmentRef} {object : SegmentRef} {ackno : UInt32}
    (payloads : ∀ node ∈ segments, node.payload.length ≤ maxSegDataSize)
    (small : object.payload.length ≤ maxSegDataSize)
    : ∀ node ∈ segments ++ [object.stamp ackno], node.payload.length ≤ maxSegDataSize := by
  intro node member
  rcases List.mem_append.mp member with old | new
  · exact payloads node old
  · rw [List.mem_singleton.mp new, SegmentRef.stamp_payload]
    exact small

-----------------------------------------------------------------------------------------
-- Every update keeps the size
-----------------------------------------------------------------------------------------

theorem Sized.queueFin {state : CtcpState} (sized : Sized state) (settled : Settled state)
    (now : Int) (pad : UInt16)
    : Sized (state.queueFin now pad) := by
  have empty := settled.fin_payload pad
  have sameBytes : (state.queueFin now pad).windowBytes = state.windowBytes := by
    rw [CtcpState.queueFin, CtcpState.transmitNew_windowBytes, empty, List.append_nil]
  refine ⟨?_, sized.fits, sized.maxSize, ?_⟩
  · rw [sameBytes]
    exact sized.size
  · exact stamp_payloads sized.payloads (by rw [empty]; exact Nat.zero_le _)

/-- What `ctcp_read` asked for fits the window. -/
theorem Sized.room {state : CtcpState} (sized : Sized state) {amount : Nat}
    (fits : (amount : Int) ≤ state.bufferSize)
    : (amount : Int) ≤ state.sw.maxSize - state.sw.size := by
  have size := sized.size
  have inWindow := sized.fits
  have maxSize := sized.maxSize
  have noWrap : int32 (state.sw.maxSize - state.sw.size) = state.sw.maxSize - state.sw.size :=
    int32_eq_self (by omega) (by omega)
  simp only [CtcpState.bufferSize, noWrap] at fits
  split at fits <;> split at fits <;> omega

theorem Sized.queueData {state : CtcpState} (sized : Sized state) (now : Int) (pad : UInt16)
    (bytes : SendBuf) (fits : (bytes.val.length : Int) ≤ state.bufferSize)
    : Sized (state.queueData now pad bytes) := by
  have size := sized.size
  have maxSize := sized.maxSize
  have room := sized.room fits
  have newSize : (state.queueData now pad bytes).sw.size
      = state.sw.size + bytes.val.length := int32_eq_self (by omega) (by omega)
  have sameMax : (state.queueData now pad bytes).sw.maxSize = state.sw.maxSize := rfl
  refine ⟨?_, by omega, maxSize, ?_⟩
  · rw [newSize, CtcpState.queueData_windowBytes, List.length_append, size, Nat.cast_add]
  · exact stamp_payloads sized.payloads bytes.property

theorem Sized.slide {state : CtcpState} (sized : Sized state) (now : Int)
    (segment : Segment)
    : Sized (state.slide now segment) := by
  have size := sized.size
  have fits := sized.fits
  have split : state.windowBytes.length
      = (state.confirmedBytes segment).length
        + (state.slide now segment).windowBytes.length :=
    length_content_filter (confirmed segment.receivedAckno) state.sw.segments
  have removed : (state.slide now segment).sw.size
      = state.sw.size - (state.confirmedBytes segment).length :=
    confirmLoop_size (Int.le_of_eq size.symm) (Int.le_trans fits sized.maxSize)
  have sameMax : (state.slide now segment).sw.maxSize = state.sw.maxSize := rfl
  exact ⟨by omega, by omega, sized.maxSize,
    fun node member => sized.payloads node (List.mem_of_mem_filter member)⟩

theorem Sized.retransmit {state : CtcpState} (sized : Sized state) (now : Int)
    {node : SegmentRef} {next : List SegmentRef} (front : state.sw.segments = node :: next)
    : Sized (state.retransmit now node next) := by
  refine ⟨?_, sized.fits, sized.maxSize, ?_⟩
  · rw [CtcpState.retransmit_windowBytes now front]
    exact sized.size
  · intro other member
    rcases List.mem_cons.mp member with same | later
    · rw [same, SegmentRef.stamp_payload]
      exact sized.payloads node (by simp [front])
    · exact sized.payloads other (by simp [front, later])

/-- Every update keeps the size of the window. -/
theorem Update.sized {effects : Effects} {state next : CtcpState}
    (update : Update effects state next) (settled : Settled state) (sized : Sized state)
    : Sized next := by
  cases update with
  | endInput now pad reading queues =>
      have noted : Sized { state with log.inputEnded := true } :=
        ⟨sized.size, sized.fits, sized.maxSize, sized.payloads⟩
      exact noted.queueFin
        ⟨settled.bufferEmpty, settled.stamped, settled.timed, settled.allocated⟩ now pad
  | queueFin now pad reading queues => exact sized.queueFin settled now pad
  | queueData now pad bytes reading queues room fits => exact sized.queueData now pad bytes fits
  | slide now segment node next reading received front acknowledged => exact sized.slide now segment
  | retransmit now node next reading retransmits front running tries =>
      exact sized.retransmit now front
  | _ => exact ⟨sized.size, sized.fits, sized.maxSize, sized.payloads⟩

/-- Every step keeps the size of the window. -/
theorem step_sized {state next : CtcpState} {call : Call} (held : Settled state ∧ Sized state)
    (taken : step state call = some next)
    : Settled next ∧ Sized next := by
  have updates := step_updates held.1 taken
  exact ⟨Updates.settled updates held.1,
    updates.invariant (fun settled sized update => update.sized settled sized) held.1 held.2⟩

-----------------------------------------------------------------------------------------
-- Every update keeps the tiling
-----------------------------------------------------------------------------------------

/-- A new segment that starts behind the input, with the data it adds to the input, extends
the tiling.
-/
theorem Tiled.window_append {state : CtcpState} (tiled : Tiled state)
    (short : state.log.input.length < 2147483648) {object : SegmentRef} {stop : Nat}
    (position : object.position = uint32 state.sw.seqno)
    (ends : 1 + state.log.input.length + object.payload.length = stop)
    : Chained SegmentRef.position SegmentRef.payload (1 + state.ackedBytes.length)
        (state.sw.segments ++ [object.stamp state.acknoField]) stop := by
  refine chained_append.mpr ⟨1 + state.log.input.length, tiled.window, ?_⟩
  rw [chained_cons, chained_nil, SegmentRef.stamp_position, SegmentRef.stamp_payload]
  exact ⟨by rw [position, tiled.next_position short], ends⟩

theorem Tiled.queueFin {state : CtcpState} (tiled : Tiled state) (settled : Settled state)
    (short : state.log.input.length < 2147483648) (now : Int) (pad : UInt16)
    : Tiled (state.queueFin now pad) := by
  have empty := settled.fin_payload pad
  refine ⟨tiled.acked, ?_, ?_, tiled.seqno⟩
  · exact tiled.window_append short (state.newSegment_position pad .fin) (by rw [empty]; rfl)
  · rw [CtcpState.queueFin, CtcpState.transmitNew_windowBytes, empty, List.append_nil]
    exact tiled.bytes

theorem Tiled.queueData {state : CtcpState} (tiled : Tiled state)
    (short : state.log.input.length < 2147483648) (now : Int) (pad : UInt16)
    (bytes : SendBuf)
    : Tiled (state.queueData now pad bytes) := by
  have payload : (state.dataSegment pad bytes).payload = bytes.val := by
    rw [CtcpState.dataSegment, CtcpState.newSegment_payload]
  refine ⟨tiled.acked, ?_, ?_, ?_⟩
  · refine tiled.window_append short ?_ ?_
    · rw [CtcpState.dataSegment, CtcpState.newSegment_position]
    · rw [payload]
      simp only [CtcpState.queueData, List.length_append]
      omega
  · rw [CtcpState.queueData_windowBytes, ← List.append_assoc]
    exact congrArg (· ++ bytes.val) tiled.bytes
  · simp only [CtcpState.queueData, tiled.seqno, int32_int32_add, List.length_append,
      Nat.cast_add, add_assoc]

/-- Sliding the window cuts the tiling at the boundary the received ackno confirms. -/
theorem Tiled.slide {state : CtcpState} (tiled : Tiled state) (now : Int)
    (segment : Segment)
    : Tiled (state.slide now segment) := by
  obtain ⟨middle, parts, first, second, -⟩ :=
    tiled.window.split_at (sizeT segment.receivedAckno)
  rw [← confirmed_eq_endsBy] at parts first second
  have ackedBytes := state.slide_ackedBytes now segment
  have whole : state.windowBytes
      = state.confirmedBytes segment ++ (state.slide now segment).windowBytes := by
    have cut := congrArg (content SegmentRef.payload) parts
    rwa [content_append] at cut
  have boundary : middle = 1 + (state.slide now segment).ackedBytes.length := by
    have middleEnd := first.stop_eq
    rw [ackedBytes, List.length_append, CtcpState.confirmedBytes]
    omega
  refine ⟨?_, boundary ▸ second, ?_, tiled.seqno⟩
  · exact chained_append.mpr ⟨_, tiled.acked, boundary ▸ first⟩
  · rw [ackedBytes, List.append_assoc, ← whole]
    exact tiled.bytes

/-- Stamping the first segment again keeps the tiling. -/
theorem Tiled.retransmit {state : CtcpState} (tiled : Tiled state) (now : Int)
    {node : SegmentRef} {next : List SegmentRef} (front : state.sw.segments = node :: next)
    : Tiled (state.retransmit now node next) := by
  have window := tiled.window
  rw [front, chained_cons] at window
  refine ⟨tiled.acked, ?_, ?_, tiled.seqno⟩
  · refine chained_cons.mpr ⟨?_, ?_⟩
    · rw [SegmentRef.stamp_position]
      exact window.1
    · rw [SegmentRef.stamp_payload]
      exact window.2
  · rw [CtcpState.retransmit_windowBytes now front]
    exact tiled.bytes

/-- The input stream only grows. -/
theorem Update.input_prefix {effects : Effects} {state next : CtcpState}
    (update : Update effects state next)
    : state.log.input <+: next.log.input := by
  cases update with
  | queueData now pad bytes reading queues room fits => exact List.prefix_append _ _
  | _ => exact List.prefix_refl _

/-- Every update keeps the tiling as long as the input stays short. -/
theorem Update.tiled {effects : Effects} {state next : CtcpState}
    (update : Update effects state next) (settled : Settled state)
    (held : state.log.input.length < 2147483648 → Tiled state)
    : next.log.input.length < 2147483648 → Tiled next := by
  intro shortNext
  have short := Nat.lt_of_le_of_lt update.input_prefix.length_le shortNext
  have tiled := held short
  cases update with
  | endInput now pad reading queues =>
      have noted : Tiled { state with log.inputEnded := true } :=
        ⟨tiled.acked, tiled.window, tiled.bytes, tiled.seqno⟩
      exact noted.queueFin
        ⟨settled.bufferEmpty, settled.stamped, settled.timed, settled.allocated⟩ short now pad
  | queueFin now pad reading queues => exact tiled.queueFin settled short now pad
  | queueData now pad bytes reading queues room fits => exact tiled.queueData short now pad bytes
  | slide now segment node next reading received front acknowledged => exact tiled.slide now segment
  | retransmit now node next reading retransmits front running tries =>
      exact tiled.retransmit now front
  | _ => exact ⟨tiled.acked, tiled.window, tiled.bytes, tiled.seqno⟩

/-- The segments of the send window are consecutive, end at `seqno`, add up to `size` within
`maxSize`, fit the payload limit, and hold the last `size` bytes of the input.
-/
structure SendWindowRep (state : CtcpState) : Prop where
  contiguous
    : state.sw.segments.IsChain
        (fun node next => next.segment.seq = node.segment.seq + node.segment.data.length)
  lastEnds
    : ∀ last ∈ state.sw.segments.getLast?,
        last.segment.seq + last.segment.data.length = uint32 state.sw.seqno
  sizeSum
    : state.sw.size
      = ((state.sw.segments.map (fun node => node.segment.data.length)).sum : Nat)
  sizeNonneg : 0 ≤ state.sw.size
  sizeLe : state.sw.size ≤ state.sw.maxSize
  payloadLe : ∀ node ∈ state.sw.segments, node.segment.data.length ≤ 1440
  lastBytes
    : state.sw.segments.flatMap (fun node => node.segment.data)
      = state.log.input.drop (state.log.input.length - state.sw.size.toNat)

/-- In every state a run of handlers reaches on less than 2^31 bytes of input, the send
window represents the unconfirmed end of that input.
-/
theorem runFrom_sendWindowRep {cfg : CtcpConfig} {calls : List Call} {state : CtcpState}
    (reached : runFrom cfg calls = some state)
    (short : state.log.input.length < 2147483648)
    : SendWindowRep state := by
  obtain ⟨-, sized, tile⟩ := runFrom_invariant (fun _ => True)
    (fun state => Sized state ∧ (state.log.input.length < 2147483648 → Tiled state))
    (fun _ settled held update => ⟨update.sized settled held.1, update.tiled settled held.2⟩)
    ⟨ctcpInit_sized cfg, fun _ => ctcpInit_tiled cfg⟩ (fun _ _ => trivial) reached
  have tiled := tile short
  have windowEnd := tiled.next_position short
  have size := sized.size
  refine ⟨tiled.window.isChain, ?_, ?_, by omega, sized.fits, sized.payloads, ?_⟩
  · intro last isLast
    rw [windowEnd]
    exact tiled.window.getLast?_end isLast
  · rw [size, CtcpState.windowBytes, content, List.length_flatMap]
  · have whole := tiled.bytes
    have lengths := congrArg List.length whole
    simp only [List.length_append] at lengths
    have cut : state.log.input.length - state.sw.size.toNat = state.ackedBytes.length := by
      omega
    rw [cut, ← whole, List.drop_left]
    rfl

/-- Three bytes are read in two segments, and the first segment is acknowledged. -/
def partlyAcked : List Call :=
  let receiver := { ctcpInit defaultConfig with rw.ackno := 3 }
  [
    .read (.steady 0 0) (some [0x61, 0x62]),
    .read (.steady 0 0) (some [0x63]),
    .receive (.steady 0 0) (receiver.newSegment 0 .ack).segment.summed segHeaderSize
  ]

/-- After the acknowledgement the window holds the third byte. -/
theorem runFrom_sendWindowRep_partlyAcked
    : ∃ state,
        runFrom defaultConfig partlyAcked = some state ∧ state.sw.size = 1
        ∧ SendWindowRep state := by
  have reached : (runFrom defaultConfig partlyAcked).isSome := by decide +kernel
  exact ⟨_, (Option.some_get reached).symm, by decide +kernel +revert,
    runFrom_sendWindowRep (Option.some_get reached).symm (by decide +kernel +revert)⟩

end Networks.Ctcp
