import Networks.Ctcp.Duplicates

/-! What the length a segment is received with changes. `ctcp_receive` takes the length of the
payload from the header, but tells by the received length whether there is a payload and
whether it fits.
-/

namespace Networks.Ctcp

open MachineIntegers

/-- What a call of a handler leaves of `ctcp_state_t`, and has sent and output so far. -/
structure Effect where
  sw : SendWindow
  rw : RecvWindow
  sendBuf : SendBuf
  timeoutStandard : Int
  timerTeardown : Int
  sent : List Transmission
  outputs : List (List UInt8)

def CtcpState.effect (state : CtcpState) : Effect where
  sw := state.sw
  rw := state.rw
  sendBuf := state.sendBuf
  timeoutStandard := state.timeoutStandard
  timerTeardown := state.timerTeardown
  sent := state.log.sent
  outputs := state.log.outputs

/-- A segment without data has no effect but that its window is noted: it is no FIN, the
teardown timer has the value it would be started with, and if it covers the first segment of
the send window, it confirms none and the timer has just been restarted.
-/
structure QuietBare (env : Env) (segment : Segment) (state : CtcpState) : Prop where
  noFin : segment.flags &&& thFin = 0
  teardown : segment.flags = 0 → state.timerTeardown = env.now 1
  nothing
    : segment.acks
      → ∀ front ∈ state.sw.segments.head?,
          acknowledgesFront segment front
          → (∀ node ∈ state.sw.segments, confirmed segment.receivedAckno node = false)
            ∧ state.sw.timer = env.now 2 ∧ state.sw.retransCounter = 0

/-- A segment with data has no effect but that its window is noted: it is not behind ackno, where
it would be answered, and nothing is left to be done for it.
-/
def QuietData (segment : Segment) (len : Nat) (state : CtcpState) : Prop :=
  uint32 state.rw.ackno ≤ segment.seq ∧ Spent segment len state

/-- Whether a truncated segment would be ignored. -/
def CtcpState.IgnoresTruncated (env : Env) (segment : Segment) (len : Nat) (state : CtcpState)
    : Prop :=
  state.sw.recvWinSize = (ntohs segment.window).toNat
  ∧ if Bare len then QuietBare env segment state else QuietData segment len state

/-- Whether a padded segment would be received like one that is not. Without payload it must have
no effect as a bare segment, nor as one with data. With payload it must fit with its padding if
it does without, also when it is looked at again as a segment of the future.
-/
def CtcpState.IgnoresPadding (env : Env) (segment : Segment) (len : Nat) (state : CtcpState)
    : Prop :=
  if segment.data = [] then
    QuietBare env segment state ∧ QuietData segment len state
  else
    segment.seq < uint32 state.rw.ackno
    ∨ (state.payloadFits len = state.payloadFits (segHeaderSize + segment.data.length)
      ∧ (segment.seq = uint32 state.rw.ackno
          → state.payloadFits len
          → 4294967296 ≤ segment.seq + segment.data.length
          → state.fitsBeside segment.data.length len
            = state.fitsBeside segment.data.length (segHeaderSize + segment.data.length)))

section Lengths

variable {env : Env} {segment : Segment} {len : Nat} {state next : CtcpState}

-----------------------------------------------------------------------------------------
-- Segments without effect
-----------------------------------------------------------------------------------------

/-- The ACK branch has an effect on the send window alone. -/
theorem receivedAck_effect (env : Env) (segment : Segment) (settled : Settled state)
    : (receivedAck env segment state).effect
      = { state.effect with sw := (receivedAck env segment state).sw } := by
  rcases receivedAck_cases env segment settled with same | ⟨_, _, _, _, slid⟩
  · rw [same]
    rfl
  · rw [slid]
    rfl

/-- The ACK branch leaves the send window alone when the ACK does not cover its first segment, or
confirms nothing just after a restart.
-/
theorem receivedAck_same_sw_iff (env : Env) (segment : Segment) (settled : Settled state)
    : (receivedAck env segment state).sw = state.sw
      ↔ ∀ front ∈ state.sw.segments.head?,
          acknowledgesFront segment front
          → (∀ node ∈ state.sw.segments, confirmed segment.receivedAckno node = false)
            ∧ state.sw.timer = env.now 2 ∧ state.sw.retransCounter = 0 := by
  cases window : state.sw.segments with
  | nil =>
      rw [receivedAck_empty env segment window]
      simp
  | cons front rest =>
      by_cases covered : acknowledgesFront segment front
      · rw [receivedAck_slides env settled window covered, ← window]
        constructor
        · intro same _ _ _
          have segments := congrArg SendWindow.segments same
          have kept := List.filter_eq_self.mp segments
          have timer := congrArg SendWindow.timer same
          have counter := congrArg SendWindow.retransCounter same
          have running : (state.unconfirmed segment).isEmpty = false := by
            rw [show state.unconfirmed segment = state.sw.segments from segments, window]
            rfl
          simp only [CtcpState.slide, running, Bool.false_eq_true, if_false] at timer counter
          exact ⟨fun node member => by simpa using kept node member, timer.symm, counter.symm⟩
        · intro nothing
          obtain ⟨none, timer, counter⟩ := nothing front (by simp [window]) covered
          rw [state.slide_nothing (env.now 2) (by simp [window]) none counter, ← timer]
      · rw [receivedAck_ignores env window (by simpa using covered)]
        simp [covered]

/-- A FIN is answered. -/
theorem reacted_sent_of_fin (env : Env) (state : CtcpState)
    (finBit : segment.flags &&& thFin ≠ 0)
    : state.log.sent.length < (state.reacted env segment).log.sent.length := by
  by_cases returns : state.timerTeardown = -1
  · rw [(reacted_returns_fin env segment ⟨finBit, returns⟩).1]
    omega
  · rw [CtcpState.reacted, if_pos finBit, if_neg returns]
    simp [CtcpState.finNoted, CtcpState.answerFin, CtcpState.answer, CtcpState.noted, noteWindow,
      CtcpState.allocate]

/-- Any other bare segment at most starts the teardown timer before the ACK branch. -/
theorem reacted_effect_of_no_fin (env : Env) (state : CtcpState)
    (noFin : segment.flags &&& thFin = 0)
    : (state.reacted env segment).effect
      = { (state.noted segment).effect with
          timerTeardown := if segment.flags = 0 then env.now 1 else state.timerTeardown } := by
  rw [CtcpState.reacted, if_neg (not_not.mpr noFin)]
  split <;> rfl

/-- A bare segment has no effect just when it is quiet. -/
theorem receive_of_bare_effect_iff (env : Env) (settled : Settled state)
    (verified : checksum segment) (bare : Bare len)
    : (step state (.receive env segment len)).map CtcpState.effect
        = some (state.noted segment).effect
      ↔ QuietBare env segment state := by
  have reacted := settled.reacted env segment
  have ack := receivedAck_effect env segment.cleared reacted
  rw [receive_of_bare env settled verified bare, Option.map_some, Option.some.injEq]
  by_cases finBit : segment.flags &&& thFin ≠ 0
  · refine iff_of_false (fun same => ?_) (fun quiet => finBit quiet.noFin)
    have longer := reacted_sent_of_fin env state finBit
    have sent := congrArg (fun effect => effect.sent.length) same
    have noted : (state.noted segment).effect.sent = state.log.sent := rfl
    simp only [noted] at sent
    split at sent
    · rw [ack] at sent
      exact Nat.ne_of_gt longer sent
    · exact Nat.ne_of_gt longer sent
  · have noFin := not_not.mp finBit
    have before := reacted_effect_of_no_fin env state noFin
    split
    · next acks =>
        have sw : (state.reacted env segment).sw = (state.noted segment).sw :=
          congrArg Effect.sw before
        have same := receivedAck_same_sw_iff env segment.cleared reacted
        simp only [acknowledgesFront_cleared, Segment.cleared_receivedAckno, sw] at same
        have effect : (receivedAck env segment.cleared (state.reacted env segment)).effect
              = (state.noted segment).effect
            ↔ (receivedAck env segment.cleared (state.reacted env segment)).sw
                = (state.noted segment).sw
              ∧ (segment.flags = 0 → env.now 1 = state.timerTeardown) := by
          rw [ack, before]
          constructor
          · intro equal
            refine ⟨congrArg Effect.sw equal, fun none => ?_⟩
            have teardown := congrArg Effect.timerTeardown equal
            simp only [none, if_true] at teardown
            exact teardown
          · rintro ⟨sameSw, teardown⟩
            rw [sameSw]
            by_cases none : segment.flags = 0
            · rw [if_pos none, teardown none]
              rfl
            · rw [if_neg none]
              rfl
        rw [effect, same]
        constructor
        · exact fun both => ⟨noFin, fun none => (both.2 none).symm, fun _ => both.1⟩
        · exact fun quiet => ⟨quiet.nothing acks, fun none => (quiet.teardown none).symm⟩
    · next noAck =>
        have some : segment.flags ≠ 0 := fun none => noAck (Or.inr none)
        refine iff_of_true ?_ ⟨noFin, fun none => absurd none some, fun acks => absurd acks noAck⟩
        rw [before, if_neg some]
        rfl

/-- A segment that is answered has an effect. -/
theorem effect_ne_of_sent {first second : CtcpState}
    (sent : first.log.sent.length ≠ second.log.sent.length)
    : first.effect ≠ second.effect :=
  fun same => sent (congrArg (fun effect => effect.sent.length) same)

/-- The expected segment is answered by an ACK. -/
theorem receive_of_expected_sent (settled : Settled state) (verified : checksum segment)
    (hasData : ¬ Bare len) (expected : segment.seq = uint32 state.rw.ackno)
    (fits : state.payloadFits len)
    (taken : step state (.receive env segment len) = some next)
    : next.log.sent.length = state.log.sent.length + 1 := by
  rw [receive_of_expected env settled verified hasData expected fits] at taken
  rw [(gotFuture_sameSending taken).2, (ctcpOutput_sameSending env _).2]
  simp [CtcpState.acknowledged, CtcpState.answer, CtcpState.noted, noteWindow, CtcpState.allocate]

/-- A segment of the future that fits has no effect just when it leaves no trace. -/
theorem receivedFuture_effect_iff {object : SegmentRef}
    (wrapped : int32 state.rw.size = state.rw.size)
    : (receivedFuture object state).map CtcpState.effect = some state.effect
      ↔ object.segment.data = [] ∧ state.rw.segments ≠ []
        ∧ GoesLast object.segment state.rw.segments := by
  constructor
  · intro same
    obtain ⟨next, future, equal⟩ := Option.map_eq_some_iff.mp same
    exact receivedFuture_same_rw future (congrArg Effect.rw equal)
  · rintro ⟨empty, front, goesLast⟩
    rw [receivedFuture_traceless wrapped empty front goesLast, Option.map_some]

/-- A segment with data has no effect just when it is quiet. -/
theorem receive_of_data_effect_iff (env : Env) (settled : Settled state) (drained : Drained state)
    (verified : checksum segment) (hasData : ¬ Bare len)
    : (step state (.receive env segment len)).map CtcpState.effect
        = some (state.noted segment).effect
      ↔ QuietData segment len state := by
  rw [QuietData, Spent]
  rcases Nat.lt_trichotomy segment.seq (uint32 state.rw.ackno) with behind | expected | ahead
  · refine iff_of_false ?_ (fun quiet => Nat.not_lt.mpr quiet.1 behind)
    rw [receive_of_behind env verified hasData behind, Option.map_some, Option.some.injEq]
    refine effect_ne_of_sent (Nat.ne_of_gt ?_)
    simp [CtcpState.answer, CtcpState.noted, noteWindow, CtcpState.allocate]
  · by_cases fits : state.payloadFits len
    · refine iff_of_false (fun same => ?_) (by simp [expected, fits])
      obtain ⟨next, taken, equal⟩ := Option.map_eq_some_iff.mp same
      have longer := receive_of_expected_sent settled verified hasData expected fits taken
      refine effect_ne_of_sent ?_ equal
      rw [longer]
      exact Nat.succ_ne_self _
    · have large : state.payloadFits len = false := by simpa using fits
      rw [receive_of_unfitting env verified hasData expected large]
      exact iff_of_true rfl ⟨expected.ge, Or.inr (Or.inl large)⟩
  · rw [receive_of_ahead env verified hasData ahead]
    by_cases fits : state.payloadFits len
    · have traceless := @receivedFuture_effect_iff (state.noted segment)
        (state.receivedObject segment) drained.size
      rw [CtcpState.receivedObject_data, goesLast_receivedObject, state.noted_rw] at traceless
      rw [if_pos fits, traceless, fits]
      simp [ahead, Nat.le_of_lt ahead, Nat.not_lt.mpr (Nat.le_of_lt ahead)]
    · rw [if_neg fits]
      exact iff_of_true rfl ⟨Nat.le_of_lt ahead, Or.inr (Or.inl (by simpa using fits))⟩

-----------------------------------------------------------------------------------------
-- Truncated segments
-----------------------------------------------------------------------------------------

theorem receive_recvWinSize (settled : Settled state) (verified : checksum segment)
    (taken : step state (.receive env segment len) = some next)
    : next.sw.recvWinSize = (ntohs segment.window).toNat := by
  by_cases bare : Bare len
  · rw [receive_of_bare env settled verified bare] at taken
    rw [← reacted_recvWinSize env segment state]
    split at taken
    · obtain rfl := Option.some.inj taken
      exact (receivedAck_leaves_others env segment.cleared (settled.reacted env segment)).1
    · exact Option.some.inj taken ▸ rfl
  · exact receive_of_data_window settled verified bare taken

/-- A received segment is ignored just when it has no effect and its window was known. -/
theorem receive_ignored_iff (env : Env) (settled : Settled state) (drained : Drained state)
    (verified : checksum segment)
    : (step state (.receive env segment len)).map CtcpState.effect = some state.effect
      ↔ state.IgnoresTruncated env segment len := by
  by_cases window : state.sw.recvWinSize = (ntohs segment.window).toNat
  · have known : state.effect = (state.noted segment).effect := by
      have sw : (state.noted segment).sw = state.sw := by rw [noted_recvWinSize, ← window]
      rw [CtcpState.effect, CtcpState.effect, sw]
      rfl
    rw [known, CtcpState.IgnoresTruncated]
    by_cases bare : Bare len
    · rw [receive_of_bare_effect_iff env settled verified bare, if_pos bare]
      exact (and_iff_right window).symm
    · rw [receive_of_data_effect_iff env settled drained verified bare, if_neg bare]
      exact (and_iff_right window).symm
  · refine iff_of_false (fun same => ?_) (fun ignores => window ignores.1)
    obtain ⟨next, taken, equal⟩ := Option.map_eq_some_iff.mp same
    have noted := receive_recvWinSize settled verified taken
    have sw : next.sw = state.sw := congrArg Effect.sw equal
    exact window (sw ▸ noted)

-----------------------------------------------------------------------------------------
-- Padded segments
-----------------------------------------------------------------------------------------

theorem bare_iff (bound : len < 18446744073709551616) : Bare len ↔ len = segHeaderSize := by
  rw [Bare, sizeT, segHeaderSize]
  omega

/-- Padding takes up room. -/
theorem payloadFits_of_padded {whole : Nat} (bound : len < 18446744073709551616)
    (header : segHeaderSize ≤ whole) (padded : whole ≤ len) (fits : state.payloadFits len)
    : state.payloadFits whole := by
  rw [CtcpState.payloadFits, decide_eq_true_eq] at *
  refine Nat.le_trans ?_ fits
  simp only [sizeT, segHeaderSize] at *
  omega

/-- A bare segment changes nothing but the send window and the teardown timer, and if it is
answered, then by a FIN-ACK first.
-/
theorem receive_of_bare_answers (settled : Settled state) (verified : checksum segment)
    (bare : Bare len) (taken : step state (.receive env segment len) = some next)
    : next.effect
        = { (state.noted segment).effect with
            sw := next.sw
            timerTeardown := next.timerTeardown
            sent := next.log.sent }
      ∧ (next.log.sent = state.log.sent
        ∨ ∃ finAck rest,
            next.log.sent = state.log.sent ++ finAck :: rest
            ∧ finAck.object.segment.flags = htonl 0x11) := by
  have before : (state.reacted env segment).effect
        = { (state.noted segment).effect with
            sw := (state.reacted env segment).sw
            timerTeardown := (state.reacted env segment).timerTeardown
            sent := (state.reacted env segment).log.sent }
      ∧ ((state.reacted env segment).log.sent = state.log.sent
        ∨ ∃ finAck rest,
            (state.reacted env segment).log.sent = state.log.sent ++ finAck :: rest
            ∧ finAck.object.segment.flags = htonl 0x11) := by
    rw [CtcpState.reacted]
    split
    · split
      · exact ⟨rfl, Or.inr ⟨_, _, List.append_assoc _ _ _, rfl⟩⟩
      · exact ⟨rfl, Or.inr ⟨_, [], rfl, rfl⟩⟩
    · split <;> exact ⟨rfl, Or.inl rfl⟩
  rw [receive_of_bare env settled verified bare] at taken
  split at taken
  · obtain rfl := Option.some.inj taken
    have reacted := settled.reacted env segment
    obtain ⟨-, teardown, sent⟩ := receivedAck_leaves_others env segment.cleared reacted
    rw [receivedAck_effect env segment.cleared reacted, before.1, teardown, sent]
    exact ⟨rfl, before.2⟩
  · exact Option.some.inj taken ▸ before

/-- A segment without payload is received alike with and without padding just when it has no
effect either way.
-/
theorem receive_padded_empty_iff (env : Env) (settled : Settled state) (drained : Drained state)
    (verified : checksum segment) (hasData : ¬ Bare len) {whole : Nat} (bare : Bare whole)
    : (step state (.receive env segment len)).map CtcpState.effect
        = (step state (.receive env segment whole)).map CtcpState.effect
      ↔ QuietBare env segment state ∧ QuietData segment len state := by
  have asBare := receive_of_bare_effect_iff env settled verified bare
  have asData := receive_of_data_effect_iff env settled drained verified hasData
  constructor
  · intro same
    have arrived := settled.arrived_noted segment
    obtain ⟨left, takenBare⟩ : ∃ left, step state (.receive env segment whole) = some left :=
      ⟨_, receive_of_bare env settled verified bare⟩
    rw [takenBare, Option.map_some] at same asBare
    obtain ⟨right, takenData, equal⟩ := Option.map_eq_some_iff.mp same
    obtain ⟨frame, answered⟩ := receive_of_bare_answers settled verified bare takenBare
    rw [takenData, Option.map_some, Option.some.injEq] at asData
    have sentEqual : right.log.sent = left.log.sent := congrArg Effect.sent equal
    rw [receive_of_data env verified hasData] at takenData
    obtain ⟨sending, unanswered | ⟨-, ack, sent, -, flags⟩⟩ :=
      receivedData_sending arrived takenData
    · have sw : left.sw = (state.noted segment).sw :=
        (congrArg Effect.sw equal).symm.trans sending.sw
      have teardown : left.timerTeardown = (state.noted segment).timerTeardown :=
        (congrArg Effect.timerTeardown equal).symm.trans sending.timerTeardown
      have none : left.effect = (state.noted segment).effect := by
        rw [frame, sw, teardown, ← sentEqual, unanswered]
        rfl
      exact ⟨asBare.mp (congrArg some none), asData.mp (equal.trans none)⟩
    · have noted : (state.noted segment).log.sent = state.log.sent := rfl
      rw [sentEqual, noted] at sent
      rcases answered with silent | ⟨finAck, rest, finAckSent, finAckFlags⟩
      · rw [silent] at sent
        exact absurd sent (by simp)
      · rw [finAckSent] at sent
        obtain ⟨rfl, -⟩ := List.cons.inj (List.append_cancel_left sent)
        exact absurd (finAckFlags.symm.trans flags) (by decide)
  · rintro ⟨quietBare, quietData⟩
    rw [asBare.mpr quietBare, asData.mpr quietData]

/-- A segment of the future with payload is received alike by two lengths just when it fits by
both or by neither.
-/
theorem gotFuture_effect_iff {object : SegmentRef} {whole : Nat}
    (wrapped : int32 state.rw.size = state.rw.size)
    (ahead : uint32 state.rw.ackno < object.segment.seq) (payload : object.segment.data ≠ [])
    (implies : state.payloadFits len → state.payloadFits whole)
    : (gotFuture object len state).map CtcpState.effect
        = (gotFuture object whole state).map CtcpState.effect
      ↔ state.payloadFits len = state.payloadFits whole := by
  by_cases fits : state.payloadFits len
  · have wholeFits := implies fits
    rw [gotFuture, gotFuture, if_pos ⟨ahead, fits⟩, if_pos ⟨ahead, wholeFits⟩]
    exact iff_of_true rfl (fits.trans wholeFits.symm)
  · rw [gotFuture, if_neg fun both => fits both.2, Option.map_some, eq_comm]
    have large : state.payloadFits len = false := by simpa using fits
    by_cases wholeFits : state.payloadFits whole
    · rw [gotFuture, if_pos ⟨ahead, wholeFits⟩, receivedFuture_effect_iff wrapped, large, wholeFits]
      simp [payload]
    · rw [gotFuture, if_neg fun both => wholeFits both.2, large]
      simpa using wholeFits

/-- A segment with payload that is expected and fits either way is received alike unless its padding
keeps it from being taken for one of the future as well.
-/
theorem receive_padded_expected_iff (env : Env) (settled : Settled state) (drained : Drained state)
    (verified : checksum segment) (hasData : ¬ Bare len) (payload : segment.data ≠ [])
    (expected : segment.seq = uint32 state.rw.ackno) (fits : state.payloadFits len)
    {whole : Nat} (wholeData : ¬ Bare whole) (wholeFits : state.payloadFits whole)
    (implies
      : state.fitsBeside segment.data.length len → state.fitsBeside segment.data.length whole)
    : (step state (.receive env segment len)).map CtcpState.effect
        = (step state (.receive env segment whole)).map CtcpState.effect
      ↔ (4294967296 ≤ segment.seq + segment.data.length
          → state.fitsBeside segment.data.length len
            = state.fitsBeside segment.data.length whole) := by
  have small := segment.length_data_lt
  have positive := List.length_pos_iff.mpr payload
  have sum := uint32_add state.rw.ackno segment.data.length
  rw [← expected] at sum
  by_cases wrap : 4294967296 ≤ segment.seq + segment.data.length
  · have notAbove : uint32 (state.rw.ackno + segment.data.length) ≤ segment.seq := by omega
    rw [receive_of_expected_idle env settled drained verified hasData expected fits notAbove,
      receive_of_expected_idle env settled drained verified wholeData expected wholeFits notAbove]
    have size := acknowledged_received_size state (env.pad 0) segment
    have fitsBeside : ∀ held, ((state.noted segment).acknowledged (env.pad 0)
        (state.receivedObject segment)).payloadFits held
          = state.fitsBeside segment.data.length held :=
      fun held => CtcpState.fitsBeside_of_size held rfl size
    rw [gotFuture_effect_iff (int32_int32 _), fitsBeside, fitsBeside]
    · exact ⟨fun same _ => same, fun same => same wrap⟩
    · rw [acknowledged_received_ackno, CtcpState.receivedObject_seq]
      omega
    · rw [CtcpState.receivedObject_data]
      exact payload
    · rw [fitsBeside, fitsBeside]
      exact implies
  · have noWrap := Nat.not_le.mp wrap
    rw [receive_of_expected_no_wrap env settled verified hasData expected fits noWrap,
      receive_of_expected_no_wrap env settled verified wholeData expected wholeFits noWrap]
    exact iff_of_true rfl fun wrapped => absurd wrapped wrap

/-- A segment with payload is received alike with and without padding just when it is behind
ackno, or fits with its padding if it does without.
-/
theorem receive_padded_payload_iff (env : Env) (settled : Settled state) (drained : Drained state)
    (verified : checksum segment) (payload : segment.data ≠ [])
    (bound : len < 18446744073709551616) (padded : segHeaderSize + segment.data.length < len)
    : (step state (.receive env segment len)).map CtcpState.effect
        = (step state (.receive env segment (segHeaderSize + segment.data.length))).map
            CtcpState.effect
      ↔ state.IgnoresPadding env segment len := by
  have positive := List.length_pos_iff.mpr payload
  have small := segment.length_data_lt
  have hasData : ¬ Bare len := by
    rw [bare_iff bound]
    omega
  have wholeData : ¬ Bare (segHeaderSize + segment.data.length) := by
    rw [bare_iff (by unfold segHeaderSize; omega)]
    omega
  rw [CtcpState.IgnoresPadding, if_neg payload]
  by_cases behind : segment.seq < uint32 state.rw.ackno
  · rw [receive_of_behind env verified hasData behind,
      receive_of_behind env verified wholeData behind]
    exact iff_of_true rfl (Or.inl behind)
  by_cases fits : state.payloadFits len
  · have wholeFits := payloadFits_of_padded bound (Nat.le_add_right _ _) padded.le fits
    have beside : state.fitsBeside segment.data.length len
        → state.fitsBeside segment.data.length (segHeaderSize + segment.data.length) :=
      payloadFits_of_padded bound (Nat.le_add_right _ _) padded.le
    rcases Nat.eq_or_lt_of_le (Nat.not_lt.mp behind) with expected | ahead
    · rw [receive_padded_expected_iff env settled drained verified hasData payload expected.symm
        fits wholeData wholeFits beside, fits, wholeFits]
      simp [expected]
    · rw [receive_of_ahead env verified hasData ahead, if_pos fits,
        receive_of_ahead env verified wholeData ahead, if_pos wholeFits, fits, wholeFits]
      exact iff_of_true rfl (Or.inr ⟨rfl, fun expected => absurd expected (Nat.ne_of_gt ahead)⟩)
  · have large : state.payloadFits len = false := by simpa using fits
    have quiet : QuietData segment len state := ⟨Nat.not_lt.mp behind, Or.inr (Or.inl large)⟩
    rw [(receive_of_data_effect_iff env settled drained verified hasData).mpr quiet, eq_comm,
      receive_of_data_effect_iff env settled drained verified wholeData, QuietData, Spent, large]
    cases state.payloadFits (segHeaderSize + segment.data.length) <;>
      simp [behind, Nat.not_lt.mp behind, payload]

/-- A truncated segment is ignored, and a padded one received like one that is not, exactly under
these conditions on the state and the segment. The length of the segment is that of its header.
-/
theorem receive_length_iff (env : Env) {cfg : CtcpConfig} {calls : List Call}
    (reached : runFrom cfg calls = some state) (verified : checksum segment)
    (bound : len < 18446744073709551616)
    : (len < (ntohs segment.len).toNat
        → ((step state (.receive env segment len)).map CtcpState.effect = some state.effect
          ↔ state.IgnoresTruncated env segment len))
      ∧ ((ntohs segment.len).toNat < len
        → ((step state (.receive env segment len)).map CtcpState.effect
            = (step state (.receive env segment (ntohs segment.len).toNat)).map CtcpState.effect
          ↔ state.IgnoresPadding env segment len)) := by
  obtain ⟨settled, drained⟩ := runFrom_drained reached
  refine ⟨fun _ => receive_ignored_iff env settled drained verified, fun padded => ?_⟩
  rw [segment.sized] at padded ⊢
  by_cases payload : segment.data = []
  · have whole : segHeaderSize + segment.data.length = segHeaderSize := by rw [payload]; rfl
    have bare : Bare (segHeaderSize + segment.data.length) := by
      rw [whole]
      decide
    have hasData : ¬ Bare len := by
      rw [bare_iff bound]
      omega
    rw [receive_padded_empty_iff env settled drained verified hasData bare,
      CtcpState.IgnoresPadding, if_pos payload]
  · exact receive_padded_payload_iff env settled drained verified payload bound padded

end Lengths

/-- The rule at a segment with a byte of data and a byte of padding. -/
theorem receive_length_iff_padded
    : (step (ctcpInit defaultConfig) (.receive (.steady 0 0) dataWithAck 22)).map CtcpState.effect
      = (step (ctcpInit defaultConfig)
          (.receive (.steady 0 0) dataWithAck (ntohs dataWithAck.len).toNat)).map
            CtcpState.effect := by
  have reached : runFrom defaultConfig [] = some (ctcpInit defaultConfig) := rfl
  have payload : dataWithAck.data ≠ [] := List.cons_ne_nil _ _
  have noWrap : ¬ 4294967296 ≤ dataWithAck.seq + dataWithAck.data.length := by decide +kernel
  have fits : (ctcpInit defaultConfig).payloadFits 22
      = (ctcpInit defaultConfig).payloadFits (segHeaderSize + dataWithAck.data.length) := by
    decide +kernel
  have ignores : (ctcpInit defaultConfig).IgnoresPadding (.steady 0 0) dataWithAck 22 := by
    rw [CtcpState.IgnoresPadding, if_neg payload]
    exact Or.inr ⟨fits, fun _ _ wrap => absurd wrap noWrap⟩
  exact ((receive_length_iff (.steady 0 0) reached (by decide +kernel) (by decide)).2
    (by decide +kernel)).mpr ignores

/-- An ACK with a byte of padding is not received like one without. -/
theorem padded_ack_not_confirming
    : ¬ ∀ (env : Env) (cfg : CtcpConfig) (calls : List Call) (state : CtcpState)
        (segment : Segment) (len : Nat),
        runFrom cfg calls = some state → checksum segment → len < 18446744073709551616
        → (len < (ntohs segment.len).toNat
            → (step state (.receive env segment len)).map CtcpState.effect = some state.effect)
          ∧ ((ntohs segment.len).toNat < len
            → (step state (.receive env segment len)).map CtcpState.effect
              = (step state (.receive env segment (ntohs segment.len).toNat)).map
                  CtcpState.effect) := by
  intro always
  have stays : (runFrom defaultConfig oneByteRead).any (fun state =>
      (step state (.receive (.steady 0 0) ackOfByte 21)).all (fun next =>
        next.sw.segments ≠ [])
      && (step state (.receive (.steady 0 0) ackOfByte 20)).any (fun next =>
        next.sw.segments = [])) := by
    decide +kernel
  obtain ⟨state, reached, facts⟩ := (Option.any_eq_true _ _).mp stays
  obtain ⟨kept, confirmed⟩ := (Bool.and_eq_true _ _).mp facts
  obtain ⟨plain, taken, gone⟩ := (Option.any_eq_true _ _).mp confirmed
  have same := (always (.steady 0 0) defaultConfig oneByteRead state ackOfByte 21 reached
    (by decide +kernel) (by decide)).2 (by decide +kernel)
  have header : (ntohs ackOfByte.len).toNat = 20 := by decide +kernel
  rw [header, taken, Option.map_some] at same
  obtain ⟨padded, received, equal⟩ := Option.map_eq_some_iff.mp same
  rw [received, Option.all_some, decide_eq_true_iff] at kept
  have sw : padded.sw = plain.sw := congrArg Effect.sw equal
  exact kept (sw ▸ of_decide_eq_true gone)

end Networks.Ctcp
