import Networks.Ctcp.DataSafety
import Networks.Ctcp.RoundTrip

/-! How `conn_send` makes a connection unreliable. It drops, duplicates, delays and corrupts
segments in processes that it forks, each of which goes on with a copy of the state of `rand`.
A process that was forked is to end in `conn_send`.
-/

namespace Networks.Ctcp

open MachineIntegers StepRuns

-----------------------------------------------------------------------------------------
-- The processes of one call
-----------------------------------------------------------------------------------------

/-- The options of a host that ask for unreliability. -/
structure Options where
  optDrop : Int
  optCorrupt : Int
  optDelay : Int
  optDuplicate : Int
  testDebugOn : Bool

/-- `SALT`. -/
def salt : Int := 0x14400

/-- `rand_percent`, with the result of `rand`. -/
def randPercent (rand level : Nat) : Int := (int32 (rand + level * salt)).tmod 100

/-- A process in `conn_send`. `rands` is what `rand` is going to return to it. -/
structure Sender where
  forkLevel : Nat
  amIForked : Bool
  testerDidUnreliable : Bool
  rands : Nat → Nat

/-- The process after a call of `rand`. -/
def Sender.draw (sender : Sender) : Sender :=
  { sender with rands := fun index => sender.rands (index + 1) }

/-- The process that `fork` makes of another one to send a segment. -/
def Sender.fork (sender : Sender) : Sender :=
  { sender with amIForked := true, forkLevel := sender.forkLevel + 1 }

/-- Whether a process takes the branch of an option, and how it goes on. -/
def Sender.chance (options : Options) (option : Int) (sender : Sender) : Bool × Sender :=
  if options.testDebugOn then
    if !sender.testerDidUnreliable && option ≠ 0 then
      (true, { sender with testerDidUnreliable := true })
    else
      (false, sender)
  else if randPercent (sender.rands 0) sender.forkLevel < option then
    (true, { sender.draw with testerDidUnreliable := true })
  else
    (false, sender.draw)

/-- A process at the end of `conn_send`: the segment it has sent, after how many seconds, and
the value it returns, if it does not exit.
-/
structure Ending where
  testerDidUnreliable : Bool
  sent : Option Segment
  slept : Nat
  returns : Option Int

/-- The result of `conn_send` for a packet of which `sendto` has sent `bytes`. -/
def sentBytes (bytes : Int) : Int := if bytes ≥ 20 then bytes - 20 else bytes

/-- The bit of a segment that `conn_send` flips: `data_length` and `rand_bit` have 16 bits, so that
it can wrap around in a segment that is longer than any that `ctcp_makeseg` builds.
-/
def randBit (rand : Nat) (segment : Segment) : Nat :=
  let dataLength : Nat := uint16 (segment.data.length + 4 : Nat)
  uint16 ((rand : Int).tmod (dataLength * 8 - 1) + 128)

/-- The part of `conn_send` from the corruption of a segment on. -/
def Sender.sends (options : Options) (segment : Segment) (slept : Nat) (sender : Sender)
    : Ending :=
  let doCorrupt := randPercent (sender.rands 0) sender.forkLevel < options.optCorrupt
  let sender := sender.draw
  let bit := randBit (sender.rands 0) segment
  let corrupts :=
    (options.testDebugOn ∧ !sender.testerDidUnreliable ∧ options.optCorrupt ≠ 0)
    ∨ (¬ options.testDebugOn ∧ doCorrupt)
  let copy := if corrupts then segment.corrupted bit else segment
  let bytes := uint16 (fullHdrSize + segment.data.length : Nat)
  {
    testerDidUnreliable := sender.testerDidUnreliable || corrupts
    sent := some copy
    slept := slept
    returns := if sender.amIForked then none else some (sentBytes bytes)
  }

/-- A process that returns without having sent anything. -/
def Sender.leaves (segment : Segment) (sender : Sender) : Ending where
  testerDidUnreliable := sender.testerDidUnreliable
  sent := none
  slept := 0
  returns := some (segHeaderSize + segment.data.length)

/-- The part of `conn_send` from the delay of a segment on. The process that has forked another
one to send the segment returns, also when it was forked itself.
-/
def Sender.delays (options : Options) (segment : Segment) (sender : Sender) : List Ending :=
  let (delayed, sender) := sender.chance options options.optDelay
  if delayed then
    [sender.leaves segment, sender.fork.draw.sends options segment (sender.rands 0 % 5)]
  else
    [sender.sends options segment 0]

/-- `conn_send`, when `sendto` sends every packet: the processes that there are at its end, the
one that has called it first.
-/
def Options.connSend (options : Options) (testerDidUnreliable : Bool) (rands : Nat → Nat)
    (segment : Segment)
    : List Ending :=
  let sender : Sender := ⟨0, false, testerDidUnreliable, rands⟩
  let (dropped, sender) := sender.chance options options.optDrop
  if dropped then
    [sender.leaves segment]
  else
    let (duplicated, sender) := sender.chance options options.optDuplicate
    let senders := if duplicated then [sender, sender.fork] else [sender]
    senders.flatMap fun sender => sender.delays options segment

-----------------------------------------------------------------------------------------
-- What the processes do
-----------------------------------------------------------------------------------------

/-- Whether `conn_send` drops a segment. -/
def Options.drops (options : Options) (testerDidUnreliable : Bool) (rands : Nat → Nat) : Bool :=
  ((⟨0, false, testerDidUnreliable, rands⟩ : Sender).chance options options.optDrop).1

/-- The process that has not dropped a segment. -/
def Options.undropped (options : Options) (testerDidUnreliable : Bool) (rands : Nat → Nat)
    : Sender :=
  ((⟨0, false, testerDidUnreliable, rands⟩ : Sender).chance options options.optDrop).2

/-- Whether `conn_send` duplicates a segment it has not dropped. -/
def Options.duplicates (options : Options) (testerDidUnreliable : Bool) (rands : Nat → Nat)
    : Bool :=
  ((options.undropped testerDidUnreliable rands).chance options options.optDuplicate).1

/-- The process that has called `conn_send`, once it knows whether it duplicates the segment. -/
def Options.original (options : Options) (testerDidUnreliable : Bool) (rands : Nat → Nat)
    : Sender :=
  ((options.undropped testerDidUnreliable rands).chance options options.optDuplicate).2

/-- Whether a process that was forked to send a duplicate delays it. -/
def Options.delaysDuplicate (options : Options) (testerDidUnreliable : Bool)
    (rands : Nat → Nat)
    : Bool :=
  ((options.original testerDidUnreliable rands).fork.chance options options.optDelay).1

/-- A copy of a segment, at most with one bit flipped behind its flags. -/
def CopyOf (segment copy : Segment) : Prop :=
  copy = segment
  ∨ ∃ bit, 128 ≤ bit ∧ bit < 8 * segment.bytes.length ∧ copy = segment.corrupted bit

@[simp] theorem Sender.fork_amIForked (sender : Sender) : sender.fork.amIForked = true := rfl

@[simp] theorem Sender.chance_amIForked (options : Options) (option : Int) (sender : Sender)
    : (sender.chance options option).2.amIForked = sender.amIForked := by
  unfold chance
  split_ifs <;> rfl

/-- The bit that is flipped is one behind the flags. -/
theorem randBit_inside (rand : Nat) {segment : Segment}
    (short : segment.data.length ≤ maxSegDataSize)
    : 128 ≤ randBit rand segment ∧ randBit rand segment < 8 * segment.bytes.length := by
  unfold maxSegDataSize at short
  have size : uint16 (segment.data.length + 4 : Nat) = segment.data.length + 4 := by
    unfold uint16
    omega
  have below := Int.tmod_lt_of_pos rand
    (show 0 < ((segment.data.length + 4 : Nat) : Int) * 8 - 1 by omega)
  have positive := Int.tmod_nonneg (((segment.data.length + 4 : Nat) : Int) * 8 - 1)
    (Int.natCast_nonneg rand)
  rw [segment.length_bytes, segHeaderSize]
  simp only [randBit, size]
  unfold uint16
  omega

/-- From the corruption on a process sends one copy, and exits if it was forked. -/
theorem Sender.sends_spec (options : Options) {segment : Segment}
    (short : segment.data.length ≤ maxSegDataSize) (slept : Nat) (sender : Sender)
    : (∃ copy, (sender.sends options segment slept).sent = some copy ∧ CopyOf segment copy)
      ∧ (sender.sends options segment slept).returns.isSome = !sender.amIForked := by
  constructor
  · refine ⟨_, rfl, ?_⟩
    split
    · exact Or.inr ⟨_, (randBit_inside _ short).1, (randBit_inside _ short).2, rfl⟩
    · exact Or.inl rfl
  · cases forked : sender.amIForked <;> simp [Sender.sends, Sender.draw, forked]

/-- From the delay on one copy is sent, and as many processes return as have come to the delay
without being forked, or have forked another one.
-/
theorem Sender.delays_spec (options : Options) {segment : Segment}
    (short : segment.data.length ≤ maxSegDataSize) (sender : Sender)
    : (∃ copy,
        (sender.delays options segment).filterMap Ending.sent = [copy] ∧ CopyOf segment copy)
      ∧ ((sender.delays options segment).filter fun ending => ending.returns.isSome).length
        = if sender.amIForked ∧ (sender.chance options options.optDelay).1 = false then
            0
          else
            1 := by
  unfold delays
  rcases chance : sender.chance options options.optDelay with ⟨delayed, next⟩
  have forked : next.amIForked = sender.amIForked := by
    rw [← sender.chance_amIForked options options.optDelay, chance]
  cases delayed with
  | false =>
      obtain ⟨⟨copy, sent, copied⟩, returns⟩ := next.sends_spec options short 0
      rw [forked] at returns
      refine ⟨⟨copy, by simp [sent], copied⟩, ?_⟩
      cases amIForked : sender.amIForked <;> simp [returns, amIForked]
  | true =>
      obtain ⟨⟨copy, sent, copied⟩, returns⟩ :=
        next.fork.draw.sends_spec options short (next.rands 0 % 5)
      refine ⟨⟨copy, ?_, copied⟩, ?_⟩
      · simp [leaves, sent]
      · have exits : ¬ (Sender.sends options segment (next.rands 0 % 5) _).returns.isSome :=
          Bool.eq_false_iff.mp returns
        simp [leaves, exits]

theorem Options.original_amIForked (options : Options) (testerDidUnreliable : Bool)
    (rands : Nat → Nat)
    : (options.original testerDidUnreliable rands).amIForked = false := by
  simp [original, undropped]

/-- The two branches of `conn_send` that come before the segment is sent. -/
theorem Options.connSend_eq (options : Options) (testerDidUnreliable : Bool) (rands : Nat → Nat)
    (segment : Segment)
    : options.connSend testerDidUnreliable rands segment
      = if options.drops testerDidUnreliable rands then
          [(options.undropped testerDidUnreliable rands).leaves segment]
        else
          (options.original testerDidUnreliable rands).delays options segment
            ++ if options.duplicates testerDidUnreliable rands then
                (options.original testerDidUnreliable rands).fork.delays options segment
              else
                [] := by
  have branches : options.connSend testerDidUnreliable rands segment
      = if options.drops testerDidUnreliable rands then
          [(options.undropped testerDidUnreliable rands).leaves segment]
        else
          (if options.duplicates testerDidUnreliable rands then
            [options.original testerDidUnreliable rands,
              (options.original testerDidUnreliable rands).fork]
          else
            [options.original testerDidUnreliable rands]).flatMap
            fun sender => sender.delays options segment := rfl
  rw [branches]
  split_ifs <;> simp

/-- Every copy that `conn_send` sends has at most one bit flipped behind the flags. -/
theorem Options.connSend_copies (options : Options) (testerDidUnreliable : Bool)
    (rands : Nat → Nat) {segment : Segment} (short : segment.data.length ≤ maxSegDataSize)
    : ∀ copy ∈ (options.connSend testerDidUnreliable rands segment).filterMap Ending.sent,
        CopyOf segment copy := by
  obtain ⟨⟨copy, sent, copied⟩, -⟩ :=
    (options.original testerDidUnreliable rands).delays_spec options short
  obtain ⟨⟨second, alsoSent, alsoCopied⟩, -⟩ :=
    (options.original testerDidUnreliable rands).fork.delays_spec options short
  rw [Options.connSend_eq]
  split_ifs
  · simp [Sender.leaves]
  · simp [sent, alsoSent, copied, alsoCopied]
  · simp [sent, copied]

/-- `conn_send` sends no copy of a segment that it drops, two of one that it duplicates and else
one, each with at most one bit flipped behind the flags. One process returns from it, but two do
exactly when the process that was forked for the duplicate delays it. The segment has no more
data than `MAX_SEG_DATA_SIZE`.
-/
theorem connSend_processes (options : Options) (testerDidUnreliable : Bool)
    (rands : Nat → Nat) (segment : Segment) (short : segment.data.length ≤ maxSegDataSize)
    : let endings := options.connSend testerDidUnreliable rands segment
      let drops := options.drops testerDidUnreliable rands
      let duplicates := options.duplicates testerDidUnreliable rands
      (endings.filterMap Ending.sent).length
          = (if drops then 0 else if duplicates then 2 else 1)
        ∧ (∀ copy ∈ endings.filterMap Ending.sent, CopyOf segment copy)
        ∧ (endings.filter fun ending => ending.returns.isSome).length
          = (if !drops && duplicates && options.delaysDuplicate testerDidUnreliable rands then 2
            else 1) := by
  intro endings drops duplicates
  refine and_left_comm.mp ⟨options.connSend_copies testerDidUnreliable rands short, ?_⟩
  have forked := options.original_amIForked testerDidUnreliable rands
  obtain ⟨⟨copy, sent, -⟩, returns⟩ :=
    (options.original testerDidUnreliable rands).delays_spec options short
  obtain ⟨⟨second, alsoSent, -⟩, alsoReturns⟩ :=
    (options.original testerDidUnreliable rands).fork.delays_spec options short
  have delayed : ((options.original testerDidUnreliable rands).fork.chance options
      options.optDelay).1 = options.delaysDuplicate testerDidUnreliable rands := rfl
  simp only [Sender.fork_amIForked, true_and, delayed] at alsoReturns
  simp only [endings, Options.connSend_eq]
  cases dropped : options.drops testerDidUnreliable rands with
  | true => simp [drops, dropped, Sender.leaves]
  | false =>
      cases duplicated : options.duplicates testerDidUnreliable rands with
      | false => simp [drops, dropped, duplicates, duplicated, sent, returns, forked]
      | true =>
          simp [drops, dropped, duplicates, duplicated, sent, alsoSent, returns, alsoReturns,
            forked]
          cases options.delaysDuplicate testerDidUnreliable rands <;> rfl

/-- An ACK that is duplicated and not corrupted. -/
theorem connSend_processes_ack
    : let segment := ((ctcpInit defaultConfig).newSegment 0 .ack).segment
      let endings := (⟨0, 50, 0, 100, false⟩ : Options).connSend false (fun _ => 60) segment
      (endings.filterMap Ending.sent).length = 2
        ∧ ∀ copy ∈ endings.filterMap Ending.sent, CopyOf segment copy := by
  intro segment endings
  have processes := connSend_processes ⟨0, 50, 0, 100, false⟩ false (fun _ => 60) segment
    (CtcpState.newSegment_short _ 0 .ack)
  exact ⟨processes.1.trans (by decide +kernel), processes.2.1⟩

-----------------------------------------------------------------------------------------
-- Unreliable endpoints
-----------------------------------------------------------------------------------------

/-- What has become of the segments that a connection has handed to `conn_send`: the copies that
were sent, and the segments that were not sent as they were.
-/
structure Sendings where
  testerDidUnreliable : Bool
  copies : List Segment
  corrupted : List Segment

/-- A sequence of calls of `conn_send`, each with what `rand` is going to return. There is no
telling what two processes do with one connection: a call that leaves a second one is the end.
-/
def Options.sendAll (options : Options) (testerDidUnreliable : Bool)
    : List Segment → (Nat → Nat → Nat) → Option Sendings
  | [], _ => some ⟨testerDidUnreliable, [], []⟩
  | segment :: rest, rands =>
      let endings := options.connSend testerDidUnreliable (rands 0) segment
      let copies := endings.filterMap Ending.sent
      if (endings.filter fun ending => ending.returns.isSome).length ≠ 1 then
        none
      else
        (options.sendAll ((endings.map Ending.testerDidUnreliable).headD testerDidUnreliable) rest
          fun call => rands (call + 1)).map fun later =>
          { later with
            copies := copies ++ later.copies
            corrupted :=
              if copies.all (· = segment) then later.corrupted else segment :: later.corrupted }

/-- Two connected endpoints whose hosts are started with options for unreliability. `corrupted`
are the segments of which other copies than the segment itself were sent.
-/
structure NoisySession where
  session : Session
  testerDidUnreliable : Side → Bool
  corrupted : Side → List Segment

/-- A step of a session, in which the segments that a side hands to `conn_send` are sent as its
options say.
-/
def NoisySession.step (carrier : Carrier) (options : Side → Options) (noisy : NoisySession)
    (input : (Side × Action) × (Nat → Nat → Nat))
    : Option NoisySession :=
  let ((side, action), rands) := input
  (noisy.session.step carrier (side, action)).bind fun next =>
    let sent := newlySent (noisy.session.state side) (next.state side)
    ((options side).sendAll (noisy.testerDidUnreliable side) sent rands).map fun sendings =>
      {
        session :=
          { next with
            flight :=
              Function.update next.flight side.peer
                (noisy.session.flight side.peer ++ sendings.copies) }
        testerDidUnreliable :=
          Function.update noisy.testerDidUnreliable side sendings.testerDidUnreliable
        corrupted :=
          Function.update noisy.corrupted side (noisy.corrupted side ++ sendings.corrupted)
      }

/-- The session that a sequence of steps leads to. -/
def NoisySession.runFrom (carrier : Carrier) (options : Side → Options)
    (cfg : Side → CtcpConfig) (inputs : List ((Side × Action) × (Nat → Nat → Nat)))
    : Option NoisySession :=
  exec (NoisySession.step carrier options) ⟨Session.start cfg, fun _ => false, fun _ => []⟩ inputs

/-- Only segments with a right checksum were corrupted. -/
def NoisySession.Protected (noisy : NoisySession) : Prop :=
  ∀ side, ∀ segment ∈ noisy.corrupted side, checksum segment

/-- What holds of every session: no handler is at work, and what is on its way was handed to
`conn_send`, or is going to be rejected.
-/
structure NoisySession.Running (noisy : NoisySession) : Prop where
  settled : ∀ side, Settled (noisy.session.state side)
  payloads : ∀ side, ShortPayloads (noisy.session.state side)
  flying
    : ∀ side, ∀ copy ∈ noisy.session.flight side,
        checksum copy
        → ∃ sent ∈ (noisy.session.state side.peer).log.sent, sent.object.segment = copy

/-- Every copy is of a segment handed to `conn_send`, by induction on these segments. -/
theorem Options.sendAll_copies {options : Options} {testerDidUnreliable : Bool}
    {segments : List Segment} {rands : Nat → Nat → Nat} {sendings : Sendings}
    (short : ∀ segment ∈ segments, segment.data.length ≤ maxSegDataSize)
    (sent : options.sendAll testerDidUnreliable segments rands = some sendings)
    : ∀ copy ∈ sendings.copies,
        copy ∈ segments ∨ ∃ segment ∈ sendings.corrupted, CopyOf segment copy ∧ copy ≠ segment := by
  induction segments generalizing testerDidUnreliable rands sendings with
  | nil =>
      obtain rfl := Option.some.inj sent
      simp
  | cons segment rest ih =>
      simp only [sendAll] at sent
      split at sent
      · cases sent
      · obtain ⟨later, sentLater, rfl⟩ := Option.map_eq_some_iff.mp sent
        intro copy member
        rcases List.mem_append.mp member with first | next
        · have copied := options.connSend_copies testerDidUnreliable (rands 0)
            (short segment List.mem_cons_self) copy first
          by_cases same : copy = segment
          · exact Or.inl (same ▸ List.mem_cons_self ..)
          · refine Or.inr ⟨segment, ?_, copied, same⟩
            rw [if_neg]
            · exact List.mem_cons_self ..
            · intro all
              exact same (by simpa using List.all_eq_true.mp all copy first)
        · have shorter := fun other later => short other (List.mem_cons_of_mem segment later)
          rcases ih shorter sentLater copy next with sound | ⟨other, corrupted, copied, apart⟩
          · exact Or.inl (List.mem_cons_of_mem _ sound)
          · refine Or.inr ⟨other, ?_, copied, apart⟩
            split
            · exact corrupted
            · exact List.mem_cons_of_mem _ corrupted

/-- A corrupted copy of a segment with a right checksum is rejected. -/
theorem CopyOf.rejected {segment copy : Segment} (copied : CopyOf segment copy)
    (apart : copy ≠ segment) (valid : checksum segment)
    : checksum copy = false := by
  obtain ⟨bit, behind, inside, rfl⟩ := copied.resolve_left apart
  exact checksum_corrupted segment behind inside valid

/-- Conversion makes no right checksum of a wrong one. -/
theorem Carrier.checksum_carry {carrier : Carrier} {sender : Side} {copy arrived : Segment}
    (carry : carrier.carry sender copy = some arrived)
    : checksum arrived = checksum copy := by
  cases carrier with
  | asSent => rw [Option.some.inj carry]
  | packets links =>
      obtain ⟨packet, converted, rfl⟩ := Option.map_eq_some_iff.mp carry
      exact checksum_convertToCtcp _ converted

section Runs

variable {carrier : Carrier} {options : Side → Options} {noisy after : NoisySession}
  {side : Side} {action : Action} {rands : Nat → Nat → Nat}

/-- A step of unreliable endpoints is one of their session, with what is sent in it. -/
theorem NoisySession.step_cases
    (taken : noisy.step carrier options ((side, action), rands) = some after)
    : ∃ next sendings,
        noisy.session.step carrier (side, action) = some next
        ∧ (options side).sendAll (noisy.testerDidUnreliable side)
            (newlySent (noisy.session.state side) (next.state side)) rands
          = some sendings
        ∧ after.session.state = next.state
        ∧ after.session.flight
          = Function.update next.flight side.peer
              (noisy.session.flight side.peer ++ sendings.copies)
        ∧ after.corrupted
          = Function.update noisy.corrupted side (noisy.corrupted side ++ sendings.corrupted) := by
  obtain ⟨next, stepped, sends⟩ := Option.bind_eq_some_iff.mp taken
  obtain ⟨sendings, sent, rfl⟩ := Option.map_eq_some_iff.mp sends
  exact ⟨next, sendings, stepped, sent, rfl, rfl, rfl⟩

/-- What was corrupted remains so. -/
theorem NoisySession.Protected.before (protect : after.Protected)
    (taken : noisy.step carrier options ((side, action), rands) = some after)
    : noisy.Protected := by
  obtain ⟨-, sendings, -, -, -, -, corrupted⟩ := step_cases taken
  intro other segment member
  refine protect other segment ?_
  rw [corrupted]
  by_cases same : other = side
  · subst same
    rw [Function.update_self]
    exact List.mem_append_left _ member
  · rwa [Function.update_of_ne same]

theorem NoisySession.start_running (cfg : Side → CtcpConfig)
    : NoisySession.Running ⟨Session.start cfg, fun _ => false, fun _ => []⟩ where
  settled := fun side => ctcpInit_settled (cfg side)
  payloads := fun side => ctcpInit_shortPayloads (cfg side)
  flying := fun _ copy member => by cases member

/-- A handler that returns has made updates, acting on what its side hears: a copy that was not
sent as it is goes unheard.
-/
theorem NoisySession.Running.updates (running : noisy.Running) {next : Session}
    (returns : noisy.session.Returns carrier next side action)
    : ∃ state,
        Updates (hearing noisy.session.state side) (noisy.session.state side) state
        ∧ next.state = Function.update noisy.session.state side state := by
  obtain ⟨call, state, calls, returned, states⟩ := returns.call
  refine ⟨state, ?_, states⟩
  have updates := Ctcp.step_updates (running.settled side) returned
  have hears : ∀ segment,
      call.effects.received segment → Hears noisy.session.state side segment := by
    intro segment received
    cases calls with
    | read | output | timer => exact received.elim
    | deliver env flying carry =>
        obtain ⟨verified, rfl⟩ := received
        have valid := (carrier.checksum_carry carry).symm.trans verified
        obtain ⟨sent, member, rfl⟩ :=
          running.flying side _ (List.mem_of_getElem? flying) valid
        exact ⟨sent, member, _, carrier.carried carry, verified, rfl⟩
  refine Relation.ReflTransGen.mono (fun _ _ update => ?_) _ _ updates
  exact update.mono (fun _ _ => trivial) hears (fun _ => trivial) (fun _ => trivial)
    (fun _ => trivial)

/-- Every step changes at most the connection of its side, by updates. -/
theorem NoisySession.Running.step_updates (running : noisy.Running) {next : Session}
    (stepped : noisy.session.step carrier (side, action) = some next)
    : ∃ state,
        Updates (hearing noisy.session.state side) (noisy.session.state side) state
        ∧ next.state = Function.update noisy.session.state side state
        ∧ noisy.session.FliesFrom next := by
  rcases Session.step_cases stepped with idle | returns
  · refine ⟨noisy.session.state side, .refl, ?_, idle.flies⟩
    rw [idle.states, Function.update_eq_self]
  · obtain ⟨state, updates, states⟩ := running.updates returns
    exact ⟨state, updates, states, returns.flies⟩

theorem newlySent_self (state : CtcpState) : newlySent state state = [] := by
  simp [newlySent]

theorem NoisySession.Running.step (running : noisy.Running) (protect : after.Protected)
    (taken : noisy.step carrier options ((side, action), rands) = some after)
    : after.Running := by
  obtain ⟨next, sendings, stepped, sent, states, flight, corrupted⟩ := step_cases taken
  obtain ⟨state, updates, changed, flies⟩ := running.step_updates stepped
  have here : next.state side = state := by rw [changed, Function.update_self]
  have there : next.state side.peer = noisy.session.state side.peer := by
    rw [changed, Function.update_of_ne side.peer_ne]
  have payloads := Updates.shortPayloads updates (running.payloads side)
  constructor
  · intro other
    rw [states]
    rcases Side.eq_or_eq_peer side other with rfl | rfl
    · rw [here]
      exact Updates.settled updates (running.settled other)
    · rw [there]
      exact running.settled _
  · intro other
    rw [states]
    rcases Side.eq_or_eq_peer side other with rfl | rfl
    · rw [here]
      exact payloads
    · rw [there]
      exact running.payloads _
  · intro other copy member valid
    rw [states]
    rw [flight] at member
    rcases Side.eq_or_eq_peer side other with rfl | rfl
    · rw [Function.update_of_ne other.peer_ne.symm] at member
      rw [there]
      rcases flies other copy member with old | new
      · exact running.flying other copy old valid
      · rw [there, newlySent_self] at new
        cases new
    · rw [Function.update_self] at member
      rw [Side.peer_peer, here]
      rcases List.mem_append.mp member with old | new
      · obtain ⟨transmission, was, same⟩ := running.flying side.peer copy old valid
        rw [Side.peer_peer] at was
        exact ⟨transmission, (Updates.sent_prefix updates).subset was, same⟩
      · have short : ∀ segment ∈ newlySent (noisy.session.state side) (next.state side),
            segment.data.length ≤ maxSegDataSize := by
          rw [here]
          intro segment now
          obtain ⟨transmission, handed, rfl⟩ := List.mem_map.mp now
          exact payloads.sent transmission (List.mem_of_mem_drop handed)
        rcases Options.sendAll_copies short sent copy new with
          whole | ⟨segment, spoilt, copied, apart⟩
        · rw [here] at whole
          obtain ⟨transmission, now, same⟩ := List.mem_map.mp whole
          exact ⟨transmission, List.mem_of_mem_drop now, same⟩
        · have right := protect side segment (by
            rw [corrupted, Function.update_self]
            exact List.mem_append_right _ spoilt)
          rw [copied.rejected apart right] at valid
          cases valid

/-- A property of two settled connections that every update keeps, when the side that makes it
only acts on what it hears, holds after every run of unreliable endpoints that corrupt only
segments with a right checksum.
-/
theorem NoisySession.runFrom_invariant (inv : (Side → CtcpState) → Prop)
    (kept
      : ∀ {states side next},
          (∀ side, Settled (states side)) → inv states
          → Update (hearing states side) (states side) next
          → inv (Function.update states side next))
    {cfg : Side → CtcpConfig} (start : inv fun side => ctcpInit (cfg side))
    {inputs : List ((Side × Action) × (Nat → Nat → Nat))}
    (reached : NoisySession.runFrom carrier options cfg inputs = some noisy)
    (protect : noisy.Protected)
    : noisy.Running ∧ inv noisy.session.state := by
  refine StepRuns.exec_invariant
    (fun noisy => noisy.Protected → noisy.Running ∧ inv noisy.session.state) ?_
    (fun _ => ⟨NoisySession.start_running cfg, start⟩) reached protect
  rintro noisy ⟨⟨side, action⟩, rands⟩ after held taken protect
  obtain ⟨running, holds⟩ := held (protect.before taken)
  refine ⟨running.step protect taken, ?_⟩
  obtain ⟨next, sendings, stepped, -, states, -, -⟩ := step_cases taken
  obtain ⟨state, updates, changed, -⟩ := running.step_updates stepped
  rw [states, changed]
  exact (hearing_invariant kept updates running.settled holds).2

end Runs

/-- Whatever `conn_send` drops, duplicates, delays and corrupts, as long as it corrupts only
segments with a right checksum and leaves no second process: what either side has accepted is an
initial part of what the other side has read, and what either side has dropped from its send window
the other side has accepted.
-/
theorem NoisySession.runFrom_noisyDataSafety {carrier : Carrier} {options : Side → Options}
    {cfg : Side → CtcpConfig} {inputs : List ((Side × Action) × (Nat → Nat → Nat))}
    {noisy : NoisySession}
    (reached : NoisySession.runFrom carrier options cfg inputs = some noisy)
    (protect : noisy.Protected)
    (short : ∀ side, (noisy.session.state side).log.input.length < 2147483648) (side : Side)
    : (noisy.session.state side.peer).log.accepted <+: (noisy.session.state side).log.input
      ∧ (noisy.session.state side).ackedBytes
        <+: (noisy.session.state side.peer).log.accepted := by
  obtain ⟨-, held⟩ :=
    NoisySession.runFrom_invariant DataSafety Update.dataSafety (start_dataSafety cfg) reached
      protect
  obtain ⟨tiled, -, safe⟩ := held short side
  have ackedInput
    : (noisy.session.state side).ackedBytes <+: (noisy.session.state side).log.input :=
    ⟨_, tiled.bytes⟩
  exact ⟨safe.accepted, List.prefix_of_prefix_length_le ackedInput safe.accepted safe.acked⟩

/-- A host that sends two copies of every segment and corrupts every second one on average. -/
def noisyOptions : Options where
  optDrop := 0
  optCorrupt := 50
  optDelay := 0
  optDuplicate := 100
  testDebugOn := false

/-- Two bytes are read and sent twice. Both copies arrive, the second one corrupted. -/
def corruptedCopy : List ((Side × Action) × (Nat → Nat → Nat)) :=
  let outside := Env.steady 0 10
  [
    ((.a, .read outside (some [0x61, 0x62])), fun _ _ => 60),
    ((.b, .deliver outside 1), fun _ _ => 60),
    ((.b, .deliver outside 0), fun _ _ => 60)
  ]

/-- The corrupted copy is rejected, and both bytes are accepted from the other one. -/
theorem NoisySession.runFrom_noisyDataSafety_corruptedCopy
    : ∃ noisy,
        NoisySession.runFrom .asSent (fun _ => noisyOptions) (fun _ => defaultConfig) corruptedCopy
          = some noisy
        ∧ noisy.corrupted .a ≠ []
        ∧ (noisy.session.state .b).log.accepted = [0x61, 0x62]
        ∧ (noisy.session.state .b).log.accepted <+: (noisy.session.state .a).log.input := by
  have reached
    : (NoisySession.runFrom .asSent (fun _ => noisyOptions) (fun _ => defaultConfig)
        corruptedCopy).isSome := by
    decide +kernel
  refine ⟨_, (Option.some_get reached).symm, by decide +kernel +revert,
    by decide +kernel +revert, ?_⟩
  exact (NoisySession.runFrom_noisyDataSafety (Option.some_get reached).symm
    (by intro side; cases side <;> decide +kernel +revert)
    (by intro side; cases side <;> decide +kernel +revert) .a).1

end Networks.Ctcp
