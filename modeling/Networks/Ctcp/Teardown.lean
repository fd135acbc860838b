import Networks.Ctcp.Dispatch
import Networks.Ctcp.Delivery

/-! Whether the teardown timer destroys finished connections only. It is started by a FIN-ACK,
whatever else is still outstanding, so the conditions must hold when the FIN-ACK arrives, and
nothing may be queued after that.
-/

namespace Networks.Ctcp

open MachineIntegers

/-- The conditions under which a connection is to be destroyed, if its peer responds. -/
structure CtcpState.Finished (state : CtcpState) : Prop where
  finReceived : state.log.fins ≠ []
  inputEnded : state.log.inputEnded = true
  finSent : ∃ sent ∈ state.log.sent, sent.object.segment.flags = thFin
  acked : state.sw.segments = []
  delivered : state.log.outputs.flatten = state.log.accepted
  drained : state.rw.segments = []

/-- Which timer has run out when a connection is destroyed. -/
theorem timerCheck_error {now : Nat → Int} {state : CtcpState} {cause : Cause}
    (stopped : timerCheck now state = .error cause)
    : (cause = .teardown ∧ state.timerTeardown ≠ -1)
      ∨ (cause = .unresponsive ∧ state.retransDue (now 1) ∧ 5 ≤ state.sw.retransCounter) := by
  unfold timerCheck at stopped
  split at stopped
  · next due =>
      simp only [CtcpState.teardownDue, decide_eq_true_eq] at due
      exact Or.inl ⟨(Except.error.inj stopped).symm, due.1⟩
  · split at stopped
    · next due =>
        split at stopped
        · next tries => exact Or.inr ⟨(Except.error.inj stopped).symm, due, tries⟩
        · cases stopped
    · cases stopped

/-- Only `ctcp_timer` destroys a connection. -/
theorem Call.run_destroyed {call : Call} {state : CtcpState} {cause : Cause}
    (destroyed : call.run state = .destroyed cause)
    : ∃ env, call = .timer env ∧ timerCheck env.now state = .error cause := by
  cases call with
  | read env offer => cases destroyed
  | output env => cases destroyed
  | receive env segment len =>
      simp only [Call.run] at destroyed
      split at destroyed
      · cases destroyed
      · cases destroyed
  | timer env =>
      simp only [Call.run] at destroyed
      split at destroyed
      · next stopped =>
          obtain rfl := Outcome.destroyed.inj destroyed
          exact ⟨env, rfl, stopped⟩
      · cases destroyed

/-- A connection that a call destroys was there, and the call was one of its own. -/
theorem Session.call_destroyed {call : Call} {session next : Session} {actor side : Side}
    {cause : Cause} (done : session.call actor call = some next)
    (alive : (session.endpoint side).destroyed = none)
    (destroyed : (next.endpoint side).destroyed = some cause)
    : side = actor ∧ call.run (session.state actor) = .destroyed cause := by
  unfold Session.call at done
  split at done
  · cases done
  split at done
  · cases done
  · next stopped =>
      obtain rfl := Option.some.inj done
      by_cases same : side = actor
      · subst same
        simp only [Function.update_self] at destroyed
        obtain rfl := Option.some.inj destroyed
        exact ⟨rfl, stopped⟩
      · simp only [Function.update_of_ne same, alive] at destroyed
        cases destroyed
  · obtain rfl := Option.some.inj done
    by_cases same : side = actor
    · subst same
      simp only [Function.update_self, alive] at destroyed
      cases destroyed
    · simp only [Function.update_of_ne same, alive] at destroyed
      cases destroyed

/-- A step that destroys a connection is a call of its timer. -/
theorem Session.step_destroyed {carrier : Carrier} {session next : Session}
    {input : Side × Action} {side : Side} {cause : Cause}
    (taken : session.step carrier input = some next)
    (alive : (session.endpoint side).destroyed = none)
    (destroyed : (next.endpoint side).destroyed = some cause)
    : ∃ env, input = (side, .timer env)
        ∧ timerCheck env.now (session.state side) = .error cause := by
  obtain ⟨actor, action⟩ := input
  cases action with
  | read env offer =>
      have done : session.call actor (.read env offer) = some next := taken
      obtain ⟨rfl, run⟩ := Session.call_destroyed done alive destroyed
      cases run
  | output env =>
      have done : session.call actor (.output env) = some next := taken
      obtain ⟨rfl, run⟩ := Session.call_destroyed done alive destroyed
      cases run
  | timer env =>
      have done : session.call actor (.timer env) = some next := taken
      obtain ⟨rfl, run⟩ := Session.call_destroyed done alive destroyed
      obtain ⟨_, same, stopped⟩ := Call.run_destroyed run
      obtain rfl := Call.timer.inj same
      exact ⟨env, rfl, stopped⟩
  | deliver env index =>
      simp only [Session.step] at taken
      split at taken
      · cases taken
      · obtain ⟨rfl, run⟩ := Session.call_destroyed taken alive destroyed
        obtain ⟨_, impossible, -⟩ := Call.run_destroyed run
        cases impossible
  | duplicate index | drop index =>
      obtain rfl := Option.some.inj taken
      simp only [alive] at destroyed
      cases destroyed

-----------------------------------------------------------------------------------------
-- Finished connections stay finished
-----------------------------------------------------------------------------------------

/-- The teardown timer only runs when a FIN was received, the input has ended, and nothing is
unacknowledged.
-/
def CtcpState.ArmedWhenDone (state : CtcpState) : Prop :=
  state.timerTeardown ≠ -1
  → state.log.fins ≠ [] ∧ state.log.inputEnded = true ∧ state.sw.segments = []

/-- Nothing is received that is not output, the end of the input has been sent, and the
teardown timer only runs when all else is done.
-/
structure Closing (state : CtcpState) : Prop where
  flagged : Flagged state
  drained : state.rw.segments = []
  delivered : Delivered state
  ended
    : state.log.inputEnded = true
      → ∃ sent ∈ state.log.sent, sent.object.segment.flags = thFin
  armed : state.ArmedWhenDone

theorem ctcpInit_closing (cfg : CtcpConfig) : Closing (ctcpInit cfg) where
  flagged := ctcpInit_flagged cfg
  drained := rfl
  delivered := (ctcpInit_delivering cfg).delivered
  ended := by simp [ctcpInit]
  armed := fun running => absurd rfl running

/-- A closing connection whose teardown timer runs is finished. -/
theorem Closing.finished {state : CtcpState} (closing : Closing state)
    (running : state.timerTeardown ≠ -1)
    : state.Finished := by
  obtain ⟨fins, inputEnded, acked⟩ := closing.armed running
  have held : state.heldBytes = [] := heldBytes_eq_nil (by simp [closing.drained])
  have lossless := closing.delivered.lossless
  rw [held, List.append_nil] at lossless
  exact ⟨fins, inputEnded, closing.ended inputEnded, acked, lossless, closing.drained⟩

/-- The end of the input is only noted when a FIN is sent. -/
theorem Update.ended {effects : Effects} {state next : CtcpState}
    (update : Update effects state next)
    (ended
      : state.log.inputEnded = true
        → ∃ sent ∈ state.log.sent, sent.object.segment.flags = thFin)
    : next.log.inputEnded = true
      → ∃ sent ∈ next.log.sent, sent.object.segment.flags = thFin := by
  have grows := update.sent_prefix
  cases update with
  | endInput now pad reading queues =>
      intro _
      exact ⟨_, List.mem_append_right _ (List.mem_singleton_self _), SegmentRef.stamp_flags _ _⟩
  | _ =>
      intro inputEnded
      obtain ⟨sent, member, isFin⟩ := ended inputEnded
      exact ⟨sent, grows.subset member, isFin⟩

/-- A received segment whose payload fits the output leaves the receive window empty: none
that is ahead can be kept there.
-/
theorem reception_drained {env : Env} {arrived : Segment} {state next : CtcpState}
    (settled : Settled state) (drained : state.rw.segments = [])
    (whole : DeliversWhole state (arrived.reception env))
    (taken : step state (arrived.reception env) = some next)
    : next.rw.segments = [] := by
  by_cases accepts : state.accepts arrived (segHeaderSize + arrived.data.length)
  · obtain ⟨accepted, acceptance, result⟩ := receive_accepts env settled accepts
    have payload : arrived.data ≠ [] := by
      simp only [CtcpState.accepts, Bool.and_eq_true, decide_eq_true_eq] at accepts
      exact fun empty => accepts.1.2 ((received_length_eq_zero arrived).mpr empty)
    obtain ⟨-, -, noWrap⟩ := whole accepts payload
    rw [← state.receivedObject_data arrived] at payload noWrap
    rw [acceptance.emitted payload drained noWrap] at result
    obtain rfl := Option.some.inj (result.symm.trans taken)
    rfl
  · rcases receive_declines settled accepts taken with same | ⟨-, kept⟩
    · rw [same.rw, drained]
    · have front := kept.front
      rw [drained] at front
      exact List.head?_eq_none_iff.mp front

/-- A call whose accepted payload fits the output keeps a drained connection drained, and all
that was accepted delivered.
-/
theorem Closing.delivers {call : Call} {state next : CtcpState} (settled : Settled state)
    (closing : Closing state) (whole : DeliversWhole state call)
    (sized
      : ∀ env segment len,
          call = .receive env segment len → len = segHeaderSize + segment.data.length)
    (taken : step state call = some next)
    : next.rw.segments = [] ∧ Delivered next := by
  have waiting : Waiting state := ⟨by simp [closing.drained], by simp [closing.drained]⟩
  have delivered := (step_delivers ⟨settled, waiting, closing.delivered⟩ whole taken).2
  refine ⟨?_, delivered⟩
  cases call with
  | receive env segment len =>
      obtain rfl := sized env segment len rfl
      exact reception_drained settled closing.drained whole taken
  | read | output | timer =>
      have same := step_sameDelivery settled waiting (by simp) taken
      rw [same.rw, closing.drained]

/-- An arriving FIN-ACK leaves nothing to wait for: a FIN was received, the input has ended,
and the FIN-ACK acknowledges all that was queued.
-/
def CtcpState.MayClose (segment : Segment) (state : CtcpState) : Prop :=
  state.log.fins ≠ []
  ∧ state.log.inputEnded = true
  ∧ (∀ front ∈ state.sw.segments.head?, acknowledgesFront segment front)
  ∧ ∀ node ∈ state.sw.segments, confirmed segment.receivedAckno node

/-- Every accepted payload fits the output, FIN-ACKs only arrive where nothing is left to wait
for, and no input is read while the teardown timer runs.
-/
def ClosesFinished (carrier : Carrier) (session : Session) : Side × Action → Prop
  | (side, .deliver env index) =>
      ∀ arrived ∈ session.arrives carrier side index,
        DeliversWhole (session.state side) (arrived.reception env)
        ∧ (checksum arrived
          → finAckArrived arrived (segHeaderSize + arrived.data.length)
          → (session.state side).MayClose arrived)
  | (side, .read _ _) =>
      (session.state side).timerTeardown ≠ -1 → (session.state side).bufferSize ≤ 0
  | _ => True

/-- The ACK branch leaves a timer alone that runs with an empty window. -/
theorem receivedAck_armedWhenDone {state : CtcpState} (settled : Settled state) (env : Env)
    (segment : Segment) (done : state.ArmedWhenDone)
    : (receivedAck env segment state).ArmedWhenDone := by
  rcases receivedAck_cases env segment settled with same | ⟨node, next, window, -, slid⟩
  · rw [same]
    exact done
  · rw [slid]
    intro running
    obtain ⟨-, -, empty⟩ := done running
    rw [empty] at window
    cases window

/-- A FIN-ACK that acknowledges the whole window leaves it empty. -/
theorem CtcpState.MayClose.closes {arrived : Segment} {state : CtcpState}
    (mayClose : state.MayClose arrived) (settled : Settled state) (env : Env)
    : (receivedAck env arrived.cleared state).ArmedWhenDone := by
  obtain ⟨fins, inputEnded, first, all⟩ := mayClose
  cases window : state.sw.segments with
  | nil =>
      rw [receivedAck_empty env arrived.cleared window]
      exact fun _ => ⟨fins, inputEnded, window⟩
  | cons node next =>
      have acknowledged := first node (by simp [window])
      rw [← acknowledgesFront_cleared] at acknowledged
      rw [receivedAck_slides env settled window acknowledged]
      refine fun _ => ⟨fins, inputEnded, ?_⟩
      rw [CtcpState.slide, CtcpState.unconfirmed, List.filter_eq_nil_iff]
      intro other member
      rw [Segment.cleared_receivedAckno, all other member]
      decide

/-- The arrival of a segment only starts the teardown timer where nothing is left to wait for.
-/
theorem armedWhenDone_arrival {env : Env} {arrived : Segment} {state next : CtcpState}
    (settled : Settled state) (done : state.ArmedWhenDone)
    (mayClose
      : checksum arrived → finAckArrived arrived (segHeaderSize + arrived.data.length)
        → state.MayClose arrived)
    (reaction : Reaction env arrived state next)
    : next.ArmedWhenDone := by
  have noted : (state.noted arrived).ArmedWhenDone := done
  cases reaction with
  | rejected invalid => exact done
  | data verified payload same sent =>
      intro running
      rw [same.timerTeardown] at running
      rw [same.fins, same.inputEnded, same.sw]
      exact noted running
  | ack verified empty flags =>
      exact receivedAck_armedWhenDone (settled.noted arrived) env arrived.cleared noted
  | fin verified empty flags running =>
      intro still
      obtain ⟨-, inputEnded, acked⟩ := done still
      exact ⟨List.append_ne_nil_of_right_ne_nil _ (by simp), inputEnded, acked⟩
  | finReturned verified empty flags stopped => exact fun running => absurd stopped running
  | finAck verified empty flags => exact noted
  | convertedFinAck verified empty flags =>
      have finAck : finAckArrived arrived (segHeaderSize + arrived.data.length) := by
        have cleared := (finAckArrived_iff arrived _).mpr
          ⟨flags, (received_length_eq_zero arrived).mpr empty⟩
        rwa [finAckArrived, Segment.cleared_flags, ← finAckArrived] at cleared
      have settledArmed : Settled (state.armed env arrived) :=
        ⟨settled.bufferEmpty, settled.stamped, settled.timed, settled.allocate.allocated⟩
      have armed : (state.armed env arrived).MayClose arrived := mayClose verified finAck
      exact armed.closes settledArmed env

section Runs

variable {carrier : Carrier} {session next : Session} {side : Side} {action : Action}

/-- Every call that meets the guard keeps the teardown timer for finished connections. -/
theorem armedWhenDone_call {call : Call} {state : CtcpState} (running : session.Running)
    (closing : ∀ side, Closing (session.state side))
    (closes : ClosesFinished carrier session (side, action))
    (calls : session.Calls carrier side action call)
    (returned : Ctcp.step (session.state side) call = some state)
    : state.ArmedWhenDone := by
  have settled := running.settled side
  have done := (closing side).armed
  cases calls with
  | read env offer =>
      obtain rfl := Option.some.inj returned
      rcases ctcpRead_cases env offer settled with
        ⟨-, same⟩ | ⟨asks, -, fin⟩ | ⟨bytes, asks, -, data⟩
      · rw [same]
        exact done
      · rw [fin]
        exact fun armed => absurd (closes armed) (Int.not_le.mpr asks)
      · rw [data]
        exact fun armed => absurd (closes armed) (Int.not_le.mpr asks)
  | output env =>
      obtain rfl := Option.some.inj returned
      obtain ⟨same, -⟩ := ctcpOutput_sameSending env (session.state side)
      intro armed
      rw [same.timerTeardown] at armed
      rw [same.fins, same.inputEnded, same.sw]
      exact done armed
  | timer env =>
      rcases timerCheck_cases settled (step_timer returned) with
        ⟨-, same⟩ | ⟨node, rest, front, -, -, -, again⟩
      · rw [same]
        exact done
      · rw [again]
        intro armed
        obtain ⟨-, -, empty⟩ := done armed
        rw [empty] at front
        cases front
  | @deliver env index segment arrived flying carry =>
      obtain ⟨sent, member, carried⟩ := running.carried flying carry
      have kinds := (closing side.peer).flagged.arriving member carried
      have arrives := Session.arrives_eq flying carry
      exact armedWhenDone_arrival settled done (closes arrived arrives).2
        (arrival_reaction settled kinds returned)

/-- Every call that meets the guard delivers what it accepts. -/
theorem ClosesFinished.whole {call : Call}
    (closes : ClosesFinished carrier session (side, action))
    (calls : session.Calls carrier side action call)
    : DeliversWhole (session.state side) call
      ∧ ∀ env segment len,
          call = .receive env segment len → len = segHeaderSize + segment.data.length := by
  cases calls with
  | read env offer | output env | timer env => exact ⟨trivial, by simp⟩
  | @deliver env index segment arrived flying carry =>
      have arrives := Session.arrives_eq flying carry
      refine ⟨(closes arrived arrives).1, ?_⟩
      intro _ _ _ same
      obtain ⟨-, rfl, rfl⟩ := Call.receive.inj same
      rfl

/-- Every call that meets the guard keeps both connections closing well. -/
theorem Closing.call {call : Call} {state : CtcpState} (running : session.Running)
    (closing : ∀ side, Closing (session.state side))
    (closes : ClosesFinished carrier session (side, action))
    (calls : session.Calls carrier side action call)
    (returned : Ctcp.step (session.state side) call = some state)
    : ∀ other, Closing (Function.update session.state side state other) := by
  intro other
  rcases Side.eq_or_eq_peer side other with rfl | rfl
  · rw [Function.update_self]
    have settled := running.settled other
    have updates := step_updates settled returned
    obtain ⟨whole, sized⟩ := closes.whole calls
    obtain ⟨drained, delivered⟩ := (closing other).delivers settled whole sized returned
    exact ⟨updates.invariant (fun _ held update => update.flagged held) settled
        (closing other).flagged,
      drained, delivered,
      updates.invariant (fun _ held update => update.ended held) settled (closing other).ended,
      armedWhenDone_call running closing closes calls returned⟩
  · rw [Function.update_of_ne side.peer_ne]
    exact closing side.peer

/-- In every run in which FIN-ACKs only arrive where nothing is left to wait for, nothing is
read after that, and every accepted payload fits the output, the teardown timer destroys
finished connections only. Any other connection that is destroyed has retransmitted five
times.
-/
theorem Session.runFrom_teardownFinished {cfg : Side → CtcpConfig}
    {inputs : List (Side × Action)} {input : Side × Action} {cause : Cause}
    (guarded
      : StepRuns.AllSteps (Session.step carrier) (ClosesFinished carrier) (Session.start cfg)
          inputs)
    (reached : Session.runFrom carrier cfg inputs = some session)
    (taken : session.step carrier input = some next)
    (alive : (session.endpoint side).destroyed = none)
    (destroyed : (next.endpoint side).destroyed = some cause)
    : (∃ env, input = (side, .timer env))
      ∧ (cause = .teardown ∧ (session.state side).Finished
        ∨ cause = .unresponsive ∧ 5 ≤ (session.state side).sw.retransCounter) := by
  obtain ⟨-, closing⟩ :=
    Session.runFrom_invariant_of_guard (ClosesFinished carrier)
      (fun states => ∀ side, Closing (states side)) Closing.call
      (fun side => ctcpInit_closing (cfg side)) guarded reached
  obtain ⟨env, timer, stopped⟩ := Session.step_destroyed taken alive destroyed
  refine ⟨⟨env, timer⟩, ?_⟩
  rcases timerCheck_error stopped with ⟨teardown, running⟩ | ⟨unresponsive, -, tries⟩
  · exact Or.inl ⟨teardown, (closing side).finished running⟩
  · exact Or.inr ⟨unresponsive, tries⟩

end Runs

/-- One side reads the end of its input. The other side answers its FIN, and its own FIN is
lost.
-/
def unansweredClose : List (Side × Action) :=
  let outside := Env.steady 0 10
  [
    (.a, .read outside none),
    (.b, .deliver outside 0),
    (.a, .drop 1),
    (.a, .deliver outside 0)
  ]

/-- The teardown timer destroys a connection that has not received a FIN. -/
theorem Session.teardown_without_fin
    : ¬ ∀ (carrier : Carrier) (cfg : Side → CtcpConfig) (inputs : List (Side × Action))
        (session next : Session) (side : Side) (env : Env),
        Session.runFrom carrier cfg inputs = some session
        → session.step carrier (side, .timer env) = some next
        → (session.endpoint side).destroyed = none
        → (next.endpoint side).destroyed = some .teardown
        → (session.state side).Finished := by
  intro always
  obtain ⟨session, reached⟩ : ∃ session,
      Session.runFrom (.packets fun _ => plainLink) (fun _ => defaultConfig) unansweredClose
        = some session :=
    Option.isSome_iff_exists.mp (by decide +kernel)
  have closes : ∀ session
      ∈ Session.runFrom (.packets fun _ => plainLink) (fun _ => defaultConfig) unansweredClose,
      (session.endpoint .a).destroyed = none ∧ (session.state .a).log.fins = []
      ∧ (session.step (.packets fun _ => plainLink) (.a, .timer (.steady 401 0))).map
          (fun next => (next.endpoint .a).destroyed)
        = some (some .teardown) := by
    decide +kernel
  obtain ⟨alive, noFin, torn⟩ := closes session reached
  obtain ⟨next, taken, destroyed⟩ := Option.map_eq_some_iff.mp torn
  have finished := always _ _ _ session next .a _ reached taken alive destroyed
  exact finished.finReceived noFin

instance (state : CtcpState) (segment : Segment) : Decidable (state.MayClose segment) :=
  inferInstanceAs (Decidable (_ ∧ _))

instance (state : CtcpState) (call : Call) : Decidable (DeliversWhole state call) :=
  match call with
  | .receive .. => inferInstanceAs (Decidable (_ → _))
  | .read .. | .output _ | .timer _ => isTrue trivial

instance (carrier : Carrier) (session : Session) (input : Side × Action)
    : Decidable (ClosesFinished carrier session input) :=
  match input with
  | (side, .deliver _ index) =>
      inferInstanceAs (Decidable (∀ arrived ∈ session.arrives carrier side index, _))
  | (_, .read ..) => inferInstanceAs (Decidable (_ → _))
  | (_, .output _) | (_, .timer _) | (_, .duplicate _) | (_, .drop _) => isTrue trivial

/-- Both sides read the end of their inputs, both FINs arrive, and a FIN-ACK. -/
def answeredClose : List (Side × Action) :=
  let outside := Env.steady 0 10
  [
    (.a, .read outside none),
    (.b, .read outside none),
    (.b, .deliver outside 0),
    (.a, .deliver outside 0),
    (.a, .deliver outside 0)
  ]

/-- The teardown timer destroys a finished connection. -/
theorem Session.runFrom_teardownFinished_answered
    : ∃ session next,
        Session.runFrom (.packets fun _ => plainLink) (fun _ => defaultConfig) answeredClose
          = some session
        ∧ session.step (.packets fun _ => plainLink) (.a, .timer (.steady 401 0)) = some next
        ∧ (next.endpoint .a).destroyed = some .teardown
        ∧ (session.state .a).Finished := by
  obtain ⟨session, reached⟩ : ∃ session,
      Session.runFrom (.packets fun _ => plainLink) (fun _ => defaultConfig) answeredClose
        = some session :=
    Option.isSome_iff_exists.mp (by decide +kernel)
  have closes : ∀ session
      ∈ Session.runFrom (.packets fun _ => plainLink) (fun _ => defaultConfig) answeredClose,
      (session.endpoint .a).destroyed = none
      ∧ (session.step (.packets fun _ => plainLink) (.a, .timer (.steady 401 0))).map
          (fun next => (next.endpoint .a).destroyed)
        = some (some .teardown) := by
    decide +kernel
  obtain ⟨alive, torn⟩ := closes session reached
  obtain ⟨next, taken, destroyed⟩ := Option.map_eq_some_iff.mp torn
  refine ⟨session, next, reached, taken, destroyed, ?_⟩
  obtain ⟨-, ⟨-, finished⟩ | ⟨impossible, -⟩⟩ :=
    Session.runFrom_teardownFinished (by decide +kernel) reached taken alive destroyed
  · exact finished
  · cases impossible

end Networks.Ctcp
