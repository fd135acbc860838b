import Mathlib.Logic.Function.Basic
import Networks.Ctcp.Updates
import Networks.Ctcp.Wire

/-! Two connected endpoints and the network between them. The network may lose, repeat and
reorder segments. It changes nothing in them but what conversion to a packet and back does.
-/

namespace Networks.Ctcp

/-- The two ends of a connection. -/
inductive Side
  | a
  | b
  deriving DecidableEq

def Side.peer : Side → Side
  | .a => .b
  | .b => .a

@[simp] theorem Side.peer_peer (side : Side) : side.peer.peer = side := by cases side <;> rfl

@[simp] theorem Side.peer_ne (side : Side) : side.peer ≠ side := by cases side <;> decide

/-- A side is one of two. -/
theorem Side.eq_or_eq_peer (side other : Side) : other = side ∨ other = side.peer := by
  cases side <;> cases other <;> decide

theorem Side.and_iff_forall {property : Side → Prop}
    : property .a ∧ property .b ↔ ∀ side, property side := by
  refine ⟨fun both side => ?_, fun every => ⟨every .a, every .b⟩⟩
  cases side
  · exact both.1
  · exact both.2

instance {property : Side → Prop} [DecidablePred property]
    : Decidable (∀ side, property side) :=
  decidable_of_iff _ Side.and_iff_forall

/-- What conversion reads on the way from a sender to a receiver. Two cTCP hosts talk to each
other over Unix sockets.
-/
structure Link where
  config : Host
  dst : Conn
  src : Conn
  unix : config.unixSocket = true
  connected : Connected dst src

/-- A link between two cTCP hosts with different initial sequence numbers. -/
def plainLink : Link where
  config := { ipAddr := 1, port := 9999, runProgram := false, unixSocket := true }
  dst := { ipAddr := 2, port := 80, initSeqno := 5, theirInitSeqno := 9 }
  src := { ipAddr := 1, port := 9999, initSeqno := 9, theirInitSeqno := 5 }
  unix := rfl
  connected := ⟨rfl, rfl⟩

/-- How a segment handed to `conn_send` gets to `ctcp_receive`: as it is, or as a packet. -/
inductive Carrier
  | asSent
  | packets (links : Side → Link)

/-- What arrives for a segment sent by a side. -/
def Carrier.carry (sender : Side) (segment : Segment) : Carrier → Option Segment
  | .asSent => some segment
  | .packets links =>
      (convertToDatagram (links sender).config (links sender).dst segment).map
        (convertToCtcp (links sender).src)

/-- What arrives is the segment, at most without the high bytes of its flags. -/
structure Carried (segment arrived : Segment) : Prop extends SameSegment segment arrived where
  flags : arrived.flags = segment.flags ∨ arrived.flags = segment.flags.toUInt8.toUInt32

theorem Carrier.carried {carrier : Carrier} {sender : Side} {segment arrived : Segment}
    (carry : carrier.carry sender segment = some arrived)
    : Carried segment arrived := by
  cases carrier with
  | asSent =>
      obtain rfl := Option.some.inj carry
      exact ⟨.refl segment, Or.inl rfl⟩
  | packets links =>
      obtain ⟨packet, converted, rfl⟩ := Option.map_eq_some_iff.mp carry
      refine ⟨convertToCtcp_same (links sender).connected converted, Or.inr ?_⟩
      have flags := (convertToDatagram_carries converted).flags
      have towardsHost : (links sender).config.thFlags segment = segment.flags.toUInt8 := by
        simp [Host.thFlags, (links sender).unix]
      simp only [convertToCtcp, Conn.received, flags, towardsHost]

-----------------------------------------------------------------------------------------
-- Sessions
-----------------------------------------------------------------------------------------

/-- One end: its connection, and what destroyed it. -/
structure Endpoint where
  state : CtcpState
  destroyed : Option Cause

/-- Two connected endpoints, and the segments on their way to each of them. -/
structure Session where
  endpoint : Side → Endpoint
  flight : Side → List Segment

/-- A step of one side, with what the outside answers, or of the network with one of the
segments on their way to that side.
-/
inductive Action
  | read (env : Env) (offer : Option (List UInt8))
  | output (env : Env)
  | timer (env : Env)
  | deliver (env : Env) (index : Nat)
  | duplicate (index : Nat)
  | drop (index : Nat)

/-- The connection of a side. -/
def Session.state (session : Session) (side : Side) : CtcpState :=
  (session.endpoint side).state

/-- The segments handed to `conn_send` from one state of a connection to the next. -/
def newlySent (before after : CtcpState) : List Segment :=
  (after.log.sent.drop before.log.sent.length).map (fun sent => sent.object.segment)

/-- A call of a handler on a side that is still there. What it sends is on its way to the
other side, and dereferencing `NULL` ends the run.
-/
def Session.call (side : Side) (call : Call) (session : Session) : Option Session :=
  if (session.endpoint side).destroyed.isSome then
    none
  else
    match call.run (session.state side) with
    | .nullDereference => none
    | .destroyed cause =>
        some
          { session with
            endpoint :=
              Function.update session.endpoint side
                { session.endpoint side with destroyed := some cause } }
    | .returned state =>
        some
          { endpoint :=
              Function.update session.endpoint side
                { session.endpoint side with state := state }
            flight :=
              Function.update session.flight side.peer
                (session.flight side.peer ++ newlySent (session.state side) state) }

/-- The call in which a segment is received that has arrived. -/
def Segment.reception (env : Env) (arrived : Segment) : Call :=
  .receive env arrived (segHeaderSize + arrived.data.length)

/-- A step of a session. -/
def Session.step (carrier : Carrier) (session : Session) (input : Side × Action)
    : Option Session :=
  let (side, action) := input
  match action with
  | .read env offer => session.call side (.read env offer)
  | .output env => session.call side (.output env)
  | .timer env => session.call side (.timer env)
  | .deliver env index =>
      match (session.flight side)[index]?.bind (carrier.carry side.peer) with
      | none => none
      | some arrived =>
          { session with
            flight := Function.update session.flight side ((session.flight side).eraseIdx index)
          }.call side (arrived.reception env)
  | .duplicate index =>
      some
        { session with
          flight :=
            Function.update session.flight side
              (session.flight side ++ (session.flight side)[index]?.toList) }
  | .drop index =>
      some
        { session with
          flight := Function.update session.flight side ((session.flight side).eraseIdx index) }

/-- What arrives when a side receives one of the segments on their way to it. -/
def Session.arrives (carrier : Carrier) (side : Side) (index : Nat) (session : Session)
    : Option Segment :=
  (session.flight side)[index]?.bind (carrier.carry side.peer)

/-- Two new connections, with nothing between them. -/
def Session.start (cfg : Side → CtcpConfig) : Session where
  endpoint := fun side => { state := ctcpInit (cfg side), destroyed := none }
  flight := fun _ => []

/-- The session that a sequence of steps leads to. -/
def Session.runFrom (carrier : Carrier) (cfg : Side → CtcpConfig)
    (inputs : List (Side × Action))
    : Option Session :=
  StepRuns.exec (Session.step carrier) (Session.start cfg) inputs

section Steps

variable {carrier : Carrier} {session next : Session} {side : Side} {action : Action}

/-- The calls an action makes on a side: those it names, or the reception of a segment that
was on its way.
-/
inductive Session.Calls (carrier : Carrier) (session : Session) (side : Side)
    : Action → Call → Prop
  | read (env : Env) (offer : Option (List UInt8))
    : Calls carrier session side (.read env offer) (.read env offer)
  | output (env : Env) : Calls carrier session side (.output env) (.output env)
  | timer (env : Env) : Calls carrier session side (.timer env) (.timer env)
  | deliver (env : Env) {index : Nat} {segment arrived : Segment}
    (flying : (session.flight side)[index]? = some segment)
    (carry : carrier.carry side.peer segment = some arrived)
    : Calls carrier session side (.deliver env index) (arrived.reception env)

/-- Nothing is on its way but what was before, or was handed to `conn_send` meanwhile. -/
def Session.FliesFrom (session next : Session) : Prop :=
  ∀ side, ∀ segment ∈ next.flight side,
    segment ∈ session.flight side
    ∨ segment ∈ newlySent (session.state side.peer) (next.state side.peer)

/-- A step of the network, or one that destroys a connection, changes no connection. -/
structure Session.Idle (session next : Session) : Prop where
  states : next.state = session.state
  flies : session.FliesFrom next

/-- A step in which a handler returns. -/
structure Session.Returns (carrier : Carrier) (session next : Session) (side : Side)
    (action : Action)
    : Prop where
  call
    : ∃ call state,
        session.Calls carrier side action call
        ∧ Ctcp.step (session.state side) call = some state
        ∧ next.state = Function.update session.state side state
  flies : session.FliesFrom next

theorem state_update (session : Session) (side : Side) (endpoint : Endpoint)
    (flight : Side → List Segment)
    : Session.state { endpoint := Function.update session.endpoint side endpoint, flight := flight }
      = Function.update session.state side endpoint.state := by
  funext other
  by_cases same : other = side
  · subst same
    simp [Session.state]
  · simp [Session.state, same]

theorem Session.call_cases {call : Call} (done : session.call side call = some next)
    : session.Idle next
      ∨ ∃ state,
          Ctcp.step (session.state side) call = some state
          ∧ next.state = Function.update session.state side state
          ∧ session.FliesFrom next := by
  unfold Session.call at done
  split at done
  · cases done
  split at done
  · cases done
  · obtain rfl := Option.some.inj done
    refine Or.inl ⟨?_, fun _ _ member => Or.inl member⟩
    rw [state_update]
    exact Function.update_eq_self side session.state
  · next state returned =>
    obtain rfl := Option.some.inj done
    refine Or.inr ⟨state, by rw [Ctcp.step, returned]; rfl, state_update .., ?_⟩
    intro other segment member
    by_cases towards : other = side.peer
    · subst towards
      rw [state_update]
      simpa using member
    · exact Or.inl (by simpa [towards] using member)

/-- What flies after one segment is taken away was flying before. -/
theorem flies_erase {flight : Side → List Segment} {side other : Side} {index : Nat}
    {segment : Segment}
    (member : segment ∈ Function.update flight side ((flight side).eraseIdx index) other)
    : segment ∈ flight other := by
  by_cases same : other = side
  · subst same
    rw [Function.update_self] at member
    exact List.mem_of_mem_eraseIdx member
  · simpa [same] using member

theorem Session.Calls.cases {call : Call} (calls : session.Calls carrier side action call)
    (done : session.call side call = some next)
    : session.Idle next ∨ session.Returns carrier next side action := by
  refine (Session.call_cases done).imp_right ?_
  rintro ⟨state, returned, states, flies⟩
  exact ⟨⟨_, state, calls, returned, states⟩, flies⟩

/-- A step changes nothing in the connections, or one handler of one of them returns. -/
theorem Session.step_cases (taken : session.step carrier (side, action) = some next)
    : session.Idle next ∨ session.Returns carrier next side action := by
  cases action with
  | read env offer => exact (Session.Calls.read env offer).cases taken
  | output env => exact (Session.Calls.output env).cases taken
  | timer env => exact (Session.Calls.timer env).cases taken
  | deliver env index =>
      simp only [Session.step] at taken
      split at taken
      · cases taken
      · next arrived found =>
          obtain ⟨segment, flying, carry⟩ := Option.bind_eq_some_iff.mp found
          rcases Session.call_cases taken with idle | ⟨state, returned, states, flies⟩
          · exact Or.inl ⟨idle.states, fun other segment member =>
              (idle.flies other segment member).imp_left flies_erase⟩
          · refine Or.inr ⟨⟨_, state, .deliver env flying carry, returned, states⟩, ?_⟩
            exact fun other segment member => (flies other segment member).imp_left flies_erase
  | duplicate index =>
      obtain rfl := Option.some.inj taken
      refine Or.inl ⟨rfl, fun other segment member => Or.inl ?_⟩
      by_cases same : other = side
      · subst same
        simp only [Function.update_self] at member
        rcases List.mem_append.mp member with old | again
        · exact old
        · exact List.mem_of_getElem? (Option.mem_toList.mp again)
      · simpa [same] using member
  | drop index =>
      obtain rfl := Option.some.inj taken
      exact Or.inl ⟨rfl, fun other segment member => Or.inl (flies_erase member)⟩

end Steps

-----------------------------------------------------------------------------------------
-- Invariants of sessions
-----------------------------------------------------------------------------------------

/-- Nothing is ever taken out of the history of segments handed to `conn_send`. -/
theorem Update.sent_prefix {effects : Effects} {state next : CtcpState}
    (update : Update effects state next)
    : state.log.sent <+: next.log.sent := by
  cases update with
  | allocate | window | arm | slide | accept | keep => exact List.prefix_refl _
  | ack | finAck | endInput | queueFin | queueData | retransmit => exact List.prefix_append _ _

theorem Updates.sent_prefix {effects : Effects} {state next : CtcpState}
    (updates : Updates effects state next)
    : state.log.sent <+: next.log.sent := by
  induction updates with
  | refl => exact List.prefix_refl _
  | tail _ update ih => exact ih.trans update.sent_prefix

/-- A handler that may do more, may do the same. -/
theorem Update.mono {effects other : Effects} {state next : CtcpState}
    (update : Update effects state next) (clock : ∀ time, effects.clock time → other.clock time)
    (received : ∀ segment, effects.received segment → other.received segment)
    (queues : effects.queues → other.queues)
    (retransmits : effects.retransmits → other.retransmits)
    (delivers : effects.delivers → other.delivers)
    : Update other state next := by
  cases update with
  | allocate => exact .allocate
  | window segment heard => exact .window segment (received segment heard)
  | ack pad => exact .ack pad
  | finAck pad segment heard isFin => exact .finAck pad segment (received segment heard) isFin
  | arm time => exact .arm time
  | endInput now pad reading queue => exact .endInput now pad (clock now reading) (queues queue)
  | queueFin now pad reading queue => exact .queueFin now pad (clock now reading) (queues queue)
  | queueData now pad bytes reading queue room fits =>
      exact .queueData now pad bytes (clock now reading) (queues queue) room fits
  | slide now segment node next reading heard front acknowledged =>
      exact .slide now segment node next (clock now reading) (received segment heard) front
        acknowledged
  | retransmit now node next reading again front running tries =>
      exact .retransmit now node next (clock now reading) (retransmits again) front running tries
  | accept segment segments size heard delivery expected allocated =>
      exact .accept segment segments size (received segment heard) (delivers delivery) expected
        allocated
  | keep segments size outputs delivery allocated =>
      exact .keep segments size outputs (delivers delivery) allocated

/-- The segments a side may act on: what arrives with a right checksum for one that the other
side has handed to `conn_send`.
-/
def Hears (states : Side → CtcpState) (side : Side) (segment : Segment) : Prop :=
  ∃ sent ∈ (states side.peer).log.sent, ∃ arrived,
    Carried sent.object.segment arrived ∧ checksum arrived ∧ segment = arrived.cleared

/-- A side may do anything, but it only acts on what it hears. -/
def hearing (states : Side → CtcpState) (side : Side) : Effects :=
  { Effects.any with received := Hears states side }

/-- What holds of every session: no handler is at work, and what is on its way has been handed
to `conn_send`.
-/
structure Session.Running (session : Session) : Prop where
  settled : ∀ side, Settled (session.state side)
  flying
    : ∀ side, ∀ segment ∈ session.flight side,
        ∃ sent ∈ (session.state side.peer).log.sent, sent.object.segment = segment

section Runs

variable {carrier : Carrier} {session next : Session} {side : Side} {action : Action}

theorem Session.start_running (cfg : Side → CtcpConfig) : (Session.start cfg).Running where
  settled := fun side => ctcpInit_settled (cfg side)
  flying := fun _ segment member => by cases member

theorem Session.arrives_eq {index : Nat} {segment arrived : Segment}
    (flying : (session.flight side)[index]? = some segment)
    (carry : carrier.carry side.peer segment = some arrived)
    : session.arrives carrier side index = some arrived := by
  rw [Session.arrives, flying, Option.bind_some, carry]

/-- A segment that arrives was sent by the other side. -/
theorem Session.Running.carried (running : session.Running) {index : Nat}
    {segment arrived : Segment} (flying : (session.flight side)[index]? = some segment)
    (carry : carrier.carry side.peer segment = some arrived)
    : ∃ sent ∈ (session.state side.peer).log.sent, Carried sent.object.segment arrived := by
  obtain ⟨sent, member, rfl⟩ := running.flying side segment (List.mem_of_getElem? flying)
  exact ⟨sent, member, carrier.carried carry⟩

/-- A handler that returns has made updates, acting on what its side hears. -/
theorem Session.Running.updates (running : session.Running)
    (returns : session.Returns carrier next side action)
    : ∃ state,
        Updates (hearing session.state side) (session.state side) state
        ∧ next.state = Function.update session.state side state := by
  obtain ⟨call, state, calls, returned, states⟩ := returns.call
  refine ⟨state, ?_, states⟩
  have updates := step_updates (running.settled side) returned
  have hears : ∀ segment, call.effects.received segment → Hears session.state side segment := by
    intro segment received
    cases calls with
    | read | output | timer => exact received.elim
    | deliver env flying carry =>
        obtain ⟨verified, rfl⟩ := received
        obtain ⟨sent, member, carried⟩ := running.carried flying carry
        exact ⟨sent, member, _, carried, verified, rfl⟩
  refine Relation.ReflTransGen.mono (fun _ _ update => ?_) _ _ updates
  exact update.mono (fun _ _ => trivial) hears (fun _ => trivial) (fun _ => trivial)
    (fun _ => trivial)

/-- Handing segments to `conn_send` keeps what is on its way. -/
theorem Session.FliesFrom.flying (flies : session.FliesFrom next)
    (flying
      : ∀ side, ∀ segment ∈ session.flight side,
          ∃ sent ∈ (session.state side.peer).log.sent, sent.object.segment = segment)
    (grows : ∀ side, (session.state side).log.sent <+: (next.state side).log.sent)
    : ∀ side, ∀ segment ∈ next.flight side,
        ∃ sent ∈ (next.state side.peer).log.sent, sent.object.segment = segment := by
  intro side segment member
  rcases flies side segment member with old | new
  · obtain ⟨sent, was, same⟩ := flying side segment old
    exact ⟨sent, (grows side.peer).subset was, same⟩
  · obtain ⟨sent, now, same⟩ := List.mem_map.mp new
    exact ⟨sent, List.mem_of_mem_drop now, same⟩

/-- A connection that stays as it is has sent nothing meanwhile. -/
theorem sent_prefix_of_eq {state next : CtcpState} (same : next = state)
    : state.log.sent <+: next.log.sent :=
  same ▸ List.prefix_refl _

theorem Session.Running.step (running : session.Running)
    (taken : session.step carrier (side, action) = some next)
    : next.Running := by
  rcases Session.step_cases taken with idle | returns
  · refine ⟨fun other => ?_, idle.flies.flying running.flying fun other => ?_⟩
    · rw [idle.states]
      exact running.settled other
    · exact sent_prefix_of_eq (congrFun idle.states other)
  · obtain ⟨state, updates, states⟩ := running.updates returns
    refine ⟨fun other => ?_, returns.flies.flying running.flying fun other => ?_⟩
    · rw [states]
      by_cases same : other = side
      · subst same
        rw [Function.update_self]
        exact Updates.settled updates (running.settled other)
      · rw [Function.update_of_ne same]
        exact running.settled other
    · by_cases same : other = side
      · subst same
        rw [states, Function.update_self]
        exact Updates.sent_prefix updates
      · exact sent_prefix_of_eq (by rw [states, Function.update_of_ne same])

/-- What a side hears does not change when its own connection does. -/
theorem hearing_update (states : Side → CtcpState) (side : Side) (state : CtcpState)
    : hearing (Function.update states side state) side = hearing states side := by
  have peer : Function.update states side state side.peer = states side.peer :=
    Function.update_of_ne side.peer_ne state states
  have same : Hears (Function.update states side state) side = Hears states side := by
    funext segment
    rw [Hears, peer, Hears]
  rw [hearing, same, hearing]

/-- What every update of a side keeps, a sequence of updates keeps, by induction on it. -/
theorem hearing_invariant {inv : (Side → CtcpState) → Prop}
    (kept
      : ∀ {states side next},
          (∀ side, Settled (states side)) → inv states
          → Update (hearing states side) (states side) next
          → inv (Function.update states side next))
    {states : Side → CtcpState} {side : Side} {state : CtcpState}
    (updates : Updates (hearing states side) (states side) state)
    (settled : ∀ side, Settled (states side)) (held : inv states)
    : (∀ other, Settled (Function.update states side state other))
      ∧ inv (Function.update states side state) := by
  induction updates with
  | refl =>
      rw [Function.update_eq_self]
      exact ⟨settled, held⟩
  | @tail middle last _ update ih =>
      obtain ⟨settledMiddle, heldMiddle⟩ := ih
      have here : Function.update states side middle side = middle :=
        Function.update_self side middle states
      have heard : Update (hearing (Function.update states side middle) side)
          (Function.update states side middle side) last := by
        rw [hearing_update, here]
        exact update
      have heldLast := kept settledMiddle heldMiddle heard
      rw [Function.update_idem] at heldLast
      refine ⟨fun other => ?_, heldLast⟩
      by_cases same : other = side
      · subst same
        rw [Function.update_self]
        exact update.settled (here ▸ settledMiddle other)
      · rw [Function.update_of_ne same]
        exact settled other

/-- A property of two settled connections that every update keeps, when the side that makes
it only acts on what it hears, holds after every run.
-/
theorem Session.runFrom_invariant (inv : (Side → CtcpState) → Prop)
    (kept
      : ∀ {states side next},
          (∀ side, Settled (states side)) → inv states
          → Update (hearing states side) (states side) next
          → inv (Function.update states side next))
    {cfg : Side → CtcpConfig} (start : inv fun side => ctcpInit (cfg side))
    {inputs : List (Side × Action)}
    (reached : Session.runFrom carrier cfg inputs = some session)
    : session.Running ∧ inv session.state := by
  refine StepRuns.exec_invariant (fun session => session.Running ∧ inv session.state) ?_
    ⟨Session.start_running cfg, start⟩ reached
  rintro session ⟨side, action⟩ next ⟨running, held⟩ taken
  refine ⟨running.step taken, ?_⟩
  rcases Session.step_cases taken with idle | returns
  · rw [idle.states]
    exact held
  · obtain ⟨state, updates, states⟩ := running.updates returns
    rw [states]
    exact (hearing_invariant kept updates running.settled held).2

/-- A property of two connections that every guarded call keeps holds after every guarded
run.
-/
theorem Session.runFrom_invariant_of_guard (guard : Session → Side × Action → Prop)
    (inv : (Side → CtcpState) → Prop)
    (kept
      : ∀ {session : Session} {side action call state},
          session.Running → inv session.state → guard session (side, action)
          → session.Calls carrier side action call
          → Ctcp.step (session.state side) call = some state
          → inv (Function.update session.state side state))
    {cfg : Side → CtcpConfig} (start : inv fun side => ctcpInit (cfg side))
    {inputs : List (Side × Action)}
    (guarded : StepRuns.AllSteps (Session.step carrier) guard (Session.start cfg) inputs)
    (reached : Session.runFrom carrier cfg inputs = some session)
    : session.Running ∧ inv session.state := by
  refine StepRuns.exec_invariant_of_guard guard
    (fun session => session.Running ∧ inv session.state) ?_
    ⟨Session.start_running cfg, start⟩ guarded reached
  rintro session ⟨side, action⟩ next ⟨running, held⟩ allowed taken
  refine ⟨running.step taken, ?_⟩
  rcases Session.step_cases taken with idle | returns
  · rw [idle.states]
    exact held
  · obtain ⟨call, state, calls, returned, states⟩ := returns.call
    rw [states]
    exact kept running held allowed calls returned

end Runs

end Networks.Ctcp
