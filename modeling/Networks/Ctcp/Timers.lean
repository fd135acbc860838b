import Networks.Ctcp.Receiving
import Networks.Library.StepRuns

/-! The timer handler, and the steps of a connection: one call of any handler.
Definitions follow `ctcp_timer` and `ctcp_destroy`.
-/

namespace Networks.Ctcp

/-- The timer that made `ctcp_timer` destroy a connection. -/
inductive Cause
  | teardown
  | unresponsive
  deriving DecidableEq

/-- Whether the teardown timer of a connection has run out. -/
def CtcpState.teardownDue (now : Int) (state : CtcpState) : Bool :=
  state.timerTeardown ≠ -1 ∧ now - state.timerTeardown > 2 * state.timeoutStandard

/-- Whether the retransmission timer of a connection has run out. -/
def CtcpState.retransDue (now : Int) (state : CtcpState) : Bool :=
  state.sw.timer ≠ -1 ∧ now - state.sw.timer > state.timeoutStandard

/-- The body of the loop of `ctcp_timer` for one connection: the reason for destroying a
connection, or the state after a possible retransmission.
-/
def timerCheck (now : Nat → Int) (state : CtcpState) : Except Cause CtcpState :=
  if state.teardownDue (now 0) then
    .error .teardown
  else if state.retransDue (now 1) then
    -- Disconnect after 5 tries
    if state.sw.retransCounter ≥ 5 then
      .error .unresponsive
    else
      .ok
        (ctcpRetrans (now 3)
          { state with
            sw.retransCounter := state.sw.retransCounter + 1
            sw.timer := now 2 })
  else
    .ok state

/-- The loop of `ctcp_timer` from a connection on: the list it leaves, up to the connection
that asked for a destruction.
-/
def timerLoop (now : Nat → Nat → Int) (index : Nat) :
    List CtcpState → List CtcpState × Option Cause
  | [] => ([], none)
  | state :: next =>
      match timerCheck (now index) state with
      | .error cause => (state :: next, some cause)
      | .ok checked =>
          let (rest, cause) := timerLoop now (index + 1) next
          (checked :: rest, cause)

/-- `ctcp_destroy(state_list)`: the first connection is unlinked and freed. -/
def ctcpDestroy (stateList : List CtcpState) : List CtcpState := stateList.tail

/-- `ctcp_timer`, with the clock readings of each pass of its loop. Whichever connection the
loop stops at, the call destroys `state_list`, the first one.
-/
def ctcpTimer (now : Nat → Nat → Int) (stateList : List CtcpState)
    : List CtcpState × Option Cause :=
  match timerLoop now 0 stateList with
  | (states, none) => (states, none)
  | (states, some cause) => (ctcpDestroy states, some cause)

/-- With one connection in the list, `ctcp_timer` acts on that connection. -/
theorem ctcpTimer_singleton (now : Nat → Nat → Int) (state : CtcpState)
    : ctcpTimer now [state]
      = match timerCheck (now 0) state with
        | .error cause => ([], some cause)
        | .ok checked => ([checked], none) := by
  unfold ctcpTimer timerLoop
  cases timerCheck (now 0) state <;> rfl

/-- A call of one of the handlers of a connection, with what the outside supplies: the
result offered by `conn_input`, or the segment and the length it was received with.
-/
inductive Call
  | read (env : Env) (offer : Option (List UInt8))
  | receive (env : Env) (segment : Segment) (len : Nat)
  | output (env : Env)
  | timer (env : Env)

/-- What the outside answers during a call. -/
def Call.env : Call → Env
  | .read env _ | .receive env _ _ | .output env | .timer env => env

/-- How a call ends. -/
inductive Outcome
  | returned (state : CtcpState)
  | destroyed (cause : Cause)
  | nullDereference
  deriving DecidableEq

/-- A call of a handler. A received segment is a freshly allocated object, and the timer runs
over the list with this connection in it.
-/
def Call.run (state : CtcpState) : Call → Outcome
  | .read env offer => .returned (ctcpRead env offer state)
  | .receive env segment len =>
      let object := { address := state.nextAddress, segment := segment }
      match ctcpReceive env object len { state with nextAddress := state.nextAddress + 1 } with
      | none => .nullDereference
      | some state => .returned state
  | .output env => .returned (ctcpOutput env state)
  | .timer env =>
      match timerCheck env.now state with
      | .error cause => .destroyed cause
      | .ok state => .returned state

/-- The state after a call that returns with the connection still there. -/
def Outcome.state? : Outcome → Option CtcpState
  | .returned state => some state
  | .destroyed _ | .nullDereference => none

/-- A step of a connection. Destroying it or dereferencing `NULL` ends the run. -/
def step (state : CtcpState) (call : Call) : Option CtcpState :=
  (call.run state).state?

/-- The state reached by a sequence of calls on a new connection. -/
def runFrom (cfg : CtcpConfig) (calls : List Call) : Option CtcpState :=
  StepRuns.exec step (ctcpInit cfg) calls

/-- The calls of a connection that reads one byte and retransmits its segment once. -/
def timedOutByte : List Call :=
  [.read (.steady 0 0) (some [0x61]), .timer (.steady 201 0)]

end Networks.Ctcp
