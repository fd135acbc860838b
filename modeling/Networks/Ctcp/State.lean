import Networks.Ctcp.Segment

/-! The state of one cTCP connection, what its handlers ask of the library around them, and
the log of what they did.
The log is not part of the source: it records the calls across `ctcp_sys.h` and the changes
of the two windows, so that properties of whole runs can be stated on one state.
-/

namespace Networks.Ctcp

open MachineIntegers

/-- A segment object on the heap: its address and its contents. -/
structure SegmentRef where
  address : Nat
  segment : Segment
  deriving DecidableEq

/-- `ll_add`. A list is the sequence of its objects, and a node is the part of the list from
that node on, so that `NULL` is the empty part and `node->next` is the tail.
-/
def llAdd (list : List SegmentRef) (object : SegmentRef) : List SegmentRef :=
  list ++ [object]

/-- `ll_front`. -/
def llFront (list : List SegmentRef) : List SegmentRef := list

/-- `ll_find`: the first node holding the object, found by its address. -/
def llFind (list : List SegmentRef) (object : SegmentRef) : List SegmentRef :=
  list.dropWhile (fun node => node.address != object.address)

/-- `send_window_t`. -/
structure SendWindow where
  segments : List SegmentRef
  maxSize : Int
  size : Int
  recvWinSize : Int
  seqno : Int
  timer : Int
  retransCounter : Int
  deriving DecidableEq

/-- `recv_window_t`. -/
structure RecvWindow where
  segments : List SegmentRef
  maxSize : Int
  size : Int
  ackno : Int
  deriving DecidableEq

/-- The first `send_buf_len` bytes of `send_buf`, which has room for one segment's data. -/
abbrev SendBuf := { bytes : List UInt8 // bytes.length ≤ maxSegDataSize }

theorem singleton_fits (byte : UInt8) : [byte].length ≤ maxSegDataSize :=
  show 1 ≤ 1440 by decide

/-- The code that handed a segment to `conn_send`, with the clock reading it had taken. -/
inductive Origin
  | makeseg
  | send (time : Int)
  | retrans (time : Int)
  deriving DecidableEq

/-- One call of `conn_send`. -/
structure Transmission where
  origin : Origin
  object : SegmentRef
  deriving DecidableEq

/-- What a connection has done so far, each list oldest first. -/
structure Log where
  /-- Bytes returned by `conn_input`. -/
  input : List UInt8
  /-- Whether `conn_input` has returned -1. -/
  inputEnded : Bool
  /-- Segments added to the send window, as they were added. -/
  queued : List SegmentRef
  /-- Segments removed from the send window by an acknowledgement. -/
  acked : List SegmentRef
  /-- Segments handed to `conn_send`. -/
  sent : List Transmission
  /-- The window fields of these segments, each with the free space the receive window had
  when `conn_send` was called.
  -/
  windows : List (UInt16 × Int)
  /-- Segments that `checksum` accepted. -/
  heard : List Segment
  /-- Segments for which the FIN branch of `ctcp_receive` ran. -/
  fins : List Segment
  /-- Payload bytes with which the receive window's ackno was advanced. -/
  accepted : List UInt8
  /-- Buffers handed to `conn_output`. -/
  outputs : List (List UInt8)
  deriving DecidableEq

/-- `ctcp_state_t`, without the links of `state_list` and the connection object. The model
never reuses an address: `nextAddress` is the next one `malloc` returns.
-/
structure CtcpState where
  sw : SendWindow
  rw : RecvWindow
  sendBuf : SendBuf
  timeoutStandard : Int
  timerTeardown : Int
  nextAddress : Nat
  log : Log
  deriving DecidableEq

/-- `state->rw->max_size - state->rw->size`. -/
def CtcpState.freeSpace (state : CtcpState) : Int := state.rw.maxSize - state.rw.size

/-- `ctcp_config_t`, as far as `ctcp.c` reads it. -/
structure CtcpConfig where
  recvWindow : UInt16
  sendWindow : UInt16
  rtTimeout : Int

/-- The configuration `main` sets up when no option is given, with both windows of one
segment.
-/
def defaultConfig : CtcpConfig where
  recvWindow := 1440
  sendWindow := 1440
  rtTimeout := 200

/-- `ctcp_init`, for a connection that could be established. -/
def ctcpInit (cfg : CtcpConfig) : CtcpState where
  sw := {
    segments := []
    maxSize := cfg.sendWindow.toNat
    size := 0
    recvWinSize := maxSegDataSize
    seqno := 1
    timer := -1
    retransCounter := 0
  }
  rw := { segments := [], maxSize := cfg.recvWindow.toNat, size := 0, ackno := 1 }
  sendBuf := ⟨[], Nat.zero_le _⟩
  timeoutStandard := cfg.rtTimeout
  timerTeardown := -1
  nextAddress := 0
  log := {
    input := []
    inputEnded := false
    queued := []
    acked := []
    sent := []
    windows := []
    heard := []
    fins := []
    accepted := []
    outputs := []
  }

/-- What the outside answers during one call of a handler: the readings of `current_time`
at the handler's successive call sites, the contents `malloc` leaves in the padding of the
segments it builds, and the results of successive `conn_bufspace` calls.
-/
structure Env where
  now : Nat → Int
  pad : Nat → UInt16
  bufspace : Nat → Nat

/-- An outside whose clock stands still, whose fresh memory is zero, and whose output buffer
always has `room` left.
-/
def Env.steady (time : Int) (room : Nat) : Env where
  now := fun _ => time
  pad := fun _ => 0
  bufspace := fun _ => room

end Networks.Ctcp
