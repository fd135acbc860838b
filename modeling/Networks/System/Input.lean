import Networks.Library.Insertions
import Networks.Ctcp.Sending
import Networks.Library.StepRuns

/-! The input of a connection. Towards the web `conn_input` turns a newline at the end of what
it read into a network line ending, and reads one more byte where there is none; it adds up
the results of both reads. Definitions follow `conn_input` and `add_network_line_ending`.
-/

namespace Networks.System

open Insertions

def newline : UInt8 := 0x0a

def carriageReturn : UInt8 := 0x0d

/-- The character that ends the input in tester mode. -/
def eofCharacter : UInt8 := 0x1a

/-- A result of `read`: some bytes, none at the end of the file, `EAGAIN`, or another error. -/
inductive ReadResult
  | received (bytes : List UInt8)
  | again
  | failed
  deriving DecidableEq

/-- What the outside decides: the results of successive calls of `read`, and the modes. `tester`
is `test_debug_on || lab5_mode`.
-/
structure InputSource where
  results : Nat → ReadResult
  runProgram : Bool
  unixSocket : Bool
  tester : Bool

/-- Input that goes to the web. -/
def InputSource.web (results : Nat → ReadResult) (tester : Bool) : InputSource where
  results := results
  runProgram := false
  unixSocket := false
  tester := tester

/-- `conn->read_eof`, and what `read` has done so far: `consumed` are the bytes it returned and
`ended` says whether it reported an end of file, or an error other than `EAGAIN`. In tester
mode the EOF character reports the end too, and what is read with it is behind the end.
-/
structure Input where
  readEof : Bool
  reads : Nat
  consumed : List UInt8
  ended : Bool

/-- The input of a new connection. -/
def Input.start : Input where
  readEof := false
  reads := 0
  consumed := []
  ended := false

/-- `read`, for at most `count` bytes. A request for none reads none and has no effect. -/
def Input.read (source : InputSource) (count : Nat) (input : Input) : ReadResult × Input :=
  if count = 0 then
    (.received [], input)
  else
    match source.results input.reads with
    | .received bytes =>
        let bytes := bytes.take count
        (.received bytes,
          { input with
            reads := input.reads + 1
            consumed := input.consumed ++ bytes
            ended := input.ended || bytes.isEmpty })
    | .again => (.again, { input with reads := input.reads + 1 })
    | .failed => (.failed, { input with reads := input.reads + 1, ended := true })

/-- `add_network_line_ending`: what it leaves of a buffer that starts with `buf`, and behind it,
if it adds a line ending.
-/
def addNetworkLineEnding (webserver : Bool) (buf : List UInt8) : Option (List UInt8) :=
  if !webserver ∨ buf.getLast? ≠ some newline then
    none
  else
    some (buf.dropLast ++ [carriageReturn, newline, 0])

/-- The reads of `conn_input`: the count `r` they add up to, whether `errno` is `EAGAIN`, and
what they stored at the start of the buffer.
-/
structure Fetched where
  r : Int
  again : Bool
  stored : List UInt8

/-- A single `read`. -/
def Input.fetchDirect (source : InputSource) (len : Nat) (input : Input) : Fetched × Input :=
  match input.read source len with
  | (.received bytes, input) => (⟨bytes.length, false, bytes⟩, input)
  | (.again, input) => (⟨-1, true, []⟩, input)
  | (.failed, input) => (⟨-1, false, []⟩, input)

/-- A `read` that leaves room for a line ending, and a second one if none was added. -/
def Input.fetchLine (source : InputSource) (len : Nat) (input : Input) : Fetched × Input :=
  match input.read source (len - 1) with
  | (.again, input) => (⟨-1, true, []⟩, input)
  | (.failed, input) => (⟨-1, false, []⟩, input)
  | (.received bytes, input) =>
      if bytes = [] then
        (⟨0, false, []⟩, input)
      else
        match addNetworkLineEnding (!source.unixSocket) bytes with
        | some stored => (⟨bytes.length + 1, false, stored⟩, input)
        | none =>
            match input.read source 1 with
            | (.received more, input) =>
                (⟨bytes.length + more.length, false, bytes ++ more⟩, input)
            | (.again, input) => (⟨bytes.length + -1, true, bytes⟩, input)
            | (.failed, input) => (⟨bytes.length + -1, false, bytes⟩, input)

/-- The reads of `conn_input`, from wherever it reads. -/
def Input.fetch (source : InputSource) (len : Nat) (input : Input) : Fetched × Input :=
  if source.runProgram || source.unixSocket then
    input.fetchDirect source len
  else
    input.fetchLine source len

/-- What `conn_input` returns and leaves at the start of the buffer. -/
structure Reply where
  result : Int
  stored : List UInt8

/-- The bytes that the caller of `conn_input` gets. -/
def Reply.bytes (reply : Reply) : List UInt8 := reply.stored.take reply.result.toNat

/-- Whether the EOF character starts the buffer in tester mode. -/
def InputSource.atEof (source : InputSource) (buf : List UInt8) : Bool :=
  source.tester && buf.head? == some eofCharacter

/-- What `conn_input` makes of the outcome of its reads. -/
def Input.conclude (source : InputSource) (input : Input) (fetched : Fetched × Input)
    : Reply × Input :=
  let (⟨r, again, stored⟩, after) := fetched
  let atEof := source.atEof stored
  let after :=
    if atEof then { after with consumed := input.consumed, ended := true } else after
  if r = 0 ∨ r < 0 ∧ !again ∨ atEof ∧ r > 0 then
    (⟨-1, stored⟩, { after with readEof := true })
  else if r < 0 ∧ again then
    (⟨0, stored⟩, after)
  else
    (⟨r, stored⟩, after)

/-- `conn_input`, for a buffer of `len` bytes. -/
def Input.connInput (source : InputSource) (len : Nat) (input : Input) : Reply × Input :=
  if input.readEof then
    (⟨-1, []⟩, input)
  else
    input.conclude source (input.fetch source len)

-----------------------------------------------------------------------------------------
-- Runs
-----------------------------------------------------------------------------------------

/-- A requested length. -/
abbrev Request := { len : Nat // 0 < len }

/-- The input of a connection, the bytes that `conn_input` returned, and its replies. -/
structure InputRun where
  input : Input
  returned : List UInt8
  replies : List (Request × Reply)

namespace InputRun

def start : InputRun := ⟨.start, [], []⟩

/-- The run after a reply. -/
def after (len : Request) (called : Reply × Input) (run : InputRun) : InputRun where
  input := called.2
  returned := run.returned ++ called.1.bytes
  replies := run.replies ++ [(len, called.1)]

def step (source : InputSource) (run : InputRun) (len : Request) : Option InputRun :=
  some (run.after len (run.input.connInput source len))

/-- The bytes returned are the bytes read with some line endings made longer, -1 was returned
only after the end of the input, and nothing was stored behind the requested length.
-/
structure Lossless (run : InputRun) : Prop where
  bytes : Inserts newline carriageReturn run.input.consumed run.returned
  ends : ∀ reply ∈ run.replies, reply.2.result = -1 → run.input.ended = true
  stores : ∀ reply ∈ run.replies, reply.2.stored.length ≤ reply.1

end InputRun

/-- A call of `conn_input` that goes right: it asks for more than one byte unless the input has
ended, a first read that ends in a newline leaves one more byte free than asked for, and a
second read does not fail, unless the EOF character came first.
-/
def Input.Clean (source : InputSource) (len : Nat) (input : Input) : Prop :=
  input.readEof = false →
    (len = 1 → input.ended = true)
    ∧ ∀ offered,
        source.results input.reads = .received offered → offered.take (len - 1) ≠ []
        → if (offered.take (len - 1)).getLast? = some newline then
            (offered.take (len - 1)).length < len - 1
          else
            source.atEof (offered.take (len - 1))
            ∨ ∃ more, source.results (input.reads + 1) = .received more

@[simp] theorem InputSource.atEof_nil (source : InputSource) : source.atEof [] = false := by
  simp [atEof]

section Closing

variable {source : InputSource} {input : Input}

/-- Reading does not close the input. -/
theorem Input.read_readEof {count : Nat} {result : ReadResult} {after : Input}
    (read : input.read source count = (result, after))
    : after.readEof = input.readEof := by
  unfold Input.read at read
  split at read
  · rw [← (Prod.mk.inj read).2]
  · split at read <;> rw [← (Prod.mk.inj read).2]

theorem Input.fetchDirect_readEof (source : InputSource) (len : Nat) (input : Input)
    : (input.fetchDirect source len).2.readEof = input.readEof := by
  unfold fetchDirect
  split
  · next read => exact read_readEof read
  · next read => exact read_readEof read
  · next read => exact read_readEof read

theorem Input.fetchLine_readEof (source : InputSource) (len : Nat) (input : Input)
    : (input.fetchLine source len).2.readEof = input.readEof := by
  unfold fetchLine
  split
  · next read => exact read_readEof read
  · next read => exact read_readEof read
  · next bytes first read =>
      split
      · exact read_readEof read
      split
      · exact read_readEof read
      split
      · next second => exact (read_readEof second).trans (read_readEof read)
      · next second => exact (read_readEof second).trans (read_readEof read)
      · next second => exact (read_readEof second).trans (read_readEof read)

theorem Input.fetch_readEof (source : InputSource) (len : Nat) (input : Input)
    : (input.fetch source len).2.readEof = input.readEof := by
  unfold fetch
  split
  · exact fetchDirect_readEof source len input
  · exact fetchLine_readEof source len input

/-- The input is closed by replies of -1 alone. -/
theorem Input.conclude_closed {fetch : Fetched × Input} (stillOpen : fetch.2.readEof = false)
    (closed : (input.conclude source fetch).2.readEof = true)
    : (input.conclude source fetch).1.result = -1 := by
  obtain ⟨fetched, after⟩ := fetch
  let logged :=
    if source.atEof fetched.stored then
      { after with consumed := input.consumed, ended := true }
    else after
  have notClosed : logged.readEof = false := by
    unfold logged
    split
    · exact stillOpen
    · exact stillOpen
  by_cases ends : fetched.r = 0 ∨ fetched.r < 0 ∧ !fetched.again
      ∨ source.atEof fetched.stored ∧ fetched.r > 0
  · simp only [conclude, if_pos ends]
  · have same : (input.conclude source (fetched, after)).2 = logged := by
      simp only [conclude, if_neg ends]
      split
      · rfl
      · rfl
    rw [same, notClosed] at closed
    cases closed

theorem Input.connInput_closed {len : Nat}
    (closed : (input.connInput source len).2.readEof = true)
    : (input.connInput source len).1.result = -1 := by
  by_cases eof : input.readEof = true
  · rw [connInput, if_pos eof]
  · have stillOpen : input.readEof = false := by simpa using eof
    rw [connInput, if_neg eof] at closed ⊢
    exact conclude_closed ((fetch_readEof source len input).trans stillOpen) closed

end Closing

-----------------------------------------------------------------------------------------
-- What `ctcp_read` gets
-----------------------------------------------------------------------------------------

section Bounds

variable {source : InputSource} {input : Input} {len : Nat}

/-- `read` returns no more than it was asked for. -/
theorem Input.read_length_le {count : Nat} {bytes : List UInt8} {after : Input}
    (read : input.read source count = (.received bytes, after))
    : bytes.length ≤ count := by
  unfold Input.read at read
  split at read
  · obtain rfl := ReadResult.received.inj (Prod.mk.inj read).1
    exact Nat.zero_le _
  · split at read
    · obtain rfl := ReadResult.received.inj (Prod.mk.inj read).1
      exact List.length_take_le _ _
    · cases (Prod.mk.inj read).1
    · cases (Prod.mk.inj read).1

theorem Input.fetchDirect_le : (input.fetchDirect source len).1.r ≤ len := by
  unfold fetchDirect
  split
  · next read => exact Int.ofNat_le.mpr (read_length_le read)
  · simp only
    omega
  · simp only
    omega

/-- A line ending and a second byte fit into the room that the first read leaves. -/
theorem Input.fetchLine_le (positive : 0 < len) : (input.fetchLine source len).1.r ≤ len := by
  unfold fetchLine
  split
  · simp only
    omega
  · simp only
    omega
  · next read =>
      have short := read_length_le read
      split
      · simp only
        omega
      split
      · simp only
        omega
      split
      · next second =>
          have one := read_length_le second
          simp only
          omega
      · simp only
        omega
      · simp only
        omega

theorem Input.fetch_le (positive : 0 < len) : (input.fetch source len).1.r ≤ len := by
  unfold fetch
  split
  · exact fetchDirect_le
  · exact fetchLine_le positive

/-- `conn_input` returns no more than the reads add up to. -/
theorem Input.conclude_le {fetch : Fetched × Input} (short : fetch.1.r ≤ len)
    : (input.conclude source fetch).1.result ≤ len := by
  unfold conclude
  simp only
  split
  · simp only
    omega
  · split
    · simp only
      omega
    · exact short

theorem Input.connInput_le (source : InputSource) (input : Input) (positive : 0 < len)
    : (input.connInput source len).1.result ≤ len := by
  unfold connInput
  split
  · simp only
    omega
  · exact conclude_le (fetch_le positive)

/-- Whatever `conn_input` returns, it is a result that `ctcp_read` provides for: -1, or no more
bytes than it asked for.
-/
theorem Input.connInput_provided (source : InputSource) (input : Input) (positive : 0 < len)
    : ∃ offer,
        Ctcp.connInput len offer
          = if (input.connInput source len).1.result = -1 then
              none
            else
              some (input.connInput source len).1.bytes := by
  have short : (input.connInput source len).1.bytes.length ≤ len := by
    have result := connInput_le source input positive
    rw [Reply.bytes, List.length_take]
    omega
  split
  · exact ⟨none, rfl⟩
  · refine ⟨some (input.connInput source len).1.bytes, ?_⟩
    rw [Ctcp.connInput, Option.map_some, Int.toNat_natCast, List.take_of_length_le short]

end Bounds

section Concluding

variable {source : InputSource} {input after : Input} {again : Bool} {stored : List UInt8}

/-- The EOF character ends the input, whatever was read with it. -/
theorem Input.conclude_atEof {r : Int} (counted : 0 ≤ r) (atEof : source.atEof stored = true)
    : input.conclude source (⟨r, again, stored⟩, after)
      = (⟨-1, stored⟩,
          { after with consumed := input.consumed, ended := true, readEof := true }) := by
  rcases Int.lt_or_eq_of_le counted with positive | zero
  · simp [conclude, atEof, positive]
  · simp [conclude, atEof, ← zero]

/-- Nothing read ends the input. -/
theorem Input.conclude_zero (notEof : source.atEof stored = false)
    : input.conclude source (⟨0, again, stored⟩, after)
      = (⟨-1, stored⟩, { after with readEof := true }) := by
  simp [conclude, notEof]

/-- Without data nothing is returned. -/
theorem Input.conclude_again
    : input.conclude source (⟨-1, true, []⟩, after) = (⟨0, []⟩, after) := by
  simp [conclude, InputSource.atEof]

/-- Another error ends the input. -/
theorem Input.conclude_failed
    : input.conclude source (⟨-1, false, []⟩, after)
      = (⟨-1, []⟩, { after with readEof := true }) := by
  simp [conclude, InputSource.atEof]

/-- Anything else that was read is returned. -/
theorem Input.conclude_positive {r : Int} (positive : 0 < r)
    (notEof : source.atEof stored = false)
    : input.conclude source (⟨r, again, stored⟩, after) = (⟨r, stored⟩, after) := by
  have notZero : ¬ r = 0 := by omega
  have notNegative : ¬ r < 0 := by omega
  simp [conclude, notEof, notZero, notNegative]

end Concluding

namespace InputRun

variable {run : InputRun} {len : Request} {stored : List UInt8} {input : Input}

/-- What a reply adds to a lossless run. -/
theorem Lossless.after_iff (lossless : run.Lossless) {result : Int}
    (later : run.input.ended = true → input.ended = true)
    : (run.after len (⟨result, stored⟩, input)).Lossless
      ↔ Inserts newline carriageReturn input.consumed
            (run.returned ++ stored.take result.toNat)
        ∧ (result = -1 → input.ended = true)
        ∧ stored.length ≤ len := by
  constructor
  · intro next
    exact ⟨next.bytes, next.ends _ (List.mem_append_right _ (List.mem_singleton_self _)),
      next.stores _ (List.mem_append_right _ (List.mem_singleton_self _))⟩
  · rintro ⟨bytes, ends, stores⟩
    constructor
    · exact bytes
    · intro reply member failed
      rcases List.mem_append.mp member with old | new
      · exact later (lossless.ends reply old failed)
      · rw [List.mem_singleton.mp new] at failed
        exact ends failed
    · intro reply member
      rcases List.mem_append.mp member with old | new
      · exact lossless.stores reply old
      · rw [List.mem_singleton.mp new]
        exact stores

/-- A reply of -1 returns no bytes. -/
theorem Lossless.after_end_iff (lossless : run.Lossless)
    (later : run.input.ended = true → input.ended = true)
    : (run.after len (⟨-1, stored⟩, input)).Lossless
      ↔ Inserts newline carriageReturn input.consumed run.returned
        ∧ input.ended = true
        ∧ stored.length ≤ len := by
  rw [lossless.after_iff later]
  simp

end InputRun

-----------------------------------------------------------------------------------------
-- Input that goes to the web
-----------------------------------------------------------------------------------------

section Web

variable {results : Nat → ReadResult} {tester : Bool} {input : Input} {len : Nat}

@[simp] theorem InputSource.web_results : (web results tester).results = results := rfl

@[simp] theorem InputSource.web_runProgram : (web results tester).runProgram = false := rfl

@[simp] theorem InputSource.web_unixSocket : (web results tester).unixSocket = false := rfl

theorem Input.connInput_web (notEof : input.readEof = false)
    : input.connInput (.web results tester) len
      = input.conclude (.web results tester) (input.fetchLine (.web results tester) len) := by
  simp [connInput, notEof, fetch]

/-- What is read is taken from the front of what is offered. -/
theorem Input.read_received (source : InputSource) {count : Nat} {offered : List UInt8}
    (some : 0 < count) (found : source.results input.reads = .received offered)
    : input.read source count
      = (.received (offered.take count),
          { input with
            reads := input.reads + 1
            consumed := input.consumed ++ offered.take count
            ended := input.ended || (offered.take count).isEmpty }) := by
  simp [read, Nat.ne_of_gt some, found]

/-- A request for one byte reads none. -/
theorem Input.fetchLine_one
    : input.fetchLine (.web results tester) 1 = (⟨0, false, []⟩, input) := by
  simp [fetchLine, read]

theorem Input.fetchLine_again (more : 1 < len) (found : results input.reads = .again)
    : input.fetchLine (.web results tester) len
      = (⟨-1, true, []⟩, { input with reads := input.reads + 1 }) := by
  have some : len - 1 ≠ 0 := by omega
  simp [fetchLine, read, some, found]

theorem Input.fetchLine_failed (more : 1 < len) (found : results input.reads = .failed)
    : input.fetchLine (.web results tester) len
      = (⟨-1, false, []⟩, { input with reads := input.reads + 1, ended := true }) := by
  have some : len - 1 ≠ 0 := by omega
  simp [fetchLine, read, some, found]

section Received

variable {offered : List UInt8} (more : 1 < len)
  (found : results input.reads = .received offered)

include more found

/-- A first read that returns nothing has found the end of the file. -/
theorem Input.fetchLine_empty (none : offered.take (len - 1) = [])
    : input.fetchLine (.web results tester) len
      = (⟨0, false, []⟩, { input with reads := input.reads + 1, ended := true }) := by
  have read := input.read_received (.web results tester) (by omega : 0 < len - 1) found
  simp [fetchLine, read, none]

/-- A first read that ends in a newline gets a network line ending. -/
theorem Input.fetchLine_newline {init : List UInt8}
    (chunk : offered.take (len - 1) = init ++ [newline])
    : input.fetchLine (.web results tester) len
      = (⟨(init.length + 2 : Nat), false, init ++ [carriageReturn, newline, 0]⟩,
          { input with
            reads := input.reads + 1
            consumed := input.consumed ++ (init ++ [newline]) }) := by
  have read := input.read_received (.web results tester) (by omega : 0 < len - 1) found
  simp [fetchLine, read, chunk, addNetworkLineEnding]
  omega

/-- Any other first read is followed by one for a single byte. -/
theorem Input.fetchLine_second {init offeredNext : List UInt8} {last : UInt8}
    (chunk : offered.take (len - 1) = init ++ [last]) (other : last ≠ newline)
    (next : results (input.reads + 1) = .received offeredNext)
    : input.fetchLine (.web results tester) len
      = (⟨(init ++ [last] ++ offeredNext.take 1).length, false,
            init ++ [last] ++ offeredNext.take 1⟩,
          { input with
            reads := input.reads + 2
            consumed := input.consumed ++ (init ++ [last]) ++ offeredNext.take 1
            ended := input.ended || (offeredNext.take 1).isEmpty }) := by
  have read := input.read_received (.web results tester) (by omega : 0 < len - 1) found
  have some : (init ++ [last]).isEmpty = false := by simp
  simp only [fetchLine, read, chunk, some]
  simp [addNetworkLineEnding, other, Input.read, next]
  omega

variable (tester) in
/-- A second read that fails takes one off the count. -/
theorem Input.fetchLine_missing {init : List UInt8} {last : UInt8}
    (chunk : offered.take (len - 1) = init ++ [last]) (other : last ≠ newline)
    (next : ∀ more, results (input.reads + 1) ≠ .received more)
    : ∃ again ended,
        input.fetchLine (.web results tester) len
          = (⟨init.length, again, init ++ [last]⟩,
              { input with
                reads := input.reads + 2
                consumed := input.consumed ++ (init ++ [last])
                ended := input.ended || ended }) := by
  have read := input.read_received (.web results tester) (by omega : 0 < len - 1) found
  cases met : results (input.reads + 1) with
  | received more => exact absurd met (next more)
  | again =>
      refine ⟨true, false, ?_⟩
      simp only [fetchLine, read, chunk]
      simp [addNetworkLineEnding, other, Input.read, met]
  | failed =>
      refine ⟨false, true, ?_⟩
      simp only [fetchLine, read, chunk]
      simp [addNetworkLineEnding, other, Input.read, met]

end Received

end Web

-----------------------------------------------------------------------------------------
-- One call
-----------------------------------------------------------------------------------------

namespace InputRun

/-- A lossless run in which the input is closed only after its end. -/
structure Clear (run : InputRun) : Prop extends run.Lossless where
  sticky : run.input.readEof = true → run.input.ended = true

section Reply

variable {source : InputSource} {run : InputRun} {len : Request} {after : Input}
  {init more : List UInt8} {last : UInt8} {again : Bool}

/-- A chunk with its line ending is returned whole; it must leave room for the zero behind it. -/
theorem Lossless.newline_iff (lossless : run.Lossless)
    (later : run.input.ended = true → after.ended = true)
    (consumed : after.consumed = run.input.consumed ++ (init ++ [newline]))
    : (run.after len
        (run.input.conclude source
          (⟨(init.length + 2 : Nat), again, init ++ [carriageReturn, newline, 0]⟩, after))).Lossless
      ↔ init.length + 1 < len.val - 1 := by
  have fits : (init ++ [carriageReturn, newline, 0]).length ≤ len.val
      ↔ init.length + 1 < len.val - 1 := by
    simp only [List.length_append, List.length_cons, List.length_nil]
    omega
  cases atEof : source.atEof (init ++ [carriageReturn, newline, 0]) with
  | true =>
      rw [Input.conclude_atEof (Int.natCast_nonneg _) atEof, lossless.after_end_iff (fun _ => rfl),
        fits]
      exact ⟨fun next => next.2.2, fun room => ⟨lossless.bytes, rfl, room⟩⟩
  | false =>
      have taken : (init ++ [carriageReturn, newline, 0]).take (init.length + 2)
          = init ++ [carriageReturn, newline] := by
        rw [List.take_length_add_append]
        rfl
      have bytes : Inserts newline carriageReturn after.consumed
          (run.returned ++ (init ++ [carriageReturn, newline])) := by
        rw [consumed]
        exact lossless.bytes.append ((Inserts.refl init).append (.insert .nil))
      rw [Input.conclude_positive (by omega) atEof, lossless.after_iff later, Int.toNat_natCast,
        taken, fits]
      exact ⟨fun next => next.2.2, fun room => ⟨bytes, by omega, room⟩⟩

/-- A chunk with the byte behind it is returned whole. -/
theorem Lossless.second (lossless : run.Lossless)
    (later : run.input.ended = true → after.ended = true)
    (consumed : after.consumed = run.input.consumed ++ (init ++ [last]) ++ more)
    (room : (init ++ [last] ++ more).length ≤ len.val)
    : (run.after len
        (run.input.conclude source
          (⟨(init ++ [last] ++ more).length, again, init ++ [last] ++ more⟩, after))).Lossless := by
  cases atEof : source.atEof (init ++ [last] ++ more) with
  | true =>
      rw [Input.conclude_atEof (Int.natCast_nonneg _) atEof]
      exact (lossless.after_end_iff (fun _ => rfl)).mpr ⟨lossless.bytes, rfl, room⟩
  | false =>
      have positive : 0 < ((init ++ [last] ++ more).length : Int) := by
        simp only [List.length_append, List.length_singleton]
        omega
      rw [Input.conclude_positive positive atEof]
      refine (lossless.after_iff later).mpr ⟨?_, by omega, room⟩
      rw [Int.toNat_natCast, List.take_length, consumed, List.append_assoc]
      exact lossless.bytes.append (.refl _)

/-- A chunk whose last byte is not returned is lost input, unless the input ended before it. -/
theorem Lossless.missing_iff (lossless : run.Lossless) (other : last ≠ newline)
    (consumed : after.consumed = run.input.consumed ++ (init ++ [last]))
    (room : (init ++ [last]).length ≤ len.val)
    : (run.after len
        (run.input.conclude source (⟨init.length, again, init ++ [last]⟩, after))).Lossless
      ↔ source.atEof (init ++ [last]) = true := by
  cases atEof : source.atEof (init ++ [last]) with
  | true =>
      rw [Input.conclude_atEof (Int.natCast_nonneg _) atEof]
      refine iff_of_true ?_ rfl
      exact (lossless.after_end_iff (fun _ => rfl)).mpr ⟨lossless.bytes, rfl, room⟩
  | false =>
      refine iff_of_false ?_ (by simp)
      have lost : ¬ Inserts newline carriageReturn after.consumed (run.returned ++ init) := by
        rw [consumed, ← List.append_assoc]
        exact (lossless.bytes.append (.refl init)).not_missing other
      intro next
      cases init with
      | nil =>
          rw [List.length_nil, Int.natCast_zero, Input.conclude_zero atEof] at next
          exact lost next.bytes
      | cons head init =>
          rw [Input.conclude_positive (by simp only [List.length_cons]; omega) atEof] at next
          have bytes := next.bytes
          rw [InputRun.after, Reply.bytes, Int.toNat_natCast, List.take_left] at bytes
          exact lost bytes

end Reply

/-- A call keeps a clear run lossless exactly if it is clean. -/
theorem Clear.clean_iff {results : Nat → ReadResult} {tester : Bool} {run : InputRun}
    (clear : run.Clear) (len : Request)
    : run.input.Clean (.web results tester) len
      ↔ (run.after len (run.input.connInput (.web results tester) len)).Lossless := by
  have lossless : run.Lossless := clear.toLossless
  cases eof : run.input.readEof with
  | true =>
      rw [Input.connInput, if_pos eof, lossless.after_end_iff id]
      exact iff_of_true (by simp [Input.Clean, eof])
        ⟨lossless.bytes, clear.sticky eof, Nat.zero_le _⟩
  | false =>
  rw [Input.connInput_web eof, Input.Clean, imp_iff_right eof]
  by_cases one : len.val = 1
  · -- a first read of no bytes is taken for the end of the file
    rw [one, Input.fetchLine_one, Input.conclude_zero (InputSource.atEof_nil _),
      lossless.after_end_iff]
    · simp [lossless.bytes]
    · exact id
  have more : 1 < len.val := by
    have positive := len.property
    omega
  rw [and_iff_right (fun isOne => absurd isOne one)]
  cases met : results run.input.reads with
  | again =>
      rw [Input.fetchLine_again more met, Input.conclude_again]
      refine iff_of_true (by simp [met]) ((lossless.after_iff ?_).mpr ?_)
      · exact id
      · simpa using lossless.bytes
  | failed =>
      rw [Input.fetchLine_failed more met, Input.conclude_failed]
      refine iff_of_true (by simp [met]) ((lossless.after_end_iff ?_).mpr ?_)
      · exact fun _ => rfl
      · exact ⟨lossless.bytes, rfl, Nat.zero_le _⟩
  | received offered =>
  simp only [InputSource.web_results, met, ReadResult.received.injEq, forall_eq']
  have short : (offered.take (len.val - 1)).length ≤ len.val - 1 := List.length_take_le _ _
  rcases List.eq_nil_or_concat (offered.take (len.val - 1)) with empty | ⟨init, last, chunk⟩
  · rw [Input.fetchLine_empty more met empty, Input.conclude_zero (InputSource.atEof_nil _)]
    refine iff_of_true (by simp [empty]) ((lossless.after_end_iff ?_).mpr ?_)
    · exact fun _ => rfl
    · exact ⟨lossless.bytes, rfl, Nat.zero_le _⟩
  rw [List.concat_eq_append] at chunk
  rw [chunk] at short ⊢
  have isChunk : init ++ [last] ≠ [] := by simp
  rw [List.length_append, List.length_singleton] at short
  simp only [imp_iff_right isChunk, List.getLast?_concat, Option.some_inj]
  by_cases ends : last = newline
  · subst ends
    rw [if_pos rfl, Input.fetchLine_newline more met chunk, lossless.newline_iff,
      List.length_append, List.length_singleton]
    · exact id
    · rfl
  rw [if_neg ends]
  by_cases next : ∃ offeredNext, results (run.input.reads + 1) = .received offeredNext
  · obtain ⟨offeredNext, metNext⟩ := next
    rw [Input.fetchLine_second more met chunk ends metNext]
    refine iff_of_true (Or.inr ⟨offeredNext, metNext⟩)
      (lossless.second (fun ended => by simp [ended]) rfl ?_)
    have byte : (offeredNext.take 1).length ≤ 1 := List.length_take_le _ _
    simp only [List.length_append, List.length_singleton]
    omega
  · obtain ⟨again, ended, fetched⟩ :=
      Input.fetchLine_missing tester more met chunk ends (not_exists.mp next)
    rw [fetched, lossless.missing_iff ends rfl, or_iff_left next]
    simp only [List.length_append, List.length_singleton]
    omega

theorem start_clear : start.Clear where
  bytes := .nil
  ends := by simp [start]
  stores := by simp [start]
  sticky := by simp [start, Input.start]

/-- A clean call leads from a clear run to a clear one. -/
theorem Clear.after {results : Nat → ReadResult} {tester : Bool} {run : InputRun}
    (clear : run.Clear) {len : Request} (clean : run.input.Clean (.web results tester) len)
    : (run.after len (run.input.connInput (.web results tester) len)).Clear := by
  have lossless := (clear.clean_iff len).mp clean
  refine ⟨lossless, fun closed => ?_⟩
  exact lossless.ends _ (List.mem_append_right _ (List.mem_singleton_self _))
    (Input.connInput_closed closed)

end InputRun

/-- Along a run of `conn_input` in web mode no byte is lost, -1 is returned only after the end
of the input, and nothing is stored behind the requested length, exactly when every call is
clean.
-/
theorem webInput_lossless_iff (results : Nat → ReadResult) (tester : Bool)
    (requests : List Request)
    : (∀ done, done <+: requests
        → ∀ run, StepRuns.exec (InputRun.step (.web results tester)) .start done = some run
        → run.Lossless)
      ↔ StepRuns.AllSteps (InputRun.step (.web results tester))
          (fun run len => run.input.Clean (.web results tester) len) .start requests := by
  apply StepRuns.exec_always_iff _ InputRun.Clear InputRun.Lossless
  · intro run len clear
    rw [clear.clean_iff len]
    exact ⟨fun lossless next taken => Option.some.inj taken ▸ lossless, fun always => always _ rfl⟩
  · intro run len next clear clean taken
    exact Option.some.inj taken ▸ clear.after clean
  · exact InputRun.Clear.toLossless
  · exact InputRun.start_clear

/-- Two bytes arrive, and nothing more for the moment. -/
def twoBytes : Nat → ReadResult
  | 0 => .received [0x61, 0x62]
  | _ => .again

/-- When nothing follows two bytes yet, the second one is lost. -/
theorem second_byte_lost
    : ¬ ∀ results tester requests run,
        StepRuns.exec (InputRun.step (.web results tester)) .start requests = some run
        → run.Lossless := by
  intro always
  have lossless := always twoBytes false [⟨1440, by decide⟩] _ rfl
  have missing : Inserts newline carriageReturn [0x61, 0x62] [0x61] := lossless.bytes
  cases missing with
  | keep _ rest => cases rest

end Networks.System
