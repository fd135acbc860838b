import Networks.Library.LinkedHeap
import Networks.Library.MachineIntegers
import Networks.Library.StepRuns

/-! The output of a connection: what `write` does not take at once waits in a linked list of
chunks until the descriptor takes it. Definitions follow `conn_bufspace`, `conn_drain` and
`conn_output`.
-/

namespace Networks.System

open LinkedHeap MachineIntegers

/-- `MAX_BUF_SPACE`. -/
def maxBufSpace : Nat := 8192

/-- `STDOUT_FILENO`. -/
def stdoutFileno : Nat := 1

/-- The most bytes that one call of `write` transfers. -/
def writeMax : Nat := 0x7ffff000

/-- `chunk_t` without its link. Its `size` is the length of `buf`. -/
structure Chunk where
  buf : List UInt8
  used : Nat
  deriving DecidableEq

/-- `chunk_t`. -/
structure ChunkCell where
  chunk : Chunk
  next : Option Nat

/-- What `out_queue_tail` points to: `&conn->out_queue`, or `&chunk->next`. -/
inductive ChunkLink
  | outQueue
  | next (chunk : Nat)

/-- The fields of `conn_t` that output uses, the heap of chunks, and the `POLLOUT` bits of
`events`. `written` are the bytes that the descriptor took, and `writes` counts the calls.
-/
structure Output where
  stdin : Nat
  outQueue : Option Nat
  outQueueTail : ChunkLink
  wroteEof : Bool
  wroteErr : Bool
  deleteMe : Bool
  chunks : Heap ChunkCell
  pollout : Nat → Bool
  written : List UInt8
  writes : Nat

/-- The output of a new connection, as `conn_add` leaves it. -/
def Output.start (stdin : Nat) : Output where
  stdin := stdin
  outQueue := none
  outQueueTail := .outQueue
  wroteEof := false
  wroteErr := false
  deleteMe := false
  chunks := .empty
  pollout := fun _ => false
  written := []
  writes := 0

/-- A result of `write`: a count, `EAGAIN`, or another error. -/
inductive WriteResult
  | wrote (count : Nat)
  | again
  | failed
  deriving DecidableEq

/-- What the outside decides: the results of successive calls of `write`, and whether the
server runs a program.
-/
structure Terminal where
  results : Nat → WriteResult
  runProgram : Bool

/-- `write`, to whichever descriptor. It never takes more bytes than it is given. -/
def Output.write (terminal : Terminal) (bytes : List UInt8) (out : Output)
    : WriteResult × Output :=
  match terminal.results out.writes with
  | .wrote count =>
      let count := min count (min bytes.length writeMax)
      (.wrote count,
        { out with written := out.written ++ bytes.take count, writes := out.writes + 1 })
  | result => (result, { out with writes := out.writes + 1 })

/-- `conn_bufspace`. -/
def Output.connBufspace (out : Output) : Option Nat :=
  (walk ChunkCell.next out.chunks out.chunks.top out.outQueue).map fun cells =>
    let used :=
      (cells.map fun entry => entry.2.chunk.buf.length - entry.2.chunk.used).sum
    if used > maxBufSpace then 0 else maxBufSpace - used

/-- `*conn->out_queue_tail = chunk; conn->out_queue_tail = &chunk->next`, for a new chunk. -/
def Output.append (bytes : List UInt8) (out : Output) : Option Output :=
  let chunk := out.chunks.top
  let chunks := out.chunks.alloc { chunk := { buf := bytes, used := 0 }, next := none }
  match out.outQueueTail with
  | .outQueue =>
      some { out with chunks := chunks, outQueue := some chunk, outQueueTail := .next chunk }
  | .next last =>
      (chunks.write last fun cell => { cell with next := some chunk }).map fun chunks =>
        { out with chunks := chunks, outQueueTail := .next chunk }

/-- `events[slot].events |= POLLOUT`, or the bit taken away. -/
def Output.poll (slot : Nat) (wanted : Bool) (out : Output) : Output :=
  { out with pollout := fun other => if other = slot then wanted else out.pollout other }

/-- The end of `conn_output`: `left` bytes go to the queue, the first of `rest`. -/
def Output.queueRest (terminal : Terminal) (rest : List UInt8) (left : Int) (out : Output)
    : Option Output :=
  (if left > 0 then out.append (rest.take left.toNat) else some out).map fun out =>
    if out.outQueue.isSome then
      out.poll (if terminal.runProgram then out.stdin else stdoutFileno) true
    else
      out

/-- `conn_output`, with its result. Its counters are of type `int`. A failed assertion leaves
nothing.
-/
def Output.connOutput (terminal : Terminal) (buf : List UInt8) (out : Output)
    : Option (Int × Output) :=
  if out.deleteMe then
    none
  else if out.wroteEof then
    some (0, out)
  else if buf.length = 0 then
    some (0, { out with wroteEof := true })
  else if out.wroteErr then
    some (-1, out)
  else
    out.connBufspace.bind fun space =>
      if space = 0 then
        some (0, out)
      else
        let left := int32 buf.length
        let queued (rest : List UInt8) (left : Int) (out : Output) :=
          (out.queueRest terminal rest left).map fun out => (int32 buf.length, out)
        if out.outQueue.isSome then
          queued buf left out
        else
          match out.write terminal buf with
          | (.failed, out) => some (-1, { out with wroteErr := true })
          | (.again, out) => queued buf left out
          | (.wrote w, out) => queued (buf.drop w) (int32 (left - w)) out

/-- The loop of `conn_drain`. It also says whether anything was output. -/
def Output.drainLoop (terminal : Terminal) : Nat → Bool → Output → Option (Bool × Output)
  | 0, outputted, out =>
      if out.outQueue.isSome then none else some (outputted, out)
  | fuel + 1, outputted, out =>
      match out.outQueue with
      | none => some (outputted, out)
      | some address =>
          (out.chunks.cell address).bind fun cell =>
            match out.write terminal (cell.chunk.buf.drop cell.chunk.used) with
            | (.failed, out) => some (outputted, { out with wroteErr := true })
            | (.again, out) => some (outputted, out)
            | (.wrote w, out) =>
                let used := cell.chunk.used + w
                if used < cell.chunk.buf.length then
                  (out.chunks.write address fun cell =>
                      { cell with chunk := { cell.chunk with used := used } }).map fun chunks =>
                    (true, { out with chunks := chunks }.poll stdoutFileno true)
                else
                  (out.chunks.free address).bind fun chunks =>
                    drainLoop terminal fuel true
                      { out with
                        chunks := chunks
                        outQueue := cell.next
                        outQueueTail :=
                          if cell.next.isSome then out.outQueueTail else .outQueue }

/-- `conn_drain`, up to its call of `ctcp_output`. It says whether that is called. -/
def Output.connDrain (terminal : Terminal) (out : Output) : Option (Bool × Output) :=
  let out := out.poll stdoutFileno false
  if out.wroteErr then
    some (false, out)
  else
    (out.drainLoop terminal out.chunks.top false).map fun drained =>
      let outputted := drained.1
      let out := drained.2
      let failed := out.wroteEof && !out.wroteErr && out.outQueue.isNone
      (outputted && !out.deleteMe, { out with wroteErr := out.wroteErr || failed })

-----------------------------------------------------------------------------------------
-- The queue
-----------------------------------------------------------------------------------------

/-- The bytes of the chunks that no `write` took. -/
def unwritten (chunks : List Chunk) : List UInt8 :=
  (chunks.map fun chunk => chunk.buf.drop chunk.used).flatten

/-- The chunks on `out_queue`, as its links lead to them. -/
def Output.queue (out : Output) : Option (List Chunk) :=
  (walk ChunkCell.next out.chunks out.chunks.top out.outQueue).map
    (List.map fun entry => entry.2.chunk)

/-- The links from `out_queue` lead to the chunks, none of them is used up, and
`out_queue_tail` points behind the last one.
-/
structure Output.Queued (out : Output) (addresses : List Nat) (chunks : List Chunk) : Prop where
  holds
    : Holds ChunkCell.next ChunkCell.chunk out.chunks out.outQueue addresses chunks
  tail : out.outQueueTail = addresses.getLast?.elim .outQueue .next
  partly : ∀ chunk ∈ chunks, chunk.used < chunk.buf.length

/-- Neither EOF nor an error has been written, and the connection was not removed. -/
structure Output.Open (out : Output) : Prop where
  eof : out.wroteEof = false
  err : out.wroteErr = false
  kept : out.deleteMe = false

/-- Written and waiting bytes make up what was accepted. -/
structure Output.Balanced (out : Output) (accepted : List UInt8) (addresses : List Nat)
    (chunks : List Chunk)
    : Prop extends Output.Queued out addresses chunks, Output.Open out where
  fifo : out.written ++ unwritten chunks = accepted

section Queue

variable {terminal : Terminal} {out : Output} {accepted : List UInt8} {addresses : List Nat}
  {chunks : List Chunk}

theorem Output.Queued.queue (queued : out.Queued addresses chunks) : out.queue = some chunks := by
  obtain ⟨cells, walked, views⟩ := walk_holds queued.holds queued.holds.chain.length_le
  rw [Output.queue, walked, Option.map_some, views]

theorem length_unwritten (chunks : List Chunk)
    : (unwritten chunks).length = (chunks.map fun chunk => chunk.buf.length - chunk.used).sum := by
  rw [unwritten, List.length_flatten, List.map_map]
  congr 1
  exact List.map_congr_left fun chunk _ => List.length_drop

/-- `conn_bufspace` reports the room that the waiting bytes leave. -/
theorem Output.Queued.connBufspace (queued : out.Queued addresses chunks)
    : out.connBufspace = some (maxBufSpace - (unwritten chunks).length) := by
  obtain ⟨cells, walked, views⟩ := walk_holds queued.holds queued.holds.chain.length_le
  have counted :
      (cells.map fun entry => entry.2.chunk.buf.length - entry.2.chunk.used).sum
      = (unwritten chunks).length := by
    rw [length_unwritten, ← views, List.map_map]
    rfl
  simp only [Output.connBufspace, walked, Option.map_some, counted, Option.some_inj]
  split
  · next more => rw [Nat.sub_eq_zero_of_le (Nat.le_of_lt more)]
  · rfl

/-- A call of `write` leaves the queue to the caller. -/
theorem Output.Queued.called (queued : out.Queued addresses chunks) (bytes : List UInt8)
    : Output.Queued { out with written := out.written ++ bytes, writes := out.writes + 1 }
        addresses chunks :=
  ⟨queued.holds, queued.tail, queued.partly⟩

/-- A chunk that is linked behind the others waits behind them. -/
theorem Output.Queued.extended (queued : out.Queued addresses chunks) {bytes : List UInt8}
    (filled : bytes ≠ []) {next : Output} {longer : List Nat}
    (holds
      : Holds ChunkCell.next ChunkCell.chunk next.chunks next.outQueue longer
          (chunks ++ [⟨bytes, 0⟩]))
    (tail : next.outQueueTail = longer.getLast?.elim .outQueue .next)
    : next.Queued longer (chunks ++ [⟨bytes, 0⟩]) := by
  refine ⟨holds, tail, fun chunk member => ?_⟩
  rcases List.mem_append.mp member with old | new
  · exact queued.partly chunk old
  · rw [List.mem_singleton.mp new]
    exact List.length_pos_iff.mpr filled

/-- A new chunk waits behind the others, and only the links change. -/
theorem Output.Queued.append (queued : out.Queued addresses chunks) {bytes : List UInt8}
    (filled : bytes ≠ [])
    : ∃ heap first tail,
        out.append bytes
          = some { out with chunks := heap, outQueue := first, outQueueTail := tail }
        ∧ Output.Queued { out with chunks := heap, outQueue := first, outQueueTail := tail }
            (addresses ++ [out.chunks.top]) (chunks ++ [⟨bytes, 0⟩]) := by
  have tail := queued.tail
  rcases List.eq_nil_or_concat addresses with rfl | ⟨init, last, rfl⟩
  · obtain rfl := List.length_eq_zero_iff.mp queued.holds.length_eq.symm
    have first : out.outQueueTail = .outQueue := tail
    have holds := queued.holds
    rw [queued.holds.chain.head] at holds
    refine ⟨out.chunks.alloc ⟨⟨bytes, 0⟩, none⟩, some out.chunks.top, .next out.chunks.top, ?_,
      queued.extended filled (holds.push rfl) rfl⟩
    simp only [Output.append, first]
  · rw [List.concat_eq_append] at *
    have behind : out.outQueueTail = .next last := by
      rw [tail, List.getLast?_concat]
      rfl
    obtain ⟨cell, found⟩ := queued.holds.chain.found (by simp : last ∈ _)
    have apart : last ≠ out.chunks.top := Nat.ne_of_lt (lt_top found)
    have still : (out.chunks.alloc ⟨⟨bytes, 0⟩, none⟩).cell last = some cell :=
      (cell_alloc apart).trans found
    refine ⟨(out.chunks.alloc ⟨⟨bytes, 0⟩, none⟩).modify last fun cell =>
        some { cell with next := some out.chunks.top },
      out.outQueue, .next out.chunks.top, ?_, queued.extended filled ?_ ?_⟩
    · simp only [Output.append, behind, write_eq still, Option.map_some]
    · rw [List.append_assoc]
      exact queued.holds.snoc rfl fun old _ => ⟨_, rfl, rfl, rfl⟩
    · rw [List.getLast?_concat]
      rfl

/-- What `write` did not take waits behind what waited before, and `POLLOUT` is asked for. -/
theorem Output.Queued.queueRest (terminal : Terminal) (queued : out.Queued addresses chunks)
    {rest : List UInt8} {left : Int} (filled : left > 0 → rest ≠ [])
    : ∃ heap first tail addresses,
        out.queueRest terminal rest left
          = some
              { out with
                chunks := heap
                outQueue := first
                outQueueTail := tail
                pollout :=
                  if first.isSome then
                    (out.poll (if terminal.runProgram then out.stdin else stdoutFileno)
                      true).pollout
                  else out.pollout }
        ∧ Output.Queued { out with chunks := heap, outQueue := first, outQueueTail := tail }
            addresses
            (chunks ++ if left > 0 then [⟨rest.take left.toNat, 0⟩] else []) := by
  have appended : ∃ heap first tail addresses,
      (if left > 0 then out.append (rest.take left.toNat) else some out)
          = some { out with chunks := heap, outQueue := first, outQueueTail := tail }
        ∧ Output.Queued { out with chunks := heap, outQueue := first, outQueueTail := tail }
            addresses
            (chunks ++ if left > 0 then [⟨rest.take left.toNat, 0⟩] else []) := by
    by_cases some : left > 0
    · have taken : rest.take left.toNat ≠ [] := by
        rw [ne_eq, List.take_eq_nil_iff, not_or]
        exact ⟨by omega, filled some⟩
      obtain ⟨heap, first, tail, appended, waits⟩ := queued.append taken
      rw [if_pos some, if_pos some]
      exact ⟨heap, first, tail, _, appended, waits⟩
    · rw [if_neg some, if_neg some, List.append_nil]
      exact ⟨out.chunks, out.outQueue, out.outQueueTail, addresses, rfl, queued⟩
  obtain ⟨heap, first, tail, addresses, appended, waits⟩ := appended
  refine ⟨heap, first, tail, addresses, ?_, waits⟩
  simp only [Output.queueRest, appended, Option.map_some]
  split
  · rfl
  · rfl

theorem Output.Balanced.poll (balanced : out.Balanced accepted addresses chunks) (slot : Nat)
    (wanted : Bool)
    : (out.poll slot wanted).Balanced accepted addresses chunks :=
  ⟨⟨balanced.holds, balanced.tail, balanced.partly⟩,
    ⟨balanced.eof, balanced.err, balanced.kept⟩, balanced.fifo⟩

/-- What `write` did not take is accepted with the rest. -/
theorem Output.Balanced.queueRest (terminal : Terminal)
    (balanced : out.Balanced accepted addresses chunks) (rest : List UInt8)
    : ∃ next addresses chunks,
        out.queueRest terminal rest rest.length = some next
        ∧ next.Balanced (accepted ++ rest) addresses chunks
        ∧ next.written = out.written := by
  have filled : (rest.length : Int) > 0 → rest ≠ [] := by
    rintro some rfl
    exact absurd some (by decide)
  obtain ⟨heap, first, tail, addresses, queued, waits⟩ :=
    balanced.toQueued.queueRest terminal filled
  refine ⟨_, addresses, _, queued,
    ⟨⟨waits.holds, waits.tail, waits.partly⟩, ⟨balanced.eof, balanced.err, balanced.kept⟩, ?_⟩, rfl⟩
  rw [← balanced.fifo, List.append_assoc, Int.toNat_natCast, List.take_length]
  by_cases some : (rest.length : Int) > 0
  · rw [if_pos some]
    simp [unwritten]
  · have none : rest = [] := List.length_eq_zero_iff.mp (by omega)
    rw [if_neg some, none, List.append_nil, List.append_nil]

-----------------------------------------------------------------------------------------
-- Writing
-----------------------------------------------------------------------------------------

/-- `write` takes a prefix of its bytes, or has to be called again. -/
theorem Output.write_cases (unfailing : ∀ call, terminal.results call ≠ .failed)
    (bytes : List UInt8) (out : Output)
    : out.write terminal bytes = (.again, { out with writes := out.writes + 1 })
      ∨ ∃ w,
        w ≤ bytes.length
        ∧ out.write terminal bytes
          = (.wrote w,
              { out with
                written := out.written ++ bytes.take w
                writes := out.writes + 1 }) := by
  unfold Output.write
  cases result : terminal.results out.writes with
  | wrote count => exact Or.inr ⟨_, by omega, rfl⟩
  | again => exact Or.inl rfl
  | failed => exact absurd result (unfailing _)

theorem unwritten_cons (chunk : Chunk) (chunks : List Chunk)
    : unwritten (chunk :: chunks) = chunk.buf.drop chunk.used ++ unwritten chunks := by
  rw [unwritten, List.map_cons, List.flatten_cons]
  rfl

/-- A chunk that `write` took a part of stays in front. -/
theorem Output.Queued.advance {address : Nat} {rest : List Nat} {chunk : Chunk}
    {w : Nat} (queued : out.Queued (address :: rest) (chunk :: chunks))
    (left : chunk.used + w < chunk.buf.length)
    : Output.Queued
        { out with
          chunks :=
            out.chunks.modify address fun cell =>
              some { cell with chunk := { cell.chunk with used := chunk.used + w } } }
        (address :: rest) ({ chunk with used := chunk.used + w } :: chunks) := by
  have once := (List.nodup_cons.mp queued.holds.chain.nodup).1
  obtain ⟨_, _, cell, start, same, found, view, behind⟩ := Holds.cons_iff.mp queued.holds
  obtain ⟨rfl, rfl⟩ := List.cons.inj same
  subst view
  refine ⟨?_, queued.tail, ?_⟩
  · refine Holds.cons_iff.mpr ⟨address, rest,
      { cell with chunk := { cell.chunk with used := cell.chunk.used + w } }, start, rfl, ?_, rfl,
      behind.frame ?_⟩
    · exact (cell_modify _ _).trans (by rw [found, Option.bind_some])
    · exact fun later member => cell_modify_other _ (fun same => once (same ▸ member))
  · intro other member
    rcases List.mem_cons.mp member with rfl | later
    · exact left
    · exact queued.partly other (List.mem_cons_of_mem _ later)

/-- A chunk that `write` took the rest of leaves the queue. -/
theorem Output.Queued.pop {address : Nat} {rest : List Nat} {chunk : Chunk} {cell : ChunkCell}
    (queued : out.Queued (address :: rest) (chunk :: chunks))
    (found : out.chunks.cell address = some cell)
    : Output.Queued
        { out with
          chunks := out.chunks.modify address fun _ => none
          outQueue := cell.next
          outQueueTail := if cell.next.isSome then out.outQueueTail else .outQueue }
        rest chunks := by
  have once := (List.nodup_cons.mp queued.holds.chain.nodup).1
  obtain ⟨_, _, same, start, addresses, foundAgain, view, behind⟩ :=
    Holds.cons_iff.mp queued.holds
  obtain ⟨rfl, rfl⟩ := List.cons.inj addresses
  obtain rfl := Option.some.inj (found.symm.trans foundAgain)
  refine ⟨behind.frame ?_, ?_, fun other member =>
    queued.partly other (List.mem_cons_of_mem _ member)⟩
  · exact fun later member => cell_modify_other _ (fun same => once (same ▸ member))
  · have head := behind.chain.head
    cases rest with
    | nil => simp [head]
    | cons second rest =>
        simp only [head, List.head?_cons, Option.isSome_some, if_true]
        rw [queued.tail, List.getLast?_cons_cons]

/-- What `write` took of the first chunk is written, and does not wait any more. -/
theorem Output.Balanced.fifo_advance {chunk : Chunk}
    (balanced : out.Balanced accepted addresses (chunk :: chunks)) (w : Nat)
    : out.written ++ (chunk.buf.drop chunk.used).take w
        ++ unwritten ({ chunk with used := chunk.used + w } :: chunks)
      = accepted := by
  have split := List.take_append_drop w (chunk.buf.drop chunk.used)
  rw [List.drop_drop] at split
  rw [← balanced.fifo, unwritten_cons, unwritten_cons, List.append_assoc, ← List.append_assoc,
    ← List.append_assoc _ _ (unwritten chunks)]
  simp only [split, List.append_assoc]

/-- What `write` took of the first chunk, when it is all of it, is written. -/
theorem Output.Balanced.fifo_pop {chunk : Chunk} {w : Nat}
    (balanced : out.Balanced accepted addresses (chunk :: chunks))
    (all : chunk.buf.length ≤ chunk.used + w)
    : out.written ++ (chunk.buf.drop chunk.used).take w ++ unwritten chunks = accepted := by
  have whole : (chunk.buf.drop chunk.used).take w = chunk.buf.drop chunk.used :=
    List.take_of_length_le (by rw [List.length_drop]; omega)
  rw [← balanced.fifo, unwritten_cons, whole, List.append_assoc]

/-- Draining moves bytes from the queue to the descriptor, by induction on the chunks. -/
theorem Output.Balanced.drainLoop (unfailing : ∀ call, terminal.results call ≠ .failed)
    {fuel : Nat} (outputted : Bool) (balanced : out.Balanced accepted addresses chunks)
    (enough : addresses.length ≤ fuel)
    : ∃ outputted' next addresses chunks,
        out.drainLoop terminal fuel outputted = some (outputted', next)
        ∧ next.Balanced accepted addresses chunks := by
  induction chunks generalizing out addresses fuel outputted with
  | nil =>
      obtain rfl := List.length_eq_zero_iff.mp balanced.holds.length_eq
      have empty : out.outQueue = none := balanced.holds.chain.head
      refine ⟨outputted, out, [], [], ?_, balanced⟩
      cases fuel <;> simp [Output.drainLoop, empty]
  | cons chunk chunks ih =>
      obtain ⟨address, rest, cell, start, rfl, found, view, -⟩ :=
        Holds.cons_iff.mp balanced.holds
      obtain ⟨fuel, rfl⟩ := Nat.exists_eq_succ_of_ne_zero
        (Nat.ne_of_gt (Nat.lt_of_lt_of_le (Nat.zero_lt_succ _) enough))
      rcases out.write_cases unfailing (cell.chunk.buf.drop cell.chunk.used) with
        again | ⟨w, within, wrote⟩
      · refine ⟨outputted, { out with writes := out.writes + 1 }, _, _, ?_,
          ⟨balanced.holds, balanced.tail, balanced.partly⟩,
          ⟨balanced.eof, balanced.err, balanced.kept⟩, balanced.fifo⟩
        simp only [Output.drainLoop, start, found, Option.bind_some, again]
      · subst view
        have called := balanced.toQueued.called ((cell.chunk.buf.drop cell.chunk.used).take w)
        by_cases left : cell.chunk.used + w < cell.chunk.buf.length
        · have advanced := called.advance left
          have stays : Output.Balanced _ accepted (address :: rest) _ :=
            ⟨advanced, ⟨balanced.eof, balanced.err, balanced.kept⟩, balanced.fifo_advance w⟩
          refine ⟨true, _, _, _, ?_, stays.poll stdoutFileno true⟩
          simp only [Output.drainLoop, start, found, Option.bind_some, wrote, if_pos left,
            write_eq found, Option.map_some]
        · have gone := called.pop found
          have popped : Output.Balanced _ accepted rest chunks :=
            ⟨gone, ⟨balanced.eof, balanced.err, balanced.kept⟩,
              balanced.fifo_pop (Nat.not_lt.mp left)⟩
          obtain ⟨outputted', next, addresses, chunks, drained, done⟩ :=
            ih true popped (by simpa using enough)
          refine ⟨outputted', next, addresses, chunks, ?_, done⟩
          simp only [Output.drainLoop, start, found, Option.bind_some, wrote, if_neg left,
            free_eq found]
          exact drained

-----------------------------------------------------------------------------------------
-- Calls
-----------------------------------------------------------------------------------------

theorem Output.Open.self {next : Output} (opened : next.Open)
    : { next with wroteEof := false, wroteErr := false } = next := by
  obtain ⟨eof, err, -⟩ := opened
  cases next
  cases eof
  cases err
  rfl

/-- `conn_drain` loses nothing. -/
theorem Output.Balanced.connDrain (unfailing : ∀ call, terminal.results call ≠ .failed)
    (balanced : out.Balanced accepted addresses chunks)
    : ∃ called next addresses chunks,
        out.connDrain terminal = some (called, next)
        ∧ next.Balanced accepted addresses chunks := by
  have polled := balanced.poll stdoutFileno false
  obtain ⟨outputted, next, addresses, chunks, drained, done⟩ :=
    polled.drainLoop unfailing false polled.holds.chain.length_le
  have sound : (out.poll stdoutFileno false).wroteErr = false := balanced.err
  refine ⟨outputted && !next.deleteMe, next, addresses, chunks, ?_, done⟩
  simp only [Output.connDrain, sound, Bool.false_eq_true, if_false, drained, Option.map_some,
    done.eof, done.err, Bool.false_and, Bool.or_false]
  exact congrArg (fun last => Option.some (outputted && !next.deleteMe, last))
    done.toOpen.self

/-- What `write` takes while nothing waits was accepted last. -/
theorem Output.Balanced.wrote (balanced : out.Balanced accepted addresses chunks)
    (idle : out.outQueue = none) (bytes : List UInt8)
    : Output.Balanced { out with written := out.written ++ bytes, writes := out.writes + 1 }
        (accepted ++ bytes) addresses chunks := by
  have head := balanced.holds.chain.head
  rw [idle] at head
  have none := List.head?_eq_none_iff.mp head.symm
  have nothing : chunks = [] :=
    List.length_eq_zero_iff.mp (balanced.holds.length_eq.symm.trans (none ▸ rfl))
  refine ⟨⟨balanced.holds, balanced.tail, balanced.partly⟩,
    ⟨balanced.eof, balanced.err, balanced.kept⟩, ?_⟩
  have fifo := balanced.fifo
  subst nothing
  simp only [unwritten, List.map_nil, List.flatten_nil, List.append_nil] at fifo ⊢
  rw [fifo]

/-- `conn_output` accepts its buffer or nothing, and what it accepts is written or waits. -/
theorem Output.Balanced.connOutput (unfailing : ∀ call, terminal.results call ≠ .failed)
    (balanced : out.Balanced accepted addresses chunks) {buf : List UInt8} (filled : buf ≠ [])
    (short : buf.length < 2147483648)
    : ∃ result next addresses chunks,
        out.connOutput terminal buf = some (result, next)
        ∧ next.Balanced (accepted ++ buf.take result.toNat) addresses chunks
        ∧ out.written <+: next.written := by
  have nonzero : ¬ buf.length = 0 := fun none => filled (List.length_eq_zero_iff.mp none)
  have fits : int32 buf.length = buf.length := int32_eq_self (by omega) (by omega)
  have all : buf.take (buf.length : Int).toNat = buf := by simp
  simp only [Output.connOutput, balanced.kept, balanced.eof, balanced.err, Bool.false_eq_true,
    if_false, if_neg nonzero, balanced.connBufspace, Option.bind_some, fits]
  split
  · refine ⟨0, out, addresses, chunks, rfl, ?_, List.prefix_refl _⟩
    simpa using balanced
  split
  · obtain ⟨next, after, waiting, queued, done, written⟩ := balanced.queueRest terminal buf
    refine ⟨buf.length, next, after, waiting, by rw [queued, Option.map_some], ?_, ?_⟩
    · rw [all]
      exact done
    · rw [written]
  next empty =>
  -- nothing waits, so what `write` takes comes next
  have idle : out.outQueue = none := by simpa using empty
  rcases out.write_cases unfailing buf with again | ⟨w, within, wrote⟩
  · have called : Output.Balanced { out with writes := out.writes + 1 } accepted addresses
        chunks :=
      ⟨⟨balanced.holds, balanced.tail, balanced.partly⟩,
        ⟨balanced.eof, balanced.err, balanced.kept⟩, balanced.fifo⟩
    obtain ⟨next, after, waiting, queued, done, written⟩ := called.queueRest terminal buf
    refine ⟨buf.length, next, after, waiting, ?_, ?_, ?_⟩
    · simp only [again, queued, Option.map_some]
    · rw [all]
      exact done
    · rw [written]
  · have called := balanced.wrote idle (buf.take w)
    obtain ⟨next, after, waiting, queued, done, written⟩ :=
      called.queueRest terminal (buf.drop w)
    have left : int32 (buf.length - w) = (buf.drop w).length := by
      rw [List.length_drop, int32_eq_self (by omega) (by omega)]
      omega
    refine ⟨buf.length, next, after, waiting, ?_, ?_, ?_⟩
    · simp only [wrote, left, queued, Option.map_some]
    · rw [List.append_assoc, List.take_append_drop] at done
      rw [all]
      exact done
    · rw [written]
      exact List.prefix_append _ _

end Queue

-----------------------------------------------------------------------------------------
-- Runs
-----------------------------------------------------------------------------------------

/-- A call of one of the two functions. -/
inductive OutputCall
  | output (buf : List UInt8)
  | drain

/-- The output of a connection, and the prefixes that the positive results of `conn_output`
accepted.
-/
structure OutputRun where
  out : Output
  accepted : List UInt8

namespace OutputRun

def start (stdin : Nat) : OutputRun := ⟨.start stdin, []⟩

def step (terminal : Terminal) (run : OutputRun) : OutputCall → Option OutputRun
  | .output buf =>
      (run.out.connOutput terminal buf).map fun result =>
        { out := result.2, accepted := run.accepted ++ buf.take result.1.toNat }
  | .drain =>
      (run.out.connDrain terminal).map fun result => { run with out := result.2 }

/-- What was accepted is written or waits in order, in chunks that are not used up, and
`conn_bufspace` reports the room left.
-/
structure Exact (run : OutputRun) (queue : List Chunk) : Prop where
  listed : run.out.queue = some queue
  fifo : run.out.written ++ unwritten queue = run.accepted
  partly : ∀ chunk ∈ queue, chunk.used < chunk.buf.length
  space : run.out.connBufspace = some (maxBufSpace - (unwritten queue).length)

end OutputRun

/-- A buffer as the callers of `conn_output` pass it: no EOF, and within the range of `int`. -/
structure Passed (buf : List UInt8) : Prop where
  filled : buf ≠ []
  short : buf.length < 2147483648

section Runs

variable {terminal : Terminal} {run next : OutputRun}

/-- What holds along a run. -/
def OutputRun.Lossless (run : OutputRun) : Prop :=
  ∃ addresses chunks, run.out.Balanced run.accepted addresses chunks

theorem OutputRun.start_lossless (stdin : Nat) : (start stdin).Lossless :=
  ⟨[], [], ⟨⟨.nil, rfl, by simp⟩, ⟨rfl, rfl, rfl⟩, rfl⟩⟩

theorem OutputRun.Lossless.step (unfailing : ∀ call, terminal.results call ≠ .failed)
    (lossless : run.Lossless) {call : OutputCall}
    (passed : ∀ buf, call = .output buf → Passed buf)
    (stepped : run.step terminal call = some next)
    : next.Lossless := by
  obtain ⟨addresses, chunks, balanced⟩ := lossless
  cases call with
  | output buf =>
      obtain ⟨result, out, after, waiting, called, done, -⟩ :=
        balanced.connOutput unfailing (passed buf rfl).filled (passed buf rfl).short
      simp only [OutputRun.step, called, Option.map_some, Option.some_inj] at stepped
      subst stepped
      exact ⟨after, waiting, done⟩
  | drain =>
      obtain ⟨outputted, out, after, waiting, called, done⟩ := balanced.connDrain unfailing
      simp only [OutputRun.step, called, Option.map_some, Option.some_inj] at stepped
      subst stepped
      exact ⟨after, waiting, done⟩

/-- Along every run of the two functions without EOF and without a write error the queue is
exact. Both functions return, and after less output than there was room for there is room.
-/
theorem output_lossless (terminal : Terminal) (stdin : Nat)
    (unfailing : ∀ call, terminal.results call ≠ .failed) {calls : List OutputCall}
    {run : OutputRun} (passed : ∀ buf, .output buf ∈ calls → Passed buf)
    (reached : StepRuns.exec (OutputRun.step terminal) (.start stdin) calls = some run)
    : ∃ queue,
        run.Exact queue
        ∧ (run.step terminal .drain).isSome
        ∧ ∀ buf, Passed buf
          → ∃ next,
            run.step terminal (.output buf) = some next
            ∧ (buf.length < maxBufSpace - (unwritten queue).length
              → ∃ space, next.out.connBufspace = some space ∧ 0 < space) := by
  have each : ∀ call ∈ calls, ∀ buf, call = .output buf → Passed buf := by
    rintro call member buf rfl
    exact passed buf member
  have lossless : run.Lossless :=
    StepRuns.exec_invariant_of_guard
      (fun _ call => ∀ buf, call = .output buf → Passed buf) OutputRun.Lossless
      (fun held guard stepped => held.step unfailing guard stepped)
      (OutputRun.start_lossless stdin)
      (StepRuns.allSteps_of_forall each) reached
  obtain ⟨addresses, chunks, balanced⟩ := lossless
  refine ⟨chunks, ⟨balanced.queue, balanced.fifo, balanced.partly, balanced.connBufspace⟩,
    ?_, ?_⟩
  · obtain ⟨outputted, out, _, _, called, -⟩ := balanced.connDrain unfailing
    rw [OutputRun.step, called]
    rfl
  · intro buf passed
    obtain ⟨result, out, after, waiting, called, done, more⟩ :=
      balanced.connOutput unfailing passed.filled passed.short
    refine ⟨⟨out, run.accepted ++ buf.take result.toNat⟩, ?_, fun room => ?_⟩
    · simp only [OutputRun.step, called, Option.map_some]
    · refine ⟨_, done.connBufspace, ?_⟩
      -- no more waits than before and what was accepted
      have before := congrArg List.length balanced.fifo
      have behind := congrArg List.length done.fifo
      have grows := more.length_le
      have most := List.length_take_le' result.toNat buf
      simp only [List.length_append] at before behind
      omega

/-- A terminal that takes one byte, then none, then two. -/
def slowTerminal : Terminal where
  results := fun call =>
    if call % 3 = 0 then .wrote 1 else if call % 3 = 1 then .again else .wrote 2
  runProgram := false

theorem slowTerminal_unfailing (call : Nat) : slowTerminal.results call ≠ .failed := by
  simp only [slowTerminal]
  split
  · simp
  · split <;> simp

theorem output_lossless_slow
    : ∃ run,
        StepRuns.exec (OutputRun.step slowTerminal) (.start 5)
          [.output [1, 2, 3], .output [4, 5], .drain, .drain] = some run
        ∧ ∃ queue,
          run.Exact queue
          ∧ (run.step slowTerminal .drain).isSome
          ∧ ∀ buf, Passed buf
            → ∃ next,
              run.step slowTerminal (.output buf) = some next
              ∧ (buf.length < maxBufSpace - (unwritten queue).length
                → ∃ space, next.out.connBufspace = some space ∧ 0 < space) := by
  have runs : (StepRuns.exec (OutputRun.step slowTerminal) (.start 5)
      [.output [1, 2, 3], .output [4, 5], .drain, .drain]).isSome := by
    decide +kernel
  obtain ⟨run, reached⟩ := Option.isSome_iff_exists.mp runs
  have passed : ∀ buf,
      OutputCall.output buf ∈ [.output [1, 2, 3], .output [4, 5], .drain, .drain]
      → Passed buf := by
    intro buf member
    have either : buf = [1, 2, 3] ∨ buf = [4, 5] := by simpa using member
    rcases either with rfl | rfl
    · exact ⟨by decide, by decide⟩
    · exact ⟨by decide, by decide⟩
  exact ⟨run, reached, output_lossless slowTerminal 5 slowTerminal_unfailing passed reached⟩

end Runs

end Networks.System
