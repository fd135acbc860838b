import Networks.System.OutputQueue
import Mathlib.Logic.Function.Basic

/-! Whether waiting output is scheduled. All connections share the `POLLOUT` bit of standard
output, for which the main loop drains them: `conn_drain` takes it away from all of them and
asks for it again after a short write only, and `conn_output` asks for the descriptor it writes
to.
-/

namespace Networks.System

open LinkedHeap MachineIntegers

-----------------------------------------------------------------------------------------
-- Draining a queue
-----------------------------------------------------------------------------------------

/-- How the loop of `conn_drain` ends: without chunks, after a chunk that `write` took in part,
or after `write` returned -1.
-/
inductive Ending
  | emptied
  | short
  | again
  | failed
  deriving DecidableEq

/-- The outcome of the loop of `conn_drain`: how it ended, whether anything was output, the
calls of `write` so far, and the chunks that still wait.
-/
structure Drained where
  ending : Ending
  outputted : Bool
  writes : Nat
  waiting : List Chunk

/-- The loop of `conn_drain` on the chunks of a queue, with the results of `write`. -/
def drainChunks (results : Nat → WriteResult) (writes : Nat) (outputted : Bool)
    : List Chunk → Drained
  | [] => ⟨.emptied, outputted, writes, []⟩
  | chunk :: rest =>
      match results writes with
      | .failed => ⟨.failed, outputted, writes + 1, chunk :: rest⟩
      | .again => ⟨.again, outputted, writes + 1, chunk :: rest⟩
      | .wrote count =>
          let used := chunk.used + min count (min (chunk.buf.length - chunk.used) writeMax)
          if used < chunk.buf.length then
            ⟨.short, true, writes + 1, { chunk with used := used } :: rest⟩
          else
            drainChunks results (writes + 1) true rest

/-- Only a loop that empties the queue leaves nothing, by induction on the chunks. -/
theorem drainChunks_waiting (results : Nat → WriteResult) (writes : Nat) (outputted : Bool)
    (chunks : List Chunk)
    : (drainChunks results writes outputted chunks).waiting = []
      ↔ (drainChunks results writes outputted chunks).ending = .emptied := by
  induction chunks generalizing writes outputted with
  | nil => exact iff_of_true rfl rfl
  | cons chunk rest ih =>
      unfold drainChunks
      split
      · simp
      · simp
      · simp only
        split
        · simp
        · exact ih _ _

/-- The output after the loop of `conn_drain`, whose queue is linked in a new way. -/
def Output.afterLoop (drained : Drained) (chunks : Heap ChunkCell) (first : Option Nat)
    (tail : ChunkLink) (written : List UInt8) (out : Output)
    : Output :=
  { out with
    chunks := chunks
    outQueue := first
    outQueueTail := tail
    written := written
    writes := drained.writes
    wroteErr := if drained.ending = .failed then true else out.wroteErr
    pollout :=
      if drained.ending = .short then (out.poll stdoutFileno true).pollout else out.pollout }

section Queue

variable {terminal : Terminal} {out : Output} {addresses : List Nat} {chunks : List Chunk}

/-- The loop of `conn_drain` does to the linked queue what it does to a list of chunks, by
induction on the chunks.
-/
theorem Output.Queued.drainLoop (terminal : Terminal) (queued : out.Queued addresses chunks)
    (outputted : Bool) {fuel : Nat} (enough : addresses.length ≤ fuel)
    : ∃ heap first tail written addresses,
        out.drainLoop terminal fuel outputted
          = some
              ((drainChunks terminal.results out.writes outputted chunks).outputted,
                out.afterLoop (drainChunks terminal.results out.writes outputted chunks) heap
                  first tail written)
        ∧ Output.Queued { out with chunks := heap, outQueue := first, outQueueTail := tail }
            addresses (drainChunks terminal.results out.writes outputted chunks).waiting := by
  induction chunks generalizing out addresses fuel outputted with
  | nil =>
      obtain rfl := List.length_eq_zero_iff.mp queued.holds.length_eq
      have empty : out.outQueue = none := queued.holds.chain.head
      refine ⟨out.chunks, out.outQueue, out.outQueueTail, out.written, [], ?_, queued⟩
      have same : { out with outQueue := none } = out := by rw [← empty]
      cases fuel <;>
        simpa [Output.drainLoop, empty, drainChunks, Output.afterLoop] using same.symm
  | cons chunk chunks ih =>
      obtain ⟨address, rest, cell, start, rfl, found, view, -⟩ := Holds.cons_iff.mp queued.holds
      obtain ⟨fuel, rfl⟩ := Nat.exists_eq_succ_of_ne_zero
        (Nat.ne_of_gt (Nat.lt_of_lt_of_le (Nat.zero_lt_succ _) enough))
      subst view
      cases met : terminal.results out.writes with
      | failed =>
          refine ⟨out.chunks, out.outQueue, out.outQueueTail, out.written, address :: rest, ?_, ?_⟩
          · simp [Output.drainLoop, start, found, Output.write, met, drainChunks, Output.afterLoop]
          · simpa only [drainChunks, met] using queued
      | again =>
          refine ⟨out.chunks, out.outQueue, out.outQueueTail, out.written, address :: rest, ?_, ?_⟩
          · simp [Output.drainLoop, start, found, Output.write, met, drainChunks, Output.afterLoop]
          · simpa only [drainChunks, met] using queued
      | wrote count =>
          let w := min count (min (cell.chunk.buf.length - cell.chunk.used) writeMax)
          let bytes := (cell.chunk.buf.drop cell.chunk.used).take w
          have wrote : out.write terminal (cell.chunk.buf.drop cell.chunk.used)
              = (.wrote w,
                  { out with written := out.written ++ bytes, writes := out.writes + 1 }) := by
            simp only [Output.write, met, List.length_drop, w, bytes]
          by_cases left : cell.chunk.used + w < cell.chunk.buf.length
          · have advanced := queued.advance left
            have stop : drainChunks terminal.results out.writes outputted (cell.chunk :: chunks)
                = ⟨.short, true, out.writes + 1,
                    { cell.chunk with used := cell.chunk.used + w } :: chunks⟩ := by
              simp only [drainChunks, met, w, if_pos left]
            rw [stop]
            refine ⟨_, _, _, out.written ++ bytes, _, ?_, advanced⟩
            simp [Output.drainLoop, start, found, wrote, left, write_eq found, Output.afterLoop,
              Output.poll]
          · have popped := (queued.called bytes).pop found
            obtain ⟨heap, first, tail, written, addresses, drained, waits⟩ :=
              ih popped true (by simpa using enough)
            have stop : drainChunks terminal.results out.writes outputted (cell.chunk :: chunks)
                = drainChunks terminal.results (out.writes + 1) true chunks := by
              simp only [drainChunks, met, w, if_neg left]
            rw [stop]
            refine ⟨heap, first, tail, written, addresses, ?_,
              ⟨waits.holds, waits.tail, waits.partly⟩⟩
            simp only [Output.drainLoop, start, found, Option.bind_some, wrote, if_neg left,
              free_eq found, drained]
            rfl

/-- A queue is empty when nothing waits in it. -/
theorem Output.Queued.outQueue_eq_none_iff (queued : out.Queued addresses chunks)
    : out.outQueue = none ↔ chunks = [] := by
  rw [queued.holds.chain.head, List.head?_eq_none_iff, ← List.length_eq_zero_iff,
    queued.holds.length_eq, List.length_eq_zero_iff]

/-- Something waits to be written to a descriptor that takes it. -/
def Output.Pending (out : Output) : Prop := out.outQueue.isSome ∧ out.wroteErr = false

theorem Output.poll_self (slot : Nat) (wanted : Bool) (out : Output)
    : (out.poll slot wanted).pollout slot = wanted :=
  if_pos rfl

/-- What `conn_drain` leaves when no error was written before: the flags it does not touch, the
chunks that wait, and the bit of standard output.
-/
structure AfterDrain (drained : Drained) (out next : Output) : Prop where
  queued : ∃ addresses, next.Queued addresses drained.waiting
  writes : next.writes = drained.writes
  stdin : next.stdin = out.stdin
  eof : next.wroteEof = out.wroteEof
  kept : next.deleteMe = out.deleteMe
  err
    : next.wroteErr = true
      ↔ drained.ending = .failed ∨ out.wroteEof = true ∧ drained.ending = .emptied
  pollout : next.pollout stdoutFileno = true ↔ drained.ending = .short

/-- `conn_drain` after an error takes the bit of standard output away. -/
theorem Output.connDrain_failed (terminal : Terminal) (err : out.wroteErr = true)
    : out.connDrain terminal = some (false, out.poll stdoutFileno false) := by
  have same : (out.poll stdoutFileno false).wroteErr = true := err
  simp only [connDrain, same, if_true]

theorem Output.Queued.connDrain (terminal : Terminal) (queued : out.Queued addresses chunks)
    (sound : out.wroteErr = false)
    : ∃ next,
        out.connDrain terminal
          = some
              ((drainChunks terminal.results out.writes false chunks).outputted && !out.deleteMe,
                next)
        ∧ AfterDrain (drainChunks terminal.results out.writes false chunks) out next := by
  have polled : Output.Queued (out.poll stdoutFileno false) addresses chunks :=
    ⟨queued.holds, queued.tail, queued.partly⟩
  obtain ⟨heap, first, tail, written, after, drained, waits⟩ :=
    polled.drainLoop terminal false polled.holds.chain.length_le
  have same : (out.poll stdoutFileno false).wroteErr = false := sound
  have empty := waits.outQueue_eq_none_iff.trans
    (drainChunks_waiting terminal.results out.writes false chunks)
  let stop := drainChunks terminal.results out.writes false chunks
  let left := (out.poll stdoutFileno false).afterLoop stop heap first tail written
  let failed := left.wroteEof && !left.wroteErr && left.outQueue.isNone
  refine ⟨{ left with wroteErr := left.wroteErr || failed }, ?_,
    ⟨after, waits.holds, waits.tail, waits.partly⟩, rfl, rfl, rfl, rfl, ?_, ?_⟩
  · simp only [Output.connDrain, same, Bool.false_eq_true, if_false]
    rw [drained, Option.map_some]
    rfl
  · have isNone : left.outQueue.isNone = true ↔ stop.ending = .emptied := by
      rw [Option.isNone_iff_eq_none]
      exact empty
    have err : left.wroteErr = true ↔ stop.ending = .failed := by
      simp [left, Output.afterLoop, same]
    have eof : left.wroteEof = out.wroteEof := rfl
    simp only [failed, eof, Bool.or_eq_true, Bool.and_eq_true, isNone, err, Bool.not_eq_true',
      Bool.eq_false_iff, ne_eq]
    cases stop.ending <;> simp
  · show (if stop.ending = .short then
        ((out.poll stdoutFileno false).poll stdoutFileno true).pollout
      else
        (out.poll stdoutFileno false).pollout) stdoutFileno = true ↔ _
    split
    · next short => exact iff_of_true (poll_self _ _ _) short
    · next long => exact iff_of_false (by simp [poll_self]) long

end Queue

-----------------------------------------------------------------------------------------
-- Calls of conn_output
-----------------------------------------------------------------------------------------

/-- The calls of `conn_output` in one call of `ctcp_output`. -/
def Output.outputs (terminal : Terminal) : List (List UInt8) → Output → Option Output
  | [], out => some out
  | buf :: bufs, out =>
      (out.connOutput terminal buf).bind fun result => outputs terminal bufs result.2

/-- The bytes that `conn_output` has left after a result of `write`, in its `int`. -/
def leftOver (buf : List UInt8) : WriteResult → Int
  | .wrote count => int32 (int32 buf.length - (min count (min buf.length writeMax) : Nat))
  | .again => int32 buf.length
  | .failed => 0

/-- One of the calls of `conn_output` on an empty queue has bytes left, before one passes EOF
and before `write` fails.
-/
def leavesRest (results : Nat → WriteResult) : Nat → List (List UInt8) → Bool
  | _, [] => false
  | writes, buf :: bufs =>
      buf ≠ [] && results writes ≠ .failed
        && (0 < leftOver buf (results writes) || leavesRest results (writes + 1) bufs)

/-- `conn_output` asks for the bit of standard output, and not for that of another descriptor.
-/
def Output.Polls (terminal : Terminal) (out : Output) : Prop :=
  terminal.runProgram = false ∨ out.stdin = stdoutFileno

section Calls

variable {terminal : Terminal} {out : Output} {addresses : List Nat} {chunks : List Chunk}

theorem Output.poll_slot (terminal : Terminal) (out : Output)
    : (out.poll (if terminal.runProgram then out.stdin else stdoutFileno) true).pollout
          stdoutFileno = true
      ↔ out.pollout stdoutFileno = true ∨ out.Polls terminal := by
  cases program : terminal.runProgram with
  | false => simp [poll, Polls, program]
  | true =>
      by_cases same : stdoutFileno = out.stdin
      · simp [poll, Polls, program, same]
      · simp [poll, Polls, program, same, Ne.symm same]

/-- The end of `conn_output` asks for a bit when something waits, before or now. -/
theorem Output.Queued.queueRest_waits (terminal : Terminal)
    (queued : out.Queued addresses chunks) {rest : List UInt8} {left : Int}
    (filled : left > 0 → rest ≠ [])
    : ∃ heap first tail pollout addresses waiting,
        out.queueRest terminal rest left
          = some
              { out with
                chunks := heap, outQueue := first, outQueueTail := tail, pollout := pollout }
        ∧ Output.Queued
            { out with
              chunks := heap, outQueue := first, outQueueTail := tail, pollout := pollout }
            addresses waiting
        ∧ (waiting ≠ [] ↔ chunks ≠ [] ∨ left > 0)
        ∧ (pollout stdoutFileno = true
          ↔ out.pollout stdoutFileno = true
            ∨ out.Polls terminal ∧ (chunks ≠ [] ∨ left > 0)) := by
  obtain ⟨heap, first, tail, addresses, rested, waits⟩ := queued.queueRest terminal filled
  have some : chunks ++ (if left > 0 then [⟨rest.take left.toNat, 0⟩] else []) ≠ []
      ↔ chunks ≠ [] ∨ left > 0 := by
    by_cases more : left > 0
    · simp [more]
    · simp [more]
  have isSome : first.isSome = true ↔ chunks ≠ [] ∨ left > 0 := by
    rw [Option.isSome_iff_ne_none, ← some]
    exact waits.outQueue_eq_none_iff.not
  refine ⟨heap, first, tail, _, addresses, _, rested, ⟨waits.holds, waits.tail, waits.partly⟩,
    some, ?_⟩
  by_cases more : chunks ≠ [] ∨ left > 0
  · rw [if_pos (isSome.mpr more), poll_slot]
    simp [more]
  · rw [if_neg (isSome.not.mpr more)]
    simp [more]

/-- After EOF or an error only another EOF has an effect. -/
theorem Output.connOutput_closed (terminal : Terminal) (kept : out.deleteMe = false)
    (closed : out.wroteEof = true ∨ out.wroteErr = true) (buf : List UInt8)
    : ∃ result eof,
        out.connOutput terminal buf = some (result, { out with wroteEof := eof })
        ∧ (eof = true ∨ out.wroteErr = true) := by
  rw [connOutput, if_neg (ne_true_of_eq_false kept)]
  split
  · next ended => exact ⟨0, out.wroteEof, rfl, Or.inl ended⟩
  next going =>
  split
  · exact ⟨0, true, rfl, Or.inl rfl⟩
  · have failed := closed.resolve_left going
    rw [if_pos failed]
    exact ⟨-1, out.wroteEof, rfl, Or.inr failed⟩

/-- What `conn_output` does after its checks on an open connection with room. -/
theorem Output.Queued.connOutput_room (terminal : Terminal)
    (queued : out.Queued addresses chunks) (opened : out.Open) {buf : List UInt8}
    (filled : buf ≠ []) (room : (unwritten chunks).length < maxBufSpace)
    : (chunks ≠ []
        → out.connOutput terminal buf
          = (out.queueRest terminal buf (int32 buf.length)).map fun out => (int32 buf.length, out))
      ∧ (chunks = []
        → ∀ next,
          (out.write terminal buf = (.failed, next)
            → out.connOutput terminal buf = some (-1, { next with wroteErr := true }))
          ∧ (out.write terminal buf = (.again, next)
            → out.connOutput terminal buf
              = (next.queueRest terminal buf (int32 buf.length)).map fun out =>
                  (int32 buf.length, out))
          ∧ ∀ w,
            out.write terminal buf = (.wrote w, next)
            → out.connOutput terminal buf
              = (next.queueRest terminal (buf.drop w) (int32 (int32 buf.length - w))).map
                  fun out => (int32 buf.length, out)) := by
  have nonzero : ¬ buf.length = 0 := fun none => filled (List.length_eq_zero_iff.mp none)
  rw [connOutput, if_neg (ne_true_of_eq_false opened.kept),
    if_neg (ne_true_of_eq_false opened.eof), if_neg nonzero,
    if_neg (ne_true_of_eq_false opened.err), queued.connBufspace, Option.bind_some,
    if_neg (Nat.sub_ne_zero_of_lt room)]
  constructor
  · intro waits
    exact if_pos (Option.isSome_iff_ne_none.mpr (queued.outQueue_eq_none_iff.not.mpr waits))
  · intro idle next
    have empty : ¬ out.outQueue.isSome = true := by
      simp [queued.outQueue_eq_none_iff.mpr idle]
    simp only [if_neg empty]
    refine ⟨fun wrote => ?_, fun wrote => ?_, fun w wrote => ?_⟩
    · rw [wrote]
    · rw [wrote]
    · rw [wrote]

/-- Without room `conn_output` does nothing. -/
theorem Output.Queued.connOutput_full (terminal : Terminal)
    (queued : out.Queued addresses chunks) (opened : out.Open) {buf : List UInt8}
    (filled : buf ≠ []) (full : ¬ (unwritten chunks).length < maxBufSpace)
    : out.connOutput terminal buf = some (0, out) := by
  have nonzero : ¬ buf.length = 0 := fun none => filled (List.length_eq_zero_iff.mp none)
  rw [connOutput, if_neg (ne_true_of_eq_false opened.kept),
    if_neg (ne_true_of_eq_false opened.eof), if_neg nonzero,
    if_neg (ne_true_of_eq_false opened.err), queued.connBufspace, Option.bind_some,
    if_pos (Nat.sub_eq_zero_of_le (Nat.le_of_not_lt full))]

/-- Behind waiting bytes the buffer of `conn_output` waits too. -/
theorem Output.Queued.connOutput_waiting (terminal : Terminal)
    (queued : out.Queued addresses chunks) (opened : out.Open) (waits : chunks ≠ [])
    {buf : List UInt8} (filled : buf ≠ []) (room : (unwritten chunks).length < maxBufSpace)
    : ∃ result heap first tail pollout addresses waiting,
        out.connOutput terminal buf
          = some
              (result,
                { out with
                  chunks := heap, outQueue := first, outQueueTail := tail, pollout := pollout })
        ∧ Output.Queued
            { out with
              chunks := heap, outQueue := first, outQueueTail := tail, pollout := pollout }
            addresses waiting
        ∧ waiting ≠ []
        ∧ (pollout stdoutFileno = true
          ↔ out.pollout stdoutFileno = true ∨ out.Polls terminal) := by
  obtain ⟨heap, first, tail, pollout, addresses, waiting, rested, after, some, asked⟩ :=
    @Output.Queued.queueRest_waits _ _ _ terminal queued buf (int32 buf.length) fun _ => filled
  refine ⟨int32 buf.length, heap, first, tail, pollout, addresses, waiting, ?_, after,
    some.mpr (Or.inl waits), ?_⟩
  · rw [(queued.connOutput_room terminal opened filled room).1 waits, rested, Option.map_some]
  · simpa [waits] using asked

/-- An `int` counter that `write` left above 0 leaves bytes. -/
theorem drop_ne_nil_of_left {buf : List UInt8} {w : Nat} (within : w ≤ buf.length)
    (left : int32 (int32 buf.length - w) > 0)
    : buf.drop w ≠ [] := by
  intro none
  have all : w = buf.length := Nat.le_antisymm within (List.drop_eq_nil_iff.mp none)
  have zero : int32 (int32 buf.length - w) = 0 := by
    rw [all]
    simp only [int32]
    omega
  omega

/-- On an empty queue `conn_output` leaves what `write` does not take. -/
theorem Output.Queued.connOutput_idle (terminal : Terminal) (queued : out.Queued addresses [])
    (opened : out.Open) {buf : List UInt8} (filled : buf ≠ [])
    (sound : terminal.results out.writes ≠ .failed)
    : ∃ result heap first tail pollout written addresses waiting,
        out.connOutput terminal buf
          = some
              (result,
                { out with
                  chunks := heap, outQueue := first, outQueueTail := tail, pollout := pollout
                  written := written, writes := out.writes + 1 })
        ∧ Output.Queued
            { out with
              chunks := heap, outQueue := first, outQueueTail := tail, pollout := pollout
              written := written, writes := out.writes + 1 }
            addresses waiting
        ∧ (waiting ≠ [] ↔ 0 < leftOver buf (terminal.results out.writes))
        ∧ (pollout stdoutFileno = true
          ↔ out.pollout stdoutFileno = true
            ∨ out.Polls terminal ∧ 0 < leftOver buf (terminal.results out.writes)) := by
  have called := (queued.connOutput_room terminal opened filled (by decide)).2 rfl
  cases met : terminal.results out.writes with
  | failed => exact absurd met sound
  | again =>
      have same : Output.Queued { out with writes := out.writes + 1 } addresses [] :=
        ⟨queued.holds, queued.tail, queued.partly⟩
      have wrote : out.write terminal buf = (.again, { out with writes := out.writes + 1 }) := by
        simp only [write, met]
      obtain ⟨heap, first, tail, pollout, addresses, waiting, rested, after, some, asked⟩ :=
        @Output.Queued.queueRest_waits _ _ _ terminal same buf (int32 buf.length)
          fun _ => filled
      rw [or_iff_right (not_not.mpr rfl)] at some asked
      refine ⟨int32 buf.length, heap, first, tail, pollout, out.written, addresses, waiting, ?_,
        after, some, asked⟩
      rw [(called _).2.1 wrote, rested, Option.map_some]
  | wrote count =>
      let w := min count (min buf.length writeMax)
      have within : w ≤ buf.length := Nat.le_trans (Nat.min_le_right _ _) (Nat.min_le_left _ _)
      have wrote : out.write terminal buf
          = (.wrote w,
              { out with written := out.written ++ buf.take w, writes := out.writes + 1 }) := by
        simp only [write, met, w]
      obtain ⟨heap, first, tail, pollout, addresses, waiting, rested, after, some, asked⟩ :=
        (queued.called (buf.take w)).queueRest_waits terminal (drop_ne_nil_of_left within)
      rw [or_iff_right (not_not.mpr rfl)] at some asked
      refine ⟨int32 buf.length, heap, first, tail, pollout, out.written ++ buf.take w, addresses,
        waiting, ?_, after, some, asked⟩
      rw [(called _).2.2 w wrote, rested, Option.map_some]

/-- What calls of `conn_output` leave: something to write or not, and the bit of standard
output, which was set before or is asked for.
-/
structure AfterCalls (terminal : Terminal) (out next : Output) (asked waits : Prop) : Prop where
  queued : ∃ addresses chunks, next.Queued addresses chunks
  stdin : next.stdin = out.stdin
  pending : next.Pending ↔ waits
  pollout
    : next.pollout stdoutFileno = true
      ↔ out.pollout stdoutFileno = true ∨ out.Polls terminal ∧ asked

theorem AfterCalls.trans {middle next : Output} {asked later waits waiting : Prop}
    (first : AfterCalls terminal out middle asked waits)
    (second : AfterCalls terminal middle next later waiting)
    : AfterCalls terminal out next (asked ∨ later) waiting := by
  have same : middle.Polls terminal ↔ out.Polls terminal := by rw [Output.Polls, first.stdin]; rfl
  refine ⟨second.queued, second.stdin.trans first.stdin, second.pending, ?_⟩
  rw [second.pollout, first.pollout, same, or_assoc, ← and_or_left]

theorem AfterCalls.congr {next : Output} {asked other waits waiting : Prop}
    (after : AfterCalls terminal out next asked waits) (asks : asked ↔ other)
    (wait : waits ↔ waiting)
    : AfterCalls terminal out next other waiting :=
  ⟨after.queued, after.stdin, after.pending.trans wait, by rw [after.pollout, asks]⟩

/-- After EOF or an error calls of `conn_output` leave what they found, by induction on the
calls.
-/
theorem Output.Queued.outputs_closed (terminal : Terminal) (queued : out.Queued addresses chunks)
    (kept : out.deleteMe = false) (closed : out.wroteEof = true ∨ out.wroteErr = true)
    (bufs : List (List UInt8))
    : ∃ next,
        out.outputs terminal bufs = some next
        ∧ AfterCalls terminal out next False out.Pending := by
  induction bufs generalizing out with
  | nil => exact ⟨out, rfl, ⟨addresses, chunks, queued⟩, rfl, Iff.rfl, by simp⟩
  | cons buf bufs ih =>
      obtain ⟨result, eof, called, still⟩ := connOutput_closed terminal kept closed buf
      have after : Output.Queued { out with wroteEof := eof } addresses chunks :=
        ⟨queued.holds, queued.tail, queued.partly⟩
      obtain ⟨next, outputted, left⟩ := ih after kept still
      refine ⟨next, ?_, left.queued, left.stdin, left.pending, left.pollout⟩
      rw [outputs, called, Option.bind_some, outputted]

/-- The first EOF ends what calls of `conn_output` can do. -/
theorem Output.Queued.outputs_eof (terminal : Terminal) (queued : out.Queued addresses chunks)
    (opened : out.Open) (bufs : List (List UInt8))
    : ∃ next,
        out.outputs terminal ([] :: bufs) = some next
        ∧ AfterCalls terminal out next False out.Pending := by
  have after : Output.Queued { out with wroteEof := true } addresses chunks :=
    ⟨queued.holds, queued.tail, queued.partly⟩
  obtain ⟨next, outputted, left⟩ :=
    after.outputs_closed terminal opened.kept (Or.inl rfl) bufs
  refine ⟨next, ?_, left.queued, left.stdin, left.pending, left.pollout⟩
  rw [outputs, connOutput, if_neg (ne_true_of_eq_false opened.kept),
    if_neg (ne_true_of_eq_false opened.eof), if_pos List.length_nil, Option.bind_some, outputted]

theorem Output.Queued.pending (queued : out.Queued addresses chunks) (opened : out.Open)
    : out.Pending ↔ chunks ≠ [] := by
  rw [Pending, Option.isSome_iff_ne_none, and_iff_left opened.err]
  exact queued.outQueue_eq_none_iff.not

/-- An error of `write` ends what calls of `conn_output` can do. -/
theorem Output.Queued.outputs_failed (terminal : Terminal) (queued : out.Queued addresses [])
    (opened : out.Open) {buf : List UInt8} (filled : buf ≠ [])
    (failed : terminal.results out.writes = .failed) (bufs : List (List UInt8))
    : ∃ next,
        out.outputs terminal (buf :: bufs) = some next
        ∧ AfterCalls terminal out next False False := by
  have wrote : out.write terminal buf = (.failed, { out with writes := out.writes + 1 }) := by
    simp only [write, failed]
  have after : Output.Queued { out with writes := out.writes + 1, wroteErr := true } addresses [] :=
    ⟨queued.holds, queued.tail, queued.partly⟩
  obtain ⟨next, outputted, left⟩ :=
    after.outputs_closed terminal opened.kept (Or.inr rfl) bufs
  refine ⟨next, ?_, left.queued, left.stdin,
    left.pending.trans (iff_false_intro fun pending => Bool.noConfusion pending.2), left.pollout⟩
  rw [outputs, ((queued.connOutput_room terminal opened filled (by decide)).2 rfl _).1 wrote,
    Option.bind_some, outputted]

/-- Behind waiting bytes the first of several calls of `conn_output` asks for the bit, if it
has bytes and there is room for them, by induction on the calls.
-/
theorem Output.Queued.outputs_waiting (terminal : Terminal)
    (queued : out.Queued addresses chunks) (opened : out.Open) (waits : chunks ≠ [])
    (bufs : List (List UInt8))
    : ∃ next,
        out.outputs terminal bufs = some next
        ∧ AfterCalls terminal out next
            ((unwritten chunks).length < maxBufSpace ∧ bufs.headD [] ≠ []) True := by
  have pending := (queued.pending opened).trans (iff_true_intro waits)
  induction bufs generalizing out addresses chunks with
  | nil => exact ⟨out, rfl, ⟨addresses, chunks, queued⟩, rfl, pending, by simp⟩
  | cons buf bufs ih =>
      by_cases filled : buf = []
      · subst filled
        obtain ⟨next, outputted, left⟩ := queued.outputs_eof terminal opened bufs
        exact ⟨next, outputted, left.congr (by simp) pending⟩
      by_cases room : (unwritten chunks).length < maxBufSpace
      · obtain ⟨result, heap, first, tail, pollout, addresses, waiting, called, after, some,
          asked⟩ := queued.connOutput_waiting terminal opened waits filled room
        have still : Output.Open { out with
            chunks := heap, outQueue := first, outQueueTail := tail, pollout := pollout } :=
          ⟨opened.eof, opened.err, opened.kept⟩
        have wait := (after.pending still).trans (iff_true_intro some)
        obtain ⟨next, outputted, left⟩ := ih after still some wait
        have one : AfterCalls terminal out { out with
            chunks := heap, outQueue := first, outQueueTail := tail, pollout := pollout } True
            True :=
          ⟨⟨addresses, waiting, after⟩, rfl, wait, by rw [asked, and_true]⟩
        refine ⟨next, ?_, (one.trans left).congr (by simp [room, filled]) Iff.rfl⟩
        rw [outputs, called, Option.bind_some, outputted]
      · have called := queued.connOutput_full terminal opened filled room
        obtain ⟨next, outputted, left⟩ := ih queued opened waits pending
        refine ⟨next, ?_, left.congr (by simp [room]) Iff.rfl⟩
        rw [outputs, called, Option.bind_some, outputted]

/-- On an empty queue calls of `conn_output` ask for the bit when they leave something, by
induction on the calls.
-/
theorem Output.Queued.outputs_idle (terminal : Terminal) (queued : out.Queued addresses [])
    (opened : out.Open) (bufs : List (List UInt8))
    : ∃ next,
        out.outputs terminal bufs = some next
        ∧ AfterCalls terminal out next (leavesRest terminal.results out.writes bufs = true)
            (leavesRest terminal.results out.writes bufs = true) := by
  have idle := (queued.pending opened).trans (iff_false_intro (not_not.mpr rfl))
  induction bufs generalizing out addresses with
  | nil => exact ⟨out, rfl, ⟨addresses, [], queued⟩, rfl, by simpa [leavesRest] using idle,
      by simp [leavesRest]⟩
  | cons buf bufs ih =>
      by_cases filled : buf = []
      · subst filled
        obtain ⟨next, outputted, left⟩ := queued.outputs_eof terminal opened bufs
        exact ⟨next, outputted, left.congr (by simp [leavesRest]) (by simp [leavesRest, idle])⟩
      by_cases failed : terminal.results out.writes = .failed
      · obtain ⟨next, outputted, left⟩ := queued.outputs_failed terminal opened filled failed bufs
        exact ⟨next, outputted, left.congr (by simp [leavesRest, failed])
          (by simp [leavesRest, failed])⟩
      obtain ⟨result, heap, first, tail, pollout, written, addresses, waiting, called, after,
        some, asked⟩ := queued.connOutput_idle terminal opened filled failed
      have still : Output.Open { out with
          chunks := heap, outQueue := first, outQueueTail := tail, pollout := pollout
          written := written, writes := out.writes + 1 } :=
        ⟨opened.eof, opened.err, opened.kept⟩
      have wait := after.pending still
      have one : AfterCalls terminal out { out with
          chunks := heap, outQueue := first, outQueueTail := tail, pollout := pollout
          written := written, writes := out.writes + 1 }
          (0 < leftOver buf (terminal.results out.writes))
          (0 < leftOver buf (terminal.results out.writes)) :=
        ⟨⟨addresses, waiting, after⟩, rfl, wait.trans some, asked⟩
      by_cases left : 0 < leftOver buf (terminal.results out.writes)
      · obtain ⟨next, outputted, later⟩ :=
          after.outputs_waiting terminal still (some.mpr left) bufs
        refine ⟨next, ?_, (one.trans later).congr ?_ ?_⟩
        · rw [outputs, called, Option.bind_some, outputted]
        · simp [leavesRest, filled, failed, left]
        · simp [leavesRest, filled, failed, left]
      · obtain rfl : waiting = [] := not_not.mp (some.not.mpr left)
        obtain ⟨next, outputted, later⟩ :=
          ih after still (wait.trans (iff_false_intro (not_not.mpr rfl)))
        refine ⟨next, ?_, (one.trans later).congr ?_ ?_⟩
        · rw [outputs, called, Option.bind_some, outputted]
        · simp [leavesRest, filled, failed, left]
        · simp [leavesRest, filled, failed, left]

/-- A connection that was kept is open, or EOF or an error was written. -/
theorem Output.open_or_closed (kept : out.deleteMe = false)
    : out.Open ∨ out.wroteEof = true ∨ out.wroteErr = true := by
  by_cases closed : out.wroteEof = true ∨ out.wroteErr = true
  · exact Or.inr closed
  · rw [not_or, Bool.not_eq_true, Bool.not_eq_true] at closed
    exact Or.inl ⟨closed.1, closed.2, kept⟩

/-- Calls of `conn_output` return, and ask for bits without taking any away. -/
theorem Output.Queued.outputs (terminal : Terminal) (queued : out.Queued addresses chunks)
    (kept : out.deleteMe = false) (bufs : List (List UInt8))
    : ∃ next asked waits,
        out.outputs terminal bufs = some next ∧ AfterCalls terminal out next asked waits := by
  rcases open_or_closed kept with opened | closed
  · by_cases idle : chunks = []
    · subst idle
      obtain ⟨next, called, left⟩ := queued.outputs_idle terminal opened bufs
      exact ⟨next, _, _, called, left⟩
    · obtain ⟨next, called, left⟩ := queued.outputs_waiting terminal opened idle bufs
      exact ⟨next, _, _, called, left⟩
  · obtain ⟨next, called, left⟩ := queued.outputs_closed terminal kept closed bufs
    exact ⟨next, _, _, called, left⟩

end Calls

-----------------------------------------------------------------------------------------
-- Calls of conn_drain
-----------------------------------------------------------------------------------------

/-- `conn_drain`, with the calls of `conn_output` that `ctcp_output` makes. -/
def Output.drain (terminal : Terminal) (bufs : List (List UInt8)) (out : Output)
    : Option Output :=
  (out.connDrain terminal).bind fun drained =>
    if drained.1 then drained.2.outputs terminal bufs else some drained.2

/-- How the loop of `conn_drain` ends on the queue as it is. -/
def Output.drained (terminal : Terminal) (out : Output) : Drained :=
  drainChunks terminal.results out.writes false (out.queue.getD [])

/-- `ctcp_output` is called after the loop of `conn_drain`, and no EOF was written. -/
def Output.Resumes (terminal : Terminal) (out : Output) : Prop :=
  (out.drained terminal).outputted = true ∧ out.deleteMe = false ∧ out.wroteEof = false

/-- After the loop of `conn_drain` the calls of `conn_output` ask for a bit. -/
def Output.Asks (terminal : Terminal) (bufs : List (List UInt8)) (out : Output) : Prop :=
  out.Resumes terminal
  ∧ match (out.drained terminal).ending with
    | .emptied => leavesRest terminal.results (out.drained terminal).writes bufs = true
    | .failed => False
    | _ => (unwritten (out.drained terminal).waiting).length < maxBufSpace ∧ bufs.headD [] ≠ []

/-- `conn_drain` ends with the bit of standard output set: it wrote a chunk in part, or a call
of `conn_output` asked for this bit.
-/
def Output.Reasked (terminal : Terminal) (bufs : List (List UInt8)) (out : Output) : Prop :=
  out.wroteErr = false
  ∧ ((out.drained terminal).ending = .short ∨ out.Polls terminal ∧ out.Asks terminal bufs)

/-- `conn_drain` ends with something to write: it wrote a chunk in part or not at all, or a call
of `conn_output` filled the empty queue.
-/
def Output.StaysPending (terminal : Terminal) (bufs : List (List UInt8)) (out : Output) : Prop :=
  out.wroteErr = false
  ∧ match (out.drained terminal).ending with
    | .emptied => out.Asks terminal bufs
    | .failed => False
    | _ => True

section Drains

variable {terminal : Terminal} {out : Output} {addresses : List Nat} {chunks : List Chunk}

/-- Before `ctcp_output`, something waits unless the loop emptied the queue or `write` failed. -/
theorem AfterDrain.pending {stop : Drained} {next : Output} (after : AfterDrain stop out next)
    (emptied : stop.waiting = [] ↔ stop.ending = .emptied)
    : next.Pending ↔ stop.ending = .short ∨ stop.ending = .again := by
  obtain ⟨addresses, queued⟩ := after.queued
  rw [Output.Pending, Option.isSome_iff_ne_none, ne_eq, queued.outQueue_eq_none_iff, emptied,
    Bool.eq_false_iff, ne_eq, after.err]
  cases stop.ending <;> simp

/-- The calls of `conn_output` behind the loop, by the way it ended. -/
theorem AfterDrain.resumed {next : Output} (bufs : List (List UInt8))
    (after : AfterDrain (out.drained terminal) out next) (sound : out.wroteErr = false)
    (emptied
      : (out.drained terminal).waiting = [] ↔ (out.drained terminal).ending = .emptied)
    (resumes : out.Resumes terminal)
    : ∃ last,
        next.outputs terminal bufs = some last
        ∧ AfterCalls terminal next last (out.Asks terminal bufs)
            (out.StaysPending terminal bufs) := by
  obtain ⟨addresses, queued⟩ := after.queued
  have kept : next.deleteMe = false := after.kept.trans resumes.2.1
  have noEof : next.wroteEof = false := after.eof.trans resumes.2.2
  have err := after.err
  simp only [resumes.2.2, Bool.false_eq_true, false_and, or_false] at err
  rw [Output.Asks, Output.StaysPending, Output.Asks, and_iff_right resumes, and_iff_right sound]
  cases ending : (out.drained terminal).ending with
  | failed =>
      obtain ⟨last, outputted, left⟩ :=
        queued.outputs_closed terminal kept (Or.inr (err.mpr ending)) bufs
      refine ⟨last, outputted, left.congr Iff.rfl ?_⟩
      simp [Output.Pending, err.mpr ending]
  | emptied =>
      have fine : next.wroteErr = false := by simp [Bool.eq_false_iff, err, ending]
      rw [emptied.mpr ending] at queued
      obtain ⟨last, outputted, left⟩ := queued.outputs_idle terminal ⟨noEof, fine, kept⟩ bufs
      rw [after.writes] at left
      exact ⟨last, outputted, left⟩
  | short =>
      have fine : next.wroteErr = false := by simp [Bool.eq_false_iff, err, ending]
      have some : (out.drained terminal).waiting ≠ [] := by simp [emptied, ending]
      exact queued.outputs_waiting terminal ⟨noEof, fine, kept⟩ some bufs
  | again =>
      have fine : next.wroteErr = false := by simp [Bool.eq_false_iff, err, ending]
      have some : (out.drained terminal).waiting ≠ [] := by simp [emptied, ending]
      exact queued.outputs_waiting terminal ⟨noEof, fine, kept⟩ some bufs

/-- Without such calls, or after EOF, the loop has the last word. -/
theorem AfterDrain.ended {next : Output} (bufs : List (List UInt8))
    (after : AfterDrain (out.drained terminal) out next) (sound : out.wroteErr = false)
    (emptied
      : (out.drained terminal).waiting = [] ↔ (out.drained terminal).ending = .emptied)
    (silent : ¬ out.Resumes terminal)
    : ∃ last,
        (if (out.drained terminal).outputted && !out.deleteMe then next.outputs terminal bufs
          else some next) = some last
        ∧ AfterCalls terminal next last (out.Asks terminal bufs)
            (out.StaysPending terminal bufs) := by
  obtain ⟨addresses, queued⟩ := after.queued
  have nothing : ¬ out.Asks terminal bufs := fun asks => silent asks.1
  have stays : next.Pending ↔ out.StaysPending terminal bufs := by
    rw [after.pending emptied, Output.StaysPending, and_iff_right sound]
    cases (out.drained terminal).ending <;> simp [nothing]
  split
  · next called =>
    obtain ⟨outputted, kept⟩ : (out.drained terminal).outputted = true ∧ out.deleteMe = false := by
      simpa using called
    have eof : out.wroteEof = true := by
      simpa [Output.Resumes, outputted, kept] using silent
    obtain ⟨last, done, left⟩ :=
      queued.outputs_closed terminal (after.kept.trans kept) (Or.inl (after.eof.trans eof)) bufs
    exact ⟨last, done, left.congr (iff_of_false id nothing) stays⟩
  · exact ⟨next, rfl, ⟨addresses, _, queued⟩, rfl, stays, by simp [nothing]⟩

/-- What `conn_drain` leaves. -/
theorem Output.Queued.drain (terminal : Terminal) (queued : out.Queued addresses chunks)
    (bufs : List (List UInt8))
    : ∃ next,
        out.drain terminal bufs = some next
        ∧ (∃ addresses chunks, next.Queued addresses chunks)
        ∧ (next.pollout stdoutFileno = true ↔ out.Reasked terminal bufs)
        ∧ (next.Pending ↔ out.StaysPending terminal bufs) := by
  cases err : out.wroteErr with
  | true =>
      refine ⟨out.poll stdoutFileno false, ?_,
        ⟨addresses, chunks, queued.holds, queued.tail, queued.partly⟩, ?_, ?_⟩
      · rw [Output.drain, connDrain_failed terminal err]
        rfl
      · rw [poll_self]
        simp [Reasked, err]
      · have still : (out.poll stdoutFileno false).wroteErr = true := err
        simp [Pending, StaysPending, err, still]
  | false =>
      have stop : out.drained terminal = drainChunks terminal.results out.writes false chunks := by
        rw [drained, queued.queue, Option.getD_some]
      have emptied := drainChunks_waiting terminal.results out.writes false chunks
      obtain ⟨next, drained, after⟩ := queued.connDrain terminal err
      rw [← stop] at drained after emptied
      have polls : next.Polls terminal ↔ out.Polls terminal := by
        rw [Polls, after.stdin]
        rfl
      obtain ⟨last, called, left⟩ : ∃ last,
          (if (out.drained terminal).outputted && !out.deleteMe then next.outputs terminal bufs
            else some next) = some last
          ∧ AfterCalls terminal next last (out.Asks terminal bufs)
              (out.StaysPending terminal bufs) := by
        by_cases resumes : out.Resumes terminal
        · rw [if_pos (by simp [resumes.1, resumes.2.1])]
          exact after.resumed bufs err emptied resumes
        · exact after.ended bufs err emptied resumes
      refine ⟨last, ?_, left.queued, ?_, left.pending⟩
      · rw [Output.drain, drained, Option.bind_some]
        exact called
      · rw [left.pollout, after.pollout, polls, Reasked, and_iff_right err]

end Drains

-----------------------------------------------------------------------------------------
-- Runs
-----------------------------------------------------------------------------------------

/-- What the outside decides: the results of `write` for each connection, and whether the
server runs programs.
-/
structure Terminals (ι : Type*) where
  results : ι → Nat → WriteResult
  runProgram : Bool

def Terminals.terminal {ι : Type*} (terminals : Terminals ι) (conn : ι) : Terminal where
  results := terminals.results conn
  runProgram := terminals.runProgram

/-- The outputs of all connections, and the `POLLOUT` bits of `events`, which they share. -/
structure Outputs (ι : Type*) where
  conns : ι → Output
  pollout : Nat → Bool

/-- A call of `conn_output`, of `conn_drain` with the buffers that `ctcp_output` passes on, or
of `conn_remove`.
-/
inductive OutputEvent (ι : Type*)
  | output (conn : ι) (buf : List UInt8)
  | drain (conn : ι) (bufs : List (List UInt8))
  | remove (conn : ι)

namespace Outputs

variable {ι : Type*}

/-- New connections, with the events of standard output as `setup_poll` leaves them. -/
def start (stdin : ι → Nat) : Outputs ι where
  conns := fun conn => .start (stdin conn)
  pollout := fun slot => slot == stdoutFileno

/-- The output of a connection, which reads the shared bits. -/
def conn (outputs : Outputs ι) (conn : ι) : Output :=
  { outputs.conns conn with pollout := outputs.pollout }

/-- The shared bits are those that a connection leaves. -/
def put [DecidableEq ι] (outputs : Outputs ι) (conn : ι) (out : Output) : Outputs ι where
  conns := Function.update outputs.conns conn out
  pollout := out.pollout

def step [DecidableEq ι] (terminals : Terminals ι) (outputs : Outputs ι)
    : OutputEvent ι → Option (Outputs ι)
  | .output conn buf =>
      ((outputs.conn conn).connOutput (terminals.terminal conn) buf).map fun result =>
        outputs.put conn result.2
  | .drain conn bufs =>
      ((outputs.conn conn).drain (terminals.terminal conn) bufs).map (outputs.put conn)
  | .remove conn => some (outputs.put conn { outputs.conn conn with deleteMe := true })

/-- Whenever output waits, the main loop is to be told that standard output takes more. -/
def Scheduled (outputs : Outputs ι) : Prop :=
  ∀ conn, (outputs.conn conn).Pending → outputs.pollout stdoutFileno = true

/-- The calls that keep output scheduled: `conn_output` when the bit is set, when it asks for
this bit, or when it leaves nothing, and `conn_drain` when the bit is asked for again, or when
nothing waits behind it.
-/
def Keeps (terminals : Terminals ι) (outputs : Outputs ι) : OutputEvent ι → Prop
  | .output conn buf =>
      outputs.pollout stdoutFileno = true
      ∨ (outputs.conn conn).Polls (terminals.terminal conn)
      ∨ ¬ ((outputs.conn conn).Open
        ∧ leavesRest (terminals.results conn) (outputs.conn conn).writes [buf] = true)
  | .drain conn bufs =>
      (outputs.conn conn).Reasked (terminals.terminal conn) bufs
      ∨ (∀ other, other ≠ conn → ¬ (outputs.conn other).Pending)
        ∧ ¬ (outputs.conn conn).StaysPending (terminals.terminal conn) bufs
  | .remove _ => True

/-- The queues of all connections are linked as they should be. -/
def Queued (outputs : Outputs ι) : Prop :=
  ∀ conn, ∃ addresses chunks, (outputs.conn conn).Queued addresses chunks

variable {terminals : Terminals ι} {outputs : Outputs ι} {conn : ι} {out : Output}

/-- When nothing waits, a connection that is open leaves what `write` does not take, and any
other connection nothing.
-/
theorem connOutput_quiet (queued : outputs.Queued) (quiet : ∀ other, ¬ (outputs.conn other).Pending)
    (kept : (outputs.conn conn).deleteMe = false) (buf : List UInt8)
    : ∃ next,
        (outputs.conn conn).outputs (terminals.terminal conn) [buf] = some next
        ∧ ∃ rest : Prop,
          (rest
            ↔ (outputs.conn conn).Open
              ∧ leavesRest (terminals.results conn) (outputs.conn conn).writes [buf] = true)
          ∧ AfterCalls (terminals.terminal conn) (outputs.conn conn) next rest rest := by
  obtain ⟨addresses, chunks, own⟩ := queued conn
  rcases Output.open_or_closed kept with opened | closed
  · obtain rfl : chunks = [] := not_not.mp ((own.pending opened).not.mp (quiet conn))
    obtain ⟨next, called, left⟩ := own.outputs_idle (terminals.terminal conn) opened [buf]
    exact ⟨next, called, _, (and_iff_right opened).symm, left⟩
  · have shut : ¬ (outputs.conn conn).Open := by
      rintro ⟨eof, err, -⟩
      simp [eof, err] at closed
    obtain ⟨next, called, left⟩ :=
      own.outputs_closed (terminals.terminal conn) kept closed [buf]
    exact ⟨next, called, False, iff_of_false id fun both => shut both.1,
      left.congr Iff.rfl (iff_false_intro (quiet conn))⟩

theorem start_queued (stdin : ι → Nat) : (start stdin).Queued :=
  fun _ => ⟨[], [], .nil, rfl, by simp⟩

theorem start_scheduled (stdin : ι → Nat) : (start stdin).Scheduled :=
  fun _ _ => rfl

variable [DecidableEq ι]

theorem conn_put (outputs : Outputs ι) (conn : ι) (out : Output)
    : (outputs.put conn out).conn conn = out := by
  simp only [Outputs.conn, put, Function.update_self]

/-- Another connection only sees the bits change. -/
theorem conn_put_other {other : ι} (apart : other ≠ conn)
    : (outputs.put conn out).conn other = { outputs.conn other with pollout := out.pollout } := by
  simp only [Outputs.conn, put, Function.update_of_ne apart]

theorem Queued.put (queued : outputs.Queued)
    (own : ∃ addresses chunks, out.Queued addresses chunks)
    : (outputs.put conn out).Queued := by
  intro other
  by_cases same : other = conn
  · rw [same, conn_put]
    exact own
  · obtain ⟨addresses, chunks, others⟩ := queued other
    rw [conn_put_other same]
    exact ⟨addresses, chunks, others.holds, others.tail, others.partly⟩

/-- What one connection leaves has to serve all. -/
theorem scheduled_put
    : (outputs.put conn out).Scheduled
      ↔ (out.Pending ∨ ∃ other, other ≠ conn ∧ (outputs.conn other).Pending)
        → out.pollout stdoutFileno = true := by
  constructor
  · rintro scheduled (own | ⟨other, apart, waits⟩)
    · exact scheduled conn (by rwa [conn_put])
    · exact scheduled other (by rwa [conn_put_other apart])
  · intro set other waits
    by_cases same : other = conn
    · rw [same, conn_put] at waits
      exact set (Or.inl waits)
    · rw [conn_put_other same] at waits
      exact set (Or.inr ⟨other, same, waits⟩)

/-- A call of `conn_output` is one of several. -/
theorem step_output (terminals : Terminals ι) (outputs : Outputs ι) (conn : ι) (buf : List UInt8)
    : outputs.step terminals (.output conn buf)
      = ((outputs.conn conn).outputs (terminals.terminal conn) [buf]).map (outputs.put conn) := by
  rw [step, Output.outputs]
  cases (outputs.conn conn).connOutput (terminals.terminal conn) buf <;> rfl

/-- One call of `conn_output`. -/
theorem output_keeps_iff (queued : outputs.Queued) (scheduled : outputs.Scheduled)
    (buf : List UInt8)
    : outputs.Keeps terminals (.output conn buf)
      ↔ ∀ next, outputs.step terminals (.output conn buf) = some next → next.Scheduled := by
  rw [step_output]
  by_cases kept : (outputs.conn conn).deleteMe = true
  · -- the assertion of `conn_output` fails
    have stops : (outputs.conn conn).outputs (terminals.terminal conn) [buf] = none := by
      rw [Output.outputs, Output.connOutput, if_pos kept, Option.bind_none]
    rw [stops]
    refine iff_of_true (Or.inr (Or.inr fun both => ?_)) (by simp)
    exact Bool.noConfusion (kept.symm.trans both.1.kept)
  rw [Bool.not_eq_true] at kept
  by_cases set : outputs.pollout stdoutFileno = true
  · obtain ⟨addresses, chunks, own⟩ := queued conn
    obtain ⟨next, asked, waits, called, left⟩ := own.outputs (terminals.terminal conn) kept [buf]
    simp only [called, Option.map_some, Option.some_inj, forall_eq']
    exact iff_of_true (Or.inl set)
      (scheduled_put.mpr fun _ => left.pollout.mpr (Or.inl set))
  · have quiet : ∀ other, ¬ (outputs.conn other).Pending := fun other waits =>
      set (scheduled other waits)
    obtain ⟨next, called, rest, leaves, left⟩ := connOutput_quiet queued quiet kept buf
    have bit : next.pollout stdoutFileno = true
        ↔ (outputs.conn conn).Polls (terminals.terminal conn) ∧ rest :=
      left.pollout.trans (or_iff_right set)
    simp only [called, Option.map_some, Option.some_inj, forall_eq']
    rw [scheduled_put, left.pending, bit, Keeps, ← leaves, or_iff_right set]
    have others : ¬ ∃ other, other ≠ conn ∧ (outputs.conn other).Pending := by
      rintro ⟨other, -, waits⟩
      exact quiet other waits
    simp only [others, or_false]
    tauto

/-- One call of `conn_drain`. -/
theorem drain_keeps_iff (queued : outputs.Queued) (bufs : List (List UInt8))
    : outputs.Keeps terminals (.drain conn bufs)
      ↔ ∀ next, outputs.step terminals (.drain conn bufs) = some next → next.Scheduled := by
  obtain ⟨addresses, chunks, own⟩ := queued conn
  obtain ⟨last, drained, -, pollout, pending⟩ := own.drain (terminals.terminal conn) bufs
  simp only [step, drained, Option.map_some, Option.some_inj, forall_eq']
  have quiet : (∀ other, other ≠ conn → ¬ (outputs.conn other).Pending)
      ↔ ¬ ∃ other, other ≠ conn ∧ (outputs.conn other).Pending := by
    rw [not_exists]
    exact forall_congr' fun other => not_and.symm
  rw [scheduled_put, pollout, pending, Keeps, quiet, imp_iff_not_or, not_or, or_comm, and_comm]

/-- A removed connection keeps its output. -/
theorem remove_keeps_iff (scheduled : outputs.Scheduled)
    : outputs.Keeps terminals (.remove conn)
      ↔ ∀ next, outputs.step terminals (.remove conn) = some next → next.Scheduled := by
  simp only [step, Option.some_inj, forall_eq']
  refine iff_of_true trivial (scheduled_put.mpr ?_)
  rintro (own | ⟨other, -, waits⟩)
  · exact scheduled conn own
  · exact scheduled other waits

/-- The queues stay linked, whatever is called. -/
theorem Queued.step (queued : outputs.Queued) {event : OutputEvent ι} {next : Outputs ι}
    (stepped : outputs.step terminals event = some next)
    : next.Queued := by
  cases event with
  | output conn buf =>
      obtain ⟨addresses, chunks, own⟩ := queued conn
      rw [step_output] at stepped
      obtain ⟨out, called, rfl⟩ := Option.map_eq_some_iff.mp stepped
      cases kept : (outputs.conn conn).deleteMe with
      | true =>
          rw [Output.outputs, Output.connOutput, if_pos kept, Option.bind_none] at called
          exact absurd called.symm (Option.some_ne_none out)
      | false =>
          obtain ⟨last, _, _, same, left⟩ := own.outputs (terminals.terminal conn) kept [buf]
          obtain rfl := Option.some.inj (same.symm.trans called)
          exact queued.put left.queued
  | drain conn bufs =>
      obtain ⟨addresses, chunks, own⟩ := queued conn
      obtain ⟨last, drained, left, -⟩ := own.drain (terminals.terminal conn) bufs
      rw [Outputs.step, drained, Option.map_some, Option.some_inj] at stepped
      exact stepped ▸ queued.put left
  | remove conn =>
      obtain ⟨addresses, chunks, own⟩ := queued conn
      obtain rfl := Option.some.inj stepped
      exact queued.put ⟨addresses, chunks, own.holds, own.tail, own.partly⟩

/-- One call, when output was scheduled before. -/
theorem keeps_iff (queued : outputs.Queued) (scheduled : outputs.Scheduled)
    (event : OutputEvent ι)
    : outputs.Keeps terminals event
      ↔ ∀ next, outputs.step terminals event = some next → next.Scheduled := by
  cases event with
  | output conn buf => exact output_keeps_iff queued scheduled buf
  | drain conn bufs => exact drain_keeps_iff queued bufs
  | remove conn => exact remove_keeps_iff scheduled

/-- Along a run output is scheduled in every state between the calls exactly when each call
keeps it scheduled.
-/
theorem scheduled_iff (terminals : Terminals ι) (stdin : ι → Nat) (events : List (OutputEvent ι))
    : (∀ done, done <+: events
        → ∀ outputs, StepRuns.exec (step terminals) (start stdin) done = some outputs
          → outputs.Scheduled)
      ↔ StepRuns.AllSteps (step terminals) (Keeps terminals) (start stdin) events :=
  StepRuns.exec_always_iff (Keeps terminals)
    (fun outputs => outputs.Queued ∧ outputs.Scheduled) Scheduled
    (fun held => keeps_iff held.1 held.2 _)
    (fun held guard stepped =>
      ⟨held.1.step stepped, (keeps_iff held.1 held.2 _).mp guard _ stepped⟩)
    (fun held => held.2) ⟨start_queued stdin, start_scheduled stdin⟩

/-- A terminal that takes no byte, then three, then none. -/
def stutteringTerminals : Terminals Unit where
  results := fun _ call => if call = 1 then .wrote 3 else .again
  runProgram := false

/-- The second chunk waits for a descriptor that nobody polls. -/
theorem again_unscheduled
    : ∃ outputs,
        StepRuns.exec (step stutteringTerminals) (start fun _ => 0)
          [.output () [1, 2, 3], .output () [4], .drain () []] = some outputs
        ∧ (outputs.conn ()).Pending
        ∧ outputs.pollout stdoutFileno = false := by
  have runs : (StepRuns.exec (step stutteringTerminals) (start fun _ => 0)
        [.output () [1, 2, 3], .output () [4], .drain () []]).map
          (fun outputs =>
            ((outputs.conn ()).outQueue.isSome, (outputs.conn ()).wroteErr,
              outputs.pollout stdoutFileno))
      = some (true, false, false) := by
    decide +kernel
  obtain ⟨outputs, reached, seen⟩ := Option.map_eq_some_iff.mp runs
  obtain ⟨waits, err, bit⟩ :
      (outputs.conn ()).outQueue.isSome = true ∧ (outputs.conn ()).wroteErr = false
      ∧ outputs.pollout stdoutFileno = false := by
    simpa only [Prod.mk.injEq] using seen
  exact ⟨outputs, reached, ⟨waits, err⟩, bit⟩

end Outputs

end Networks.System
