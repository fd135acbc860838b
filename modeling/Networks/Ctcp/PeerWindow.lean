import Networks.Ctcp.SendWindow

/-! Whether the bytes in flight stay within the window that the other end advertised last.
`ctcp_read` bounds each single read by that window, without taking off what is already
unacknowledged.
-/

namespace Networks.Ctcp

open MachineIntegers

/-- A call of `ctcp_read` for which `conn_input` returns at least one byte. -/
def CtcpState.queuesData (state : CtcpState) (offer : Option (List UInt8)) : Prop :=
  0 < state.bufferSize ∧ ∃ bytes, connInput state.bufferSize offer = some bytes ∧ bytes ≠ []

/-- The unacknowledged bytes fit both the advertised window and the own one. -/
def CtcpState.WithinWindows (state : CtcpState) : Prop :=
  state.sw.size ≤ state.sw.recvWinSize ∧ state.sw.size ≤ state.sw.maxSize

/-- A read that queues data behind unacknowledged bytes gets no more bytes than the
advertised window has left beside them.
-/
def ReadsWithinRest (state : CtcpState) : Call → Prop
  | .read _ offer =>
      state.queuesData offer → state.sw.size ≠ 0
      → ∀ bytes ∈ connInput state.bufferSize offer,
          (bytes.length : Int) ≤ state.sw.recvWinSize - state.sw.size
  | _ => True

/-- `ctcp_read` never asks for more than the advertised window. -/
theorem CtcpState.bufferSize_le_recvWinSize (state : CtcpState)
    : state.bufferSize ≤ state.sw.recvWinSize := by
  simp only [bufferSize]
  split <;> split <;> omega

/-- After a read that queues data both windows are respected exactly when the read met the
condition. Witness: the read adds its bytes to the size, and the own window always has room
for them.
-/
theorem read_withinWindows_iff {state next : CtcpState} {env : Env}
    {offer : Option (List UInt8)} (settled : Settled state) (sized : Sized state)
    (taken : step state (.read env offer) = some next)
    : (state.queuesData offer → next.WithinWindows)
      ↔ ReadsWithinRest state (.read env offer) := by
  obtain rfl := Option.some.inj taken
  refine forall_congr' fun queues => ?_
  obtain ⟨room, given, returned, -⟩ := queues
  rcases ctcpRead_cases env offer settled with
    ⟨full, -⟩ | ⟨-, rfl, -⟩ | ⟨bytes, -, returned', data⟩
  · omega
  · cases returned
  · obtain rfl := Option.some.inj (returned.symm.trans returned')
    have fits := connInput_length_le_bufferSize room returned
    have windowRoom := sized.room fits
    have size := sized.size
    have maxSize := sized.maxSize
    have newSize : (state.queueData (env.now 0) (env.pad 0) bytes).sw.size
        = state.sw.size + bytes.val.length := int32_eq_self (by omega) (by omega)
    have sameMax : (state.queueData (env.now 0) (env.pad 0) bytes).sw.maxSize
        = state.sw.maxSize := rfl
    have samePeer : (state.queueData (env.now 0) (env.pad 0) bytes).sw.recvWinSize
        = state.sw.recvWinSize := rfl
    have advertised := state.bufferSize_le_recvWinSize
    rw [data, CtcpState.WithinWindows, newSize, sameMax, samePeer]
    simp only [returned, Option.mem_some_iff, forall_eq']
    constructor
    · rintro ⟨within, -⟩ outstanding
      omega
    · intro within
      refine ⟨?_, by omega⟩
      by_cases empty : state.sw.size = 0
      · omega
      · have rest := within empty
        omega

/-- In a run of handlers, the unacknowledged bytes stay within both windows after every read
that queues data exactly when every read meets the condition.
-/
theorem runFrom_withinWindows_iff (cfg : CtcpConfig) (calls : List Call)
    : (∀ done env offer rest state next,
        calls = done ++ .read env offer :: rest → runFrom cfg done = some state
        → step state (.read env offer) = some next → state.queuesData offer
        → next.WithinWindows)
      ↔ StepRuns.AllSteps step ReadsWithinRest (ctcpInit cfg) calls := by
  have start : Settled (ctcpInit cfg) ∧ Sized (ctcpInit cfg) :=
    ⟨ctcpInit_settled cfg, ctcpInit_sized cfg⟩
  rw [StepRuns.allSteps_iff_reached]
  constructor
  · intro within done call rest state split reached
    cases call with
    | read env offer =>
        have held := StepRuns.exec_invariant _ step_sized start reached
        refine (read_withinWindows_iff held.1 held.2 rfl).mp ?_
        exact within done env offer rest state _ split reached rfl
    | _ => trivial
  · intro met done env offer rest state next split reached taken
    have held := StepRuns.exec_invariant _ step_sized start reached
    exact (read_withinWindows_iff held.1 held.2 taken).mpr
      (met done (.read env offer) rest state split reached)

/-- A connection whose peer has advertised a window of one byte reads two bytes, one after
the other.
-/
def oneByteWindow : List Call :=
  let receiver := ctcpInit { defaultConfig with sendWindow := 1 }
  [
    .receive (.steady 0 0) (receiver.newSegment 0 .ack).segment.summed segHeaderSize,
    .read (.steady 0 0) (some [0x61]),
    .read (.steady 0 0) (some [0x62])
  ]

/-- After its second read the connection has two bytes in flight. -/
theorem second_read_exceeds_window
    : ¬ ∀ cfg calls done env offer rest state next,
        calls = done ++ .read env offer :: rest → runFrom cfg done = some state
        → step state (.read env offer) = some next → state.queuesData offer
        → next.WithinWindows := by
  intro always
  have reached : (runFrom defaultConfig (oneByteWindow.take 2)).isSome := by decide +kernel
  have within := always defaultConfig oneByteWindow (oneByteWindow.take 2) _ _ [] _ _ rfl
    (Option.some_get reached).symm rfl
    ⟨by decide +kernel +revert, [0x62], by decide +kernel +revert, by decide⟩
  revert within
  unfold CtcpState.WithinWindows
  decide +kernel +revert

end Networks.Ctcp
