import Networks.Router.Egress
import Networks.Router.Interfaces

/-! The router as a program: `main` loads the routing table, connects to the server, and then
handles one message after the other, while its timer thread takes care of the ARP cache. Once
the server has described the hardware, and the routing table agrees with it, the router stays
sound, whatever messages follow.
-/

namespace Networks.Router

open ByteFields
open Ctcp (htonl fieldBytes32)

-----------------------------------------------------------------------------------------
-- Handling a message
-----------------------------------------------------------------------------------------

/-- The router and the files it can open, by their names. -/
structure Program where
  sr : SrInstance
  files : List UInt8 → Option (List UInt8)

/-- What the program depends on besides its messages: the clock and the heap, and what lies in
the memory for interfaces.
-/
structure World where
  outside : Outside
  unset : Unset

/-- `fn` of `sr_handle_rtable`: the name has to end in the message, and has to fit. -/
def Message.fn (message : Message) : Option (List UInt8) :=
  let id := message.bytes.drop 8
  if 0 ∈ id ∧ (cString id).length ≤ 32 then some (nameBytes "rtable." ++ cString id) else none

/-- `sr_handle_rtable`. -/
def Message.handleRtable (message : Message) (tableOpens : Bool) (program : Program)
    : Option Program :=
  message.fn.map fun fn =>
    if tableOpens then
      { program with files := Function.update program.files fn (some (message.bytes.drop 40)) }
    else
      program

/-- What the branch of a command does. The log begins anew with the interfaces, since its
events are about those before.
-/
def Message.effect (world : World) (tableOpens : Bool) (message : Message) (program : Program)
    : Option Program :=
  match Command.ofWord message.command with
  | .vnsPacket =>
      ((Delivery.vnsPacket message.frame message.mInterfaceName).run world.outside
        program.sr).map fun sr => { program with sr := sr }
  | .vnsHwinfo =>
      (message.handleHwinfo world.unset program.sr.ifList).map fun ifList =>
        { program with sr := { program.sr with ifList := ifList, log := [] } }
  | .vnsRtable => message.handleRtable tableOpens program
  | _ => some program

/-- `sr_read_from_server_expect`, once the message is there: what it returns, and what it has
done. There is nothing when it reads outside of the message, or an assertion fails.
-/
def srReadFromServerExpect (world : World) (surroundings : Surroundings) (expectedCmd : Nat)
    (message : Message) (program : Program)
    : Option (Int × Program) :=
  let handled :=
    if message.Unexpected expectedCmd then
      some program
    else
      message.effect world surroundings.tableOpens program
  handled.bind fun next =>
    let consistent := srVerifyRoutingTable next.sr = 0
    let names := program.sr.ifList.map fun interface => nameBytes interface.name
    (message.reading { surroundings with tableConsistent := consistent, names := names }
      expectedCmd).result.map
      fun result => (result, next)

-----------------------------------------------------------------------------------------
-- The main loop
-----------------------------------------------------------------------------------------

/-- What happens in the main loop: a message, or the timer thread. -/
inductive Input
  | read (surroundings : Surroundings) (message : Message)
  | timeout
  | sweepreqs

/-- The message describes the hardware. -/
def Input.Informs : Input → Prop
  | .read _ message => Command.ofWord message.command = .vnsHwinfo
  | _ => False

/-- A call of `sr_read_from_server`, or what the timer thread does in between. -/
def Input.run (world : World) (program : Program) : Input → Option (Int × Program)
  | .read surroundings message => srReadFromServerExpect world surroundings 0 message program
  | .timeout =>
      some (1, { program with sr := Action.timeout.run world.outside program.sr })
  | .sweepreqs =>
      some (1, { program with sr := Action.sweepreqs.run world.outside program.sr })

/-- A step of the main loop, which ends at a fault, and at any result but one. -/
def mainLoopStep (world : World) (program : Program) (input : Input) : Option Program :=
  ((input.run world program).filter fun (result, next) =>
    result = 1 ∧ next.sr.fault = none).map Prod.snd

/-- The program after inputs. -/
def mainLoop (world : World) (program : Program) (inputs : List Input) : Option Program :=
  StepRuns.exec (mainLoopStep world) program inputs

/-- What a step of the main loop means. -/
theorem mainLoopStep_eq_some {world : World} {program next : Program} {input : Input}
    : mainLoopStep world program input = some next
      ↔ input.run world program = some (1, next) ∧ next.sr.fault = none := by
  simp only [mainLoopStep, Option.map_eq_some_iff, Option.filter_eq_some_iff, Prod.exists,
    decide_eq_true_eq]
  constructor
  · rintro ⟨result, last, ⟨run, rfl, clean⟩, rfl⟩
    exact ⟨run, clean⟩
  · rintro ⟨run, clean⟩
    exact ⟨1, next, ⟨run, rfl, clean⟩, rfl⟩

-----------------------------------------------------------------------------------------
-- Frames without interfaces
-----------------------------------------------------------------------------------------

section Handlers

variable {outside : Outside} {sr : SrInstance}

/-- Without an interface, a handler ends at a fault or leaves the queue alone. -/
def SrInstance.Idle (sr next : SrInstance) : Prop :=
  next.fault ≠ none ∨ next.ifList = sr.ifList ∧ next.requests = sr.requests

theorem srGetInterface_none (none : sr.ifList = []) (name : String)
    : sr.srGetInterface name = .none := by
  rw [SrInstance.srGetInterface, none, List.find?_nil]

theorem SrInstance.idle_fail (fault : Fault) (next : SrInstance) : sr.Idle (next.fail fault) :=
  Or.inl (by simp [SrInstance.fail])

theorem icmpError_idle (none : sr.ifList = []) (type code : UInt8) (packet : Frame)
    (nexthop : SrRt)
    : sr.Idle (icmpError outside type code packet nexthop sr) := by
  simp only [icmpError, srGetInterface_none none]
  split
  · exact SrInstance.idle_fail _ _
  · split
    · exact SrInstance.idle_fail _ _
    · simp only [srForwardPacket]
      exact SrInstance.idle_fail _ _

theorem srIcmpMakePacket_idle (none : sr.ifList = []) (packet : Frame) {type : UInt8}
    (error : type ≠ 0) (code : UInt8)
    : sr.Idle (srIcmpMakePacket outside packet type code sr) := by
  simp only [srIcmpMakePacket]
  split
  · exact SrInstance.idle_fail _ _
  split
  · exact Or.inr ⟨rfl, rfl⟩
  split
  · exact SrInstance.idle_fail _ _
  split
  · exact Or.inr ⟨rfl, rfl⟩
  · rename_i nexthop _
    exact @icmpError_idle outside (sr.record (.icmpMakePacket type code packet)) none type code
      packet nexthop

theorem handleTransit_idle (none : sr.ifList = []) (packet : Frame)
    : sr.Idle (handleTransit outside packet sr) := by
  simp only [handleTransit, srGetInterface_none none]
  split
  · exact srIcmpMakePacket_idle none packet (by decide) 0
  split
  · exact SrInstance.idle_fail _ _
  split
  · exact srIcmpMakePacket_idle none _ (by decide) 0
  · simp only [srForwardPacket]
    exact SrInstance.idle_fail _ _

theorem handleIp_idle (none : sr.ifList = []) (packet : Frame)
    : sr.Idle (handleIp outside packet sr) := by
  have nobody : sr.ipCheck (ipDst (clearIpSum packet)) = .none := by
    rw [SrInstance.ipCheck, none, List.find?_nil]
  simp only [handleIp, nobody, Option.isSome_none]
  split
  · exact Or.inr ⟨rfl, rfl⟩
  split
  · exact SrInstance.idle_fail _ _
  split
  · exact Or.inr ⟨rfl, rfl⟩
  · exact handleTransit_idle none _

/-- A frame that is too short for an ARP header is handled alike on any interface. -/
theorem srHandlepacket_short {packet : Frame}
    (short : packet.length < ethernetHdrSize + arpHdrSize) (interface other : String)
    : srHandlepacket outside packet interface sr = srHandlepacket outside packet other sr := by
  simp only [srHandlepacket, handleArp, if_pos short]

theorem srHandlepacket_idle (none : sr.ifList = []) {packet : Frame}
    (short : packet.length < ethernetHdrSize + arpHdrSize) (interface : String)
    : sr.Idle (srHandlepacket outside packet interface sr) := by
  rw [srHandlepacket]
  split
  · exact Or.inl (by simp [SrInstance.fail])
  split
  · rw [handleArp, if_pos short]
    exact Or.inr ⟨rfl, rfl⟩
  split
  · exact handleIp_idle none packet
  · exact Or.inr ⟨rfl, rfl⟩

end Handlers

-----------------------------------------------------------------------------------------
-- A verified routing table
-----------------------------------------------------------------------------------------

/-- `sr_verify_routing_table` only returns zero when there are interfaces, and every route has
one of them.
-/
theorem srVerifyRoutingTable_eq_zero {sr : SrInstance} (verified : srVerifyRoutingTable sr = 0)
    : sr.ifList ≠ [] ∧ ∀ route ∈ sr.routingTable, (sr.srGetInterface route.interface).isSome := by
  unfold srVerifyRoutingTable at verified
  split at verified
  · cases verified
  · next some =>
      refine ⟨fun none => some (Or.inl none), fun route member => ?_⟩
      have each := List.countP_eq_zero.mp verified route member
      exact Option.isSome_iff_ne_none.mpr (by simpa using each)

/-- The router knows its interfaces, and is sound with them. -/
structure SrInstance.Informed (sr : SrInstance) : Prop where
  sound : sr.Sound sr.ifList
  some : sr.ifList ≠ []

/-- The router does not know any interfaces yet, and nothing waits in it. -/
structure SrInstance.Uninformed (sr : SrInstance) : Prop where
  interfaces : sr.ifList = []
  requests : sr.requests = []

/-- The names of the interfaces. -/
def names (ifList : List SrIf) : List String := ifList.map SrIf.name

theorem isSome_srGetInterface {sr : SrInstance} {name : String}
    : (sr.srGetInterface name).isSome ↔ name ∈ names sr.ifList := by
  simp [SrInstance.srGetInterface, names]

theorem changeLast_names {change : SrIf → SrIf}
    (same : ∀ interface, (change interface).name = interface.name) {ifList next : List SrIf}
    (changed : changeLast change ifList = some next)
    : names next = names ifList := by
  obtain ⟨last, found, rfl⟩ := Option.map_eq_some_iff.mp changed
  have split := List.dropLast_append_getLast? last found
  rw [names, List.map_append, List.map_singleton, same, ← List.map_singleton,
    ← List.map_append, split, names]

/-- An entry only adds a name. -/
theorem handle_names {unset : Unset} {entry : HwEntry} {ifList next : List SrIf}
    (handled : entry.handle unset ifList = some next)
    : names ifList ⊆ names next := by
  unfold HwEntry.handle at handled
  cases key : entry.key with
  | hwinterface =>
      simp only [key] at handled
      obtain rfl := Option.some.inj handled
      rw [srAddInterface, names, names, List.map_append]
      exact List.subset_append_left _ _
  | hwethip =>
      simp only [key] at handled
      have same := @changeLast_names
        (fun last => { last with ip := wordAt entry.value.toList 0 }) (fun _ => rfl) _ _ handled
      exact same.symm ▸ List.Subset.refl _
  | hwether =>
      simp only [key] at handled
      have same := @changeLast_names
        (fun last => { last with addr := macAt entry.value.toList 0 }) (fun _ => rfl) _ _ handled
      exact same.symm ▸ List.Subset.refl _
  | other =>
      simp only [key] at handled
      obtain rfl := Option.some.inj handled
      exact List.Subset.refl _

/-- Hardware information only adds names, by induction on its entries. -/
theorem handleEntries_names {unset : Unset} {entries : List HwEntry}
    {ifList next : List SrIf} (handled : handleEntries unset ifList entries = some next)
    : names ifList ⊆ names next := by
  induction entries generalizing ifList with
  | nil => exact Option.some.inj handled ▸ List.Subset.refl _
  | cons entry entries ih =>
      obtain ⟨between, first, rest⟩ := Option.bind_eq_some_iff.mp handled
      exact List.Subset.trans (handle_names first) (ih rest)

-----------------------------------------------------------------------------------------
-- Steps of the main loop
-----------------------------------------------------------------------------------------

section Steps

variable {world : World} {program next : Program} {surroundings : Surroundings}
variable {message : Message} {result : Int}

/-- Hardware information that the routing table agrees with leaves an informed router behind,
also when it is not the first.
-/
theorem effect_informed (informs : Command.ofWord message.command = .vnsHwinfo)
    (clean : program.sr.fault = none)
    (known : program.sr.Uninformed ∨ program.sr.Informed) {tableOpens : Bool}
    (handled : message.effect world tableOpens program = some next)
    (verified : srVerifyRoutingTable next.sr = 0)
    : next.sr.Informed := by
  simp only [Message.effect, informs] at handled
  obtain ⟨ifList, entries, rfl⟩ := Option.map_eq_some_iff.mp handled
  obtain ⟨some, routes⟩ := srVerifyRoutingTable_eq_zero verified
  refine ⟨⟨rfl, routes, ?_, by simp, by simp [clean]⟩, some⟩
  intro request member packet inside
  rcases known with uninformed | informed
  · simp [uninformed.requests] at member
  · have before := isSome_srGetInterface.mp
      (informed.sound.waiting request member packet inside)
    exact isSome_srGetInterface.mpr (handleEntries_names entries before)

/-- A frame never makes an informed router dereference `NULL`. -/
theorem vnsPacket_informed (informed : program.sr.Informed) {packet : Frame}
    {interface : String} {sr : SrInstance}
    (delivered
      : (Delivery.vnsPacket packet interface).run world.outside program.sr = some sr)
    : sr.Informed := by
  obtain ⟨notForUs, found, rfl⟩ := Option.map_eq_some_iff.mp delivered
  have handled : ∀ {given : String}, (program.sr.srGetInterface given).isSome →
      (srHandlepacket world.outside packet given program.sr).Informed := by
    intro given resolves
    have updates : Updates world.outside given program.sr
        (srHandlepacket world.outside packet given program.sr) :=
      srHandlepacket_updates packet
    have same := updates.sameTables.ifList
    exact ⟨same.symm ▸ updates.sound informed.sound resolves, same.symm ▸ informed.some⟩
  cases notForUs with
  | true => exact informed
  | false =>
      unfold SrInstance.srArpReqNotForUs at found
      split at found
      · next short =>
          obtain ⟨other, others, listed⟩ := List.exists_cons_of_ne_nil informed.some
          have resolves : (program.sr.srGetInterface other.name).isSome := by
            rw [isSome_srGetInterface, listed, names]
            exact List.mem_cons_self
          rw [if_neg (by decide), srHandlepacket_short short interface other.name]
          exact handled resolves
      · obtain ⟨iface, named, -⟩ := Option.map_eq_some_iff.mp found
        exact handled (by rw [named]; rfl)

/-- What is left of the commands does not change the router. -/
theorem effect_other (packet : Command.ofWord message.command ≠ .vnsPacket)
    (hwinfo : Command.ofWord message.command ≠ .vnsHwinfo) {tableOpens : Bool}
    (handled : message.effect world tableOpens program = some next)
    : next.sr = program.sr := by
  unfold Message.effect at handled
  split at handled
  · next same => exact absurd same packet
  · next same => exact absurd same hwinfo
  · obtain ⟨fn, -, rfl⟩ := Option.map_eq_some_iff.mp handled
    split <;> rfl
  · exact congrArg Program.sr (Option.some.inj handled).symm

theorem vnsPacket_uninformed (uninformed : program.sr.Uninformed) {packet : Frame}
    {interface : String} {sr : SrInstance} (clean : sr.fault = none)
    (delivered
      : (Delivery.vnsPacket packet interface).run world.outside program.sr = some sr)
    : sr.Uninformed := by
  obtain ⟨notForUs, found, rfl⟩ := Option.map_eq_some_iff.mp delivered
  cases notForUs with
  | true => exact uninformed
  | false =>
      unfold SrInstance.srArpReqNotForUs at found
      split at found
      · next short =>
          rcases @srHandlepacket_idle world.outside _ uninformed.interfaces _ short interface
            with faulted | ⟨interfaces, requests⟩
          · exact absurd clean faulted
          · exact ⟨interfaces.trans uninformed.interfaces,
              requests.trans uninformed.requests⟩
      · rw [srGetInterface_none uninformed.interfaces] at found
        cases found

/-- The main loop expects every command. -/
theorem not_unexpected (message : Message) : ¬ message.Unexpected 0 := fun unexpected =>
  unexpected.1 rfl

/-- A message that the main loop has read did what its command does. -/
theorem effect_of_read
    (read : srReadFromServerExpect world surroundings 0 message program = some (result, next))
    : message.effect world surroundings.tableOpens program = some next := by
  rw [srReadFromServerExpect, if_neg (not_unexpected message)] at read
  obtain ⟨handled, effect, rest⟩ := Option.bind_eq_some_iff.mp read
  obtain ⟨_, -, same⟩ := Option.map_eq_some_iff.mp rest
  obtain ⟨rfl, rfl⟩ := Prod.mk.inj same
  exact effect

/-- The main loop goes on after hardware information that the routing table agrees with. -/
theorem verified_of_read (informs : Command.ofWord message.command = .vnsHwinfo)
    (read : srReadFromServerExpect world surroundings 0 message program = some (1, next))
    : srVerifyRoutingTable next.sr = 0 := by
  rw [srReadFromServerExpect] at read
  obtain ⟨handled, effect, rest⟩ := Option.bind_eq_some_iff.mp read
  obtain ⟨_, outcome, same⟩ := Option.map_eq_some_iff.mp rest
  obtain ⟨rfl, rfl⟩ := Prod.mk.inj same
  simp only [Message.reading, if_neg (not_unexpected message)] at outcome
  split at outcome
  · cases outcome
  split at outcome
  · simpa [informs, Command.result] using outcome
  · cases outcome

/-- An informed router stays so as long as the main loop goes on, and never dereferences
`NULL`, not even in the message that ends the loop.
-/
theorem read_informed (informed : program.sr.Informed) (clean : program.sr.fault = none)
    (read : srReadFromServerExpect world surroundings 0 message program = some (result, next))
    : next.sr.fault ≠ some .nullPointer ∧ (result = 1 → next.sr.Informed) := by
  have effect := effect_of_read read
  by_cases packet : Command.ofWord message.command = .vnsPacket
  · simp only [Message.effect, packet] at effect
    obtain ⟨sr, delivered, rfl⟩ := Option.map_eq_some_iff.mp effect
    have after := vnsPacket_informed informed delivered
    exact ⟨after.sound.linked, fun _ => after⟩
  by_cases hwinfo : Command.ofWord message.command = .vnsHwinfo
  · refine ⟨?_, ?_⟩
    · simp only [Message.effect, hwinfo] at effect
      obtain ⟨ifList, -, rfl⟩ := Option.map_eq_some_iff.mp effect
      simp [clean]
    · rintro rfl
      exact effect_informed hwinfo clean (Or.inr informed) effect (verified_of_read hwinfo read)
  · have same := effect_other packet hwinfo effect
    rw [same]
    exact ⟨by simp [clean], fun _ => informed⟩

/-- A router becomes informed with the first hardware information, and not before. -/
theorem read_uninformed (uninformed : program.sr.Uninformed)
    (clean : program.sr.fault = none) (nextClean : next.sr.fault = none)
    (read : srReadFromServerExpect world surroundings 0 message program = some (1, next))
    : next.sr.Informed
      ∨ next.sr.Uninformed ∧ Command.ofWord message.command ≠ .vnsHwinfo := by
  have effect := effect_of_read read
  by_cases packet : Command.ofWord message.command = .vnsPacket
  · simp only [Message.effect, packet] at effect
    obtain ⟨sr, delivered, rfl⟩ := Option.map_eq_some_iff.mp effect
    exact Or.inr ⟨vnsPacket_uninformed uninformed nextClean delivered, by simp [packet]⟩
  by_cases hwinfo : Command.ofWord message.command = .vnsHwinfo
  · exact Or.inl
      (effect_informed hwinfo clean (Or.inl uninformed) effect (verified_of_read hwinfo read))
  · exact Or.inr ⟨effect_other packet hwinfo effect ▸ uninformed, hwinfo⟩

/-- The timer thread keeps an informed router so. -/
theorem timer_informed {action : Action} (timer : action = .timeout ∨ action = .sweepreqs)
    (informed : program.sr.Informed)
    : (action.run world.outside program.sr).Informed := by
  have arrives : action.Arrives program.sr.ifList := by
    rcases timer with rfl | rfl <;> trivial
  have sound : (action.run world.outside program.sr).Sound program.sr.ifList :=
    Action.run_sound informed.sound arrives
  exact ⟨sound.interfaces.symm ▸ sound, sound.interfaces.symm ▸ informed.some⟩

/-- The timer thread finds nothing to do without interfaces. -/
theorem timer_uninformed {action : Action} (timer : action = .timeout ∨ action = .sweepreqs)
    (uninformed : program.sr.Uninformed)
    : (action.run world.outside program.sr).Uninformed := by
  rcases timer with rfl | rfl
  · exact ⟨uninformed.interfaces, uninformed.requests⟩
  · simp only [Action.run, srArpcacheSweepreqs, uninformed.requests, List.map_nil, sweepLoop]
    exact uninformed

/-- A step from an informed router. -/
theorem run_informed (informed : program.sr.Informed) (clean : program.sr.fault = none)
    {input : Input} (run : input.run world program = some (result, next))
    : next.sr.fault ≠ some .nullPointer ∧ (result = 1 → next.sr.Informed) := by
  cases input with
  | read surroundings message => exact read_informed informed clean run
  | timeout =>
      obtain ⟨-, rfl⟩ := Prod.mk.inj (Option.some.inj run)
      have after := @timer_informed world program _ (Or.inl rfl) informed
      exact ⟨after.sound.linked, fun _ => after⟩
  | sweepreqs =>
      obtain ⟨-, rfl⟩ := Prod.mk.inj (Option.some.inj run)
      have after := @timer_informed world program _ (Or.inr rfl) informed
      exact ⟨after.sound.linked, fun _ => after⟩

/-- A step of the main loop from a router that is not informed. -/
theorem mainLoopStep_uninformed (uninformed : program.sr.Uninformed)
    (clean : program.sr.fault = none) {input : Input}
    (taken : mainLoopStep world program input = some next)
    : next.sr.Informed ∨ next.sr.Uninformed ∧ ¬ input.Informs := by
  obtain ⟨run, nextClean⟩ := mainLoopStep_eq_some.mp taken
  cases input with
  | read surroundings message => exact read_uninformed uninformed clean nextClean run
  | timeout =>
      obtain ⟨-, rfl⟩ := Prod.mk.inj (Option.some.inj run)
      exact Or.inr ⟨@timer_uninformed world program _ (Or.inl rfl) uninformed, id⟩
  | sweepreqs =>
      obtain ⟨-, rfl⟩ := Prod.mk.inj (Option.some.inj run)
      exact Or.inr ⟨@timer_uninformed world program _ (Or.inr rfl) uninformed, id⟩

/-- The main loop from an informed router, by its steps. -/
theorem mainLoop_informed {inputs : List Input} (informed : program.sr.Informed)
    (clean : program.sr.fault = none) (reached : mainLoop world program inputs = some next)
    : next.sr.Informed ∧ next.sr.fault = none := by
  refine StepRuns.exec_invariant
    (fun program => program.sr.Informed ∧ program.sr.fault = none) ?_ ⟨informed, clean⟩ reached
  intro now input after held taken
  obtain ⟨run, nextClean⟩ := mainLoopStep_eq_some.mp taken
  exact ⟨(run_informed held.1 held.2 run).2 rfl, nextClean⟩

/-- The main loop up to the hardware information, by induction on its inputs, and from there. -/
theorem mainLoop_uninformed {inputs : List Input} (uninformed : program.sr.Uninformed)
    (clean : program.sr.fault = none) (informs : ∃ input ∈ inputs, input.Informs)
    (reached : mainLoop world program inputs = some next)
    : next.sr.Informed ∧ next.sr.fault = none := by
  induction inputs generalizing program with
  | nil => simp at informs
  | cons input inputs ih =>
      obtain ⟨between, taken, rest⟩ := StepRuns.exec_cons_eq_some.mp reached
      have betweenClean := (mainLoopStep_eq_some.mp taken).2
      rcases mainLoopStep_uninformed uninformed clean taken with informed | ⟨still, silent⟩
      · exact mainLoop_informed informed betweenClean rest
      · obtain ⟨informing, member, holds⟩ := informs
        rcases List.mem_cons.mp member with rfl | later
        · exact absurd holds silent
        · exact ih still betweenClean ⟨informing, later, holds⟩ rest

end Steps

/-- With any routing table, and whatever messages the server sends: once hardware information
was accepted in the main loop, the router is sound with its interfaces as long as the loop goes
on, and never dereferences `NULL`, not even in the step that ends the loop.
-/
theorem mainLoop_sound (world : World) {table : List SrRt}
    {files : List UInt8 → Option (List UInt8)} {inputs : List Input} {program : Program}
    (reached : mainLoop world ⟨srInit [] table, files⟩ inputs = some program)
    (informs : ∃ input ∈ inputs, input.Informs)
    : program.sr.Sound program.sr.ifList
      ∧ ∀ (input : Input) (result : Int) (next : Program),
          input.run world program = some (result, next)
          → next.sr.fault ≠ some .nullPointer ∧ (result = 1 → next.sr.Sound next.sr.ifList) := by
  obtain ⟨informed, clean⟩ := @mainLoop_uninformed world ⟨srInit [] table, files⟩ program inputs
    ⟨rfl, rfl⟩ rfl informs reached
  refine ⟨informed.sound, fun input result next run => ?_⟩
  have after := run_informed informed clean run
  exact ⟨after.1, fun continues => (after.2 continues).sound⟩

/-- A router whose only route has the interface that is described to it. -/
theorem mainLoop_sound_eth3
    : let world : World := ⟨quietOutside, fun _ => (Vector.replicate 6 0, 0)⟩
      let inputs := [Input.read ⟨true, true, true, true, []⟩
        (hwinfoMessage [eth3Entries].flatten (by decide)), .sweepreqs]
      ∃ program,
        mainLoop world ⟨srInit [] [⟨0, 1677787146, 0, "eth3"⟩], fun _ => none⟩ inputs = some program
        ∧ program.sr.Sound program.sr.ifList := by
  intro world inputs
  have goesOn : (mainLoop world ⟨srInit [] [⟨0, 1677787146, 0, "eth3"⟩], fun _ => none⟩
      inputs).isSome := by
    decide +kernel
  obtain ⟨program, reached⟩ := Option.isSome_iff_exists.mp goesOn
  have hwinfo : Command.ofWord (hwinfoMessage [eth3Entries].flatten (by decide)).command
      = .vnsHwinfo := by
    decide +kernel
  have informs : ∃ input ∈ inputs, input.Informs := ⟨_, List.mem_cons_self, hwinfo⟩
  exact ⟨program, reached, (mainLoop_sound world reached informs).1⟩

end Networks.Router
