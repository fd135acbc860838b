import Networks.Router.Egress
import Mathlib.Data.List.Chain
import Mathlib.Data.List.Nodup

/-! The life of an ARP request: at most five calls a second apart, and then either an answer
or one report for each packet that waits.
-/

namespace Networks.Router

/-- Whether an event is about the request object at an address. -/
def Event.about (address : Nat) : Event → Bool
  | .arpRequest request _ => request = address
  | .limitReached request _ _ => request = address
  | .hostUnreachable request _ => request = address
  | _ => false

/-- What has happened to the request object at an address. -/
def SrInstance.history (address : Nat) (sr : SrInstance) : List Event :=
  sr.log.filter (Event.about address)

/-- Times of calls of `sr_arp_request` for one request. -/
structure CallTimes (times : List Int) : Prop where
  atMostFive : times.length ≤ 5
  apart : times.IsChain (fun earlier later => earlier + 1 ≤ later)

/-- Nothing but calls of `sr_arp_request` has happened to a request. -/
structure Calling (address : Nat) (times : List Int) (history : List Event) : Prop where
  calls : CallTimes times
  history : history = times.map (.arpRequest address)

/-- A request was given up after five calls and another second. Of the packets waiting then,
those in `reports` have been reported.
-/
structure GivenUp (address : Nat) (packets reports : List SrPacket) (times : List Int)
    (history : List Event)
    : Prop where
  calls : CallTimes times
  five : times.length = 5
  waited : ∃ time, (∀ last ∈ times.getLast?, last + 1 ≤ time)
    ∧ history
      = times.map (.arpRequest address)
        ++ .limitReached address time packets :: reports.map (.hostUnreachable address)

/-- The request at an address is in a state that its specification allows: it has been called
for at most five times, or it was given up. Then every waiting packet is reported once, in
order, and the request is gone from the queue when the step is over.
-/
inductive SrInstance.LifeCycle (sr : SrInstance) (address : Nat) : Prop
  | calling {times : List Int} (calling : Calling address times (sr.history address))
  | givenUp {packets reports : List SrPacket} {times : List Int}
    (givenUp : GivenUp address packets reports times (sr.history address))
    (inOrder : reports <+: packets)
    (complete
      : sr.fault = none
        → reports = packets ∧ ∀ request ∈ sr.requests, request.address ≠ address)

/-- The frame that `sr_icmp_make_packet` was called for with type 3 and code 1. -/
def Event.unreachableMade : Event → Option Frame
  | .icmpMakePacket type code packet => if type = 3 ∧ code = 1 then some packet else none
  | _ => none

/-- The frame of a packet that was reported. -/
def Event.reported : Event → Option Frame
  | .hostUnreachable _ packet => some packet.buf
  | _ => none

/-- Host unreachable messages have been made for the reported packets, and no others. -/
def SrInstance.OnlyReports (sr : SrInstance) : Prop :=
  sr.log.filterMap Event.unreachableMade = sr.log.filterMap Event.reported

-----------------------------------------------------------------------------------------
-- Requests of a router between its steps
-----------------------------------------------------------------------------------------

/-- The request objects on the queue are distinct, and have been allocated. -/
structure SrInstance.Queued (sr : SrInstance) : Prop where
  distinct : (sr.requests.map SrArpreq.address).Nodup
  allocated : ∀ request ∈ sr.requests, request.address < sr.nextAddress

/-- The counter and the time of a request on the queue are those of its calls. -/
def Outstanding (request : SrArpreq) (history : List Event) : Prop :=
  ∃ times, Calling request.address times history ∧ times.length = request.timesSent
    ∧ ∀ last ∈ times.getLast?, last = request.sent

/-- Nothing will happen any more to a request that is not on the queue. -/
def Finished (address : Nat) (history : List Event) : Prop :=
  (∃ times, Calling address times history)
  ∨ ∃ packets times, GivenUp address packets packets times history

/-- What is known about the request at an address. -/
structure SrInstance.Tracked (sr : SrInstance) (address : Nat) : Prop where
  outstanding
    : ∀ request ∈ sr.requests, request.address = address
      → Outstanding request (sr.history address)
  finished
    : (∀ request ∈ sr.requests, request.address ≠ address)
      → Finished address (sr.history address)
  fresh : sr.nextAddress ≤ address → sr.history address = []

theorem Outstanding.finished {request : SrArpreq} {history : List Event}
    (outstanding : Outstanding request history)
    : Finished request.address history := by
  obtain ⟨times, calling, -⟩ := outstanding
  exact Or.inl ⟨times, calling⟩

/-- Whether or not the request is still on the queue, its history is one of a request that
could be gone.
-/
theorem SrInstance.Tracked.anyway {sr : SrInstance} {address : Nat}
    (tracked : sr.Tracked address)
    : Finished address (sr.history address) := by
  by_cases listed : ∃ request ∈ sr.requests, request.address = address
  · obtain ⟨request, member, rfl⟩ := listed
    exact (tracked.outstanding request member rfl).finished
  · exact tracked.finished fun request member same => listed ⟨request, member, same⟩

theorem SrInstance.Tracked.lifeCycle {sr : SrInstance} {address : Nat}
    (tracked : sr.Tracked address)
    : sr.LifeCycle address := by
  by_cases listed : ∃ request ∈ sr.requests, request.address = address
  · obtain ⟨request, member, rfl⟩ := listed
    obtain ⟨times, calling, -⟩ := tracked.outstanding request member rfl
    exact .calling calling
  · have gone : ∀ request ∈ sr.requests, request.address ≠ address :=
      fun request member same => listed ⟨request, member, same⟩
    rcases tracked.finished gone with ⟨times, calling⟩ | ⟨packets, times, givenUp⟩
    · exact .calling calling
    · exact .givenUp givenUp (List.prefix_refl _) (fun _ => ⟨rfl, gone⟩)

/-- A change that keeps the requests at an address and what happened to them keeps what is
known.
-/
theorem SrInstance.Tracked.congr {sr next : SrInstance} {address : Nat}
    (tracked : sr.Tracked address)
    (same
      : ∀ request, request.address = address
        → (request ∈ next.requests ↔ request ∈ sr.requests))
    (allocated : next.nextAddress = sr.nextAddress)
    (history : next.history address = sr.history address)
    : next.Tracked address where
  outstanding := by
    intro request member named
    rw [history]
    exact tracked.outstanding request ((same request named).mp member) named
  finished := by
    intro gone
    rw [history]
    refine tracked.finished fun request member named => ?_
    exact gone request ((same request named).mpr member) named
  fresh := by
    intro unused
    rw [history]
    exact tracked.fresh (allocated ▸ unused)

theorem SrInstance.history_record (address : Nat) (event : Event) (sr : SrInstance)
    : (sr.record event).history address
      = sr.history address ++ (if event.about address then [event] else []) := by
  simp only [SrInstance.history, SrInstance.record, List.filter_append]
  cases about : event.about address <;> simp [about]

theorem SrInstance.history_record_other {address : Nat} {event : Event} (sr : SrInstance)
    (other : event.about address = false)
    : (sr.record event).history address = sr.history address := by
  rw [SrInstance.history_record, other]
  simp

theorem SrInstance.Tracked.record {sr : SrInstance} {address : Nat} {event : Event}
    (tracked : sr.Tracked address) (other : event.about address = false)
    : (sr.record event).Tracked address :=
  tracked.congr (fun _ _ => Iff.rfl) rfl (sr.history_record_other other)

theorem SrArpreq.Waits.fields {packet : SrPacket} {old new : SrArpreq}
    (waits : old.Waits packet new)
    : new.address = old.address ∧ new.timesSent = old.timesSent ∧ new.sent = old.sent :=
  ⟨(congrArg SrArpreq.address waits.same :), (congrArg SrArpreq.timesSent waits.same :),
    (congrArg SrArpreq.sent waits.same :)⟩

/-- The requests stay the same objects when a packet is put on one. -/
theorem waits_addresses {packet : SrPacket} {started queue : List SrArpreq}
    (waits : List.Forall₂ (SrArpreq.Waits packet) started queue)
    : queue.map SrArpreq.address = started.map SrArpreq.address := by
  induction waits with
  | nil => rfl
  | cons first _ ih => rw [List.map_cons, List.map_cons, first.fields.1, ih]

theorem waits_mem {packet : SrPacket} {started queue : List SrArpreq}
    (waits : List.Forall₂ (SrArpreq.Waits packet) started queue) {request : SrArpreq}
    (member : request ∈ queue)
    : ∃ old ∈ started, old.Waits packet request := by
  induction waits with
  | nil => cases member
  | cons first _ ih =>
      rcases List.mem_cons.mp member with rfl | later
      · exact ⟨_, List.mem_cons_self, first⟩
      · obtain ⟨old, oldMember, oldWaits⟩ := ih later
        exact ⟨old, List.mem_cons_of_mem _ oldMember, oldWaits⟩

section Queueing

variable {sr : SrInstance} (ip : UInt32) (packet : SrPacket)

theorem SrInstance.Queued.queuereq (queued : sr.Queued)
    : (srArpcacheQueuereq ip packet sr).Queued := by
  obtain ⟨started, queue, next, same, opened, waits⟩ := srArpcacheQueuereq_spec ip packet sr
  have addresses := waits_addresses waits
  have newest : sr.nextAddress ∉ sr.requests.map SrArpreq.address := by
    intro member
    obtain ⟨request, listed, named⟩ := List.mem_map.mp member
    exact absurd named (Nat.ne_of_lt (queued.allocated request listed))
  rw [same]
  constructor
  · rw [addresses]
    rcases opened with ⟨rfl, -⟩ | ⟨rfl, -⟩
    · exact queued.distinct
    · exact List.nodup_cons.mpr ⟨newest, queued.distinct⟩
  · intro request member
    obtain ⟨old, oldMember, oldWaits⟩ := waits_mem waits member
    rw [oldWaits.fields.1]
    rcases opened with ⟨rfl, rfl⟩ | ⟨rfl, rfl⟩
    · exact queued.allocated old oldMember
    · rcases List.mem_cons.mp oldMember with rfl | before
      · exact Nat.lt_succ_self _
      · exact Nat.lt_succ_of_lt (queued.allocated old before)

theorem SrInstance.Tracked.queuereq {address : Nat} (tracked : sr.Tracked address)
    : (srArpcacheQueuereq ip packet sr).Tracked address := by
  obtain ⟨started, queue, next, same, opened, waits⟩ := srArpcacheQueuereq_spec ip packet sr
  rw [same]
  constructor
  · intro request member named
    obtain ⟨old, oldMember, oldWaits⟩ := waits_mem waits member
    obtain ⟨sameAddress, sameCount, sameTime⟩ := oldWaits.fields
    have before : Outstanding old (sr.history address) := by
      rcases opened with ⟨rfl, -⟩ | ⟨rfl, -⟩
      · exact tracked.outstanding old oldMember (sameAddress.symm.trans named)
      · rcases List.mem_cons.mp oldMember with rfl | listed
        · have unused : sr.nextAddress ≤ address := Nat.le_of_eq (sameAddress.symm.trans named)
          refine ⟨[], ⟨⟨by decide, .nil⟩, tracked.fresh unused⟩, rfl, by simp⟩
        · exact tracked.outstanding old listed (sameAddress.symm.trans named)
    obtain ⟨times, calling, count, last⟩ := before
    exact ⟨times, sameAddress ▸ calling, count.trans sameCount.symm,
      fun time ends => (last time ends).trans sameTime.symm⟩
  · intro gone
    refine tracked.finished fun request member named => ?_
    have listed : address ∈ queue.map SrArpreq.address := by
      rw [waits_addresses waits]
      rcases opened with ⟨rfl, -⟩ | ⟨rfl, -⟩
      · exact List.mem_map.mpr ⟨request, member, named⟩
      · exact List.mem_map.mpr ⟨request, List.mem_cons_of_mem _ member, named⟩
    obtain ⟨other, otherMember, otherNamed⟩ := List.mem_map.mp listed
    exact gone other otherMember otherNamed
  · intro unused
    refine tracked.fresh (Nat.le_trans ?_ unused)
    rcases opened with ⟨-, rfl⟩ | ⟨-, rfl⟩
    · exact Nat.le_refl _
    · exact Nat.le_succ _

end Queueing

section Changes

variable {outside : Outside} {given : String} {sr next : SrInstance}

theorem srArpcacheinsert_log (outside : Outside) (mac : Mac) (ip : UInt32) (sr : SrInstance)
    : (srArpcacheinsert outside mac ip sr).log = sr.log
      ∧ (srArpcacheinsert outside mac ip sr).requests = sr.requests
      ∧ (srArpcacheinsert outside mac ip sr).nextAddress = sr.nextAddress := by
  unfold srArpcacheinsert
  split <;> exact ⟨rfl, rfl, rfl⟩

theorem srArpcacheQueuereq_log (ip : UInt32) (packet : SrPacket)
    : (srArpcacheQueuereq ip packet sr).log = sr.log := by
  obtain ⟨_, _, _, same, -⟩ := srArpcacheQueuereq_spec ip packet sr
  rw [same]

/-- Handling a frame does nothing to a request but put packets on it. -/
theorem Update.history (update : Update outside given sr next) (address : Nat)
    : next.history address = sr.history address := by
  cases update with
  | icmpMakePacket => exact sr.history_record_other rfl
  | forwardPacket => exact sr.history_record_other rfl
  | sendPacket => exact sr.history_record_other rfl
  | queuereq => rw [SrInstance.history, srArpcacheQueuereq_log, SrInstance.history]
  | insert mac ip =>
      rw [SrInstance.history, (srArpcacheinsert_log outside mac ip sr).1, SrInstance.history]
  | malloc => rfl
  | outOfBounds => rfl
  | nullPointer => rfl

theorem Update.queued (update : Update outside given sr next) (queued : sr.Queued)
    : next.Queued := by
  cases update with
  | queuereq ip known => exact queued.queuereq ip _
  | insert mac ip =>
      obtain ⟨-, requests, allocated⟩ := srArpcacheinsert_log outside mac ip sr
      exact ⟨requests ▸ queued.distinct, by
        rw [requests, allocated]
        exact queued.allocated⟩
  | _ => exact ⟨queued.distinct, queued.allocated⟩

theorem Update.tracked {address : Nat} (update : Update outside given sr next)
    (tracked : sr.Tracked address)
    : next.Tracked address := by
  have history := update.history address
  cases update with
  | queuereq ip known => exact tracked.queuereq ip _
  | insert mac ip =>
      obtain ⟨-, requests, allocated⟩ := srArpcacheinsert_log outside mac ip sr
      exact tracked.congr (fun _ _ => by rw [requests]) allocated history
  | _ => exact tracked.congr (fun _ _ => Iff.rfl) rfl history

theorem SrInstance.OnlyReports.record {event : Event} (only : sr.OnlyReports)
    (neither : event.unreachableMade = event.reported)
    : (sr.record event).OnlyReports := by
  rw [SrInstance.OnlyReports, SrInstance.record, List.filterMap_append,
    List.filterMap_append, only]
  simp [List.filterMap_cons, neither]

theorem Update.onlyReports (update : Update outside given sr next) (only : sr.OnlyReports)
    : next.OnlyReports := by
  cases update with
  | icmpMakePacket type code packet other => exact only.record (if_neg other)
  | forwardPacket => exact only.record rfl
  | sendPacket => exact only.record rfl
  | queuereq =>
      rw [SrInstance.OnlyReports, srArpcacheQueuereq_log]
      exact only
  | insert mac ip =>
      rw [SrInstance.OnlyReports, (srArpcacheinsert_log outside mac ip sr).1]
      exact only
  | _ => exact only

theorem Updates.history (updates : Updates outside given sr next) (address : Nat)
    : next.history address = sr.history address := by
  induction updates with
  | refl => rfl
  | tail _ update ih => exact (update.history address).trans ih

theorem Updates.queued (updates : Updates outside given sr next) (queued : sr.Queued)
    : next.Queued := by
  induction updates with
  | refl => exact queued
  | tail _ update ih => exact update.queued ih

theorem Updates.tracked {address : Nat} (updates : Updates outside given sr next)
    (tracked : sr.Tracked address)
    : next.Tracked address := by
  induction updates with
  | refl => exact tracked
  | tail _ update ih => exact update.tracked ih

theorem Updates.onlyReports (updates : Updates outside given sr next)
    (only : sr.OnlyReports)
    : next.OnlyReports := by
  induction updates with
  | refl => exact only
  | tail _ update ih => exact update.onlyReports ih

end Changes

-----------------------------------------------------------------------------------------
-- The sweep
-----------------------------------------------------------------------------------------

/-- What holds of all requests between the steps of the router. -/
structure SrInstance.Consistent (sr : SrInstance) : Prop where
  queued : sr.Queued
  tracked : ∀ address, sr.Tracked address

/-- What holds of the other requests while the sweep deals with the one at an address. -/
structure SrInstance.Aside (address : Nat) (sr : SrInstance) : Prop where
  queued : sr.Queued
  tracked : ∀ other, other ≠ address → sr.Tracked other
  allocated : address < sr.nextAddress

/-- What holds when the sweep has dealt with a request, or a fault has ended it. -/
structure SrInstance.Swept (sr : SrInstance) : Prop where
  lifeCycle : ∀ address, sr.LifeCycle address
  consistent : sr.fault = none → sr.Consistent

theorem SrInstance.Consistent.swept {sr : SrInstance} (consistent : sr.Consistent)
    : sr.Swept :=
  ⟨fun address => (consistent.tracked address).lifeCycle, fun _ => consistent⟩

theorem SrInstance.Consistent.aside {sr : SrInstance} (consistent : sr.Consistent)
    {request : SrArpreq} (member : request ∈ sr.requests)
    : sr.Aside request.address :=
  ⟨consistent.queued, fun other _ => consistent.tracked other,
    consistent.queued.allocated request member⟩

section Sweep

variable {outside : Outside} {address : Nat} {sr next : SrInstance}

theorem Update.allocated {given : String} (update : Update outside given sr next)
    : sr.nextAddress ≤ next.nextAddress := by
  cases update with
  | queuereq ip known =>
      rename_i packet
      obtain ⟨_, _, _, same, ⟨-, rfl⟩ | ⟨-, rfl⟩, -⟩ := srArpcacheQueuereq_spec ip packet sr
      · rw [same]
      · rw [same]
        exact Nat.le_succ _
  | insert mac ip => exact (srArpcacheinsert_log outside mac ip sr).2.2.ge
  | _ => exact Nat.le_refl _

theorem Updates.allocated {given : String} (updates : Updates outside given sr next)
    : sr.nextAddress ≤ next.nextAddress := by
  induction updates with
  | refl => exact Nat.le_refl _
  | tail _ update ih => exact Nat.le_trans ih update.allocated

theorem Updates.consistent {given : String} (updates : Updates outside given sr next)
    (consistent : sr.Consistent)
    : next.Consistent :=
  ⟨updates.queued consistent.queued, fun address => updates.tracked (consistent.tracked address)⟩

theorem Updates.aside {given : String} (updates : Updates outside given sr next)
    (aside : sr.Aside address)
    : next.Aside address :=
  ⟨updates.queued aside.queued, fun other away => updates.tracked (aside.tracked other away),
    Nat.lt_of_lt_of_le aside.allocated updates.allocated⟩

/-- An event about a request is no matter of the others. -/
theorem SrInstance.Aside.record {event : Event} (aside : sr.Aside address)
    (other : ∀ other, other ≠ address → event.about other = false)
    : (sr.record event).Aside address :=
  ⟨⟨aside.queued.distinct, aside.queued.allocated⟩,
    fun away differs => (aside.tracked away differs).record (other away differs),
    aside.allocated⟩

/-- A destroyed request is not on the queue any more. -/
theorem destroyed_gone {requests : List SrArpreq}
    (distinct : (requests.map SrArpreq.address).Nodup) {request : SrArpreq}
    (member : request ∈ requests.eraseP (fun request => request.address == address))
    : request.address ≠ address := by
  induction requests with
  | nil => cases member
  | cons head rest ih =>
      obtain ⟨single, distinctRest⟩ := List.nodup_cons.mp distinct
      by_cases here : head.address = address
      · rw [List.eraseP_cons_of_pos (by simpa using here)] at member
        rintro rfl
        exact single (List.mem_map.mpr ⟨request, member, here.symm⟩)
      · rw [List.eraseP_cons_of_neg (by simpa using here)] at member
        rcases List.mem_cons.mp member with rfl | later
        · exact here
        · exact ih distinctRest later

theorem SrInstance.Aside.destroy (aside : sr.Aside address)
    (finished : Finished address (sr.history address))
    : (srArpreqDestroy address sr).Consistent := by
  have gone : ∀ request ∈ (srArpreqDestroy address sr).requests,
      request.address ≠ address :=
    fun _ member => destroyed_gone aside.queued.distinct member
  refine ⟨⟨?_, fun request member => ?_⟩, fun other => ?_⟩
  · exact (List.eraseP_sublist.map SrArpreq.address).nodup aside.queued.distinct
  · exact aside.queued.allocated request (List.mem_of_mem_eraseP member)
  · by_cases same : other = address
    · subst same
      refine ⟨fun request member named => absurd named (gone request member),
        fun _ => finished, fun unused => ?_⟩
      exact absurd unused (Nat.not_le.mpr aside.allocated)
    · refine (aside.tracked other same).congr (fun request named => ?_) rfl rfl
      refine List.mem_eraseP_of_neg ?_
      rw [named]
      simpa using same

theorem destroyAfter_log (address : Nat) (sr : SrInstance)
    : (destroyAfter address sr).log = sr.log ∧ (destroyAfter address sr).fault = sr.fault := by
  unfold destroyAfter
  split <;> exact ⟨rfl, rfl⟩

theorem destroyAfter_swept (aside : sr.Aside address)
    (lifeCycle : sr.fault ≠ none → sr.LifeCycle address)
    (finished : sr.fault = none → Finished address (sr.history address))
    : (destroyAfter address sr).Swept := by
  unfold destroyAfter
  by_cases clean : sr.fault = none
  · rw [if_neg (by simp [clean])]
    exact (aside.destroy (finished clean)).swept
  · rw [if_pos (Option.isSome_iff_ne_none.mpr clean)]
    refine ⟨fun other => ?_, fun none => absurd none clean⟩
    by_cases same : other = address
    · exact same ▸ lifeCycle clean
    · exact (aside.tracked other same).lifeCycle

theorem GivenUp.report {packets reports : List SrPacket} {times : List Int}
    {history : List Event} (givenUp : GivenUp address packets reports times history)
    (packet : SrPacket)
    : GivenUp address packets (reports ++ [packet]) times
        (history ++ [.hostUnreachable address packet]) := by
  obtain ⟨calls, five, time, waited, rfl⟩ := givenUp
  exact ⟨calls, five, time, waited, by simp⟩

variable (outside) in
theorem reportUnreachable_history (packet : SrPacket)
    : (reportUnreachable outside address packet sr).history address
      = sr.history address ++ [.hostUnreachable address packet] := by
  have updates := reportUnreachable_made outside address packet sr
  rw [updates.history address, SrInstance.history_record_other _ rfl,
    SrInstance.history_record]
  simp [Event.about]

variable (outside) in
theorem reportUnreachable_aside (packet : SrPacket) (aside : sr.Aside address)
    : (reportUnreachable outside address packet sr).Aside address := by
  have updates := reportUnreachable_made outside address packet sr
  refine updates.aside ((aside.record fun other away => ?_).record fun _ _ => rfl)
  simpa [Event.about] using away.symm

variable (outside) in
/-- Giving up reports the waiting packets one by one, by induction on those left. -/
theorem reportLoop_givenUp {packets reports rest : List SrPacket} {times : List Int}
    (left : reports ++ rest = packets)
    (givenUp : GivenUp address packets reports times (sr.history address))
    (aside : sr.Aside address)
    : (packetLoop (reportUnreachable outside address) rest sr).Aside address
      ∧ ∃ all,
          GivenUp address packets all times
            ((packetLoop (reportUnreachable outside address) rest sr).history address)
          ∧ all <+: packets
          ∧ ((packetLoop (reportUnreachable outside address) rest sr).fault = none
            → all = packets) := by
  induction rest generalizing reports sr with
  | nil =>
      refine ⟨aside, reports, givenUp, ?_, fun _ => ?_⟩
      · exact ⟨[], left⟩
      · simpa using left
  | cons packet rest ih =>
      have acted := reportUnreachable_aside outside packet aside
      have reported := givenUp.report packet
      rw [← reportUnreachable_history outside] at reported
      have leftNow : (reports ++ [packet]) ++ rest = packets := by simpa using left
      simp only [packetLoop]
      split
      · next faulty =>
          refine ⟨acted, _, reported, ⟨rest, leftNow⟩, fun clean => ?_⟩
          simp [clean] at faulty
      · exact ih leftNow reported acted

theorem CallTimes.call {times : List Int} {time : Int} (calls : CallTimes times)
    (more : times.length < 5) (apart : ∀ last ∈ times.getLast?, last + 1 ≤ time)
    : CallTimes (times ++ [time]) := by
  refine ⟨?_, List.isChain_append.mpr ⟨calls.apart, .singleton time, ?_⟩⟩
  · rw [List.length_append]
    exact more
  intro last ends first starts
  obtain rfl : time = first := by simpa using starts
  exact apart last ends

theorem Calling.call {times : List Int} {history : List Event} {time : Int}
    (calling : Calling address times history) (more : times.length < 5)
    (apart : ∀ last ∈ times.getLast?, last + 1 ≤ time)
    : Calling address (times ++ [time]) (history ++ [.arpRequest address time]) :=
  ⟨calling.calls.call more apart, by simp [calling.history]⟩

theorem srArpMakePacket_requests (interface : Option SrIf) (targetIp : UInt32)
    (mode : ArpMode)
    : (srArpMakePacket interface targetIp mode sr).requests = sr.requests := by
  cases interface <;> rfl

theorem srArpRequest_requests (targetIp : UInt32)
    : (srArpRequest targetIp sr).requests = sr.requests := by
  simp only [srArpRequest]
  split
  · rfl
  · exact srArpMakePacket_requests _ _ _

theorem noteSent_consistent {request : SrArpreq} {times : List Int} {time : Int}
    (aside : sr.Aside request.address)
    (unique
      : ∀ other ∈ sr.requests, other.address = request.address
        → other.timesSent = request.timesSent)
    (calling
      : Calling request.address (times ++ [time]) (sr.history request.address))
    (count : times.length = request.timesSent)
    : (noteSent request.address time sr).Consistent := by
  have addresses : (noteSent request.address time sr).requests.map SrArpreq.address
      = sr.requests.map SrArpreq.address := by
    simp only [noteSent, List.map_map]
    refine List.map_congr_left fun other _ => ?_
    simp only [Function.comp_apply]
    split <;> rfl
  refine ⟨⟨addresses ▸ aside.queued.distinct, fun other member => ?_⟩, fun other => ?_⟩
  · obtain ⟨old, oldMember, rfl⟩ := List.mem_map.mp member
    have before := aside.queued.allocated old oldMember
    split <;> exact before
  · by_cases same : other = request.address
    · subst same
      refine ⟨fun asked member named => ?_, fun _ => Or.inl ⟨_, calling⟩, fun unused => ?_⟩
      · obtain ⟨old, oldMember, rfl⟩ := List.mem_map.mp member
        have oldNamed : old.address = request.address := by
          split at named <;> exact named
        rw [if_pos oldNamed]
        refine ⟨times ++ [time], ?_, ?_, by simp⟩
        · change Calling old.address _ _
          rw [oldNamed]
          exact calling
        · simp [count, unique old oldMember oldNamed]
      · exact absurd unused (Nat.not_le.mpr aside.allocated)
    · refine (aside.tracked other same).congr (fun asked named => ?_) rfl rfl
      simp only [noteSent, List.mem_map]
      constructor
      · rintro ⟨old, oldMember, rfl⟩
        split at named
        · next here => exact absurd (named.symm.trans here) same
        · next away =>
            rw [if_neg away]
            exact oldMember
      · intro member
        refine ⟨asked, member, if_neg ?_⟩
        rw [named]
        exact same

theorem resend_updates (packet : SrPacket)
    : Updates outside packet.iface sr (resend outside packet sr) := by
  simp only [resend]
  cases found : sr.srGetInterface packet.iface with
  | none => exact .single (.nullPointer (Or.inl rfl) found)
  | some interface =>
      have named := SrInstance.srGetInterface_name found
      simp only [named]
      exact srHandlepacket_updates packet.buf

/-- Sweeping a request that was sent five times gives it up. -/
theorem sweepDue_limit {request : SrArpreq} {time : Int} {times : List Int}
    (consistent : sr.Consistent) (member : request ∈ sr.requests)
    (calling : Calling request.address times (sr.history request.address))
    (count : times.length = request.timesSent)
    (apart : ∀ earlier ∈ times.getLast?, earlier + 1 ≤ time) (limit : request.timesSent ≥ 5)
    : (sweepDue outside time request sr).Swept := by
  have five : times.length = 5 :=
    Nat.le_antisymm calling.calls.atMostFive (by rw [count]; exact limit)
  have givenUp : GivenUp request.address request.packets [] times
      ((sr.record (.limitReached request.address time request.packets)).history
        request.address) := by
    refine ⟨calling.calls, five, time, apart, ?_⟩
    rw [SrInstance.history_record, calling.history]
    simp [Event.about]
  have aside : (sr.record (.limitReached request.address time request.packets)).Aside
      request.address :=
    (consistent.aside member).record fun other away => by
      simpa [Event.about] using away.symm
  obtain ⟨after, all, reported, inOrder, complete⟩ :=
    reportLoop_givenUp outside (List.nil_append _) givenUp aside
  rw [sweepDue, if_pos limit]
  refine destroyAfter_swept after (fun faulty => ?_) (fun clean => ?_)
  · exact .givenUp reported inOrder (fun clean => absurd clean faulty)
  · exact Or.inr ⟨_, times, complete clean ▸ reported⟩

/-- Sweeping a request whose IP is in the cache sends its packets again. -/
theorem sweepDue_resolved {request : SrArpreq} {time : Int} {entry : SrArpentry}
    (consistent : sr.Consistent) (member : request ∈ sr.requests)
    (more : ¬ request.timesSent ≥ 5)
    (resolved : srArpcacheLookup sr.entries request.ip = some entry)
    : (sweepDue outside time request sr).Swept := by
  have resent : (packetLoop (resend outside) request.packets sr).Consistent
      ∧ request.address < (packetLoop (resend outside) request.packets sr).nextAddress := by
    refine packetLoop_invariant
      (fun now => now.Consistent ∧ request.address < now.nextAddress) ?_
      ⟨consistent, consistent.queued.allocated request member⟩
    intro packet _ now held
    have updates : Updates outside packet.iface now (resend outside packet now) :=
      resend_updates packet
    exact ⟨updates.consistent held.1, Nat.lt_of_lt_of_le held.2 updates.allocated⟩
  have aside : (packetLoop (resend outside) request.packets sr).Aside request.address :=
    ⟨resent.1.queued, fun other _ => resent.1.tracked other, resent.2⟩
  simp only [sweepDue, if_neg more, resolved]
  exact destroyAfter_swept aside
    (fun _ => (resent.1.tracked request.address).lifeCycle)
    (fun _ => (resent.1.tracked request.address).anyway)

/-- Sweeping a request whose IP is not in the cache asks once more. -/
theorem sweepDue_unresolved {request : SrArpreq} {time : Int} {times : List Int}
    (consistent : sr.Consistent) (member : request ∈ sr.requests)
    (calling : Calling request.address times (sr.history request.address))
    (count : times.length = request.timesSent)
    (apart : ∀ earlier ∈ times.getLast?, earlier + 1 ≤ time) (more : ¬ request.timesSent ≥ 5)
    (unresolved : srArpcacheLookup sr.entries request.ip = none)
    : (sweepDue outside time request sr).Swept := by
  have called : Calling request.address (times ++ [time])
      ((sr.record (.arpRequest request.address time)).history request.address) := by
    have fewer : times.length < 5 := by rw [count]; exact Nat.not_le.mp more
    rw [SrInstance.history_record]
    simpa [Event.about] using calling.call fewer apart
  have aside : (sr.record (.arpRequest request.address time)).Aside request.address :=
    (consistent.aside member).record fun other away => by
      simpa [Event.about] using away.symm
  have updates : Updates outside "" (sr.record (.arpRequest request.address time))
      (srArpRequest request.ip (sr.record (.arpRequest request.address time))) :=
    srArpRequest_updates request.ip
  rw [← updates.history] at called
  have after := updates.aside aside
  simp only [sweepDue, if_neg more, unresolved]
  split
  · next faulty =>
      refine ⟨fun other => ?_, fun clean => ?_⟩
      · by_cases same : other = request.address
        · rw [same]
          exact .calling called
        · exact (after.tracked other same).lifeCycle
      · simp [clean] at faulty
  · refine (noteSent_consistent after ?_ called count).swept
    intro other otherMember named
    rw [srArpRequest_requests] at otherMember
    have same : other = request :=
      List.inj_on_of_nodup_map consistent.queued.distinct otherMember member named
    rw [same]

/-- Sweeping a request that is due gives it up, sends its packets again, or asks once more. -/
theorem sweepDue_swept {request : SrArpreq} {time : Int} (consistent : sr.Consistent)
    (member : request ∈ sr.requests) (due : time - request.sent ≥ 1)
    : (sweepDue outside time request sr).Swept := by
  obtain ⟨times, calling, count, last⟩ :=
    (consistent.tracked request.address).outstanding request member rfl
  have apart : ∀ earlier ∈ times.getLast?, earlier + 1 ≤ time := by
    intro earlier ends
    have sent := last earlier ends
    omega
  by_cases limit : request.timesSent ≥ 5
  · exact sweepDue_limit consistent member calling count apart limit
  · cases known : srArpcacheLookup sr.entries request.ip with
    | some entry => exact sweepDue_resolved consistent member limit known
    | none => exact sweepDue_unresolved consistent member calling count apart limit known

theorem SrInstance.Consistent.tick (consistent : sr.Consistent) : sr.tick.Consistent :=
  ⟨⟨consistent.queued.distinct, consistent.queued.allocated⟩,
    fun address => (consistent.tracked address).congr (fun _ _ => Iff.rfl) rfl rfl⟩

theorem sweepRequest_swept (consistent : sr.Consistent)
    : (sweepRequest outside address sr).Swept := by
  simp only [sweepRequest]
  split
  · exact consistent.swept
  · next request found =>
      split
      · next due =>
          exact sweepDue_swept consistent.tick (List.mem_of_find?_eq_some found) due
      · exact consistent.tick.swept

/-- The sweep keeps the life cycle of every request, by induction on those it visits. -/
theorem sweepLoop_swept {addresses : List Nat} (consistent : sr.Consistent)
    : (sweepLoop outside addresses sr).Swept := by
  induction addresses generalizing sr with
  | nil => exact consistent.swept
  | cons address next ih =>
      have swept : (sweepRequest outside address sr).Swept := sweepRequest_swept consistent
      simp only [sweepLoop]
      split
      · exact swept
      · next clean => exact ih (swept.consistent (by simpa using clean))

theorem reportUnreachable_onlyReports (address : Nat) (packet : SrPacket)
    (only : sr.OnlyReports)
    : (reportUnreachable outside address packet sr).OnlyReports := by
  have updates := reportUnreachable_made outside address packet sr
  refine updates.onlyReports ?_
  -- The report and the message it is made with cancel out
  simp only [SrInstance.OnlyReports, SrInstance.record, List.filterMap_append] at only ⊢
  rw [only, List.append_assoc, List.append_assoc]
  rfl

theorem destroyAfter_onlyReports (address : Nat) (only : sr.OnlyReports)
    : (destroyAfter address sr).OnlyReports := by
  unfold destroyAfter
  split <;> exact only

theorem sweepDue_onlyReports (time : Int) (request : SrArpreq) (only : sr.OnlyReports)
    : (sweepDue outside time request sr).OnlyReports := by
  simp only [sweepDue]
  split
  · refine destroyAfter_onlyReports _ (packetLoop_invariant SrInstance.OnlyReports ?_ ?_)
    · exact fun packet _ _ held => reportUnreachable_onlyReports _ packet held
    · exact only.record rfl
  · split
    · refine destroyAfter_onlyReports _ (packetLoop_invariant SrInstance.OnlyReports ?_ only)
      intro packet _ now held
      have updates : Updates outside packet.iface now (resend outside packet now) :=
        resend_updates packet
      exact updates.onlyReports held
    · have updates : Updates outside "" (sr.record (.arpRequest request.address time))
          (srArpRequest request.ip (sr.record (.arpRequest request.address time))) :=
        srArpRequest_updates request.ip
      have asked := updates.onlyReports (only.record rfl)
      split <;> exact asked

theorem sweepRequest_onlyReports (address : Nat) (only : sr.OnlyReports)
    : (sweepRequest outside address sr).OnlyReports := by
  simp only [sweepRequest]
  split
  · exact only
  · split
    · exact sweepDue_onlyReports _ _ only
    · exact only

end Sweep

-----------------------------------------------------------------------------------------
-- Runs
-----------------------------------------------------------------------------------------

theorem srInit_consistent (ifList : List SrIf) (routingTable : List SrRt)
    : (srInit ifList routingTable).Consistent where
  queued := ⟨.nil, by simp [srInit]⟩
  tracked := fun _ =>
    ⟨by simp [srInit], fun _ => Or.inl ⟨[], ⟨by decide, .nil⟩, rfl⟩, fun _ => rfl⟩

theorem Action.run_swept (outside : Outside) {sr : SrInstance} (action : Action)
    (consistent : sr.Consistent)
    : (action.run outside sr).Swept := by
  cases action with
  | receive packet interface =>
      have updates : Updates outside interface sr (srHandlepacket outside packet interface sr) :=
        srHandlepacket_updates packet
      exact (updates.consistent consistent).swept
  | timeout =>
      have expired : (Action.timeout.run outside sr).Consistent :=
        ⟨⟨consistent.queued.distinct, consistent.queued.allocated⟩,
          fun address => (consistent.tracked address).congr (fun _ _ => Iff.rfl) rfl rfl⟩
      exact expired.swept
  | sweepreqs => exact sweepLoop_swept consistent
  | queuereq ip packet =>
      exact (SrInstance.Consistent.mk (consistent.queued.queuereq ip packet)
        fun address => (consistent.tracked address).queuereq ip packet).swept

theorem Action.run_onlyReports (outside : Outside) {sr : SrInstance} (action : Action)
    (only : sr.OnlyReports)
    : (action.run outside sr).OnlyReports := by
  cases action with
  | receive packet interface =>
      have updates : Updates outside interface sr (srHandlepacket outside packet interface sr) :=
        srHandlepacket_updates packet
      exact updates.onlyReports only
  | timeout => exact only
  | sweepreqs =>
      exact sweepLoop_invariant SrInstance.OnlyReports
        (fun address _ held => sweepRequest_onlyReports address held) only
  | queuereq ip packet =>
      change SrInstance.OnlyReports (srArpcacheQueuereq ip packet sr)
      rw [SrInstance.OnlyReports, srArpcacheQueuereq_log]
      exact only

/-- What every run keeps about its request objects and reports. -/
theorem runFrom_consistent {outside : Outside} {ifList : List SrIf} {routingTable : List SrRt}
    {actions : List Action} {sr : SrInstance}
    (reached : runFrom outside ifList routingTable actions = some sr)
    : sr.Consistent ∧ sr.OnlyReports := by
  refine StepRuns.exec_invariant (fun now => now.Consistent ∧ now.OnlyReports) ?_
    ⟨srInit_consistent ifList routingTable, rfl⟩ reached
  intro now done next held taken
  obtain ⟨rfl, clean⟩ := step_eq_some taken
  exact ⟨(Action.run_swept outside done held.1).consistent clean,
    Action.run_onlyReports outside done held.2⟩

/-- In every run every request object lives as specified, also in a step that ends the run:
at most five calls of `sr_arp_request`, a second apart, and reports only after all five and
another second, one for each waiting packet. No other host unreachable message is made.
-/
theorem runFrom_lifeCycle (outside : Outside) {ifList : List SrIf} {routingTable : List SrRt}
    {actions : List Action} {sr : SrInstance}
    (reached : runFrom outside ifList routingTable actions = some sr) (action : Action)
    : (∀ address, (action.run outside sr).LifeCycle address)
      ∧ (action.run outside sr).OnlyReports := by
  have held := runFrom_consistent reached
  exact ⟨(Action.run_swept outside action held.1).lifeCycle,
    Action.run_onlyReports outside action held.2⟩

/-- The rule at the sweep that gives a request up, six seconds after its packet came. -/
theorem runFrom_lifeCycle_givenUp
    : let queued := srHandlepacket quietOutside (smallDatagram 64 0xe066) "eth0" oneRoute
      let asked := (srArpcacheSweepreqs quietOutside)^[5] queued
      (∀ address, (Action.sweepreqs.run quietOutside asked).LifeCycle address)
      ∧ (Action.sweepreqs.run quietOutside asked).OnlyReports := by
  have reached : runFrom quietOutside oneRoute.ifList oneRoute.routingTable
      (.receive (smallDatagram 64 0xe066) "eth0" :: List.replicate 5 .sweepreqs)
      = some ((srArpcacheSweepreqs quietOutside)^[5]
          (srHandlepacket quietOutside (smallDatagram 64 0xe066) "eth0" oneRoute)) := by
    decide +kernel
  exact runFrom_lifeCycle quietOutside reached .sweepreqs

end Networks.Router
