import Networks.Router.Requests

/-! How the sweep gets from one request to the next. It reads the link of a request after it
has dealt with the request; when it has destroyed it, the link is read in freed memory.
-/

namespace Networks.Router

/-- `req->next` of the request object at an address. A request that is not on the queue any
more has been freed.
-/
def linkAt (address : Nat) : List SrArpreq → Option (Option Nat)
  | [] => none
  | request :: behind =>
      if request.address = address then
        some (behind.head?.map SrArpreq.address)
      else
        linkAt address behind

/-- A traversal of the queue: the requests examined, the request whose link was read after it
was freed, and the router when the traversal ended.
-/
structure Traversal where
  examined : List Nat
  freedRead : Option Nat
  sr : SrInstance

def Traversal.after (address : Nat) (rest : Traversal) : Traversal :=
  { rest with examined := address :: rest.examined }

/-- The loop of `sr_arpcache_sweepreqs` with the links it follows. A fault ends it, and so does
the first read of freed memory: nothing is known about what is found there.
-/
def traverse (outside : Outside) : Nat → Option Nat → SrInstance → Option Traversal
  | _, none, sr => some ⟨[], none, sr⟩
  | 0, some _, _ => none
  | fuel + 1, some address, sr =>
      let sr := sweepRequest outside address sr
      if sr.fault.isSome then
        some ⟨[address], none, sr⟩
      else
        match linkAt address sr.requests with
        | none => some ⟨[address], some address, sr⟩
        | some next => (traverse outside fuel next sr).map (Traversal.after address)

/-- The traversal of the queue from `cache->requests` on. -/
def traverseRequests (outside : Outside) (sr : SrInstance) : Option Traversal :=
  traverse outside sr.requests.length (sr.requests.head?.map SrArpreq.address) sr

/-- Each request of the queue was examined once, without a fault, and no freed link was read.
-/
structure VisitsSafely (queue : List SrArpreq) (run : Traversal) : Prop where
  once : ∀ request ∈ queue, run.examined.count request.address = 1
  unfreed : run.freedRead = none
  unharmed : run.sr.fault = none

/-- The sweep that reaches a request after `index` others neither gives it up nor finds it
resolved: it was sent in the last second, or less than five times, and can be sent again.
-/
def SrInstance.Spares (outside : Outside) (sr : SrInstance) (index : Nat)
    (request : SrArpreq)
    : Prop :=
  outside.clock (sr.ticks + index) - request.sent < 1
  ∨ request.timesSent < 5 ∧ srArpcacheLookup sr.entries request.ip = none
    ∧ ∀ nexthop, sr.longestprefixmatch request.ip = some nexthop
      → (sr.srGetInterface nexthop.interface).isSome

/-- The sweep spares every request on a queue that it reaches after `start` others. -/
def SrInstance.SparesAll (outside : Outside) (sr : SrInstance) (queue : List SrArpreq)
    : Prop :=
  ∀ index request, queue[index]? = some request → sr.Spares outside index request

-----------------------------------------------------------------------------------------
-- Links
-----------------------------------------------------------------------------------------

theorem linkAt_of_gone {address : Nat} {requests : List SrArpreq}
    (gone : ∀ request ∈ requests, request.address ≠ address)
    : linkAt address requests = none := by
  induction requests with
  | nil => rfl
  | cons request rest ih =>
      rw [linkAt, if_neg (gone request List.mem_cons_self)]
      exact ih fun other member => gone other (List.mem_cons_of_mem _ member)

theorem linkAt_append {address : Nat} {before : List SrArpreq} {request : SrArpreq}
    {behind : List SrArpreq} (others : ∀ other ∈ before, other.address ≠ address)
    (here : request.address = address)
    : linkAt address (before ++ request :: behind)
      = some (behind.head?.map SrArpreq.address) := by
  induction before with
  | nil => rw [List.nil_append, linkAt, if_pos here]
  | cons other rest ih =>
      rw [List.cons_append, linkAt, if_neg (others other List.mem_cons_self)]
      exact ih fun earlier member => others earlier (List.mem_cons_of_mem _ member)

/-- In a queue of distinct requests a request is found by its address, and no request before
or behind it has that address.
-/
theorem distinct_split {before behind : List SrArpreq} {request : SrArpreq}
    (distinct : ((before ++ request :: behind).map SrArpreq.address).Nodup)
    : (before ++ request :: behind).find? (fun other => other.address == request.address)
        = some request
      ∧ (∀ other ∈ before, other.address ≠ request.address)
      ∧ ∀ other ∈ behind, other.address ≠ request.address := by
  rw [List.map_append, List.map_cons, List.nodup_append] at distinct
  obtain ⟨-, ends, apart⟩ := distinct
  have front : ∀ other ∈ before, other.address ≠ request.address := fun other member =>
    apart _ (List.mem_map_of_mem member) _ List.mem_cons_self
  refine ⟨?_, front, fun other member same => ?_⟩
  · have passed : before.find? (fun other => other.address == request.address) = none :=
      List.find?_eq_none.mpr fun other member => by simpa using front other member
    rw [List.find?_append, passed, List.find?_cons_of_pos (by simp)]
    rfl
  · exact (List.nodup_cons.mp ends).1 (same ▸ List.mem_map_of_mem member)

-----------------------------------------------------------------------------------------
-- One request
-----------------------------------------------------------------------------------------

section Request

variable {outside : Outside} {sr : SrInstance} {before behind : List SrArpreq}
  {request : SrArpreq}

/-- What a sweep has done after it has spared a request: the queue holds the same objects, and
of the rest of the router only the log and the clock have moved.
-/
structure Spared (before behind : List SrArpreq) (request : SrArpreq)
    (sr next : SrInstance)
    : Prop where
  unharmed : next.fault = none
  ticks : next.ticks = sr.ticks + 1
  entries : next.entries = sr.entries
  tables : SameTables sr next
  requests
    : ∃ kept, kept.address = request.address ∧ next.requests = before ++ kept :: behind
  allocated : next.nextAddress = sr.nextAddress

/-- Counting a call changes the request that was called for, and no other. -/
theorem noteSent_requests (time : Int)
    (distinct : ((before ++ request :: behind).map SrArpreq.address).Nodup)
    (queue : sr.requests = before ++ request :: behind)
    : (noteSent request.address time sr).requests
      = before
        ++ { request with timesSent := request.timesSent + 1, sent := time } :: behind := by
  obtain ⟨-, front, back⟩ := distinct_split distinct
  have untouched : ∀ {others : List SrArpreq},
      (∀ other ∈ others, other.address ≠ request.address)
      → others.map (fun other =>
          if other.address = request.address then
            { other with timesSent := other.timesSent + 1, sent := time }
          else
            other)
        = others := fun apart =>
    (List.map_congr_left fun other member => if_neg (apart other member)).trans (List.map_id _)
  rw [noteSent, queue]
  simp only [List.map_append, List.map_cons, untouched front, untouched back, if_true]

/-- A call of `sr_arp_request` that finds an interface changes nothing but the log. -/
theorem srArpRequest_sendable (ip : UInt32) (sr : SrInstance)
    (sendable
      : ∀ nexthop, sr.longestprefixmatch ip = some nexthop
        → (sr.srGetInterface nexthop.interface).isSome)
    : ∃ log, srArpRequest ip sr = { sr with log := log } := by
  rw [srArpRequest]
  cases route : sr.longestprefixmatch ip with
  | none => exact ⟨sr.log, rfl⟩
  | some nexthop =>
      obtain ⟨interface, found⟩ := Option.isSome_iff_exists.mp (sendable nexthop route)
      simp only [found]
      exact ⟨_, rfl⟩

theorem srArpRequest_unsendable (ip : UInt32) (sr : SrInstance)
    (unsendable
      : ¬ ∀ nexthop, sr.longestprefixmatch ip = some nexthop
        → (sr.srGetInterface nexthop.interface).isSome)
    : (srArpRequest ip sr).fault.isSome := by
  rw [srArpRequest]
  cases route : sr.longestprefixmatch ip with
  | none => simp [route] at unsendable
  | some nexthop =>
      have missing : sr.srGetInterface nexthop.interface = none := by
        simpa [route] using unsendable
      simp only [missing]
      rfl

/-- The sweep finds the request at its address, and reads the clock. -/
theorem sweepRequest_at (outside : Outside)
    (distinct : ((before ++ request :: behind).map SrArpreq.address).Nodup)
    (queue : sr.requests = before ++ request :: behind)
    : sweepRequest outside request.address sr
      = if outside.clock sr.ticks - request.sent ≥ 1 then
          sweepDue outside (outside.clock sr.ticks) request sr.tick
        else
          sr.tick := by
  simp only [sweepRequest, queue, (distinct_split distinct).1]

theorem sweepRequest_spares (clean : sr.fault = none)
    (distinct : ((before ++ request :: behind).map SrArpreq.address).Nodup)
    (queue : sr.requests = before ++ request :: behind) (spares : sr.Spares outside 0 request)
    : Spared before behind request sr (sweepRequest outside request.address sr) := by
  rw [sweepRequest_at outside distinct queue]
  split
  · next due =>
      obtain recent | ⟨few, unresolved, sendable⟩ := spares
      · rw [Nat.add_zero] at recent
        omega
      have called : srArpcacheLookup sr.tick.entries request.ip = none := unresolved
      obtain ⟨log, asked⟩ := srArpRequest_sendable request.ip
        (sr.tick.record (.arpRequest request.address (outside.clock sr.ticks))) sendable
      rw [sweepDue, if_neg (Nat.not_le.mpr few)]
      simp only [called, asked]
      rw [if_neg (by simp [SrInstance.record, SrInstance.tick, clean])]
      exact
        { unharmed := clean
          ticks := rfl
          entries := rfl
          tables := ⟨rfl, rfl⟩
          requests :=
            ⟨{ request with
                timesSent := request.timesSent + 1, sent := outside.clock sr.ticks },
              rfl, noteSent_requests _ distinct queue⟩
          allocated := rfl }
  · exact
      { unharmed := clean
        ticks := rfl
        entries := rfl
        tables := ⟨rfl, rfl⟩
        requests := ⟨request, rfl, queue⟩
        allocated := rfl }

/-- A request that a loop over its packets was run for is destroyed, unless a fault ends the
run.
-/
theorem destroyAfter_gone {address : Nat} (queued : sr.Queued)
    : (destroyAfter address sr).fault.isSome
      ∨ ∀ other ∈ (destroyAfter address sr).requests, other.address ≠ address := by
  unfold destroyAfter
  split
  · next faulty => exact Or.inl faulty
  · exact Or.inr fun other member => destroyed_gone queued.distinct member

theorem sweepRequest_destroys (queued : sr.Queued)
    (queue : sr.requests = before ++ request :: behind)
    (destroys : ¬ sr.Spares outside 0 request)
    : (sweepRequest outside request.address sr).fault.isSome
      ∨ ∀ other ∈ (sweepRequest outside request.address sr).requests,
          other.address ≠ request.address := by
  obtain ⟨recent, taken⟩ := not_or.mp destroys
  rw [Nat.add_zero] at recent
  rw [sweepRequest_at outside (queue ▸ queued.distinct) queue, if_pos (by omega), sweepDue]
  have ticked : sr.tick.Queued := ⟨queued.distinct, queued.allocated⟩
  split
  · refine destroyAfter_gone (packetLoop_invariant SrInstance.Queued ?_ ?_)
    · intro packet _ now held
      have updates := reportUnreachable_made outside request.address packet now
      exact updates.queued ⟨held.distinct, held.allocated⟩
    · exact ⟨ticked.distinct, ticked.allocated⟩
  · next few =>
      cases found : srArpcacheLookup sr.tick.entries request.ip with
      | some entry =>
          refine destroyAfter_gone (packetLoop_invariant SrInstance.Queued ?_ ticked)
          intro packet _ now held
          unfold resend
          split
          · exact ⟨held.distinct, held.allocated⟩
          · exact (srHandlepacket_updates packet.buf).queued held
      | none =>
          have unsendable := fun sendable =>
            taken ⟨Nat.not_le.mp few, found, sendable⟩
          have faulty := srArpRequest_unsendable request.ip
            (sr.tick.record (.arpRequest request.address (outside.clock sr.ticks))) unsendable
          simp only [if_pos faulty]
          exact Or.inl faulty

theorem Spared.queued {next : SrInstance} (spared : Spared before behind request sr next)
    (queued : sr.Queued) (queue : sr.requests = before ++ request :: behind)
    : next.Queued := by
  obtain ⟨kept, same, requests⟩ := spared.requests
  have addresses : next.requests.map SrArpreq.address = sr.requests.map SrArpreq.address := by
    rw [requests, queue, List.map_append, List.map_append, List.map_cons, List.map_cons, same]
  refine ⟨addresses ▸ queued.distinct, fun other member => ?_⟩
  obtain ⟨old, listed, named⟩ := List.mem_map.mp (addresses ▸ List.mem_map_of_mem member)
  rw [spared.allocated, ← named]
  exact queued.allocated old listed

/-- Sparing one request changes nothing for those behind it. -/
theorem Spared.spares_iff {next : SrInstance} (spared : Spared before behind request sr next)
    (index : Nat) (later : SrArpreq)
    : next.Spares outside index later ↔ sr.Spares outside (index + 1) later := by
  have clock : next.ticks + index = sr.ticks + (index + 1) := by
    rw [spared.ticks]
    omega
  simp only [SrInstance.Spares, SrInstance.longestprefixmatch, SrInstance.srGetInterface, clock,
    spared.entries, spared.tables.ifList, spared.tables.routingTable]

theorem Spared.sparesAll_iff {next : SrInstance} (spared : Spared before behind request sr next)
    (spares : sr.Spares outside 0 request)
    : sr.SparesAll outside (request :: behind) ↔ next.SparesAll outside behind := by
  constructor
  · intro all index later listed
    exact (spared.spares_iff index later).mpr (all (index + 1) later listed)
  · intro all index later listed
    cases index with
    | zero =>
        obtain rfl : request = later := by simpa using listed
        exact spares
    | succ index => exact (spared.spares_iff index later).mp (all index later listed)

end Request

-----------------------------------------------------------------------------------------
-- The whole queue
-----------------------------------------------------------------------------------------

/-- How a traversal of the rest of the queue ends. -/
structure Traversed (outside : Outside) (queue : List SrArpreq) (sr : SrInstance)
    (run : Traversal)
    : Prop where
  spared
    : sr.SparesAll outside queue
      → run.examined = queue.map SrArpreq.address ∧ run.freedRead = none
        ∧ run.sr.fault = none
  destroyed : ¬ sr.SparesAll outside queue → run.freedRead ≠ none ∨ run.sr.fault ≠ none
  sweeps
    : run.freedRead = none → run.sr = sweepLoop outside (queue.map SrArpreq.address) sr

/-- The traversal ends, by induction on the requests left: a spared request leads to the one
behind it, any other ends the traversal.
-/
theorem traverse_ends (outside : Outside) {sr : SrInstance} {before queue : List SrArpreq}
    (queued : sr.Queued) (clean : sr.fault = none) (requests : sr.requests = before ++ queue)
    : ∃ run,
        traverse outside queue.length (queue.head?.map SrArpreq.address) sr = some run
        ∧ Traversed outside queue sr run := by
  induction queue generalizing sr before with
  | nil =>
      refine ⟨⟨[], none, sr⟩, rfl, fun _ => ⟨rfl, rfl, clean⟩, fun destroys => ?_,
        fun _ => rfl⟩
      exact absurd (fun index request listed => by simp at listed) destroys
  | cons request behind ih =>
      have distinct := requests ▸ queued.distinct
      by_cases spares : sr.Spares outside 0 request
      · have spared := sweepRequest_spares clean distinct requests spares
        obtain ⟨kept, same, left⟩ := spared.requests
        have link : linkAt request.address (sweepRequest outside request.address sr).requests
            = some (behind.head?.map SrArpreq.address) := by
          rw [left]
          exact linkAt_append (distinct_split distinct).2.1 same
        have nextRequests : (sweepRequest outside request.address sr).requests
            = (before ++ [kept]) ++ behind := by
          rw [left, List.append_assoc, List.singleton_append]
        obtain ⟨run, ends, traversed⟩ :=
          ih (spared.queued queued requests) spared.unharmed nextRequests
        refine ⟨run.after request.address, ?_, ?_, ?_, ?_⟩
        · simp only [List.length_cons, List.head?_cons, Option.map_some, traverse,
            spared.unharmed, Option.isSome_none, Bool.false_eq_true, if_false, link, ends]
        · intro all
          obtain ⟨examined, unfreed, unharmed⟩ :=
            traversed.spared ((spared.sparesAll_iff spares).mp all)
          exact ⟨congrArg (request.address :: ·) examined, unfreed, unharmed⟩
        · intro destroys
          exact traversed.destroyed
            fun all => destroys ((spared.sparesAll_iff spares).mpr all)
        · intro unfreed
          simp only [List.map_cons, sweepLoop, spared.unharmed, Option.isSome_none,
            Bool.false_eq_true, if_false]
          exact traversed.sweeps unfreed
      · have notAll : ¬ sr.SparesAll outside (request :: behind) := fun all =>
          spares (all 0 request rfl)
        by_cases faulty : (sweepRequest outside request.address sr).fault.isSome = true
        · refine ⟨⟨[request.address], none, sweepRequest outside request.address sr⟩, ?_,
            fun all => absurd all notAll, fun _ => Or.inr (Option.isSome_iff_ne_none.mp faulty),
            fun _ => ?_⟩
          · simp only [List.length_cons, List.head?_cons, Option.map_some, traverse, if_pos faulty]
          · simp only [List.map_cons, sweepLoop, if_pos faulty]
        · have gone := (sweepRequest_destroys queued requests spares).resolve_left faulty
          refine ⟨⟨[request.address], some request.address,
            sweepRequest outside request.address sr⟩, ?_, fun all => absurd all notAll,
            fun _ => Or.inl (by simp), fun unfreed => by simp at unfreed⟩
          simp only [List.length_cons, List.head?_cons, Option.map_some, traverse,
            if_neg faulty, linkAt_of_gone gone]

/-- While no freed link is read, the traversal is the sweep. -/
theorem traverseRequests_sweeps (outside : Outside) {sr : SrInstance} (queued : sr.Queued)
    (clean : sr.fault = none)
    : ∃ run,
        traverseRequests outside sr = some run
        ∧ (run.freedRead = none → run.sr = srArpcacheSweepreqs outside sr) := by
  obtain ⟨run, ends, traversed⟩ :=
    traverse_ends outside queued clean (List.nil_append sr.requests).symm
  exact ⟨run, ends, traversed.sweeps⟩

/-- A sweep visits every request safely just when it destroys none: the link of a destroyed
request is read in freed memory.
-/
theorem traverseRequests_safe_iff (outside : Outside) {sr : SrInstance} (queued : sr.Queued)
    (clean : sr.fault = none)
    : ∃ run,
        traverseRequests outside sr = some run
        ∧ (VisitsSafely sr.requests run ↔ sr.SparesAll outside sr.requests) := by
  obtain ⟨run, ends, traversed⟩ :=
    traverse_ends outside queued clean (List.nil_append sr.requests).symm
  refine ⟨run, ends, ?_, fun spares => ?_⟩
  · intro safe
    by_contra destroys
    rcases traversed.destroyed destroys with freed | harmed
    · exact freed safe.unfreed
    · exact harmed safe.unharmed
  · obtain ⟨examined, unfreed, unharmed⟩ := traversed.spared spares
    refine ⟨fun request member => ?_, unfreed, unharmed⟩
    rw [examined]
    exact List.count_eq_one_of_mem queued.distinct (List.mem_map_of_mem member)

/-- A router with a request for its gateway that was sent `times` times, last at zero. -/
def askedRouter (times : Nat) : SrInstance :=
  { srInit [⟨"eth0", Vector.replicate 6 0x02, 0x0900000a⟩] [⟨0, 0x0300000a, 0, "eth0"⟩] with
    requests := [⟨0, 0x0300000a, 0, times, []⟩]
    nextAddress := 1 }

theorem askedRouter_queued (times : Nat) : (askedRouter times).Queued :=
  ⟨List.nodup_singleton 0, by simp [askedRouter]⟩

/-- The rule at a request that is sent once more. -/
theorem traverseRequests_safe_iff_asked
    : ∃ run,
        traverseRequests ⟨fun _ => 1, fun _ _ => 0⟩ (askedRouter 4) = some run
        ∧ (VisitsSafely (askedRouter 4).requests run
          ↔ (askedRouter 4).SparesAll ⟨fun _ => 1, fun _ _ => 0⟩ (askedRouter 4).requests) :=
  traverseRequests_safe_iff _ (askedRouter_queued 4) rfl

/-- After five calls the request is destroyed, and its link read. -/
theorem sixth_sweep_reads_freed
    : ¬ ∀ (outside : Outside) (sr : SrInstance), sr.Queued → sr.fault = none
        → ∃ run, traverseRequests outside sr = some run ∧ VisitsSafely sr.requests run := by
  intro always
  obtain ⟨run, ends, safe⟩ :=
    always ⟨fun _ => 1, fun _ _ => 0⟩ (askedRouter 5) (askedRouter_queued 5) rfl
  have freed : (traverseRequests ⟨fun _ => 1, fun _ _ => 0⟩ (askedRouter 5)).map
      Traversal.freedRead = some (some 0) := by
    decide +kernel
  rw [ends, Option.map_some, safe.unfreed] at freed
  cases freed

end Networks.Router
