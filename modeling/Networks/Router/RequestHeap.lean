import Networks.Library.LinkedHeap
import Networks.Router.Traversal

/-! The ARP request queue as it lies on the heap: a linked list of requests, each with a linked
list of packets. Definitions follow `sr_arpcache_queuereq` and `sr_arpreq_destroy`. They do to
the linked lists what the functions of the router model do to its list of requests.
-/

namespace Networks.Router

open LinkedHeap

/-- `sr_packet`. Its buffer and its interface name are copies that belong to it. -/
structure PacketCell where
  packet : SrPacket
  next : Option Nat

/-- `sr_arpreq`. -/
structure ArpreqCell where
  ip : UInt32
  sent : Int
  timesSent : Nat
  packets : Option Nat
  next : Option Nat

/-- `cache->requests`, and the memory it leads to. -/
structure RequestHeap where
  arpreqs : Heap ArpreqCell
  packets : Heap PacketCell
  requests : Option Nat

namespace RequestHeap

/-- The queue after `sr_arpcache_init`. -/
def init : RequestHeap := ⟨.empty, .empty, none⟩

/-- The new request of `sr_arpcache_queuereq`. -/
def openRequest (ip : UInt32) (heap : RequestHeap) : RequestHeap :=
  { heap with
    arpreqs :=
      heap.arpreqs.alloc
        { ip := ip, sent := 0, timesSent := 0, packets := none, next := heap.requests }
    requests := some heap.arpreqs.top }

/-- The new packet of `sr_arpcache_queuereq`, in front of those of the request. -/
def storePacket (req : Nat) (packet : SrPacket) (heap : RequestHeap) : Option RequestHeap :=
  (heap.arpreqs.cell req).bind fun cell =>
    (heap.arpreqs.write req fun cell =>
        { cell with packets := some heap.packets.top }).map fun arpreqs =>
      { heap with arpreqs := arpreqs, packets := heap.packets.alloc ⟨packet, cell.packets⟩ }

/-- The packet that `sr_arpcache_queuereq` stores: `packet && packet_len && iface`. Of the name
`strncpy` copies `sr_IFACE_NAMELEN` bytes, which is all of it: names come from arrays of that
size.
-/
def storedPacket : Option Frame → Option String → Option SrPacket
  | some packet, some iface => if packet = [] then none else some ⟨packet, iface⟩
  | _, _ => none

/-- `sr_arpcache_queuereq`, with the request it returns. -/
def queuereq (ip : UInt32) (packet : Option Frame) (iface : Option String)
    (heap : RequestHeap)
    : Option (RequestHeap × Nat) :=
  (seek ArpreqCell.next (fun _ req => req.ip == ip) heap.arpreqs heap.arpreqs.top none
      heap.requests).bind fun found =>
    let req := found.2.getD heap.arpreqs.top
    let heap := if found.2.isSome then heap else heap.openRequest ip
    match storedPacket packet iface with
    | some new => (heap.storePacket req new).map fun heap => (heap, req)
    | none => some (heap, req)

/-- The first loop of `sr_arpreq_destroy`, and the unlinking in it. -/
def unlinkRequest (entry : Nat) (heap : RequestHeap) : Option RequestHeap :=
  (seek ArpreqCell.next (fun req _ => req == entry) heap.arpreqs heap.arpreqs.top none
      heap.requests).bind fun found =>
    match found with
    | (_, none) => some heap
    | (some prev, some req) =>
        (heap.arpreqs.cell req).bind fun cell =>
          (heap.arpreqs.write prev fun prev => { prev with next := cell.next }).map
            fun arpreqs => { heap with arpreqs := arpreqs }
    | (none, some req) =>
        (heap.arpreqs.cell req).map fun cell => { heap with requests := cell.next }

/-- `sr_arpreq_destroy`. -/
def destroy (entry : Nat) (heap : RequestHeap) : Option RequestHeap :=
  (heap.unlinkRequest entry).bind fun heap =>
    (heap.arpreqs.cell entry).bind fun cell =>
      (freeAll PacketCell.next heap.packets.top heap.packets cell.packets).bind fun packets =>
        (heap.arpreqs.free entry).map fun arpreqs =>
          { heap with arpreqs := arpreqs, packets := packets }

/-- The packets of a request, as its links lead to them. -/
def packetsFrom (heap : RequestHeap) (first : Option Nat) : Option (List SrPacket) :=
  (walk PacketCell.next heap.packets heap.packets.top first).map
    (List.map fun entry => entry.2.packet)

/-- The requests in the given cells. -/
def requestsIn (heap : RequestHeap) : List (Nat × ArpreqCell) → Option (List SrArpreq)
  | [] => some []
  | (address, cell) :: rest =>
      (heap.packetsFrom cell.packets).bind fun packets =>
        (heap.requestsIn rest).map
          (⟨address, cell.ip, cell.sent, cell.timesSent, packets⟩ :: ·)

/-- The requests on the queue, as the links from `cache->requests` lead to them. -/
def listing (heap : RequestHeap) : Option (List SrArpreq) :=
  (walk ArpreqCell.next heap.arpreqs heap.arpreqs.top heap.requests).bind heap.requestsIn

end RequestHeap

-----------------------------------------------------------------------------------------
-- What lies on the heap
-----------------------------------------------------------------------------------------

/-- A request lies on the heap, and so do its packets, at the given addresses. -/
def Stored (heap : RequestHeap) (owned : List Nat) (request : SrArpreq) : Prop :=
  ∃ first next,
    heap.arpreqs.cell request.address
      = some ⟨request.ip, request.sent, request.timesSent, first, next⟩
    ∧ Holds PacketCell.next PacketCell.packet heap.packets first owned request.packets

/-- The queue on the heap is the list of requests. No packet belongs to two of them. -/
structure Represents (heap : RequestHeap) (owned : Nat → List Nat)
    (requests : List SrArpreq)
    : Prop where
  chain
    : Chain ArpreqCell.next heap.arpreqs heap.requests (requests.map SrArpreq.address)
  stored : ∀ request ∈ requests, Stored heap (owned request.address) request
  apart
    : ∀ request ∈ requests, ∀ other ∈ requests, request.address ≠ other.address
      → ∀ address ∈ owned request.address, address ∉ owned other.address

section Heap

variable {heap other : RequestHeap} {owned : Nat → List Nat}
  {requests before behind : List SrArpreq} {request : SrArpreq}

/-- A request without its place in the queue. -/
def ArpreqCell.unlinked (cell : ArpreqCell) : ArpreqCell := { cell with next := none }

theorem Stored.packetsFrom {addresses : List Nat} (stored : Stored heap addresses request)
    {cell : ArpreqCell} (found : heap.arpreqs.cell request.address = some cell)
    : heap.packetsFrom cell.packets = some request.packets
      ∧ cell.ip = request.ip ∧ cell.sent = request.sent
      ∧ cell.timesSent = request.timesSent := by
  obtain ⟨first, next, same, holds⟩ := stored
  obtain rfl := Option.some.inj (found.symm.trans same)
  obtain ⟨cells, walked, packets⟩ := walk_holds holds holds.chain.length_le
  refine ⟨?_, rfl, rfl, rfl⟩
  simp only [RequestHeap.packetsFrom, walked, Option.map_some, packets]

/-- The cells of stored requests are read back as the requests, by induction on them. -/
theorem requestsIn_stored {cells : List (Nat × ArpreqCell)}
    (addresses : cells.map Prod.fst = requests.map SrArpreq.address)
    (holds : ∀ entry ∈ cells, heap.arpreqs.cell entry.1 = some entry.2)
    (stored : ∀ request ∈ requests, Stored heap (owned request.address) request)
    : heap.requestsIn cells = some requests := by
  induction requests generalizing cells with
  | nil =>
      obtain rfl := List.map_eq_nil_iff.mp addresses
      rfl
  | cons request rest ih =>
      cases cells with
      | nil => cases addresses
      | cons entry cells =>
          obtain ⟨address, cell⟩ := entry
          obtain ⟨here, later⟩ := List.cons.inj addresses
          have found : heap.arpreqs.cell request.address = some cell :=
            here ▸ holds _ List.mem_cons_self
          obtain ⟨packets, ip, sent, timesSent⟩ :=
            (stored request List.mem_cons_self).packetsFrom found
          have behind := ih later (fun entry member => holds entry (List.mem_cons_of_mem _ member))
            fun request member => stored request (List.mem_cons_of_mem _ member)
          simp only [RequestHeap.requestsIn, packets, behind, Option.bind_some, Option.map_some,
            ip, sent, timesSent]
          obtain rfl : address = request.address := here
          rfl

theorem Represents.listing (represents : Represents heap owned requests)
    : heap.listing = some requests := by
  obtain ⟨cells, walked, addresses, holds⟩ :=
    walk_lists represents.chain represents.chain.length_le
  rw [RequestHeap.listing, walked, Option.bind_some]
  exact requestsIn_stored addresses holds represents.stored

/-- A request stays stored when neither its fields nor its packets change. -/
theorem Stored.congr {addresses : List Nat} (stored : Stored heap addresses request)
    (fields
      : (other.arpreqs.cell request.address).map ArpreqCell.unlinked
        = (heap.arpreqs.cell request.address).map ArpreqCell.unlinked)
    (packets
      : ∀ address ∈ addresses, other.packets.cell address = heap.packets.cell address)
    : Stored other addresses request := by
  obtain ⟨first, next, same, holds⟩ := stored
  rw [same, Option.map_some] at fields
  obtain ⟨cell, found, kept⟩ := Option.map_eq_some_iff.mp fields
  obtain ⟨ip, sent, timesSent, start, link⟩ := cell
  simp only [ArpreqCell.unlinked, ArpreqCell.mk.injEq] at kept
  obtain ⟨rfl, rfl, rfl, rfl, -⟩ := kept
  exact ⟨start, link, found, holds.frame packets⟩

theorem Represents.found (represents : Represents heap owned (before ++ request :: behind))
    : ∃ cell, heap.arpreqs.cell request.address = some cell
        ∧ Chain PacketCell.next heap.packets cell.packets (owned request.address) := by
  obtain ⟨first, next, found, holds⟩ := represents.stored request (by simp)
  exact ⟨_, found, holds.chain⟩

/-- No other request lies at the address of a request. -/
theorem Represents.others (represents : Represents heap owned (before ++ request :: behind))
    {away : SrArpreq} (member : away ∈ before ++ behind)
    : away.address ≠ request.address := by
  have distinct := represents.chain.nodup
  rw [List.map_append, List.map_cons, List.nodup_middle, ← List.map_append] at distinct
  exact fun same => (List.nodup_cons.mp distinct).1 (same ▸ List.mem_map_of_mem member)

-----------------------------------------------------------------------------------------
-- Queueing
-----------------------------------------------------------------------------------------

theorem Represents.openRequest (represents : Represents heap owned requests) (ip : UInt32)
    : Represents (heap.openRequest ip) (Function.update owned heap.arpreqs.top [])
        (⟨heap.arpreqs.top, ip, 0, 0, []⟩ :: requests) := by
  have old : ∀ request ∈ requests, request.address ≠ heap.arpreqs.top := by
    intro request member
    obtain ⟨cell, found⟩ := represents.chain.found (List.mem_map_of_mem member)
    exact Nat.ne_of_lt (lt_top found)
  refine ⟨represents.chain.push rfl, ?_, ?_⟩
  · intro request member
    rcases List.mem_cons.mp member with rfl | before
    · rw [Function.update_self]
      exact ⟨none, heap.requests, cell_alloc_top _, .nil⟩
    · rw [Function.update_of_ne (old request before)]
      refine (represents.stored request before).congr ?_ fun _ _ => rfl
      exact congrArg _ (cell_alloc (old request before))
  · intro request member away awayMember differ address owns
    rcases List.mem_cons.mp member with rfl | before
    · simp at owns
    rcases List.mem_cons.mp awayMember with rfl | awayBefore
    · simp
    · rw [Function.update_of_ne (old request before)] at owns
      rw [Function.update_of_ne (old away awayBefore)]
      exact represents.apart request before away awayBefore differ address owns

theorem mem_middle {away : SrArpreq}
    : away ∈ before ++ request :: behind ↔ away = request ∨ away ∈ before ++ behind := by
  simp only [List.mem_append, List.mem_cons]
  tauto

/-- An old packet is not at the address of the next new one. -/
theorem Stored.old {addresses : List Nat} (stored : Stored heap addresses request)
    {address : Nat} (member : address ∈ addresses)
    : address ≠ heap.packets.top := by
  obtain ⟨first, next, -, holds⟩ := stored
  obtain ⟨cell, found⟩ := holds.chain.found member
  exact Nat.ne_of_lt (lt_top found)

/-- A request that gets a new packet still shares none with the others. -/
theorem Represents.apart_storePacket
    (represents : Represents heap owned (before ++ request :: behind)) {new : SrArpreq}
    (same : new.address = request.address)
    : ∀ stored ∈ before ++ new :: behind, ∀ other ∈ before ++ new :: behind,
        stored.address ≠ other.address
        → ∀ address ∈ Function.update owned request.address
            (heap.packets.top :: owned request.address) stored.address,
          address ∉ Function.update owned request.address
            (heap.packets.top :: owned request.address) other.address := by
  have kept : ∀ away ∈ before ++ behind,
      away.address ≠ request.address ∧ Stored heap (owned away.address) away
      ∧ away ∈ before ++ request :: behind :=
    fun away member =>
      ⟨represents.others member, represents.stored away (mem_middle.mpr (Or.inr member)),
        mem_middle.mpr (Or.inr member)⟩
  have here : request ∈ before ++ request :: behind := mem_middle.mpr (Or.inl rfl)
  intro stored member other otherMember differ address owns
  rcases mem_middle.mp member with rfl | away
  · rcases mem_middle.mp otherMember with rfl | otherAway
    · exact absurd rfl differ
    · obtain ⟨apart, old, listed⟩ := kept other otherAway
      rw [same, Function.update_self] at owns
      rw [Function.update_of_ne apart]
      rcases List.mem_cons.mp owns with rfl | before
      · exact fun again => old.old again rfl
      · exact represents.apart request here other listed apart.symm address before
  · obtain ⟨apart, old, listed⟩ := kept stored away
    rw [Function.update_of_ne apart] at owns
    rcases mem_middle.mp otherMember with rfl | otherAway
    · rw [same, Function.update_self, List.mem_cons, not_or]
      exact ⟨old.old owns, represents.apart stored listed request here apart address owns⟩
    · obtain ⟨otherApart, -, otherListed⟩ := kept other otherAway
      rw [Function.update_of_ne otherApart]
      exact represents.apart stored listed other otherListed differ address owns

theorem Represents.storePacket (represents : Represents heap owned (before ++ request :: behind))
    (packet : SrPacket)
    : ∃ next,
        heap.storePacket request.address packet = some next
        ∧ Represents next
            (Function.update owned request.address
              (heap.packets.top :: owned request.address))
            (before ++ { request with packets := packet :: request.packets } :: behind)
        ∧ next.arpreqs.top = heap.arpreqs.top := by
  have here := represents.stored request (by simp)
  obtain ⟨first, link, found, holds⟩ := here
  let lead : ArpreqCell → ArpreqCell := fun cell => { cell with packets := some heap.packets.top }
  let next : RequestHeap :=
    { heap with
      arpreqs := heap.arpreqs.modify request.address fun cell => some (lead cell)
      packets := heap.packets.alloc ⟨packet, first⟩ }
  refine ⟨next, ?_, ⟨?_, ?_, represents.apart_storePacket rfl⟩, rfl⟩
  · simp only [RequestHeap.storePacket, found, Option.bind_some, write_eq found,
      Option.map_some, next, lead]
  · have linked := represents.chain
    have sameNext : ∀ cell, (lead cell).next = cell.next := fun _ => rfl
    rw [List.map_append, List.map_cons] at linked ⊢
    exact linked.congr fun address _ => map_cell_modify sameNext request.address address
  · intro stored member
    rcases mem_middle.mp member with rfl | away
    · rw [Function.update_self]
      exact ⟨some heap.packets.top, link,
        (cell_modify _ _).trans (by rw [found, Option.bind_some]), holds.push rfl⟩
    · have apart := represents.others away
      have old := represents.stored stored (mem_middle.mpr (Or.inr away))
      rw [Function.update_of_ne apart]
      refine old.congr ?_ fun address owns => cell_alloc (old.old owns)
      exact congrArg _ (cell_modify_other _ apart)

-----------------------------------------------------------------------------------------
-- Destroying
-----------------------------------------------------------------------------------------

/-- The search for a request by its address finds it, and the one before it. -/
theorem Represents.seek_address (represents : Represents heap owned (before ++ request :: behind))
    : seek ArpreqCell.next (fun req _ => req == request.address) heap.arpreqs
        heap.arpreqs.top none heap.requests
      = some ((before.map SrArpreq.address).getLast?, some request.address) := by
  obtain ⟨cell, found, -⟩ := represents.found
  have linked := represents.chain
  have enough := linked.length_le
  rw [List.map_append, List.map_cons] at linked
  rw [seek_stops linked found (by simp) ?_ ?_, Option.or_none]
  · intro earlier member value _
    obtain ⟨away, awayMember, rfl⟩ := List.mem_map.mp member
    simpa using represents.others (List.mem_append_left _ awayMember)
  · simp only [List.length_map, List.length_append, List.length_cons] at enough ⊢
    omega

/-- Unlinking takes a request off the queue and changes no other field. -/
theorem Represents.unlinkRequest (represents : Represents heap owned (before ++ request :: behind))
    : ∃ next,
        heap.unlinkRequest request.address = some next
        ∧ Chain ArpreqCell.next next.arpreqs next.requests
            ((before ++ behind).map SrArpreq.address)
        ∧ (∀ address, (next.arpreqs.cell address).map ArpreqCell.unlinked
            = (heap.arpreqs.cell address).map ArpreqCell.unlinked)
        ∧ next.packets = heap.packets ∧ next.arpreqs.top = heap.arpreqs.top := by
  have sought := represents.seek_address
  obtain ⟨cell, found, -⟩ := represents.found
  have linked := represents.chain
  rcases List.eq_nil_or_concat before with rfl | ⟨init, last, rfl⟩
  · obtain ⟨same, sameFound, tail⟩ := linked.tail
    obtain rfl := Option.some.inj (found.symm.trans sameFound)
    refine ⟨{ heap with requests := cell.next }, ?_, tail, fun _ => rfl, rfl, rfl⟩
    simp only [RequestHeap.unlinkRequest, sought, Option.bind_some, List.map_nil,
      List.getLast?_nil, found, Option.map_some]
  · rw [List.concat_eq_append] at *
    have lastFound : ∃ old, heap.arpreqs.cell last.address = some old :=
      linked.found (by simp)
    obtain ⟨old, oldFound⟩ := lastFound
    refine ⟨{ heap with
      arpreqs :=
        heap.arpreqs.modify last.address fun prev => some { prev with next := cell.next } },
      ?_, ?_, fun address => ?_, rfl, rfl⟩
    · simp only [RequestHeap.unlinkRequest, sought, Option.bind_some, List.map_append,
        List.map_cons, List.map_nil, List.getLast?_concat, found, write_eq oldFound,
        Option.map_some]
    · simp only [List.map_append, List.map_cons, List.append_assoc, List.singleton_append]
        at linked ⊢
      exact linked.unlink found fun _ _ => ⟨_, rfl, rfl⟩
    · by_cases same : address = last.address
      · rw [same, cell_modify, oldFound]
        rfl
      · exact congrArg _ (cell_modify_other _ same)

theorem Represents.destroy (represents : Represents heap owned (before ++ request :: behind))
    : ∃ next,
        heap.destroy request.address = some next
        ∧ Represents next owned (before ++ behind)
        ∧ next.arpreqs.top = heap.arpreqs.top := by
  obtain ⟨middle, unlinked, linked, fields, samePackets, top⟩ := represents.unlinkRequest
  obtain ⟨cell, found, chain⟩ := represents.found
  have content := fields request.address
  rw [found, Option.map_some] at content
  obtain ⟨kept, keptFound, same⟩ := Option.map_eq_some_iff.mp content
  have samePacketsField : kept.packets = cell.packets :=
    (congrArg ArpreqCell.packets same :)
  rw [← samePackets] at chain
  obtain ⟨freed, ends, -, untouched, -⟩ := freeAll_frees chain chain.length_le
  have away : ∀ other ∈ before ++ behind, other.address ≠ request.address :=
    fun other member => represents.others member
  refine ⟨{ middle with
    arpreqs := middle.arpreqs.modify request.address fun _ => none
    packets := freed }, ?_, ⟨?_, ?_, ?_⟩, top⟩
  · simp only [RequestHeap.destroy, unlinked, Option.bind_some, keptFound, samePacketsField, ends,
      free_eq keptFound, Option.map_some]
  · refine linked.frame fun address member => cell_modify_other _ ?_
    obtain ⟨other, otherMember, rfl⟩ := List.mem_map.mp member
    exact away other otherMember
  · intro other member
    refine (represents.stored other (mem_middle.mpr (Or.inr member))).congr ?_ ?_
    · exact (congrArg _ (cell_modify_other _ (away other member))).trans (fields other.address)
    · intro address owns
      have apart := represents.apart other (mem_middle.mpr (Or.inr member)) request (by simp)
        (away other member) address owns
      rw [← samePackets]
      exact untouched address apart
  · intro other member another anotherMember
    exact represents.apart other (mem_middle.mpr (Or.inr member)) another
      (mem_middle.mpr (Or.inr anotherMember))

end Heap

-----------------------------------------------------------------------------------------
-- Refinement of the list of requests
-----------------------------------------------------------------------------------------

/-- The queue on the heap is that of the router, with the same addresses. -/
structure Refines (heap : RequestHeap) (sr : SrInstance) : Prop where
  represents : ∃ owned, Represents heap owned sr.requests
  top : heap.arpreqs.top = sr.nextAddress

/-- The packet that the router model queues: one that is not stored is empty there. -/
def queuedPacket (packet : Option Frame) (iface : Option String) : SrPacket :=
  (RequestHeap.storedPacket packet iface).getD ⟨[], ""⟩

theorem storedPacket_filled {packet : Option Frame} {iface : Option String} {stored : SrPacket}
    (stores : RequestHeap.storedPacket packet iface = some stored)
    : stored.buf ≠ [] := by
  unfold RequestHeap.storedPacket at stores
  split at stores
  · split at stores
    · cases stores
    · next filled =>
        obtain rfl := Option.some.inj stores
        exact filled
  · cases stores

section Refinement

variable {heap : RequestHeap} {sr : SrInstance} {requests before behind : List SrArpreq}
  {request : SrArpreq} {ip : UInt32}

/-- The request for an address, with those in front of it, if there is one. -/
theorem requestFor (ip : UInt32) (requests : List SrArpreq)
    : (∀ request ∈ requests, request.ip ≠ ip)
      ∨ ∃ before request behind,
        requests = before ++ request :: behind ∧ request.ip = ip
        ∧ ∀ earlier ∈ before, earlier.ip ≠ ip := by
  cases found : requests.find? (fun request => request.ip == ip) with
  | none =>
      refine Or.inl fun request member => ?_
      simpa using List.find?_eq_none.mp found request member
  | some request =>
      obtain ⟨same, before, behind, split, others⟩ := List.find?_eq_some_iff_append.mp found
      exact Or.inr ⟨before, request, behind, split, by simpa using same,
        fun earlier member => by simpa using others earlier member⟩

theorem addPacket_at (packet : SrPacket) (same : request.ip = ip)
    (others : ∀ earlier ∈ before, earlier.ip ≠ ip)
    : addPacket ip packet (before ++ request :: behind)
      = before ++ { request with packets := packet :: request.packets } :: behind := by
  induction before with
  | nil => rw [List.nil_append, addPacket, if_pos same, List.nil_append]
  | cons first before ih =>
      rw [List.cons_append, addPacket, if_neg (others first List.mem_cons_self),
        ih fun earlier member => others earlier (List.mem_cons_of_mem _ member),
        List.cons_append]

/-- Queueing for an address that has a request. -/
theorem srArpcacheQueuereq_known (packet : SrPacket)
    (queue : sr.requests = before ++ request :: behind) (same : request.ip = ip)
    (others : ∀ earlier ∈ before, earlier.ip ≠ ip)
    : srArpcacheQueuereq ip packet sr
      = if packet.buf = [] then
          sr
        else
          { sr with
            requests :=
              before ++ { request with packets := packet :: request.packets } :: behind } := by
  have listed : sr.requests.any (fun request => request.ip == ip) = true := by
    simp [queue, same]
  simp only [srArpcacheQueuereq, if_pos listed]
  rw [queue, addPacket_at packet same others]

/-- Queueing for an address without a request. -/
theorem srArpcacheQueuereq_new (packet : SrPacket)
    (idle : ∀ request ∈ sr.requests, request.ip ≠ ip)
    : srArpcacheQueuereq ip packet sr
      = { sr with
          requests :=
            { sr.opened ip with packets := if packet.buf = [] then [] else [packet] }
              :: sr.requests
          nextAddress := sr.nextAddress + 1 } := by
  have none : ¬ sr.requests.any (fun request => request.ip == ip) = true := by
    simpa using idle
  simp only [srArpcacheQueuereq, if_neg none, addPacket, if_true]
  split <;> rfl

theorem Refines.init (ifList : List SrIf) (routingTable : List SrRt)
    : Refines .init (srInit ifList routingTable) :=
  ⟨⟨fun _ => [], .nil, by simp [srInit], by simp [srInit]⟩, rfl⟩

/-- The search for a request for an IP without one runs to the end. -/
theorem Represents.seek_ip_idle {owned : Nat → List Nat}
    (represents : Represents heap owned requests)
    (idle : ∀ request ∈ requests, request.ip ≠ ip)
    : seek ArpreqCell.next (fun _ req => req.ip == ip) heap.arpreqs heap.arpreqs.top none
        heap.requests
      = some ((requests.map SrArpreq.address).getLast?, none) := by
  rw [seek_ends represents.chain ?_ represents.chain.length_le, Option.or_none]
  intro address member cell found
  obtain ⟨request, listed, rfl⟩ := List.mem_map.mp member
  rw [beq_iff_eq, ((represents.stored request listed).packetsFrom found).2.1]
  exact idle request listed

/-- The search for a request for an IP finds the first one. -/
theorem Represents.seek_ip {owned : Nat → List Nat}
    (represents : Represents heap owned (before ++ request :: behind)) (same : request.ip = ip)
    (others : ∀ earlier ∈ before, earlier.ip ≠ ip)
    : seek ArpreqCell.next (fun _ req => req.ip == ip) heap.arpreqs heap.arpreqs.top none
        heap.requests
      = some ((before.map SrArpreq.address).getLast?, some request.address) := by
  have linked := represents.chain
  have enough := linked.length_le
  rw [List.map_append, List.map_cons] at linked
  obtain ⟨cell, found, -⟩ := represents.found
  have ipOf := ((represents.stored request (by simp)).packetsFrom found).2.1
  rw [seek_stops linked found ?_ ?_ ?_, Option.or_none]
  · rw [beq_iff_eq, ipOf, same]
  · intro address member value valueFound
    obtain ⟨earlier, listed, rfl⟩ := List.mem_map.mp member
    have stored := represents.stored earlier (List.mem_append_left _ listed)
    rw [beq_iff_eq, (stored.packetsFrom valueFound).2.1]
    exact others earlier listed
  · simp only [List.length_map, List.length_append, List.length_cons] at enough ⊢
    omega

/-- `sr_arpcache_queuereq` for an IP without a request opens one, with the packet if there is
one to store.
-/
theorem Refines.queuereq_new (refines : Refines heap sr) (packet : Option Frame)
    (iface : Option String) (idle : ∀ request ∈ sr.requests, request.ip ≠ ip)
    : ∃ next,
        heap.queuereq ip packet iface = some (next, heap.arpreqs.top)
        ∧ Refines next (srArpcacheQueuereq ip (queuedPacket packet iface) sr) := by
  obtain ⟨owned, represents⟩ := refines.represents
  have sought := represents.seek_ip_idle idle
  have opened := represents.openRequest ip
  rw [srArpcacheQueuereq_new _ idle]
  cases stores : RequestHeap.storedPacket packet iface with
  | none =>
      refine ⟨heap.openRequest ip, ?_, ?_⟩
      · simp only [RequestHeap.queuereq, sought, Option.bind_some, stores]
        rfl
      · simp only [queuedPacket, stores, Option.getD_none, if_true, SrInstance.opened,
          ← refines.top]
        exact ⟨⟨_, opened⟩, rfl⟩
  | some new =>
      rw [← List.nil_append (_ :: sr.requests)] at opened
      obtain ⟨next, stored, done, top⟩ := opened.storePacket new
      refine ⟨next, ?_, ?_⟩
      · simp only [RequestHeap.queuereq, sought, Option.bind_some, stores, Option.isSome_none,
          Bool.false_eq_true, if_false, Option.getD_none, stored, Option.map_some]
      · simp only [queuedPacket, stores, Option.getD_some, if_neg (storedPacket_filled stores),
          SrInstance.opened, ← refines.top]
        exact ⟨⟨_, done⟩, top⟩

/-- `sr_arpcache_queuereq` for an IP with a request puts the packet in front of its packets. -/
theorem Refines.queuereq_known (refines : Refines heap sr) (packet : Option Frame)
    (iface : Option String) (queue : sr.requests = before ++ request :: behind)
    (same : request.ip = ip) (others : ∀ earlier ∈ before, earlier.ip ≠ ip)
    : ∃ next,
        heap.queuereq ip packet iface = some (next, request.address)
        ∧ Refines next (srArpcacheQueuereq ip (queuedPacket packet iface) sr) := by
  obtain ⟨owned, represents⟩ := refines.represents
  rw [queue] at represents
  have sought := represents.seek_ip same others
  rw [srArpcacheQueuereq_known _ queue same others]
  cases stores : RequestHeap.storedPacket packet iface with
  | none =>
      refine ⟨heap, ?_, ?_⟩
      · simp only [RequestHeap.queuereq, sought, Option.bind_some, stores]
        rfl
      · simp only [queuedPacket, stores, Option.getD_none, if_true]
        exact refines
  | some new =>
      obtain ⟨next, stored, done, top⟩ := represents.storePacket new
      refine ⟨next, ?_, ?_⟩
      · simp only [RequestHeap.queuereq, sought, Option.bind_some, stores, Option.isSome_some,
          if_true, Option.getD_some, stored, Option.map_some]
      · simp only [queuedPacket, stores, Option.getD_some, if_neg (storedPacket_filled stores)]
        exact ⟨⟨_, done⟩, top.trans refines.top⟩

/-- `sr_arpcache_queuereq` returns, and does to the heap what the router model does to its
list of requests.
-/
theorem Refines.queuereq (refines : Refines heap sr) (ip : UInt32) (packet : Option Frame)
    (iface : Option String)
    : ∃ next req,
        heap.queuereq ip packet iface = some (next, req)
        ∧ Refines next (srArpcacheQueuereq ip (queuedPacket packet iface) sr) := by
  rcases requestFor ip sr.requests with idle | ⟨before, request, behind, queue, same, others⟩
  · obtain ⟨next, queued, after⟩ := refines.queuereq_new packet iface idle
    exact ⟨next, _, queued, after⟩
  · obtain ⟨next, queued, after⟩ := refines.queuereq_known packet iface queue same others
    exact ⟨next, _, queued, after⟩

/-- Destroying takes the request out of the list. -/
theorem srArpreqDestroy_at (distinct : (sr.requests.map SrArpreq.address).Nodup)
    (queue : sr.requests = before ++ request :: behind)
    : srArpreqDestroy request.address sr = { sr with requests := before ++ behind } := by
  rw [queue, List.map_append, List.map_cons, List.nodup_middle, ← List.map_append] at distinct
  have passes : ∀ other ∈ before, ¬ (other.address == request.address) = true := by
    intro other member same
    rw [beq_iff_eq] at same
    exact (List.nodup_cons.mp distinct).1
      (same ▸ List.mem_map_of_mem (List.mem_append_left _ member))
  rw [srArpreqDestroy, queue, List.eraseP_append_right _ passes,
    List.eraseP_cons_of_pos (by simp)]

/-- The requests that are left are those at other addresses. -/
theorem requests_srArpreqDestroy (distinct : (sr.requests.map SrArpreq.address).Nodup)
    (member : request ∈ sr.requests)
    : (srArpreqDestroy request.address sr).requests
      = sr.requests.filter fun other => other.address ≠ request.address := by
  obtain ⟨before, behind, queue⟩ := List.mem_iff_append.mp member
  rw [srArpreqDestroy_at distinct queue]
  rw [queue] at distinct ⊢
  obtain ⟨-, front, back⟩ := distinct_split distinct
  have kept : ∀ {others : List SrArpreq},
      (∀ other ∈ others, other.address ≠ request.address)
      → others.filter (fun other => other.address ≠ request.address) = others :=
    fun apart => List.filter_eq_self.mpr fun other listed => by simpa using apart other listed
  rw [List.filter_append, List.filter_cons_of_neg (by simp), kept front, kept back]

/-- `sr_arpreq_destroy` returns for a request on the queue, and does to the heap what the
router model does to its list of requests.
-/
theorem Refines.destroy (refines : Refines heap sr) (member : request ∈ sr.requests)
    : ∃ next,
        heap.destroy request.address = some next
        ∧ Refines next (srArpreqDestroy request.address sr) := by
  obtain ⟨owned, represents⟩ := refines.represents
  obtain ⟨before, behind, queue⟩ := List.mem_iff_append.mp member
  rw [srArpreqDestroy_at represents.chain.nodup queue]
  rw [queue] at represents
  obtain ⟨next, destroyed, left, top⟩ := represents.destroy
  exact ⟨next, destroyed, ⟨owned, left⟩, top.trans refines.top⟩

end Refinement

-----------------------------------------------------------------------------------------
-- Runs
-----------------------------------------------------------------------------------------

/-- A call of one of the two functions. -/
inductive QueueCall
  | queuereq (ip : UInt32) (packet : Option Frame) (iface : Option String)
  | destroy (entry : Nat)

/-- The queue on the heap, and what it is for: the packets that wait for each IP with a
request. These are all that were stored for it since the last request for it was destroyed.
-/
structure QueueRun where
  heap : RequestHeap
  pending : UInt32 → Option (List SrPacket)

namespace QueueRun

def start : QueueRun := ⟨.init, fun _ => none⟩

def step (run : QueueRun) : QueueCall → Option QueueRun
  | .queuereq ip packet iface =>
      (run.heap.queuereq ip packet iface).map fun result =>
        { heap := result.1
          pending :=
            Function.update run.pending ip
              (some ((RequestHeap.storedPacket packet iface).toList
                ++ (run.pending ip).getD [])) }
  | .destroy entry =>
      (run.heap.arpreqs.cell entry).bind fun cell =>
        (run.heap.destroy entry).map fun heap =>
          { heap := heap, pending := Function.update run.pending cell.ip none }

/-- A request that is destroyed was obtained from the queue. -/
def Obtained (run : QueueRun) : QueueCall → Prop
  | .queuereq _ _ _ => True
  | .destroy entry => entry ∈ (run.heap.listing.getD []).map SrArpreq.address

instance (run : QueueRun) : ∀ call, Decidable (run.Obtained call)
  | .queuereq _ _ _ => isTrue trivial
  | .destroy entry =>
      inferInstanceAs (Decidable (entry ∈ (run.heap.listing.getD []).map SrArpreq.address))

/-- The links lead to one request for each IP that packets wait for, and to these packets. -/
structure Exact (run : QueueRun) (requests : List SrArpreq) : Prop where
  listing : run.heap.listing = some requests
  distinct : (requests.map SrArpreq.ip).Nodup
  exactly
    : ∀ ip packets,
        run.pending ip = some packets
        ↔ ∃ request ∈ requests, request.ip = ip ∧ request.packets = packets

/-- What holds along a run. -/
structure Consistent (run : QueueRun) (sr : SrInstance) : Prop where
  refines : Refines run.heap sr
  exact : run.Exact sr.requests

end QueueRun

section Runs

variable {run next : QueueRun} {sr : SrInstance}

theorem Refines.listing {heap : RequestHeap} (refines : Refines heap sr)
    : heap.listing = some sr.requests := by
  obtain ⟨owned, represents⟩ := refines.represents
  exact represents.listing

/-- The packets of a request are those that wait for its IP. -/
theorem QueueRun.Exact.pending {requests : List SrArpreq} (exact : run.Exact requests)
    {request : SrArpreq} (member : request ∈ requests)
    : run.pending request.ip = some request.packets :=
  (exact.exactly _ _).mpr ⟨request, member, rfl, rfl⟩

theorem QueueRun.Exact.idle {requests : List SrArpreq} (exact : run.Exact requests) {ip : UInt32}
    (idle : ∀ request ∈ requests, request.ip ≠ ip)
    : run.pending ip = none := by
  rw [Option.eq_none_iff_forall_ne_some]
  intro packets waits
  obtain ⟨request, member, same, -⟩ := (exact.exactly ip packets).mp waits
  exact idle request member same

/-- When what waits for one IP changes, the requests for other IPs must stay. -/
theorem exactly_update {requests others : List SrArpreq}
    {pending : UInt32 → Option (List SrPacket)} {ip : UInt32} {waiting : Option (List SrPacket)}
    (exactly
      : ∀ ip packets,
          pending ip = some packets
          ↔ ∃ request ∈ requests, request.ip = ip ∧ request.packets = packets)
    (elsewhere : ∀ other, other.ip ≠ ip → (other ∈ others ↔ other ∈ requests))
    (here
      : ∀ packets,
          waiting = some packets
          ↔ ∃ request ∈ others, request.ip = ip ∧ request.packets = packets)
    (address : UInt32) (packets : List SrPacket)
    : Function.update pending ip waiting address = some packets
      ↔ ∃ request ∈ others, request.ip = address ∧ request.packets = packets := by
  by_cases same : address = ip
  · rw [same, Function.update_self]
    exact here packets
  · rw [Function.update_of_ne same, exactly]
    constructor
    · rintro ⟨request, member, rfl, rfl⟩
      exact ⟨request, (elsewhere request same).mpr member, rfl, rfl⟩
    · rintro ⟨request, member, rfl, rfl⟩
      exact ⟨request, (elsewhere request same).mp member, rfl, rfl⟩

theorem queued_known {before behind : List SrArpreq} {request : SrArpreq} {ip : UInt32}
    (packet : Option Frame) (iface : Option String)
    (queue : sr.requests = before ++ request :: behind) (same : request.ip = ip)
    (others : ∀ earlier ∈ before, earlier.ip ≠ ip)
    : (srArpcacheQueuereq ip (queuedPacket packet iface) sr).requests
      = before
        ++ { request with
            packets :=
              (RequestHeap.storedPacket packet iface).toList ++ request.packets } :: behind := by
  rw [srArpcacheQueuereq_known _ queue same others]
  cases stores : RequestHeap.storedPacket packet iface with
  | none =>
      simp only [queuedPacket, stores, Option.getD_none, if_true]
      exact queue
  | some new =>
      simp only [queuedPacket, stores, Option.getD_some, if_neg (storedPacket_filled stores)]
      rfl

theorem queued_new {ip : UInt32} (packet : Option Frame) (iface : Option String)
    (idle : ∀ request ∈ sr.requests, request.ip ≠ ip)
    : (srArpcacheQueuereq ip (queuedPacket packet iface) sr).requests
      = { sr.opened ip with packets := (RequestHeap.storedPacket packet iface).toList }
        :: sr.requests := by
  rw [srArpcacheQueuereq_new _ idle]
  cases stores : RequestHeap.storedPacket packet iface with
  | none => simp only [queuedPacket, stores, Option.getD_none, if_true, Option.toList_none]
  | some new =>
      simp only [queuedPacket, stores, Option.getD_some, if_neg (storedPacket_filled stores),
        Option.toList_some]

/-- Where IPs are distinct, the others around a request have other IPs. -/
theorem distinct_ips {before behind : List SrArpreq} {request : SrArpreq}
    (distinct : ((before ++ request :: behind).map SrArpreq.ip).Nodup)
    : ((before ++ behind).map SrArpreq.ip).Nodup
      ∧ ∀ other ∈ before ++ behind, other.ip ≠ request.ip := by
  rw [List.map_append, List.map_cons, List.nodup_middle, ← List.map_append] at distinct
  obtain ⟨single, rest⟩ := List.nodup_cons.mp distinct
  exact ⟨rest, fun other member same => single (same ▸ List.mem_map_of_mem member)⟩

/-- Queueing keeps the IPs distinct. -/
theorem distinct_queued (distinct : (sr.requests.map SrArpreq.ip).Nodup) (ip : UInt32)
    (packet : Option Frame) (iface : Option String)
    : ((srArpcacheQueuereq ip (queuedPacket packet iface) sr).requests.map SrArpreq.ip).Nodup := by
  rcases requestFor ip sr.requests with idle | ⟨before, request, behind, queue, here, others⟩
  · rw [queued_new packet iface idle, List.map_cons]
    refine List.nodup_cons.mpr ⟨fun member => ?_, distinct⟩
    obtain ⟨request, listed, same⟩ := List.mem_map.mp member
    exact idle request listed same
  · rw [queued_known packet iface queue here others]
    rw [queue] at distinct
    simpa using distinct

/-- Requests for other IPs are not touched by queueing. -/
theorem queued_elsewhere {ip : UInt32} (packet : Option Frame) (iface : Option String)
    {other : SrArpreq} (away : other.ip ≠ ip)
    : other ∈ (srArpcacheQueuereq ip (queuedPacket packet iface) sr).requests
      ↔ other ∈ sr.requests := by
  rcases requestFor ip sr.requests with idle | ⟨before, request, behind, queue, here, others⟩
  · rw [queued_new packet iface idle]
    refine ⟨fun member => (List.mem_cons.mp member).resolve_left ?_, List.mem_cons_of_mem _⟩
    rintro rfl
    exact away rfl
  · rw [queued_known packet iface queue here others, queue, mem_middle, mem_middle]
    have notOld : other ≠ request := fun same => away (same ▸ here)
    have notNew : other ≠ { request with
        packets := (RequestHeap.storedPacket packet iface).toList ++ request.packets } :=
      fun same => away (same ▸ here)
    simp only [notOld, notNew, false_or]

/-- After queueing the request for the IP has the new packet in front of what waited. -/
theorem QueueRun.Exact.queued_here (exact : run.Exact sr.requests) {ip : UInt32}
    (packet : Option Frame) (iface : Option String) (packets : List SrPacket)
    : some ((RequestHeap.storedPacket packet iface).toList ++ (run.pending ip).getD [])
        = some packets
      ↔ ∃ request ∈ (srArpcacheQueuereq ip (queuedPacket packet iface) sr).requests,
          request.ip = ip ∧ request.packets = packets := by
  rw [Option.some_inj]
  rcases requestFor ip sr.requests with idle | ⟨before, request, behind, queue, here, others⟩
  · rw [queued_new packet iface idle, exact.idle idle, Option.getD_none, List.append_nil]
    constructor
    · rintro rfl
      exact ⟨_, List.mem_cons_self, rfl, rfl⟩
    · rintro ⟨other, member, same, rfl⟩
      rcases List.mem_cons.mp member with rfl | old
      · rfl
      · exact absurd same (idle other old)
  · have pending := exact.pending (by simp [queue] : request ∈ sr.requests)
    have distinct := exact.distinct
    rw [queue] at distinct
    have apart := (distinct_ips distinct).2
    rw [here] at pending apart
    rw [queued_known packet iface queue here others, pending, Option.getD_some]
    constructor
    · rintro rfl
      exact ⟨_, mem_middle.mpr (Or.inl rfl), here, rfl⟩
    · rintro ⟨other, member, same, rfl⟩
      rcases mem_middle.mp member with rfl | old
      · rfl
      · exact absurd same (apart other old)

theorem QueueRun.Consistent.queuereq (consistent : run.Consistent sr) (ip : UInt32)
    (packet : Option Frame) (iface : Option String)
    (stepped : run.step (.queuereq ip packet iface) = some next)
    : next.Consistent (srArpcacheQueuereq ip (queuedPacket packet iface) sr) := by
  obtain ⟨heap, req, queued, refines⟩ := consistent.refines.queuereq ip packet iface
  obtain ⟨result, same, rfl⟩ := Option.map_eq_some_iff.mp stepped
  obtain rfl := Option.some.inj (queued.symm.trans same)
  refine ⟨refines, refines.listing,
    distinct_queued consistent.exact.distinct ip packet iface, ?_⟩
  exact exactly_update consistent.exact.exactly
    (fun other away => queued_elsewhere packet iface away)
    (consistent.exact.queued_here packet iface)

theorem QueueRun.Consistent.destroy (consistent : run.Consistent sr) {request : SrArpreq}
    (member : request ∈ sr.requests)
    (stepped : run.step (.destroy request.address) = some next)
    : next.Consistent (srArpreqDestroy request.address sr) := by
  obtain ⟨heap, destroyed, refines⟩ := consistent.refines.destroy member
  obtain ⟨owned, represents⟩ := consistent.refines.represents
  obtain ⟨before, behind, queue⟩ := List.mem_iff_append.mp member
  have distinct := consistent.exact.distinct
  rw [queue] at distinct
  obtain ⟨left, apart⟩ := distinct_ips distinct
  have rest := srArpreqDestroy_at represents.chain.nodup queue
  obtain ⟨cell, found, result⟩ := Option.bind_eq_some_iff.mp stepped
  obtain ⟨same, destroyedAgain, rfl⟩ := Option.map_eq_some_iff.mp result
  obtain rfl := Option.some.inj (destroyed.symm.trans destroyedAgain)
  have ip := ((represents.stored request member).packetsFrom found).2.1
  refine ⟨refines, refines.listing, ?_, ?_⟩
  · rw [rest]
    exact left
  · rw [rest, ip]
    refine exactly_update consistent.exact.exactly ?_ ?_
    · intro other away
      have notIt : other ≠ request := fun same => away (same ▸ rfl)
      rw [queue, mem_middle]
      simp only [notIt, false_or]
    · intro packets
      refine iff_of_false (by simp) ?_
      rintro ⟨other, listed, sameIp, -⟩
      exact apart other listed sameIp

/-- Every call of a run keeps the queue consistent. -/
theorem QueueRun.Consistent.step {call : QueueCall} (consistent : run.Consistent sr)
    (obtained : run.Obtained call) (stepped : run.step call = some next)
    : ∃ sr, next.Consistent sr := by
  cases call with
  | queuereq ip packet iface => exact ⟨_, consistent.queuereq ip packet iface stepped⟩
  | destroy entry =>
      have listed : entry ∈ (run.heap.listing.getD []).map SrArpreq.address := obtained
      rw [consistent.exact.listing, Option.getD_some] at listed
      obtain ⟨request, member, rfl⟩ := List.mem_map.mp listed
      exact ⟨_, consistent.destroy member stepped⟩

theorem QueueRun.start_consistent : start.Consistent (srInit [] []) :=
  ⟨.init [] [], (Refines.init [] []).listing, .nil, by simp [start, srInit]⟩

/-- Along every run of the two functions the queue has one request for each IP, with exactly
the packets stored for it since it was opened. Both functions return, and destroying a request
leaves the others as they are.
-/
theorem request_queue_exact {calls : List QueueCall} {run : QueueRun}
    (obtained : StepRuns.AllSteps QueueRun.step QueueRun.Obtained .start calls)
    (reached : StepRuns.exec QueueRun.step .start calls = some run)
    : ∃ requests,
        run.Exact requests
        ∧ (∀ ip packet iface, (run.step (.queuereq ip packet iface)).isSome)
        ∧ ∀ request ∈ requests,
          ∃ next,
            run.step (.destroy request.address) = some next
            ∧ next.heap.listing
              = some (requests.filter fun other => other.address ≠ request.address) := by
  have consistent : ∃ sr, run.Consistent sr :=
    StepRuns.exec_invariant_of_guard QueueRun.Obtained (fun run => ∃ sr, run.Consistent sr)
      (fun ⟨_, held⟩ guard stepped => held.step guard stepped)
      ⟨_, QueueRun.start_consistent⟩ obtained reached
  obtain ⟨sr, refines, exact⟩ := consistent
  refine ⟨sr.requests, exact, ?_, ?_⟩
  · intro ip packet iface
    obtain ⟨next, req, queued, -⟩ := refines.queuereq ip packet iface
    rw [QueueRun.step, queued]
    rfl
  · intro request member
    obtain ⟨heap, destroyed, after⟩ := refines.destroy member
    obtain ⟨owned, represents⟩ := refines.represents
    obtain ⟨cell, found⟩ := represents.chain.found (List.mem_map_of_mem member)
    refine ⟨⟨heap, Function.update run.pending cell.ip none⟩, ?_, ?_⟩
    · simp only [QueueRun.step, found, Option.bind_some, destroyed, Option.map_some]
    · rw [after.listing]
      exact congrArg some (requests_srArpreqDestroy represents.chain.nodup member)

/-- Two requests, of which the older one, with two packets, is destroyed. -/
def queueCalls : List QueueCall :=
  [.queuereq 7 (some [1, 2]) (some "eth0"), .queuereq 9 (some [3]) (some "eth1"),
    .queuereq 7 (some [4]) (some "eth0"), .queuereq 7 none (some "eth0"), .destroy 0]

theorem request_queue_exact_calls
    : ∃ run,
        StepRuns.exec QueueRun.step .start queueCalls = some run
        ∧ ∃ requests,
          run.Exact requests
          ∧ (∀ ip packet iface, (run.step (.queuereq ip packet iface)).isSome)
          ∧ ∀ request ∈ requests,
            ∃ next,
              run.step (.destroy request.address) = some next
              ∧ next.heap.listing
                = some (requests.filter fun other => other.address ≠ request.address) := by
  have obtained : StepRuns.AllSteps QueueRun.step QueueRun.Obtained .start queueCalls := by
    decide +kernel
  have ends : (StepRuns.exec QueueRun.step .start queueCalls).isSome := by
    decide +kernel
  obtain ⟨run, reached⟩ := Option.isSome_iff_exists.mp ends
  exact ⟨run, reached, request_queue_exact obtained reached⟩

end Runs

end Networks.Router
