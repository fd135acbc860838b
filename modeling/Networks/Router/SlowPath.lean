import Networks.Router.Answers
import Networks.Router.ArpCache

/-! Packets whose next hop is known go on the wire at once. Otherwise they wait for an ARP
reply, in a list that grows at its front, and are then handled like received packets.
-/

namespace Networks.Router

open ByteFields

/-- A packet on its way out: it goes to `sr_ForwardPacket` with the gateway and the interface
of its route.
-/
def forwardByRoute (outgoing : Caller × Frame) (sr : SrInstance) : SrInstance :=
  match sr.longestprefixmatch (ipDst outgoing.2) with
  | none => sr
  | some nexthop =>
      srForwardPacket outgoing.1 outgoing.2 nexthop.gw (sr.srGetInterface nexthop.interface) sr

/-- Several packets on their way out, one after the other. -/
def forwardAll (outgoing : List (Caller × Frame)) (sr : SrInstance) : SrInstance :=
  outgoing.foldl (fun sr packet => forwardByRoute packet sr) sr

/-- An IP packet that leaves by the gateway. -/
structure SrInstance.Through (sr : SrInstance) (gateway : UInt32) (packet : Frame) : Prop where
  ip : ethertype packet = ethertypeIp
  long : ethernetHdrSize + ipHdrSize ≤ packet.length
  route : ∃ route, sr.longestprefixmatch (ipDst packet) = some route ∧ route.gw = gateway

/-- The frames put on the wire for a next hop from `before` to `after`. -/
def sentFor (mac : Mac) (before after : SrInstance) : List Frame :=
  (after.sent.drop before.sent.length).filter (fun frame => etherDhost frame == mac)

/-- The fields by which a packet and an answer to another one are told apart. -/
structure SameHeader (packet other : Frame) : Prop where
  ttl : ipTtl other = ipTtl packet
  protocol : ipP other = ipP packet
  dst : ipDst other = ipDst packet
  type : icmpType other = icmpType packet

theorem addressed_sameHeader {packet : Frame} (long : 12 ≤ packet.length) (dhost shost : Mac)
    : SameHeader packet (addressed dhost shost packet) := by
  obtain ⟨ttl, protocol, dst, type⟩ := addressed_fields long dhost shost
  exact ⟨ttl, protocol, dst, type⟩

section Mutual

variable {sr : SrInstance} {packet other wire otherWire : Frame}

/-- A packet that is put on the wire for another one, as an error message, has no error of its
own: its TTL is 64 and it is an ICMP message.
-/
theorem not_fails_of_error (routed : sr.longestprefixmatch (ipDst packet) ≠ none)
    (same : SameHeader packet wire) (ttl : ipTtl wire = 64) (protocol : ipP wire = 1)
    : ¬ sr.Fails packet := by
  have packetTtl : ipTtl packet = 64 := same.ttl.symm.trans ttl
  have packetP : ipP packet = 1 := same.protocol.symm.trans protocol
  rintro (⟨-, expires | unrouted⟩ | ⟨-, transport⟩)
  · rw [packetTtl] at expires
    exact absurd expires (by decide)
  · exact routed unrouted
  · rw [packetP] at transport
    exact absurd transport (by decide)

/-- A foreign packet with a route fails only by its TTL. -/
theorem expires_of_fails (routed : sr.longestprefixmatch (ipDst packet) ≠ none)
    (foreign : sr.ipCheck (ipDst packet) = none) (fails : sr.Fails packet)
    : ipTtl packet = 1 := by
  rcases fails with ⟨-, expires | unrouted⟩ | ⟨own, -⟩
  · exact expires
  · exact absurd unrouted routed
  · rw [foreign] at own
    cases own

/-- Two foreign packets are never passed on for each other: each has a smaller TTL than the
other.
-/
theorem not_transit_transit (same : SameHeader packet wire)
    (ttl : ipTtl wire = ipTtl other - 2)
    : ipTtl other ≠ ipTtl packet - 2 := by
  intro otherTtl
  rw [same.ttl, otherTtl] at ttl
  exact twoTransits_ne _ ttl.symm

/-- No error message is sent for a packet that is passed on for it: the packet has a TTL of
62, and so does not expire.
-/
theorem not_transit_error (routed : sr.longestprefixmatch (ipDst packet) ≠ none)
    (same : SameHeader packet wire) (foreign : sr.ipCheck (ipDst other) = none)
    (ttl : ipTtl wire = ipTtl other - 2) (dst : ipDst wire = ipDst other)
    (otherTtl : ipTtl other = 64)
    : ¬ sr.Fails packet := by
  intro fails
  have packetForeign : sr.ipCheck (ipDst packet) = none := by
    rw [← same.dst, dst]
    exact foreign
  have expires := expires_of_fails routed packetForeign fails
  rw [← same.ttl, ttl, otherTtl] at expires
  exact absurd expires (by decide)

/-- No echo reply is sent for a packet that is passed on for it: the packet is foreign. -/
theorem not_transit_echo (same : SameHeader packet wire)
    (foreign : sr.ipCheck (ipDst other) = none) (dst : ipDst wire = ipDst other)
    : ¬ (sr.ipCheck (ipDst packet)).isSome := by
  rw [← same.dst, dst, foreign]
  decide

/-- Two IP packets with a route never answer each other. A packet passed on has a smaller TTL
and stays foreign, an error message has TTL 64 and is no echo request, and an echo reply is
no request either.
-/
theorem answers_not_mutual (ip : ethertype packet = ethertypeIp)
    (otherIp : ethertype other = ethertypeIp)
    (routed : sr.longestprefixmatch (ipDst packet) ≠ none)
    (otherRouted : sr.longestprefixmatch (ipDst other) ≠ none)
    (same : SameHeader packet wire) (otherSame : SameHeader other otherWire)
    (answer : sr.Answer packet otherWire)
    : ¬ sr.Answer other wire := by
  intro otherAnswer
  cases answer with
  | arp type => exact ne_arp_of_ip ip type
  | transit foreign ttl dst =>
      cases otherAnswer with
      | arp type => exact ne_arp_of_ip otherIp type
      | transit _ otherTtl _ =>
          exact not_transit_transit same otherTtl (otherSame.ttl.symm.trans ttl)
      | error otherFails wireTtl _ _ =>
          have packetTtl : ipTtl packet = 64 := same.ttl.symm.trans wireTtl
          exact not_transit_error otherRouted otherSame foreign ttl dst packetTtl otherFails
      | echo own _ _ => exact not_transit_echo otherSame foreign dst own
  | error fails ttl protocol type =>
      cases otherAnswer with
      | arp type => exact ne_arp_of_ip otherIp type
      | transit foreign otherTtl dst =>
          have wireTtl : ipTtl other = 64 := otherSame.ttl.symm.trans ttl
          exact not_transit_error routed same foreign otherTtl dst wireTtl fails
      | error otherFails _ _ _ =>
          exact not_fails_of_error otherRouted otherSame ttl protocol otherFails
      | echo _ request _ =>
          rw [otherSame.type, request] at type
          exact absurd type (by decide)
  | echo own request reply =>
      cases otherAnswer with
      | arp type => exact ne_arp_of_ip otherIp type
      | transit foreign _ dst => exact not_transit_echo same foreign dst own
      | error _ _ _ type =>
          rw [same.type, request] at type
          exact absurd type (by decide)
      | echo _ otherRequest _ =>
          rw [otherSame.type, otherRequest] at reply
          exact absurd reply (by decide)

end Mutual

-----------------------------------------------------------------------------------------
-- The sweep of waiting packets
-----------------------------------------------------------------------------------------

/-- The frames answer some of the packets, in their order. -/
def SrInstance.AnswerSome (sr : SrInstance) (packets : List SrPacket) (frames : List Frame)
    : Prop :=
  ∃ answered, answered.Sublist packets
    ∧ List.Forall₂ (fun packet frame => sr.Answer packet.buf frame) answered frames

section Answering

variable {sr : SrInstance} {packets : List SrPacket} {frames : List Frame}

theorem SrInstance.Answer.same {next : SrInstance} {packet frame : Frame}
    (answer : sr.Answer packet frame) (same : SameTables sr next)
    : next.Answer packet frame := by
  have own : ∀ ip, next.ipCheck ip = sr.ipCheck ip := by
    intro ip
    rw [SrInstance.ipCheck, SrInstance.ipCheck, same.ifList]
  have matched : ∀ ip, next.longestprefixmatch ip = sr.longestprefixmatch ip := by
    intro ip
    rw [SrInstance.longestprefixmatch, SrInstance.longestprefixmatch, same.routingTable]
  cases answer with
  | arp type => exact .arp type
  | transit foreign ttl dst => exact .transit ((own _).trans foreign) ttl dst
  | error fails ttl protocol type =>
      refine .error ?_ ttl protocol type
      rw [SrInstance.Fails, own, matched]
      exact fails
  | echo foundOwn request reply =>
      refine .echo ?_ request reply
      rw [own]
      exact foundOwn

theorem SrInstance.AnswerSome.nil (sr : SrInstance) (packets : List SrPacket)
    : sr.AnswerSome packets [] :=
  ⟨[], List.nil_sublist packets, .nil⟩

/-- At most one answer to the first packet, and then answers to some of the others. -/
theorem SrInstance.AnswerSome.cons {first : List Frame} {packet : SrPacket}
    (single : first.length ≤ 1) (answers : ∀ frame ∈ first, sr.Answer packet.buf frame)
    (later : sr.AnswerSome packets frames)
    : sr.AnswerSome (packet :: packets) (first ++ frames) := by
  obtain ⟨answered, some, each⟩ := later
  match first, single with
  | [], _ => exact ⟨answered, some.cons packet, each⟩
  | [frame], _ =>
      exact ⟨packet :: answered, some.cons_cons packet, .cons (answers frame (by simp)) each⟩

theorem SrInstance.AnswerSome.filter (some : sr.AnswerSome packets frames)
    (keep : Frame → Bool)
    : sr.AnswerSome packets (frames.filter keep) := by
  obtain ⟨answered, sublist, each⟩ := some
  suffices kept : sr.AnswerSome answered (frames.filter keep) by
    obtain ⟨fewer, below, eachKept⟩ := kept
    exact ⟨fewer, below.trans sublist, eachKept⟩
  clear sublist
  induction each with
  | nil => exact .nil sr []
  | @cons packet frame answered frames answer _ ih =>
      rw [List.filter_cons]
      split
      · have kept : sr.AnswerSome (packet :: answered) ([frame] ++ frames.filter keep) :=
          .cons (Nat.le_refl 1) (by simpa using answer) ih
        exact kept
      · have dropped : sr.AnswerSome (packet :: answered) ([] ++ frames.filter keep) :=
          .cons (Nat.zero_le 1) (by simp) ih
        exact dropped

/-- As many answers as packets answer each of them. -/
theorem SrInstance.AnswerSome.all (some : sr.AnswerSome packets frames)
    (enough : frames.length = packets.length)
    : List.Forall₂ (fun packet frame => sr.Answer packet.buf frame) packets frames := by
  obtain ⟨answered, sublist, each⟩ := some
  obtain rfl := sublist.eq_of_length (each.length_eq.trans enough)
  exact each

theorem SrInstance.AnswerSome.same {next : SrInstance} (some : sr.AnswerSome packets frames)
    (same : SameTables sr next)
    : next.AnswerSome packets frames := by
  obtain ⟨answered, sublist, each⟩ := some
  exact ⟨answered, sublist, each.imp fun _ _ answer => answer.same same⟩

/-- Sending waiting packets again puts at most one answer to each on the wire, in their order,
by induction on the packets.
-/
theorem resendLoop_answers (outside : Outside) (packets : List SrPacket) (sr : SrInstance)
    : ∃ frames,
        (packetLoop (resend outside) packets sr).sent = sr.sent ++ frames
        ∧ sr.AnswerSome packets frames := by
  induction packets generalizing sr with
  | nil => exact ⟨[], (List.append_nil _).symm, .nil sr []⟩
  | cons packet rest ih =>
      have first : Sending (sr.Answer packet.buf) sr (resend outside packet sr) := by
        simp only [resend]
        cases sr.srGetInterface packet.iface with
        | none => exact .of_log rfl
        | some interface => exact srHandlepacket_sending outside sr packet.buf interface.name
      have updates : Updates outside packet.iface sr (resend outside packet sr) :=
        resend_updates packet
      obtain ⟨answers, sent, single, each⟩ := first
      obtain ⟨later, sentLater, some⟩ := ih (resend outside packet sr)
      simp only [packetLoop]
      split
      · refine ⟨answers ++ [], ?_, .cons single each (.nil sr rest)⟩
        rw [List.append_nil]
        exact sent
      · refine ⟨answers ++ later, ?_, .cons single each ?_⟩
        · rw [sentLater, sent, List.append_assoc]
        · exact some.same
            ⟨updates.sameTables.ifList.symm, updates.sameTables.routingTable.symm⟩

end Answering

section Known

variable {sr : SrInstance} {gateway : UInt32}

/-- All routes have an interface. -/
def SrInstance.Interfaces (sr : SrInstance) : Prop :=
  ∀ route ∈ sr.routingTable, (sr.srGetInterface route.interface).isSome

instance (sr : SrInstance) : Decidable sr.Interfaces :=
  inferInstanceAs (Decidable (∀ route ∈ sr.routingTable, _))

/-- A packet for the gateway goes to `sr_ForwardPacket` with an interface. -/
theorem forwardByRoute_through {packet : Frame} (interfaces : sr.Interfaces)
    (through : sr.Through gateway packet) (caller : Caller)
    : ∃ interface, forwardByRoute (caller, packet) sr
        = srForwardPacket caller packet gateway (some interface) sr := by
  obtain ⟨route, matched, rfl⟩ := through.route
  have listed := SrInstance.longestprefixmatch_mem matched
  obtain ⟨interface, found⟩ := Option.isSome_iff_exists.mp (interfaces route listed)
  exact ⟨interface, by simp only [forwardByRoute, matched, found]⟩

theorem SrInstance.Through.same {next : SrInstance} {packet : Frame}
    (through : sr.Through gateway packet) (same : SameTables sr next)
    : next.Through gateway packet := by
  obtain ⟨route, matched, leaves⟩ := through.route
  refine ⟨through.ip, through.long, route, ?_, leaves⟩
  rw [SrInstance.longestprefixmatch, same.routingTable]
  exact matched

theorem SrInstance.Interfaces.same {next : SrInstance} (interfaces : sr.Interfaces)
    (same : SameTables sr next)
    : next.Interfaces := by
  intro route listed
  rw [same.srGetInterface]
  exact interfaces route (same.routingTable ▸ listed)

/-- Packets for a known next hop are put on the wire in their order, by induction on the
packets.
-/
theorem forwardAll_known {outgoing : List (Caller × Frame)} {entry : SrArpentry}
    (interfaces : sr.Interfaces)
    (through : ∀ packet ∈ outgoing, sr.Through gateway packet.2)
    (known : srArpcacheLookup sr.entries gateway = some entry)
    : ∃ wires,
        (forwardAll outgoing sr).sent = sr.sent ++ wires
        ∧ List.Forall₂ (fun frame wire => ∃ shost, wire = addressed entry.mac shost frame)
            (outgoing.map Prod.snd) wires := by
  induction outgoing generalizing sr with
  | nil => exact ⟨[], (List.append_nil _).symm, .nil⟩
  | cons packet rest ih =>
      obtain ⟨caller, frame⟩ := packet
      obtain ⟨interface, forwarded⟩ :=
        forwardByRoute_through interfaces (through (caller, frame) (by simp)) caller
      have recorded : srArpcacheLookup (sr.record (.forwardPacket caller frame gateway)).entries
          gateway = some entry := known
      simp only [srForwardPacket, recorded] at forwarded
      have same : SameTables sr (forwardByRoute (caller, frame) sr) := by
        rw [forwarded]
        exact ⟨rfl, rfl⟩
      obtain ⟨wires, sent, each⟩ := ih (interfaces.same same)
        (fun other member => (through other (by simp [member])).same same)
        (by rw [forwarded]; exact known)
      refine ⟨addressed entry.mac interface.addr frame :: wires, ?_, .cons ⟨_, rfl⟩ each⟩
      have all : forwardAll ((caller, frame) :: rest) sr
          = forwardAll rest (forwardByRoute (caller, frame) sr) := rfl
      rw [all, sent, forwarded]
      simp [SrInstance.sent, srSendPacket, SrInstance.record, Event.sent, List.filterMap_cons]

end Known

-----------------------------------------------------------------------------------------
-- Packets for an unknown next hop
-----------------------------------------------------------------------------------------

/-- What happens while the MAC of a next hop is unknown: a packet for it is on its way out, or
the queue is swept.
-/
inductive Interim
  | forward (caller : Caller) (packet : Frame)
  | sweep
  deriving DecidableEq

def Interim.outgoing : Interim → Option (Caller × Frame)
  | .forward caller packet => some (caller, packet)
  | .sweep => none

/-- The router after all that happens meanwhile. -/
def waitFor (sweep : SrInstance → SrInstance) (meanwhile : List Interim) (sr : SrInstance)
    : SrInstance :=
  meanwhile.foldl
    (fun sr event =>
      match event with
      | .forward caller packet => forwardByRoute (caller, packet) sr
      | .sweep => sweep sr)
    sr

/-- The frames wait for the gateway, in front of the requests there were at the start. -/
structure Waiting (start : SrInstance) (gateway : UInt32) (frames : List Frame)
    (sweeps : Nat) (request : SrArpreq) (sr : SrInstance)
    : Prop where
  tables : SameTables start sr
  entries : sr.entries = start.entries
  queue : ∃ rest, sr.requests = request :: rest ∧ (start.requests = [] → rest = [])
  address : request.address = start.nextAddress
  ip : request.ip = gateway
  packets : request.packets.map SrPacket.buf = frames.reverse
  asked : request.timesSent ≤ sweeps

/-- Nothing has happened yet, or frames wait. -/
def Waits (start : SrInstance) (gateway : UInt32) (frames : List Frame) (sweeps : Nat)
    (sr : SrInstance)
    : Prop :=
  frames = [] ∧ sr = start ∨ frames ≠ [] ∧ ∃ request, Waiting start gateway frames sweeps request sr

section Unknown

variable {outside : Outside} {start sr : SrInstance} {gateway : UInt32} {frames : List Frame}
  {sweeps : Nat}

/-- The first packet for a next hop opens its request. -/
theorem srArpcacheQueuereq_opens (sr : SrInstance) {packet : SrPacket} (filled : packet.buf ≠ [])
    (idle : ∀ request ∈ sr.requests, request.ip ≠ gateway)
    : srArpcacheQueuereq gateway packet sr
      = { sr with
          requests := { sr.opened gateway with packets := [packet] } :: sr.requests
          nextAddress := sr.nextAddress + 1 } := by
  have none : ¬ sr.requests.any (fun request => request.ip == gateway) = true := by
    simpa using idle
  simp only [srArpcacheQueuereq, if_neg none, if_neg filled, addPacket, if_true]
  rfl

/-- A further packet is put in front of those that wait. -/
theorem srArpcacheQueuereq_joins (sr : SrInstance) {packet : SrPacket} {request : SrArpreq}
    {rest : List SrArpreq} (filled : packet.buf ≠ []) (queue : sr.requests = request :: rest)
    (same : request.ip = gateway)
    : srArpcacheQueuereq gateway packet sr
      = { sr with requests := { request with packets := packet :: request.packets } :: rest } := by
  have waits : sr.requests.any (fun request => request.ip == gateway) = true := by
    simp [queue, same]
  simp only [srArpcacheQueuereq, if_pos waits, if_neg filled]
  simp only [queue, addPacket, if_pos same]

theorem Waits.sameTables (waits : Waits start gateway frames sweeps sr) : SameTables start sr := by
  rcases waits with ⟨-, rfl⟩ | ⟨-, request, waiting⟩
  · exact .refl sr
  · exact waiting.tables

theorem Waits.sameEntries (waits : Waits start gateway frames sweeps sr)
    : sr.entries = start.entries := by
  rcases waits with ⟨-, rfl⟩ | ⟨-, request, waiting⟩
  · rfl
  · exact waiting.entries

/-- A packet on its way out joins those that wait. -/
theorem Waits.forward {packet : Frame} (waits : Waits start gateway frames sweeps sr)
    (interfaces : start.Interfaces) (unknown : srArpcacheLookup start.entries gateway = none)
    (idle : ∀ request ∈ start.requests, request.ip ≠ gateway)
    (through : start.Through gateway packet) (caller : Caller)
    : Waits start gateway (frames ++ [packet]) sweeps (forwardByRoute (caller, packet) sr) := by
  obtain ⟨interface, forwarded⟩ := forwardByRoute_through
    (interfaces.same waits.sameTables) (through.same waits.sameTables) caller
  have recorded : srArpcacheLookup (sr.record (.forwardPacket caller packet gateway)).entries
      gateway = none :=
    (congrArg (srArpcacheLookup · gateway) waits.sameEntries).trans unknown
  simp only [srForwardPacket, recorded] at forwarded
  have filled : (⟨packet, interface.name⟩ : SrPacket).buf ≠ [] := by
    intro empty
    have long := through.long
    rw [show packet = [] from empty] at long
    exact absurd long (by decide)
  rw [forwarded]
  refine Or.inr ⟨by simp, ?_⟩
  rcases waits with ⟨rfl, rfl⟩ | ⟨-, request, waiting⟩
  · rw [srArpcacheQueuereq_opens (sr.record (.forwardPacket caller packet gateway)) filled idle]
    exact ⟨_, ⟨rfl, rfl⟩, rfl, ⟨sr.requests, rfl, id⟩, rfl, rfl, rfl, Nat.zero_le _⟩
  · obtain ⟨rest, queue, alone⟩ := waiting.queue
    rw [srArpcacheQueuereq_joins (sr.record (.forwardPacket caller packet gateway)) filled
      queue waiting.ip]
    refine ⟨_, ⟨waiting.tables.ifList, waiting.tables.routingTable⟩, waiting.entries,
      ⟨rest, rfl, alone⟩, waiting.address, waiting.ip, ?_, waiting.asked⟩
    simp [waiting.packets]

theorem srArpMakePacket_entries (interface : Option SrIf) (targetIp : UInt32) (mode : ArpMode)
    (sr : SrInstance)
    : (srArpMakePacket interface targetIp mode sr).entries = sr.entries := by
  cases interface <;> rfl

theorem srArpRequest_entries (targetIp : UInt32) (sr : SrInstance)
    : (srArpRequest targetIp sr).entries = sr.entries := by
  simp only [srArpRequest]
  split
  · rfl
  · exact srArpMakePacket_entries _ _ _ _

theorem srArpRequest_sameTables (targetIp : UInt32) (sr : SrInstance)
    : SameTables sr (srArpRequest targetIp sr) := by
  simp only [srArpRequest]
  split
  · exact .refl sr
  · cases sr.srGetInterface _ <;> exact ⟨rfl, rfl⟩

/-- The first request of the queue is found by its address. -/
theorem find_first {requests rest : List SrArpreq} {request : SrArpreq}
    (queue : requests = request :: rest)
    : requests.find? (fun other => other.address == request.address) = some request := by
  rw [queue, List.find?_cons_of_pos (by simp)]

/-- A sweep asks for the next hop, or does nothing yet. -/
theorem Waiting.sweep {request : SrArpreq}
    (waiting : Waiting start gateway frames sweeps request sr)
    (unknown : srArpcacheLookup start.entries gateway = none) (few : sweeps < 5)
    : ∃ next, Waiting start gateway frames (sweeps + 1) next
        (sweepRequest outside start.nextAddress sr) := by
  obtain ⟨rest, queue, alone⟩ := waiting.queue
  have found := find_first queue
  rw [waiting.address] at found
  have later := Nat.le_succ_of_le waiting.asked
  have missing : srArpcacheLookup sr.tick.entries request.ip = none := by
    rw [waiting.ip]
    exact (congrArg (srArpcacheLookup · gateway) waiting.entries).trans unknown
  have below : ¬ request.timesSent ≥ 5 := by
    have asked := waiting.asked
    omega
  simp only [sweepRequest, found]
  split
  · simp only [sweepDue, if_neg below, missing]
    set time := outside.clock sr.ticks
    set asked := srArpRequest request.ip (sr.tick.record (.arpRequest request.address time))
    have recorded : SameTables sr (sr.tick.record (.arpRequest request.address time)) :=
      ⟨rfl, rfl⟩
    have tables : SameTables start asked :=
      (waiting.tables.trans recorded).trans (srArpRequest_sameTables request.ip _)
    have entries : asked.entries = start.entries :=
      (srArpRequest_entries request.ip _).trans waiting.entries
    have requests : asked.requests = request :: rest :=
      (srArpRequest_requests request.ip).trans queue
    split
    · exact ⟨request, tables, entries, ⟨rest, requests, alone⟩, waiting.address, waiting.ip,
        waiting.packets, later⟩
    · have noted : ∃ others,
          (noteSent request.address time asked).requests
            = { request with timesSent := request.timesSent + 1, sent := time } :: others
          ∧ (start.requests = [] → others = []) := by
        simp only [noteSent, requests, List.map_cons, if_true]
        exact ⟨_, rfl, fun none => by rw [alone none]; rfl⟩
      exact ⟨_, ⟨tables.ifList, tables.routingTable⟩, entries, noted, waiting.address,
        waiting.ip, waiting.packets, Nat.succ_le_succ waiting.asked⟩
  · exact ⟨request, ⟨waiting.tables.ifList, waiting.tables.routingTable⟩, waiting.entries,
      ⟨rest, queue, alone⟩, waiting.address, waiting.ip, waiting.packets, later⟩

/-- The sweep that is about the request for the next hop: the whole sweep of the queue if
nothing else waits in it at the start, and otherwise the part of it for that request.
-/
def SweepFor (outside : Outside) (start : SrInstance) (sweep : SrInstance → SrInstance) : Prop :=
  sweep = sweepRequest outside start.nextAddress
    ∨ start.requests = [] ∧ sweep = srArpcacheSweepreqs outside

/-- The queue holds nothing but the request for the next hop, if it was empty at the start. -/
def Alone (start sr : SrInstance) : Prop :=
  start.requests = []
    → sr.requests = [] ∨ ∃ request, sr.requests = [request] ∧ request.address = start.nextAddress

theorem Waiting.alone {request : SrArpreq}
    (waiting : Waiting start gateway frames sweeps request sr)
    : Alone start sr := by
  intro none
  obtain ⟨rest, queue, alone⟩ := waiting.queue
  exact Or.inr ⟨request, by rw [queue, alone none], waiting.address⟩

theorem Waits.alone (waits : Waits start gateway frames sweeps sr) : Alone start sr := by
  rcases waits with ⟨-, rfl⟩ | ⟨-, request, waiting⟩
  · exact Or.inl
  · exact waiting.alone

theorem SweepFor.eq {sweep : SrInstance → SrInstance} (about : SweepFor outside start sweep)
    (alone : Alone start sr)
    : sweep sr = sweepRequest outside start.nextAddress sr := by
  rcases about with rfl | ⟨none, rfl⟩
  · rfl
  · rcases alone none with empty | ⟨request, single, address⟩
    · simp only [srArpcacheSweepreqs, sweepRequest, empty, List.map_nil, sweepLoop, List.find?_nil]
    · rw [srArpcacheSweepreqs, single, List.map_singleton, address]
      simp only [sweepLoop, ite_self]

/-- Nothing waits at an address that no request has. -/
theorem sweepRequest_none {address : Nat}
    (free : ∀ request ∈ sr.requests, request.address ≠ address)
    : sweepRequest outside address sr = sr := by
  have none : sr.requests.find? (fun request => request.address == address) = none := by
    simpa using free
  simp only [sweepRequest, none]

def Interim.isSweep : Interim → Bool
  | .forward _ _ => false
  | .sweep => true

/-- The packets on their way out while the MAC is unknown. -/
def packetsOf (meanwhile : List Interim) : List (Caller × Frame) :=
  meanwhile.filterMap Interim.outgoing

/-- What waits after all that happens meanwhile, by induction on it. -/
theorem waitFor_waits {sweep : SrInstance → SrInstance} {meanwhile : List Interim}
    (about : SweepFor outside start sweep) (interfaces : start.Interfaces)
    (unknown : srArpcacheLookup start.entries gateway = none)
    (idle : ∀ request ∈ start.requests, request.ip ≠ gateway)
    (fresh : ∀ request ∈ start.requests, request.address ≠ start.nextAddress)
    (through : ∀ packet ∈ packetsOf meanwhile, start.Through gateway packet.2)
    (few : sweeps + meanwhile.countP Interim.isSweep < 5)
    (waits : Waits start gateway frames sweeps sr)
    : Waits start gateway (frames ++ (packetsOf meanwhile).map Prod.snd)
        (sweeps + meanwhile.countP Interim.isSweep) (waitFor sweep meanwhile sr) := by
  induction meanwhile generalizing sr frames sweeps with
  | nil =>
      rw [packetsOf, List.filterMap_nil, List.map_nil, List.append_nil]
      exact waits
  | cons event rest ih =>
      cases event with
      | forward caller packet =>
          have packets : packetsOf (.forward caller packet :: rest)
              = (caller, packet) :: packetsOf rest := rfl
          have count : (Interim.forward caller packet :: rest).countP Interim.isSweep
              = rest.countP Interim.isSweep := rfl
          rw [packets] at through ⊢
          rw [count] at few ⊢
          have next :=
            waits.forward interfaces unknown idle (through (caller, packet) (by simp)) caller
          have all := ih (fun other member => through other (by simp [member])) few next
          rw [List.append_assoc] at all
          exact all
      | sweep =>
          have count : (Interim.sweep :: rest).countP Interim.isSweep
              = rest.countP Interim.isSweep + 1 :=
            List.countP_cons_of_pos rfl
          rw [count, Nat.add_comm _ 1, ← Nat.add_assoc] at few ⊢
          have next : Waits start gateway frames (sweeps + 1) (sweep sr) := by
            rw [about.eq waits.alone]
            rcases waits with ⟨none, rfl⟩ | ⟨some, request, waiting⟩
            · exact Or.inl ⟨none, sweepRequest_none fresh⟩
            · exact Or.inr ⟨some, waiting.sweep unknown (by omega)⟩
          exact ih through few next

end Unknown

/-- Between a list and its reverse, the first element meets the partner of the last one, and
the last element the partner of the first.
-/
theorem ends_meet {α β : Type*} {relation partner : α → β → Prop} {list : List α}
    {others : List β} (some : list ≠ []) (related : List.Forall₂ relation list.reverse others)
    (partners : List.Forall₂ partner list others)
    : ∃ first ∈ list, ∃ last ∈ list, ∃ one other,
        partner first one ∧ partner last other ∧ relation first other ∧ relation last one := by
  have long : 0 < list.length := List.length_pos_iff.mpr some
  have same := partners.length_eq
  have lastIn : list.length - 1 < list.length := by omega
  refine ⟨list[0], List.getElem_mem long, list[list.length - 1], List.getElem_mem lastIn,
    others[0], others[list.length - 1], partners.get long (same ▸ long),
    partners.get lastIn (same ▸ lastIn), ?_, ?_⟩
  · have meets := related.get (i := list.length - 1) (by simpa using lastIn) (same ▸ lastIn)
    simpa using meets
  · have meets := related.get (i := 0) (by simpa using long) (same ▸ long)
    simpa using meets

section Learned

variable {outside : Outside} {sr : SrInstance} {gateway : UInt32} {mac : Mac}

theorem srArpcacheinsert_sameTables (outside : Outside) (mac : Mac) (ip : UInt32)
    (sr : SrInstance)
    : SameTables sr (srArpcacheinsert outside mac ip sr) := by
  unfold srArpcacheinsert
  split <;> exact ⟨rfl, rfl⟩

/-- The frames that leave for a next hop whose MAC is known from the start are the packets
themselves.
-/
theorem sentFor_known {outgoing : List (Caller × Frame)} (interfaces : sr.Interfaces)
    (through : ∀ packet ∈ outgoing, sr.Through gateway packet.2)
    (known : (srArpcacheLookup sr.entries gateway).map SrArpentry.mac = some mac)
    : List.Forall₂ (fun frame wire => ∃ shost, wire = addressed mac shost frame)
        (outgoing.map Prod.snd) (sentFor mac sr (forwardAll outgoing sr)) := by
  obtain ⟨entry, found, rfl⟩ := Option.map_eq_some_iff.mp known
  obtain ⟨wires, sent, each⟩ := forwardAll_known interfaces through found
  have toHop : ∀ wire ∈ wires, etherDhost wire == entry.mac := by
    intro wire member
    obtain ⟨index, inside, rfl⟩ := List.mem_iff_getElem.mp member
    have framesInside : index < (outgoing.map Prod.snd).length := each.length_eq ▸ inside
    obtain ⟨shost, wire⟩ := each.get framesInside inside
    obtain ⟨packet, listed, frame⟩ := List.mem_map.mp (List.getElem_mem framesInside)
    have long : 12 ≤ packet.2.length :=
      Nat.le_trans (by decide) (through packet listed).long
    rw [List.get_eq_getElem, List.get_eq_getElem] at wire
    rw [wire, ← frame, etherDhost_addressed long]
    exact beq_self_eq_true _
  rw [sentFor, sent, List.drop_left, List.filter_eq_self.mpr toHop]
  exact each

/-- The frames that leave for a next hop when its waiting packets are swept answer some of
them.
-/
theorem sentFor_swept {request : SrArpreq} {rest : List SrArpreq}
    (queue : sr.requests = request :: rest) (few : request.timesSent < 5)
    (known : (srArpcacheLookup sr.entries request.ip).isSome)
    : sr.AnswerSome request.packets
        (sentFor mac sr (sweepRequest outside request.address sr)) := by
  have found := find_first queue
  simp only [sweepRequest, found]
  split
  · obtain ⟨entry, hit⟩ := Option.isSome_iff_exists.mp known
    have ticked : srArpcacheLookup sr.tick.entries request.ip = some entry := hit
    obtain ⟨frames, sent, answers⟩ := resendLoop_answers outside request.packets sr.tick
    have below : ¬ request.timesSent ≥ 5 := Nat.not_le.mpr few
    simp only [sweepDue, if_neg below, ticked]
    have destroyed : (destroyAfter request.address
        (packetLoop (resend outside) request.packets sr.tick)).sent = sr.sent ++ frames := by
      rw [SrInstance.sent, (destroyAfter_log _ _).1]
      exact sent
    rw [sentFor, destroyed, List.drop_left]
    have same : SameTables sr.tick sr := ⟨rfl, rfl⟩
    exact (answers.same same).filter _
  · have none : sentFor mac sr sr.tick = [] := by
      rw [sentFor]
      exact congrArg (List.filter _) (List.drop_length)
    rw [none]
    exact .nil sr _

/-- Packets that are put on the wire as they are cannot be answers to them in reverse. -/
theorem not_answered_reversed {packets : List SrPacket} {frames wires : List Frame}
    (some : frames ≠ []) (through : ∀ frame ∈ frames, sr.Through gateway frame)
    (reversed : packets.map SrPacket.buf = frames.reverse)
    (fast : List.Forall₂ (fun frame wire => ∃ shost, wire = addressed mac shost frame) frames wires)
    : ¬ sr.AnswerSome packets wires := by
  intro answers
  have enough : wires.length = packets.length := by
    rw [← fast.length_eq, ← List.length_reverse, ← reversed, List.length_map]
  have each : List.Forall₂ sr.Answer frames.reverse wires := by
    rw [← reversed, List.forall₂_map_left_iff]
    exact answers.all enough
  obtain ⟨first, firstIn, last, lastIn, one, other, ⟨shost, rfl⟩, ⟨otherShost, rfl⟩,
    firstAnswers, lastAnswers⟩ := ends_meet some each fast
  have routed : ∀ frame ∈ frames, sr.longestprefixmatch (ipDst frame) ≠ none := by
    intro frame member none
    obtain ⟨route, matched, -⟩ := (through frame member).route
    rw [none] at matched
    cases matched
  have header : ∀ frame ∈ frames, ∀ shost, SameHeader frame (addressed mac shost frame) :=
    fun frame member shost =>
      addressed_sameHeader (Nat.le_trans (by decide) (through frame member).long) mac shost
  exact answers_not_mutual (through first firstIn).ip (through last lastIn).ip
    (routed first firstIn) (routed last lastIn) (header first firstIn shost)
    (header last lastIn otherShost) firstAnswers lastAnswers

/-- What the next sweep puts on the wire for a next hop that was unknown is what would have
been put there with its MAC known from the start only if no packet waited: the packets are
handled again, last one first.
-/
theorem sweep_same_iff (outside : Outside) {ifList : List SrIf} {routingTable : List SrRt}
    {actions : List Action} {sr : SrInstance} {gateway : UInt32} {mac : Mac}
    {meanwhile : List Interim} {sweep : SrInstance → SrInstance}
    (reached : runFrom outside ifList routingTable actions = some sr)
    (interfaces : sr.Interfaces)
    (unknown : srArpcacheLookup sr.entries gateway = none)
    (idle : ∀ request ∈ sr.requests, request.ip ≠ gateway)
    (learned
      : (srArpcacheLookup (srArpcacheinsert outside mac gateway sr).entries gateway).isSome)
    (through : ∀ packet ∈ packetsOf meanwhile, sr.Through gateway packet.2)
    (few : meanwhile.countP Interim.isSweep < 5)
    (about : SweepFor outside sr sweep)
    : let known := srArpcacheinsert outside mac gateway sr
      let answered := srArpcacheinsert outside mac gateway (waitFor sweep meanwhile sr)
      sentFor mac answered (sweep answered)
          = sentFor mac known (forwardAll (packetsOf meanwhile) known)
        ↔ packetsOf meanwhile = [] := by
  intro known answered
  have consistent := (runFrom_consistent reached).1
  have fresh : ∀ request ∈ sr.requests, request.address ≠ sr.nextAddress :=
    fun request waiting => Nat.ne_of_lt (consistent.queued.allocated request waiting)
  have notFull : ¬ ∀ entry ∈ sr.entries, entry.valid := by
    intro full
    rw [entries_srArpcacheinsert_full full, unknown] at learned
    cases learned
  have waits : Waits sr gateway ([] ++ (packetsOf meanwhile).map Prod.snd)
      (0 + meanwhile.countP Interim.isSweep) (waitFor sweep meanwhile sr) :=
    waitFor_waits about interfaces unknown idle fresh through (by omega) (Or.inl ⟨rfl, rfl⟩)
  have requests : answered.requests = (waitFor sweep meanwhile sr).requests :=
    (srArpcacheinsert_log outside mac gateway _).2.1
  have alone : Alone sr answered := by
    rw [Alone, requests]
    exact waits.alone
  rw [about.eq alone]
  have tables := srArpcacheinsert_sameTables outside mac gateway sr
  have fast := sentFor_known (interfaces.same tables)
    (fun packet member => (through packet member).same tables)
    (srArpcacheinsert_learns outside unknown notFull)
  rw [List.nil_append] at waits
  rcases waits with ⟨none, same⟩ | ⟨some, request, waiting⟩
  · have nothing : packetsOf meanwhile = [] := List.map_eq_nil_iff.mp none
    have quiet : sweepRequest outside sr.nextAddress answered = answered := by
      refine sweepRequest_none fun request member => fresh request ?_
      rw [requests, same] at member
      exact member
    refine iff_of_true ?_ nothing
    rw [quiet, nothing, sentFor, sentFor]
    exact congrArg (List.filter _) (List.drop_length.trans List.drop_length.symm)
  · refine iff_of_false (fun equal => ?_) (fun nothing => some (by rw [nothing]; rfl))
    obtain ⟨rest, queue, -⟩ := waiting.queue
    have found : (srArpcacheLookup answered.entries request.ip).isSome := by
      have learnt : (srArpcacheLookup answered.entries gateway).map SrArpentry.mac = _ :=
        srArpcacheinsert_learns outside
          ((congrArg (srArpcacheLookup · gateway) waiting.entries).trans unknown)
          (waiting.entries ▸ notFull)
      rw [waiting.ip]
      exact Option.isSome_map ▸ congrArg Option.isSome learnt
    have asked := waiting.asked
    have answers : answered.AnswerSome request.packets
        (sentFor mac answered (sweepRequest outside request.address answered)) :=
      sentFor_swept (requests.trans queue) (by omega) found
    rw [waiting.address, equal] at answers
    have away : ∀ frame ∈ (packetsOf meanwhile).map Prod.snd, answered.Through gateway frame := by
      intro frame member
      obtain ⟨packet, listed, rfl⟩ := List.mem_map.mp member
      exact (through packet listed).same
        (waiting.tables.trans (srArpcacheinsert_sameTables outside mac gateway _))
    exact not_answered_reversed some away waiting.packets fast answers

end Learned

/-- A datagram leaves with a TTL of 62 if its next hop is known, and with 60 if it waited for
the MAC.
-/
theorem waiting_takes_hops
    : ¬ ∀ (outside : Outside) (sr : SrInstance) (gateway : UInt32) (mac : Mac)
          (outgoing : List (Caller × Frame)),
        sr.Interfaces → srArpcacheLookup sr.entries gateway = none → sr.requests = []
        → (∀ packet ∈ outgoing, sr.Through gateway packet.2)
        → sentFor mac (srArpcacheinsert outside mac gateway (forwardAll outgoing sr))
            (srArpcacheSweepreqs outside
              (srArpcacheinsert outside mac gateway (forwardAll outgoing sr)))
          = sentFor mac (srArpcacheinsert outside mac gateway sr)
            (forwardAll outgoing (srArpcacheinsert outside mac gateway sr)) := by
  intro always
  have same := always quietOutside oneRoute 0x0300000a (Vector.replicate 6 0x03)
    [(.handlepacket, smallDatagram 62 0xe068)] (by decide +kernel) (by decide +kernel)
    (by decide +kernel) (fun packet member => by
      obtain rfl := List.mem_singleton.mp member
      exact ⟨by decide +kernel, by decide +kernel, ⟨0, 0x0300000a, 0, "eth0"⟩,
        by decide +kernel, rfl⟩)
  exact absurd same (by decide +kernel)

/-- The rule at a datagram that waits for the answer to one request. -/
theorem sweep_same_iff_asked
    : let known := srArpcacheinsert quietOutside (Vector.replicate 6 0x03) 0x0300000a oneRoute
      let meanwhile : List Interim := [.forward .handlepacket (smallDatagram 62 0xe068), .sweep]
      let answered :=
        srArpcacheinsert quietOutside (Vector.replicate 6 0x03) 0x0300000a
          (waitFor (srArpcacheSweepreqs quietOutside) meanwhile oneRoute)
      sentFor (Vector.replicate 6 0x03) answered (srArpcacheSweepreqs quietOutside answered)
          = sentFor (Vector.replicate 6 0x03) known (forwardAll (packetsOf meanwhile) known)
        ↔ packetsOf meanwhile = [] :=
  sweep_same_iff quietOutside
    (show runFrom quietOutside oneRoute.ifList oneRoute.routingTable [] = some oneRoute from rfl)
    (by decide +kernel) (by decide +kernel) (by decide +kernel) (by decide +kernel)
    (fun packet member => by
      obtain rfl := List.mem_singleton.mp member
      exact ⟨by decide +kernel, by decide +kernel, ⟨0, 0x0300000a, 0, "eth0"⟩,
        by decide +kernel, rfl⟩)
    (by decide) (Or.inr ⟨rfl, rfl⟩)

end Networks.Router
