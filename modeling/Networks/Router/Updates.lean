import Networks.Router.PacketFields
import Networks.Router.Sweep
import Mathlib.Logic.Relation

/-! Everything that handling a frame or sending an ARP request can do to the router, as a
sequence of a few updates. An invariant of the router is shown once for each update and then
holds after every handler.
-/

namespace Networks.Router

open ByteFields
open Ctcp (htons fieldBytes16 fieldBytes32)

theorem SrInstance.srGetInterface_name {sr : SrInstance} {name : String} {interface : SrIf}
    (found : sr.srGetInterface name = some interface)
    : interface.name = name := by
  have named := List.find?_some found
  simpa using named

/-- The name of a found interface finds the same interface. -/
theorem SrInstance.srGetInterface_self {sr : SrInstance} {name : String} {interface : SrIf}
    (found : sr.srGetInterface name = some interface)
    : sr.srGetInterface interface.name = some interface := by
  rw [srGetInterface_name found]
  exact found

/-- The loop returns an entry of the table, or what it started from. -/
theorem longestprefixmatchLoop_mem {targetIp longest : UInt32} {nexthop : Option SrRt}
    {routes : List SrRt} {route : SrRt}
    (found : longestprefixmatchLoop targetIp nexthop longest routes = some route)
    : nexthop = some route ∨ route ∈ routes := by
  induction routes generalizing nexthop longest with
  | nil => exact Or.inl found
  | cons next rest ih =>
      simp only [longestprefixmatchLoop] at found
      split at found
      · rcases ih found with head | tail
        · exact Or.inr (by simp [Option.some.inj head])
        · exact Or.inr (by simp [tail])
      · rcases ih found with before | tail
        · exact Or.inl before
        · exact Or.inr (by simp [tail])

theorem SrInstance.longestprefixmatch_mem {sr : SrInstance} {targetIp : UInt32}
    {route : SrRt} (found : sr.longestprefixmatch targetIp = some route)
    : route ∈ sr.routingTable := by
  rcases longestprefixmatchLoop_mem found with start | member
  · cases start
  · exact member

/-- The lookup returns a valid entry for the address, or what it started from, by induction on
the entries.
-/
theorem lookupLoop_spec {entries : List SrArpentry} {ip : UInt32}
    {start : Option SrArpentry} {entry : SrArpentry}
    (found
      : entries.foldl
          (fun found entry => if entry.valid ∧ entry.ip = ip then some entry else found) start
        = some entry)
    : start = some entry ∨ entry ∈ entries ∧ entry.valid ∧ entry.ip = ip := by
  induction entries generalizing start with
  | nil => exact Or.inl found
  | cons head rest ih =>
      rw [List.foldl_cons] at found
      rcases ih found with before | ⟨member, fits⟩
      · split at before
        · next fits =>
            obtain rfl := Option.some.inj before
            exact Or.inr ⟨by simp, fits⟩
        · exact Or.inl before
      · exact Or.inr ⟨by simp [member], fits⟩

theorem srArpcacheLookup_spec {entries : List SrArpentry} {ip : UInt32} {entry : SrArpentry}
    (found : srArpcacheLookup entries ip = some entry)
    : entry ∈ entries ∧ entry.valid ∧ entry.ip = ip := by
  rcases lookupLoop_spec found with start | spec
  · cases start
  · exact spec

/-- A request as it was, with at most the packet put in front of its packets. -/
structure SrArpreq.Waits (packet : SrPacket) (old new : SrArpreq) : Prop where
  same : new = { old with packets := new.packets }
  packets : new.packets = old.packets ∨ new.packets = packet :: old.packets

theorem SrArpreq.Waits.refl (packet : SrPacket) (request : SrArpreq)
    : request.Waits packet request :=
  ⟨rfl, Or.inl rfl⟩

theorem waits_refl (packet : SrPacket) (requests : List SrArpreq)
    : List.Forall₂ (SrArpreq.Waits packet) requests requests := by
  induction requests with
  | nil => exact .nil
  | cons request rest ih => exact .cons (.refl packet request) ih

theorem addPacket_waits (ip : UInt32) (packet : SrPacket) (requests : List SrArpreq)
    : List.Forall₂ (SrArpreq.Waits packet) requests (addPacket ip packet requests) := by
  induction requests with
  | nil => exact .nil
  | cons request rest ih =>
      simp only [addPacket]
      split
      · exact .cons ⟨rfl, Or.inr rfl⟩ (waits_refl packet rest)
      · exact .cons (.refl packet request) ih

/-- The request that a packet for an unknown address opens. -/
def SrInstance.opened (ip : UInt32) (sr : SrInstance) : SrArpreq where
  address := sr.nextAddress
  ip := ip
  sent := 0
  timesSent := 0
  packets := []

/-- Queueing a packet opens a request where there is none, and puts the packet on at most one
request. Nothing else changes.
-/
theorem srArpcacheQueuereq_spec (ip : UInt32) (packet : SrPacket) (sr : SrInstance)
    : ∃ started queue next,
        srArpcacheQueuereq ip packet sr = { sr with requests := queue, nextAddress := next }
        ∧ (started = sr.requests ∧ next = sr.nextAddress
          ∨ started = sr.opened ip :: sr.requests ∧ next = sr.nextAddress + 1)
        ∧ List.Forall₂ (SrArpreq.Waits packet) started queue := by
  simp only [srArpcacheQueuereq]
  split
  · split
    · exact ⟨_, _, _, rfl, Or.inl ⟨rfl, rfl⟩, waits_refl packet _⟩
    · exact ⟨_, _, _, rfl, Or.inr ⟨rfl, rfl⟩, waits_refl packet _⟩
  · split
    · exact ⟨_, _, _, rfl, Or.inl ⟨rfl, rfl⟩, addPacket_waits ip packet _⟩
    · exact ⟨_, _, _, rfl, Or.inr ⟨rfl, rfl⟩, addPacket_waits ip packet _⟩

-----------------------------------------------------------------------------------------
-- Updates
-----------------------------------------------------------------------------------------

/-- A frame may leave by an interface: its source address is that of the interface, and an
IP packet takes the interface of its route to a known gateway.
-/
structure SrInstance.Egress (sr : SrInstance) (packet : Frame) (iface : String)
    (entries : List SrArpentry)
    : Prop where
  accepted : sr.accepted packet iface
  routed
    : ethertype packet = ethertypeIp
      → ∃ route, sr.longestprefixmatch (ipDst packet) = some route ∧ route.interface = iface
          ∧ ∃ entry ∈ entries,
              entry.valid ∧ entry.ip = route.gw ∧ etherDhost packet = entry.mac

/-- An interface that is looked up by its name: it is given, or that of a route. -/
def SrInstance.Named (given : String) (sr : SrInstance) (name : String) : Prop :=
  name = given ∨ ∃ route ∈ sr.routingTable, route.interface = name

/-- One update of the router, while it handles a frame from the interface `given`. -/
inductive Update (outside : Outside) (given : String) : SrInstance → SrInstance → Prop
  | icmpMakePacket {sr} (type code : UInt8) (packet : Frame)
    (other : ¬ (type = 3 ∧ code = 1))
    : Update outside given sr (sr.record (.icmpMakePacket type code packet))
  | forwardPacket {sr} (caller : Caller) (packet : Frame) (nexthopIp : UInt32)
    : Update outside given sr (sr.record (.forwardPacket caller packet nexthopIp))
  | sendPacket {sr} {packet : Frame} {iface : String}
    (leaves : sr.Egress packet iface sr.entries)
    : Update outside given sr (srSendPacket packet iface sr)
  | queuereq {sr} {packet : SrPacket} (ip : UInt32)
    (known
      : (sr.srGetInterface packet.iface).isSome
        ∨ ∃ route ∈ sr.routingTable, route.interface = packet.iface)
    : Update outside given sr (srArpcacheQueuereq ip packet sr)
  | insert {sr} (mac : Mac) (ip : UInt32)
    : Update outside given sr (srArpcacheinsert outside mac ip sr)
  | malloc {sr} : Update outside given sr { sr with mallocs := sr.mallocs + 1 }
  | outOfBounds {sr} : Update outside given sr (sr.fail .outOfBounds)
  | nullPointer {sr} {name : String} (named : sr.Named given name)
    (missing : sr.srGetInterface name = none)
    : Update outside given sr (sr.fail .nullPointer)

/-- Any sequence of updates. -/
abbrev Updates (outside : Outside) (given : String) : SrInstance → SrInstance → Prop :=
  Relation.ReflTransGen (Update outside given)

section Handlers

variable {outside : Outside} {given : String} {sr : SrInstance}

open Relation (ReflTransGen)

-----------------------------------------------------------------------------------------
-- Sending
-----------------------------------------------------------------------------------------

/-- Where a packet is forwarded to: an interface looked up by its name, and for an IP packet
the interface and the gateway of its route.
-/
structure SrInstance.Routed (sr : SrInstance) (packet : Frame) (nexthopIp : UInt32)
    (name : String)
    : Prop where
  length : ethernetHdrSize ≤ packet.length
  route
    : ethertype packet = ethertypeIp
      → ∃ route, sr.longestprefixmatch (ipDst packet) = some route ∧ route.gw = nexthopIp
          ∧ route.interface = name

/-- An addressed packet leaves by the interface of its route. -/
theorem SrInstance.Routed.egress {packet : Frame} {nexthopIp : UInt32} {name : String}
    {interface : SrIf} {entry : SrArpentry} (routed : sr.Routed packet nexthopIp name)
    (found : sr.srGetInterface name = some interface)
    (cached : srArpcacheLookup sr.entries nexthopIp = some entry)
    : sr.Egress (addressed entry.mac interface.addr packet) interface.name sr.entries := by
  have ethernet : 14 ≤ packet.length := routed.length
  have long : 12 ≤ packet.length := by omega
  have agree := addressed_agree long entry.mac interface.addr
  refine ⟨?_, fun ip => ?_⟩
  · have same := etherShost_addressed long entry.mac interface.addr
    simp only [accepted, srEtherAddrsMatchInterface, srGetInterface_self found, same,
      agree.length, beq_self_eq_true, Bool.and_true, decide_eq_true_eq]
    exact routed.length
  · have sameType : ethertype (addressed entry.mac interface.addr packet) = ethertype packet :=
      agree.half 12 (by decide)
    have sameDst : ipDst (addressed entry.mac interface.addr packet) = ipDst packet :=
      agree.word 30 (by decide)
    obtain ⟨route, matched, gateway, byName⟩ := routed.route (sameType.symm.trans ip)
    obtain ⟨member, valid, sameIp⟩ := srArpcacheLookup_spec cached
    rw [sameDst]
    refine ⟨route, matched, ?_, entry, member, valid, sameIp.trans gateway.symm, ?_⟩
    · exact byName.trans (srGetInterface_name found).symm
    · exact etherDhost_addressed long entry.mac interface.addr

theorem srForwardPacket_updates {packet : Frame} {nexthopIp : UInt32} {name : String}
    (caller : Caller) (routed : sr.Routed packet nexthopIp name)
    (named : sr.Named given name)
    : Updates outside given sr
        (srForwardPacket caller packet nexthopIp (sr.srGetInterface name) sr) := by
  have recorded : Update outside given sr
      (sr.record (.forwardPacket caller packet nexthopIp)) := .forwardPacket _ _ _
  refine (ReflTransGen.single recorded).trans ?_
  cases found : sr.srGetInterface name with
  | none => exact .single (.nullPointer (named : SrInstance.Named given _ name) found)
  | some interface =>
      simp only [srForwardPacket]
      cases cached : srArpcacheLookup sr.entries nexthopIp with
      | some entry =>
          have leaves := routed.egress found cached
          simp only [SrInstance.record, cached]
          exact .single (.sendPacket ⟨leaves.accepted, leaves.routed⟩)
      | none =>
          have known : (sr.srGetInterface interface.name).isSome := by
            rw [SrInstance.srGetInterface_self found]
            rfl
          simp only [SrInstance.record, cached]
          exact .single (.queuereq nexthopIp (Or.inl known))

/-- What `sr_arp_make_packet` builds leaves by the interface it is built for. -/
theorem arpPacket_egress {name : String} {interface : SrIf}
    (found : sr.srGetInterface name = some interface) (dhost tha : Mac) (op : UInt16)
    (targetIp : UInt32)
    : sr.Egress (arpPacket dhost op interface tha targetIp) interface.name sr.entries := by
  have length : (arpPacket dhost op interface tha targetIp).length = 42 := by
    simp [arpPacket]
  let behind : Frame :=
    List.replicate 12 0x00 ++ fieldBytes16 (htons 0x0806) ++ fieldBytes16 (htons 0x0001)
      ++ fieldBytes16 (htons 0x0800) ++ [0x06, 0x04] ++ fieldBytes16 (htons op)
      ++ interface.addr.toList ++ fieldBytes32 interface.ip ++ tha.toList
      ++ fieldBytes32 targetIp
  have framed : arpPacket dhost op interface tha targetIp
      = addressed dhost interface.addr behind := by
    simp [behind, arpPacket, addressed, overwrite]
  have long : 12 ≤ behind.length := by simp [behind]
  have type : ethertype behind = 2054 := by
    have high : byteAt behind 12 = 8 := rfl
    have low : byteAt behind 13 = 6 := rfl
    rw [ethertype, halfAt, high, low]
    rfl
  refine ⟨?_, fun ip => ?_⟩
  · simp only [SrInstance.accepted, SrInstance.srEtherAddrsMatchInterface,
      SrInstance.srGetInterface_self found, length]
    rw [framed, etherShost_addressed long]
    simp [ethernetHdrSize]
  · have same : ethertype (addressed dhost interface.addr behind) = ethertype behind :=
      (addressed_agree long dhost interface.addr).half 12 (by decide)
    rw [framed, same, type] at ip
    exact absurd ip (by decide)

theorem srArpMakePacket_updates {name : String} (targetIp : UInt32) (mode : ArpMode)
    (named : sr.Named given name)
    : Updates outside given sr
        (srArpMakePacket (sr.srGetInterface name) targetIp mode sr) := by
  cases found : sr.srGetInterface name with
  | none => exact .single (.nullPointer named found)
  | some interface =>
      cases mode with
      | reply tha => exact .single (.sendPacket (arpPacket_egress found _ _ _ _))
      | request => exact .single (.sendPacket (arpPacket_egress found _ _ _ _))

theorem srArpRequest_updates (targetIp : UInt32)
    : Updates outside given sr (srArpRequest targetIp sr) := by
  simp only [srArpRequest]
  cases matched : sr.longestprefixmatch targetIp with
  | none => exact .refl
  | some nexthop =>
      have named : sr.Named given nexthop.interface :=
        Or.inr ⟨nexthop, SrInstance.longestprefixmatch_mem matched, rfl⟩
      exact srArpMakePacket_updates targetIp .request named

theorem arpReply_updates {packet : Frame} (long : ethernetHdrSize + arpHdrSize ≤ packet.length)
    (arp : ethertype packet = 2054)
    : Updates outside given sr (arpReply outside packet given sr) := by
  simp only [arpReply]
  split
  · split
    · exact .single (.insert _ _)
    · exact .refl
  · cases sr.longestprefixmatch (arTip packet) with
    | none => exact .refl
    | some nexthop =>
        refine srForwardPacket_updates .handlepacket ⟨?_, fun ip => ?_⟩ (Or.inl rfl)
        · exact Nat.le_trans (Nat.le_add_right _ _) long
        · rw [arp] at ip
          exact absurd ip (by decide)

theorem arpRequested_updates (packet : Frame)
    : Updates outside given sr (arpRequested outside packet given sr) := by
  simp only [arpRequested]
  split
  · have replied : Updates outside given sr
        (srArpMakePacket (sr.srGetInterface given) (arSip packet) (.reply (arSha packet)) sr) :=
      srArpMakePacket_updates _ _ (Or.inl rfl)
    split
    · exact replied
    · exact replied.tail (.insert _ _)
  · cases srArpcacheLookup sr.entries (arTip packet) with
    | some entry => exact srArpMakePacket_updates _ _ (Or.inl rfl)
    | none =>
        cases matched : sr.longestprefixmatch (arTip packet) with
        | none => exact .refl
        | some nexthop =>
            have known : ∃ route ∈ sr.routingTable, route.interface = nexthop.interface :=
              ⟨nexthop, SrInstance.longestprefixmatch_mem matched, rfl⟩
            exact .single (.queuereq _ (Or.inr known))

theorem handleArp_updates {packet : Frame} (arp : ethertype packet = 2054)
    : Updates outside given sr (handleArp outside packet given sr) := by
  simp only [handleArp]
  split
  · exact .refl
  · next long =>
      split
      · exact arpReply_updates (Nat.not_lt.mp long) arp
      split
      · exact arpRequested_updates packet
      · exact .refl

theorem icmpEcho_updates {code : UInt8} {packet : Frame} {nexthop : SrRt}
    (matched : sr.longestprefixmatch (ipSrc packet) = some nexthop)
    : Updates outside given sr (icmpEcho code packet nexthop sr) := by
  simp only [icmpEcho]
  split
  · exact .single .outOfBounds
  · next inside =>
      split
      · exact .single .outOfBounds
      · next long =>
          have fits := Nat.not_lt.mp inside
          have written := Nat.not_lt.mp long
          refine srForwardPacket_updates .icmpMakePacket ⟨?_, fun _ => ?_⟩
            (Or.inr ⟨nexthop, SrInstance.longestprefixmatch_mem matched, rfl⟩)
          · rw [length_icmpEchoPacket fits written]
            exact Nat.le_add_right _ _
          · rw [ipDst_icmpEchoPacket fits written]
            exact ⟨nexthop, matched, rfl, rfl⟩

theorem icmpError_updates {type code : UInt8} {packet : Frame} {nexthop : SrRt}
    (matched : sr.longestprefixmatch (ipSrc packet) = some nexthop)
    : Updates outside given sr (icmpError outside type code packet nexthop sr) := by
  have named : sr.Named given nexthop.interface :=
    Or.inr ⟨nexthop, SrInstance.longestprefixmatch_mem matched, rfl⟩
  simp only [icmpError]
  split
  · next unknown => exact .single (.nullPointer named unknown.2)
  split
  · exact .single .outOfBounds
  · next long =>
      have quoted := Nat.not_lt.mp long
      have allocated : Update outside given sr { sr with mallocs := sr.mallocs + 1 } := .malloc
      have routed : ∀ unused source,
          SrInstance.Routed { sr with mallocs := sr.mallocs + 1 }
            (icmpErrorPacket type code unused packet source) nexthop.gw nexthop.interface := by
        refine fun unused source => ⟨?_, fun _ => ?_⟩
        · rw [length_icmpErrorPacket quoted]
          decide
        · rw [ipDst_icmpErrorPacket]
          exact ⟨nexthop, matched, rfl, rfl⟩
      exact (Relation.ReflTransGen.single allocated).trans
        (srForwardPacket_updates .icmpMakePacket (routed _ _) named)

/-- What making an ICMP message does once the call is recorded. -/
theorem srIcmpMakePacket_made (packet : Frame) (type code : UInt8)
    : Updates outside given (sr.record (.icmpMakePacket type code packet))
        (srIcmpMakePacket outside packet type code sr) := by
  simp only [srIcmpMakePacket]
  split
  · exact .single .outOfBounds
  split
  · exact .refl
  split
  · exact .single .outOfBounds
  · cases matched : (sr.record (.icmpMakePacket type code packet)).longestprefixmatch
        (ipSrc packet) with
    | none => exact .refl
    | some nexthop =>
        simp only
        split
        · exact icmpEcho_updates matched
        · exact icmpError_updates matched

theorem srIcmpMakePacket_updates (packet : Frame) {type code : UInt8}
    (other : ¬ (type = 3 ∧ code = 1))
    : Updates outside given sr (srIcmpMakePacket outside packet type code sr) :=
  (ReflTransGen.single (.icmpMakePacket type code packet other)).trans
    (srIcmpMakePacket_made packet type code)

theorem handleIcmp_updates (packet : Frame)
    : Updates outside given sr (handleIcmp outside packet sr) := by
  simp only [handleIcmp]
  split
  · exact .single .outOfBounds
  split
  · exact .refl
  split
  · exact srIcmpMakePacket_updates _ (by decide)
  · exact .refl

theorem handleLocal_updates (packet : Frame)
    : Updates outside given sr (handleLocal outside packet sr) := by
  simp only [handleLocal]
  split
  · exact handleIcmp_updates packet
  split
  · exact srIcmpMakePacket_updates _ (by decide)
  · exact .refl

theorem handleTransit_updates {packet : Frame} (long : 34 ≤ packet.length)
    : Updates outside given sr (handleTransit outside packet sr) := by
  simp only [handleTransit]
  split
  · exact srIcmpMakePacket_updates _ (by decide)
  split
  · exact .single .outOfBounds
  cases matched : sr.longestprefixmatch (ipDst (rewriteIpSum (decrementTtl packet))) with
  | none => exact srIcmpMakePacket_updates _ (by decide)
  | some nexthop =>
      refine srForwardPacket_updates .handlepacket ⟨?_, fun _ => ⟨nexthop, matched, rfl, rfl⟩⟩
        (Or.inr ⟨nexthop, SrInstance.longestprefixmatch_mem matched, rfl⟩)
      rw [(forwarded_agree long).length]
      exact Nat.le_trans (by decide) long

theorem handleIp_updates (packet : Frame)
    : Updates outside given sr (handleIp outside packet sr) := by
  simp only [handleIp]
  split
  · exact .refl
  split
  · exact .single .outOfBounds
  · next header =>
      have long : 34 ≤ packet.length := Nat.not_lt.mp header
      split
      · exact .refl
      split
      · exact handleLocal_updates _
      · exact handleTransit_updates (by rw [(clearIpSum_agree long).length]; exact long)

/-- Handling a frame is a sequence of updates. -/
theorem srHandlepacket_updates (packet : Frame)
    : Updates outside given sr (srHandlepacket outside packet given sr) := by
  simp only [srHandlepacket]
  split
  · exact .single .outOfBounds
  split
  · next arp => exact handleArp_updates arp
  split
  · exact handleIp_updates packet
  · exact .refl

end Handlers

/-- What reporting a packet does once the report and the message are recorded. -/
theorem reportUnreachable_made (outside : Outside) (address : Nat) (packet : SrPacket)
    (sr : SrInstance)
    : Updates outside packet.iface
        ((sr.record (.hostUnreachable address packet)).record (.icmpMakePacket 3 1 packet.buf))
        (reportUnreachable outside address packet sr) :=
  srIcmpMakePacket_made packet.buf 3 1

-----------------------------------------------------------------------------------------
-- Loops of the sweep
-----------------------------------------------------------------------------------------

/-- What each packet preserves holds after the loop over the packets, by induction on them. -/
theorem packetLoop_invariant {act : SrPacket → SrInstance → SrInstance}
    (inv : SrInstance → Prop) {packets : List SrPacket} {sr : SrInstance}
    (preserved : ∀ packet ∈ packets, ∀ {now}, inv now → inv (act packet now))
    (start : inv sr)
    : inv (packetLoop act packets sr) := by
  induction packets generalizing sr with
  | nil => exact start
  | cons packet next ih =>
      have acted := preserved packet (by simp) start
      simp only [packetLoop]
      split
      · exact acted
      · exact ih (fun later member => preserved later (by simp [member])) acted

/-- What each request preserves holds after the sweep, by induction on the addresses. -/
theorem sweepLoop_invariant {outside : Outside} (inv : SrInstance → Prop)
    {addresses : List Nat} {sr : SrInstance}
    (preserved : ∀ address {now}, inv now → inv (sweepRequest outside address now))
    (start : inv sr)
    : inv (sweepLoop outside addresses sr) := by
  induction addresses generalizing sr with
  | nil => exact start
  | cons address next ih =>
      simp only [sweepLoop]
      split
      · exact preserved address start
      · exact ih (preserved address start)

end Networks.Router
