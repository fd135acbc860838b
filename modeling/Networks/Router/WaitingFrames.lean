import Networks.Router.EchoReply
import Networks.Router.Requests

/-! Which frames can wait for a next hop. IP packets can, and ARP replies that are forwarded;
the input filter keeps ARP requests out. The sweep takes whatever waits for an IP packet.
-/

namespace Networks.Router

open ByteFields

/-- `sr_arp_req_not_for_us`, unless the assertion about the interface fails. -/
def SrInstance.srArpReqNotForUs (sr : SrInstance) (packet : Frame) (interface : String)
    : Option Bool :=
  if packet.length < ethernetHdrSize + arpHdrSize then
    some false
  else
    (sr.srGetInterface interface).map fun iface =>
      ethertype packet = ethertypeArp ∧ arOp packet = 1 ∧ arTip packet ≠ iface.ip

/-- What reaches the router from the server and from its timer. -/
inductive Delivery
  | vnsPacket (packet : Frame) (interface : String)
  | timeout
  | sweepreqs

/-- A frame goes through the filter of `sr_read_from_server_expect` first. A failed assertion
leaves nothing.
-/
def Delivery.run (outside : Outside) (sr : SrInstance) : Delivery → Option SrInstance
  | .vnsPacket packet interface =>
      (sr.srArpReqNotForUs packet interface).map fun notForUs =>
        if notForUs then sr else srHandlepacket outside packet interface sr
  | .timeout => some (Action.timeout.run outside sr)
  | .sweepreqs => some (Action.sweepreqs.run outside sr)

/-- A step of the router behind its filter. A fault ends the run. -/
def deliver (outside : Outside) (sr : SrInstance) (delivery : Delivery) : Option SrInstance :=
  (delivery.run outside sr).filter fun next => next.fault.isNone

/-- The router that deliveries lead to from its start. -/
def deliverFrom (outside : Outside) (ifList : List SrIf) (routingTable : List SrRt)
    (deliveries : List Delivery)
    : Option SrInstance :=
  StepRuns.exec (deliver outside) (srInit ifList routingTable) deliveries

/-- An ARP reply for somebody else is forwarded, and has to wait for its next hop. -/
def Delivery.QueuesReply (sr : SrInstance) : Delivery → Prop
  | .vnsPacket packet _ =>
      ethertype packet = ethertypeArp ∧ ethernetHdrSize + arpHdrSize ≤ packet.length
      ∧ arOp packet = 2 ∧ sr.ipCheck (arTip packet) = none
      ∧ ∃ nexthop,
        sr.longestprefixmatch (arTip packet) = some nexthop
        ∧ srArpcacheLookup sr.entries nexthop.gw = none
  | _ => False

/-- Only IP packets wait, and only about them was host unreachable reported. -/
structure SrInstance.OnlyIp (sr : SrInstance) : Prop where
  waiting
    : ∀ request ∈ sr.requests, ∀ packet ∈ request.packets, ethertype packet.buf = ethertypeIp
  reported
    : ∀ address packet, .hostUnreachable address packet ∈ sr.log
      → ethertype packet.buf = ethertypeIp

-----------------------------------------------------------------------------------------
-- Handling a frame
-----------------------------------------------------------------------------------------

section Handlers

variable {outside : Outside} {sr next : SrInstance} {packet : Frame}

/-- The waiting packets are among those before, and nothing was reported. -/
theorem SrInstance.OnlyIp.of_same (only : sr.OnlyIp) (requests : next.requests = sr.requests)
    (log : next.log = sr.log)
    : next.OnlyIp :=
  ⟨requests ▸ only.waiting, log ▸ only.reported⟩

theorem SrInstance.OnlyIp.record {event : Event} (only : sr.OnlyIp)
    (ip
      : ∀ address packet, event = .hostUnreachable address packet
        → ethertype packet.buf = ethertypeIp)
    : (sr.record event).OnlyIp := by
  refine ⟨only.waiting, fun address packet member => ?_⟩
  rcases List.mem_append.mp member with before | new
  · exact only.reported address packet before
  · exact ip address packet (List.mem_singleton.mp new).symm

theorem SrInstance.OnlyIp.queuereq {waiting : SrPacket} (only : sr.OnlyIp) (address : UInt32)
    (ip : ethertype waiting.buf = ethertypeIp)
    : (srArpcacheQueuereq address waiting sr).OnlyIp := by
  obtain ⟨started, queue, next, same, opened, waits⟩ :=
    srArpcacheQueuereq_spec address waiting sr
  rw [same]
  refine ⟨fun request member packet inside => ?_, only.reported⟩
  rcases waits_packets waits member inside with rfl | ⟨old, oldMember, oldInside⟩
  · exact ip
  · rcases opened with ⟨rfl, -⟩ | ⟨rfl, -⟩
    · exact only.waiting old oldMember packet oldInside
    · rcases List.mem_cons.mp oldMember with rfl | before
      · cases oldInside
      · exact only.waiting old before packet oldInside

/-- A packet that is forwarded may wait when it is an IP packet. -/
theorem srForwardPacket_onlyIp (caller : Caller) {nexthopIp : UInt32}
    (interface : Option SrIf) (only : sr.OnlyIp)
    (goes
      : ethertype packet = ethertypeIp ∨ (srArpcacheLookup sr.entries nexthopIp).isSome)
    : (srForwardPacket caller packet nexthopIp interface sr).OnlyIp := by
  have recorded : (sr.record (.forwardPacket caller packet nexthopIp)).OnlyIp :=
    only.record (by simp)
  cases interface with
  | none => exact recorded.of_same rfl rfl
  | some interface =>
      simp only [srForwardPacket, SrInstance.record]
      cases cached : srArpcacheLookup sr.entries nexthopIp with
      | some entry => exact recorded.record (by simp)
      | none =>
          refine recorded.queuereq nexthopIp (goes.resolve_right ?_)
          simp [cached]

theorem srArpMakePacket_onlyIp (interface : Option SrIf) (targetIp : UInt32)
    (mode : ArpMode) (only : sr.OnlyIp)
    : (srArpMakePacket interface targetIp mode sr).OnlyIp := by
  cases interface with
  | none => exact only.of_same rfl rfl
  | some interface => exact only.record (by simp)

theorem srArpcacheinsert_onlyIp (mac : Mac) (ip : UInt32) (only : sr.OnlyIp)
    : (srArpcacheinsert outside mac ip sr).OnlyIp := by
  obtain ⟨log, requests, -⟩ := srArpcacheinsert_log outside mac ip sr
  exact only.of_same requests log

theorem ethertype_icmpErrorPacket {type code : UInt8} {unused : Nat → UInt8} {source : UInt32}
    : ethertype (icmpErrorPacket type code unused packet source) = ethertypeIp := by
  have high : byteAt (icmpErrorPacket type code unused packet source) 12 = 0x08 := rfl
  have low : byteAt (icmpErrorPacket type code unused packet source) 13 = 0x00 := rfl
  rw [ethertype, halfAt, high, low]
  decide

theorem srIcmpMakePacket_onlyIp (type code : UInt8) (only : sr.OnlyIp)
    : (srIcmpMakePacket outside packet type code sr).OnlyIp := by
  have recorded : (sr.record (.icmpMakePacket type code packet)).OnlyIp :=
    only.record (by simp)
  simp only [srIcmpMakePacket]
  split
  · exact recorded.of_same rfl rfl
  split
  · exact recorded
  split
  · exact recorded.of_same rfl rfl
  split
  · exact recorded
  split
  · unfold icmpEcho
    split
    · exact recorded.of_same rfl rfl
    next inside =>
    split
    · exact recorded.of_same rfl rfl
    next long =>
    exact srForwardPacket_onlyIp _ _ recorded (Or.inl
      (ethertype_icmpEchoPacket (Nat.not_lt.mp inside) (Nat.not_lt.mp long)))
  · simp only [icmpError]
    split
    · exact recorded.of_same rfl rfl
    split
    · exact recorded.of_same rfl rfl
    · exact srForwardPacket_onlyIp _ _ (recorded.of_same rfl rfl)
        (Or.inl ethertype_icmpErrorPacket)

theorem handleLocal_onlyIp (only : sr.OnlyIp) : (handleLocal outside packet sr).OnlyIp := by
  simp only [handleLocal, handleIcmp]
  split
  · split
    · exact only.of_same rfl rfl
    split
    · exact only
    split
    · exact srIcmpMakePacket_onlyIp 0 0 only
    · exact only
  split
  · exact srIcmpMakePacket_onlyIp 3 3 only
  · exact only

/-- Handling an IP packet can only make IP packets wait. -/
theorem handleIp_onlyIp (ip : ethertype packet = ethertypeIp) (only : sr.OnlyIp)
    : (handleIp outside packet sr).OnlyIp := by
  simp only [handleIp]
  split
  · exact only
  split
  · exact only.of_same rfl rfl
  next fits =>
  have long : 34 ≤ packet.length := Nat.not_lt.mp fits
  have cleared := clearIpSum_agree long
  split
  · exact only
  split
  · exact handleLocal_onlyIp only
  simp only [handleTransit]
  split
  · exact srIcmpMakePacket_onlyIp 11 0 only
  split
  · exact only.of_same rfl rfl
  split
  · exact srIcmpMakePacket_onlyIp 3 0 only
  · have agree := forwarded_agree (cleared.length ▸ long)
    have sameType : ethertype (rewriteIpSum (decrementTtl (clearIpSum packet))) = ethertypeIp :=
      (agree.half 12 (by decide)).trans ((cleared.half 12 (by decide)).trans ip)
    exact srForwardPacket_onlyIp _ _ only (Or.inl sameType)

/-- An ARP frame waits only when it is a reply that is forwarded, or a request for an address
that is not one of the router.
-/
theorem handleArp_onlyIp (name : String) (only : sr.OnlyIp)
    (request : arOp packet = 1 → (sr.ipCheck (arTip packet)).isSome)
    (reply
      : ethernetHdrSize + arpHdrSize ≤ packet.length → arOp packet = 2
        → sr.ipCheck (arTip packet) = none
        → ∀ nexthop, sr.longestprefixmatch (arTip packet) = some nexthop
          → (srArpcacheLookup sr.entries nexthop.gw).isSome)
    : (handleArp outside packet name sr).OnlyIp := by
  simp only [handleArp, arpReply, arpRequested]
  split
  · exact only
  next inside =>
  split
  · next two =>
      split
      · split
        · exact srArpcacheinsert_onlyIp _ _ only
        · exact only
      next foreign =>
      split
      · exact only
      next nexthop route =>
      exact srForwardPacket_onlyIp _ _ only
        (Or.inr (reply (Nat.not_lt.mp inside) two foreign nexthop route))
  split
  · next one =>
      rw [if_pos (request one)]
      have replied : (srArpMakePacket (sr.srGetInterface name) (arSip packet)
          (.reply (arSha packet)) sr).OnlyIp := srArpMakePacket_onlyIp _ _ _ only
      split
      · exact replied
      · exact srArpcacheinsert_onlyIp _ _ replied
  · exact only

/-- Handling a waiting IP packet again can only make IP packets wait. -/
theorem srHandlepacket_onlyIp (name : String) (ip : ethertype packet = ethertypeIp)
    (only : sr.OnlyIp)
    : (srHandlepacket outside packet name sr).OnlyIp := by
  rw [srHandlepacket, if_neg (ne_arp_of_ip ip), if_pos ip]
  split
  · exact only.of_same rfl rfl
  · exact handleIp_onlyIp ip only

end Handlers

-----------------------------------------------------------------------------------------
-- The sweep
-----------------------------------------------------------------------------------------

section Sweep

variable {outside : Outside} {sr : SrInstance}

theorem srArpRequest_onlyIp (ip : UInt32) (only : sr.OnlyIp) : (srArpRequest ip sr).OnlyIp := by
  simp only [srArpRequest]
  split
  · exact only
  · exact srArpMakePacket_onlyIp _ _ _ only

theorem destroyAfter_onlyIp (address : Nat) (only : sr.OnlyIp)
    : (destroyAfter address sr).OnlyIp := by
  unfold destroyAfter
  split
  · exact only
  · exact ⟨fun request member => only.waiting request (List.mem_of_mem_eraseP member),
      only.reported⟩

theorem noteSent_onlyIp (address : Nat) (time : Int) (only : sr.OnlyIp)
    : (noteSent address time sr).OnlyIp := by
  refine ⟨fun request member packet inside => ?_, only.reported⟩
  obtain ⟨old, oldMember, rfl⟩ := List.mem_map.mp member
  refine only.waiting old oldMember packet ?_
  split at inside <;> exact inside

theorem sweepDue_onlyIp (time : Int) {request : SrArpreq} (only : sr.OnlyIp)
    (waiting : ∀ packet ∈ request.packets, ethertype packet.buf = ethertypeIp)
    : (sweepDue outside time request sr).OnlyIp := by
  simp only [sweepDue]
  split
  · refine destroyAfter_onlyIp _ (packetLoop_invariant SrInstance.OnlyIp ?_
      (only.record (by simp)))
    intro packet member now held
    refine srIcmpMakePacket_onlyIp 3 1 (held.record ?_)
    rintro address other ⟨rfl, rfl⟩
    exact waiting packet member
  split
  · refine destroyAfter_onlyIp _ (packetLoop_invariant SrInstance.OnlyIp ?_ only)
    intro packet member now held
    unfold resend
    split
    · exact held.of_same rfl rfl
    · exact srHandlepacket_onlyIp _ (waiting packet member) held
  · have requested : (srArpRequest request.ip
        (sr.record (.arpRequest request.address time))).OnlyIp :=
      srArpRequest_onlyIp _ (only.record (by simp))
    split
    · exact requested
    · exact noteSent_onlyIp _ _ requested

theorem sweepRequest_onlyIp (address : Nat) (only : sr.OnlyIp)
    : (sweepRequest outside address sr).OnlyIp := by
  have ticked : sr.tick.OnlyIp := only.of_same rfl rfl
  simp only [sweepRequest]
  split
  · exact only
  · next request found =>
      split
      · exact sweepDue_onlyIp _ ticked
          (only.waiting request (List.mem_of_find?_eq_some found))
      · exact ticked

end Sweep

-----------------------------------------------------------------------------------------
-- Runs
-----------------------------------------------------------------------------------------

section Runs

variable {outside : Outside} {sr next : SrInstance} {delivery : Delivery}

/-- A frame that the filter lets through is no request for somebody else. -/
theorem ipCheck_of_passed {packet : Frame} {interface : String}
    (passed : sr.srArpReqNotForUs packet interface = some false)
    (long : ethernetHdrSize + arpHdrSize ≤ packet.length)
    (arp : ethertype packet = ethertypeArp) (request : arOp packet = 1)
    : (sr.ipCheck (arTip packet)).isSome := by
  rw [SrInstance.srArpReqNotForUs, if_neg (Nat.not_lt.mpr long)] at passed
  obtain ⟨iface, found, ours⟩ := Option.map_eq_some_iff.mp passed
  have target : arTip packet = iface.ip := by simpa [arp, request] using ours
  rw [SrInstance.ipCheck, List.find?_isSome]
  exact ⟨iface, List.mem_of_find?_eq_some found, by simp [target]⟩

/-- Every delivery that makes no ARP reply wait keeps ARP frames off the queue. -/
theorem Delivery.run_onlyIp (only : sr.OnlyIp) (guard : ¬ delivery.QueuesReply sr)
    (ran : delivery.run outside sr = some next)
    : next.OnlyIp := by
  cases delivery with
  | vnsPacket packet interface =>
      obtain ⟨notForUs, filtered, rfl⟩ := Option.map_eq_some_iff.mp ran
      cases notForUs with
      | true => exact only
      | false =>
          simp only [Bool.false_eq_true, if_false]
          by_cases ip : ethertype packet = ethertypeIp
          · exact srHandlepacket_onlyIp interface ip only
          simp only [srHandlepacket, if_neg ip]
          split
          · exact only.of_same rfl rfl
          split
          · next arp =>
              by_cases inside : packet.length < ethernetHdrSize + arpHdrSize
              · rw [handleArp, if_pos inside]
                exact only
              refine handleArp_onlyIp interface only
                (ipCheck_of_passed filtered (Nat.not_lt.mp inside) arp) ?_
              intro long reply foreign nexthop route
              by_contra unresolved
              exact guard ⟨arp, long, reply, foreign, nexthop, route, by simpa using unresolved⟩
          · exact only
  | timeout =>
      obtain rfl := Option.some.inj ran
      exact only.of_same rfl rfl
  | sweepreqs =>
      obtain rfl := Option.some.inj ran
      exact sweepLoop_invariant SrInstance.OnlyIp
        (fun address _ held => sweepRequest_onlyIp address held) only

theorem deliver_eq_some (taken : deliver outside sr delivery = some next)
    : delivery.run outside sr = some next :=
  (Option.filter_eq_some_iff.mp taken).1

/-- Along a run in which no ARP reply for somebody else has to wait, host unreachable is
reported about IP packets only, and so it is in the step that ends the run.
-/
theorem unreachable_only_ip (outside : Outside) {ifList : List SrIf}
    {routingTable : List SrRt} {deliveries : List Delivery} {delivery : Delivery}
    {sr next : SrInstance}
    (guarded
      : StepRuns.AllSteps (deliver outside) (fun sr delivery => ¬ delivery.QueuesReply sr)
          (srInit ifList routingTable) (deliveries ++ [delivery]))
    (reached : deliverFrom outside ifList routingTable deliveries = some sr)
    (last : delivery.run outside sr = some next) {address : Nat} {packet : SrPacket}
    (reported : .hostUnreachable address packet ∈ next.log)
    : ethertype packet.buf = ethertypeIp := by
  have start : (srInit ifList routingTable).OnlyIp := ⟨by simp [srInit], by simp [srInit]⟩
  have each := StepRuns.allSteps_iff_reached.mp guarded
  have before : StepRuns.AllSteps (deliver outside)
      (fun sr delivery => ¬ delivery.QueuesReply sr) (srInit ifList routingTable) deliveries := by
    refine StepRuns.allSteps_iff_reached.mpr fun done input rest now split ends => ?_
    exact each done input (rest ++ [delivery]) now (by simp [split]) ends
  have only : sr.OnlyIp :=
    StepRuns.exec_invariant_of_guard _ SrInstance.OnlyIp
      (fun held guard taken => Delivery.run_onlyIp held guard (deliver_eq_some taken))
      start before reached
  exact (Delivery.run_onlyIp only (each deliveries delivery [] sr rfl reached) last).reported
    address packet reported

end Runs

/-- An ARP reply from 10.0.0.5 for 10.0.0.7. -/
def foreignReply : Frame :=
  List.replicate 12 0x00 ++ [0x08, 0x06, 0, 1, 0x08, 0x00, 6, 4, 0, 2]
    ++ List.replicate 6 0x05 ++ [10, 0, 0, 5] ++ List.replicate 6 0x07 ++ [10, 0, 0, 7]

/-- The datagram that waits for its gateway in vain. -/
def waitingDatagram : SrPacket := ⟨smallDatagram 62 0xe068, "eth0"⟩

/-- The rule at a datagram that is given up in the sixth sweep. -/
theorem unreachable_only_ip_datagram
    : ∃ sr next,
        deliverFrom quietOutside oneRoute.ifList oneRoute.routingTable
          (.vnsPacket (smallDatagram 64 0xe066) "eth0" :: List.replicate 5 .sweepreqs) = some sr
        ∧ Delivery.sweepreqs.run quietOutside sr = some next
        ∧ .hostUnreachable 0 waitingDatagram ∈ next.log
        ∧ ethertype waitingDatagram.buf = ethertypeIp := by
  have runs : (deliverFrom quietOutside oneRoute.ifList oneRoute.routingTable
      (.vnsPacket (smallDatagram 64 0xe066) "eth0" :: List.replicate 5 .sweepreqs)).any
        (fun sr => (Action.sweepreqs.run quietOutside sr).log.contains
          (.hostUnreachable 0 waitingDatagram)) := by
    decide +kernel
  obtain ⟨sr, reached, listed⟩ := (Option.any_eq_true _ _).mp runs
  have reported := List.contains_iff_mem.mp listed
  have harmless : ∀ input ∈
      (.vnsPacket (smallDatagram 64 0xe066) "eth0" :: List.replicate 5 Delivery.sweepreqs)
        ++ [.sweepreqs],
      ∀ now, ¬ input.QueuesReply now := by
    intro input member now
    have kinds : input = .vnsPacket (smallDatagram 64 0xe066) "eth0" ∨ input = .sweepreqs := by
      simpa [or_assoc] using member
    rcases kinds with rfl | rfl
    · rintro ⟨arp, -⟩
      revert arp
      decide +kernel
    · exact not_false
  have guarded : StepRuns.AllSteps (deliver quietOutside)
      (fun sr delivery => ¬ delivery.QueuesReply sr)
      (srInit oneRoute.ifList oneRoute.routingTable)
      ((.vnsPacket (smallDatagram 64 0xe066) "eth0" :: List.replicate 5 .sweepreqs)
        ++ [.sweepreqs]) :=
    StepRuns.allSteps_iff_reached.mpr fun done input rest now split _ =>
      harmless input (split ▸ by simp) now
  exact ⟨sr, Action.sweepreqs.run quietOutside sr, reached, rfl, reported,
    unreachable_only_ip quietOutside guarded reached rfl reported⟩

/-- The reply waits for a gateway that never answers, and its sweep takes it for a datagram. -/
theorem foreignReply_misread
    : ¬ ∀ (outside : Outside) (ifList : List SrIf) (routingTable : List SrRt)
        (deliveries : List Delivery) (sr : SrInstance),
        deliverFrom outside ifList routingTable deliveries = some sr
        → ∀ address packet, .hostUnreachable address packet ∈ sr.log
          → ethertype packet.buf = ethertypeIp := by
  intro always
  have runs : (deliverFrom quietOutside oneRoute.ifList oneRoute.routingTable
      (.vnsPacket foreignReply "eth0" :: List.replicate 6 .sweepreqs)).any
        (fun sr => sr.log.contains (.hostUnreachable 0 ⟨foreignReply, "eth0"⟩)) := by
    decide +kernel
  obtain ⟨sr, reached, reported⟩ := (Option.any_eq_true _ _).mp runs
  have type := always _ _ _ _ sr reached 0 ⟨foreignReply, "eth0"⟩
    (List.contains_iff_mem.mp reported)
  exact absurd type (by decide +kernel)

end Networks.Router
