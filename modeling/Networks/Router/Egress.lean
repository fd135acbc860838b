import Networks.Router.TimeToLive
import Networks.Router.Updates

/-! Every frame leaves by the right interface, in every run of a router whose routing table
has been verified.
-/

namespace Networks.Router

/-- A router with the given interfaces is sound when the interfaces of its routes and waiting
packets exist, no `NULL` was dereferenced, and every frame left by the interface it had to
take.
-/
structure SrInstance.Sound (ifList : List SrIf) (sr : SrInstance) : Prop where
  interfaces : sr.ifList = ifList
  routes : ∀ route ∈ sr.routingTable, (sr.srGetInterface route.interface).isSome
  waiting
    : ∀ request ∈ sr.requests, ∀ packet ∈ request.packets,
        (sr.srGetInterface packet.iface).isSome
  sent
    : ∀ packet iface entries,
        .sendPacket packet iface entries ∈ sr.log → sr.Egress packet iface entries
  linked : sr.fault ≠ some .nullPointer

/-- What happens to a router that only gets frames on its own interfaces, and whose queue is
only used by itself.
-/
def Action.Arrives (ifList : List SrIf) : Action → Prop
  | .receive _ interface => ∃ known ∈ ifList, known.name = interface
  | .timeout => True
  | .sweepreqs => True
  | .queuereq _ _ => False

/-- The router has kept its interfaces and routes. -/
structure SameTables (sr next : SrInstance) : Prop where
  ifList : next.ifList = sr.ifList
  routingTable : next.routingTable = sr.routingTable

theorem SameTables.refl (sr : SrInstance) : SameTables sr sr := ⟨rfl, rfl⟩

theorem SameTables.trans {sr middle next : SrInstance} (first : SameTables sr middle)
    (second : SameTables middle next)
    : SameTables sr next :=
  ⟨second.ifList.trans first.ifList, second.routingTable.trans first.routingTable⟩

theorem SameTables.srGetInterface {sr next : SrInstance} (same : SameTables sr next)
    (name : String)
    : next.srGetInterface name = sr.srGetInterface name := by
  rw [SrInstance.srGetInterface, SrInstance.srGetInterface, same.ifList]

theorem SameTables.egress {sr next : SrInstance} (same : SameTables sr next) {packet : Frame}
    {iface : String} {entries : List SrArpentry} (leaves : sr.Egress packet iface entries)
    : next.Egress packet iface entries := by
  refine ⟨?_, fun ip => ?_⟩
  · have accepted := leaves.accepted
    simp only [SrInstance.accepted, SrInstance.srEtherAddrsMatchInterface,
      same.srGetInterface] at accepted ⊢
    exact accepted
  · have routed := leaves.routed ip
    simp only [SrInstance.longestprefixmatch, same.routingTable] at routed ⊢
    exact routed

section Changes

variable {ifList : List SrIf} {sr next : SrInstance}

theorem SrInstance.Sound.srGetInterface (sound : sr.Sound ifList) (other : next.Sound ifList)
    (name : String)
    : next.srGetInterface name = sr.srGetInterface name := by
  rw [SrInstance.srGetInterface, SrInstance.srGetInterface, sound.interfaces, other.interfaces]

/-- What a change of the router must respect: the tables stay, only packets with a known
interface wait, new frames leave correctly, and no `NULL` is dereferenced.
-/
theorem SrInstance.Sound.change (sound : sr.Sound ifList)
    (same : SameTables sr next)
    (waiting
      : ∀ request ∈ next.requests, ∀ packet ∈ request.packets,
          (sr.srGetInterface packet.iface).isSome)
    (sent
      : ∀ packet iface entries,
          .sendPacket packet iface entries ∈ next.log
          → .sendPacket packet iface entries ∈ sr.log ∨ sr.Egress packet iface entries)
    (linked : next.fault ≠ some .nullPointer)
    : next.Sound ifList where
  interfaces := same.ifList.trans sound.interfaces
  routes := by
    intro route member
    rw [same.srGetInterface]
    exact sound.routes route (same.routingTable ▸ member)
  waiting := by
    intro request member packet inside
    rw [same.srGetInterface]
    exact waiting request member packet inside
  sent := by
    intro packet iface entries member
    rcases sent packet iface entries member with before | leaves
    · exact same.egress (sound.sent packet iface entries before)
    · exact same.egress leaves
  linked := linked

/-- An event that is no transmission can be recorded. -/
theorem SrInstance.Sound.record {event : Event} (sound : sr.Sound ifList)
    (silent : ∀ packet iface entries, event ≠ .sendPacket packet iface entries)
    : (sr.record event).Sound ifList := by
  refine sound.change ⟨rfl, rfl⟩ sound.waiting (fun packet iface entries member => ?_)
    sound.linked
  rcases List.mem_append.mp member with before | new
  · exact Or.inl before
  · exact absurd (List.mem_singleton.mp new).symm (silent packet iface entries)

theorem Update.sameTables {outside : Outside} {given : String} {sr next : SrInstance}
    (update : Update outside given sr next)
    : SameTables sr next := by
  cases update with
  | queuereq ip known =>
      next packet =>
        obtain ⟨_, _, _, same, -⟩ := srArpcacheQueuereq_spec ip packet sr
        rw [same]
        exact ⟨rfl, rfl⟩
  | insert mac ip =>
      unfold srArpcacheinsert
      split <;> exact ⟨rfl, rfl⟩
  | _ => exact ⟨rfl, rfl⟩

theorem Updates.sameTables {outside : Outside} {given : String} {sr next : SrInstance}
    (updates : Updates outside given sr next)
    : SameTables sr next := by
  induction updates with
  | refl => exact .refl sr
  | tail _ update ih => exact ih.trans update.sameTables

/-- The packets on the queue after queueing one are those before, and it. -/
theorem waits_packets {packet waiting : SrPacket} {started queue : List SrArpreq}
    (waits : List.Forall₂ (SrArpreq.Waits packet) started queue) {request : SrArpreq}
    (member : request ∈ queue) (inside : waiting ∈ request.packets)
    : waiting = packet ∨ ∃ old ∈ started, waiting ∈ old.packets := by
  induction waits with
  | nil => cases member
  | cons first rest ih =>
      rcases List.mem_cons.mp member with rfl | later
      · rcases first.packets with same | more
        · exact Or.inr ⟨_, List.mem_cons_self, same ▸ inside⟩
        · rcases List.mem_cons.mp (more ▸ inside) with rfl | old
          · exact Or.inl rfl
          · exact Or.inr ⟨_, List.mem_cons_self, old⟩
      · rcases ih later with new | ⟨old, oldMember, oldInside⟩
        · exact Or.inl new
        · exact Or.inr ⟨old, List.mem_cons_of_mem _ oldMember, oldInside⟩

theorem SrInstance.Sound.queuereq (sound : sr.Sound ifList) (ip : UInt32)
    {packet : SrPacket} (known : (sr.srGetInterface packet.iface).isSome)
    : (srArpcacheQueuereq ip packet sr).Sound ifList := by
  obtain ⟨started, queue, next, same, opened, waits⟩ := srArpcacheQueuereq_spec ip packet sr
  rw [same]
  refine sound.change ⟨rfl, rfl⟩ ?_ (fun _ _ _ member => Or.inl member) sound.linked
  intro request member waiting inside
  rcases waits_packets waits member inside with rfl | ⟨old, oldMember, oldInside⟩
  · exact known
  · rcases opened with ⟨rfl, -⟩ | ⟨rfl, -⟩
    · exact sound.waiting old oldMember waiting oldInside
    · rcases List.mem_cons.mp oldMember with rfl | before
      · cases oldInside
      · exact sound.waiting old before waiting oldInside

/-- Every update keeps the router sound, when the given interface exists. -/
theorem Update.sound {outside : Outside} {given : String}
    (update : Update outside given sr next) (sound : sr.Sound ifList)
    (resolves : (sr.srGetInterface given).isSome)
    : next.Sound ifList := by
  cases update with
  | icmpMakePacket type code packet other => exact sound.record (by simp)
  | forwardPacket caller packet nexthopIp => exact sound.record (by simp)
  | sendPacket leaves =>
      refine sound.change ⟨rfl, rfl⟩ sound.waiting (fun packet iface entries member => ?_)
        sound.linked
      rcases List.mem_append.mp member with before | new
      · exact Or.inl before
      · obtain ⟨rfl, rfl, rfl⟩ := Event.sendPacket.inj (List.mem_singleton.mp new)
        exact Or.inr leaves
  | queuereq ip known =>
      refine sound.queuereq ip ?_
      rcases known with known | ⟨route, member, named⟩
      · exact known
      · exact named ▸ sound.routes route member
  | insert mac ip =>
      unfold srArpcacheinsert
      split
      · exact sound
      · exact sound.change ⟨rfl, rfl⟩ sound.waiting (fun _ _ _ member => Or.inl member)
          sound.linked
  | malloc =>
      exact sound.change ⟨rfl, rfl⟩ sound.waiting (fun _ _ _ member => Or.inl member)
        sound.linked
  | outOfBounds =>
      exact sound.change ⟨rfl, rfl⟩ sound.waiting (fun _ _ _ member => Or.inl member)
        (by simp [SrInstance.fail])
  | nullPointer named missing =>
      exfalso
      rcases named with rfl | ⟨route, member, rfl⟩
      · simp [missing] at resolves
      · have known := sound.routes route member
        simp [missing] at known

theorem Updates.sound {outside : Outside} {given : String}
    (updates : Updates outside given sr next) (sound : sr.Sound ifList)
    (resolves : (sr.srGetInterface given).isSome)
    : next.Sound ifList := by
  induction updates with
  | refl => exact sound
  | tail before update ih =>
      refine update.sound ih ?_
      rw [(Updates.sameTables before).srGetInterface]
      exact resolves

end Changes

-----------------------------------------------------------------------------------------
-- The sweep
-----------------------------------------------------------------------------------------

section Sweep

variable {outside : Outside} {ifList : List SrIf} {sr : SrInstance}

theorem reportUnreachable_sound {packet : SrPacket} (address : Nat) (sound : sr.Sound ifList)
    (known : (sr.srGetInterface packet.iface).isSome)
    : (reportUnreachable outside address packet sr).Sound ifList := by
  have reported : (sr.record (.hostUnreachable address packet)).Sound ifList :=
    sound.record (by simp)
  have called : ((sr.record (.hostUnreachable address packet)).record
      (.icmpMakePacket 3 1 packet.buf)).Sound ifList :=
    reported.record (by simp)
  have updates := reportUnreachable_made outside address packet sr
  exact updates.sound called known

theorem resend_sound {packet : SrPacket} (sound : sr.Sound ifList)
    (known : (sr.srGetInterface packet.iface).isSome)
    : (resend outside packet sr).Sound ifList := by
  obtain ⟨interface, found⟩ := Option.isSome_iff_exists.mp known
  have updates : Updates outside interface.name sr (resend outside packet sr) := by
    simp only [resend, found]
    exact srHandlepacket_updates packet.buf
  have resolves : (sr.srGetInterface interface.name).isSome := by
    rw [SrInstance.srGetInterface_self found]
    rfl
  exact updates.sound sound resolves

theorem srArpRequest_sound (outside : Outside) (ip : UInt32) (sound : sr.Sound ifList)
    : (srArpRequest ip sr).Sound ifList := by
  cases matched : sr.longestprefixmatch ip with
  | none =>
      simp only [srArpRequest, matched]
      exact sound
  | some nexthop =>
      have updates : Updates outside nexthop.interface sr (srArpRequest ip sr) :=
        srArpRequest_updates ip
      exact updates.sound sound
        (sound.routes nexthop (SrInstance.longestprefixmatch_mem matched))

theorem destroyAfter_sound (address : Nat) (sound : sr.Sound ifList)
    : (destroyAfter address sr).Sound ifList := by
  unfold destroyAfter
  split
  · exact sound
  · refine sound.change ⟨rfl, rfl⟩ ?_ (fun _ _ _ member => Or.inl member) sound.linked
    intro request member
    exact sound.waiting request (List.mem_of_mem_eraseP member)

theorem noteSent_sound (address : Nat) (time : Int) (sound : sr.Sound ifList)
    : (noteSent address time sr).Sound ifList := by
  refine sound.change ⟨rfl, rfl⟩ ?_ (fun _ _ _ member => Or.inl member) sound.linked
  intro request member packet inside
  obtain ⟨old, oldMember, rfl⟩ := List.mem_map.mp member
  refine sound.waiting old oldMember packet ?_
  split at inside <;> exact inside

theorem tick_sound (sound : sr.Sound ifList) : sr.tick.Sound ifList :=
  sound.change ⟨rfl, rfl⟩ sound.waiting (fun _ _ _ member => Or.inl member) sound.linked

/-- A loop over waiting packets keeps the router sound when each packet does. -/
theorem packetLoop_sound {act : SrPacket → SrInstance → SrInstance}
    {packets : List SrPacket} (sound : sr.Sound ifList)
    (known : ∀ packet ∈ packets, (sr.srGetInterface packet.iface).isSome)
    (acts
      : ∀ {now : SrInstance} {packet : SrPacket},
          now.Sound ifList → (now.srGetInterface packet.iface).isSome
          → (act packet now).Sound ifList)
    : (packetLoop act packets sr).Sound ifList := by
  refine packetLoop_invariant (SrInstance.Sound ifList) ?_ sound
  intro packet member now held
  exact acts held (sound.srGetInterface held packet.iface ▸ known packet member)

theorem sweepDue_sound (time : Int) {request : SrArpreq} (sound : sr.Sound ifList)
    (known : ∀ packet ∈ request.packets, (sr.srGetInterface packet.iface).isSome)
    : (sweepDue outside time request sr).Sound ifList := by
  simp only [sweepDue]
  split
  · refine destroyAfter_sound _ (packetLoop_sound (sound.record (by simp)) known ?_)
    exact fun held found => reportUnreachable_sound _ held found
  · split
    · exact destroyAfter_sound _ (packetLoop_sound sound known resend_sound)
    · have requested : (srArpRequest request.ip
          (sr.record (.arpRequest request.address time))).Sound ifList :=
        srArpRequest_sound outside request.ip (sound.record (by simp))
      split
      · exact requested
      · exact noteSent_sound _ _ requested

theorem sweepRequest_sound (address : Nat) (sound : sr.Sound ifList)
    : (sweepRequest outside address sr).Sound ifList := by
  simp only [sweepRequest]
  split
  · exact sound
  · next request found =>
      split
      · exact sweepDue_sound _ (tick_sound sound)
          (sound.waiting request (List.mem_of_find?_eq_some found))
      · exact tick_sound sound

end Sweep

/-- A verified routing table makes the new router sound. -/
theorem srInit_sound {ifList : List SrIf} {routingTable : List SrRt}
    (verified : srVerifyRoutingTable (srInit ifList routingTable) = 0)
    : (srInit ifList routingTable).Sound ifList where
  interfaces := rfl
  routes := by
    intro route member
    unfold srVerifyRoutingTable at verified
    split at verified
    · cases verified
    · have each := List.countP_eq_zero.mp verified route member
      exact Option.isSome_iff_ne_none.mpr (by simpa using each)
  waiting := by simp [srInit]
  sent := by simp [srInit]
  linked := by simp [srInit]

/-- Every action on a sound router keeps it sound, also one that ends the run. -/
theorem Action.run_sound {outside : Outside} {ifList : List SrIf} {sr : SrInstance}
    {action : Action} (sound : sr.Sound ifList) (arrives : action.Arrives ifList)
    : (action.run outside sr).Sound ifList := by
  cases action with
  | receive packet interface =>
      have updates : Updates outside interface sr (srHandlepacket outside packet interface sr) :=
        srHandlepacket_updates packet
      obtain ⟨known, member, named⟩ := arrives
      refine updates.sound sound ?_
      rw [SrInstance.srGetInterface, sound.interfaces, List.find?_isSome]
      exact ⟨known, member, by simp [named]⟩
  | timeout =>
      exact sound.change ⟨rfl, rfl⟩ sound.waiting (fun _ _ _ member => Or.inl member)
        sound.linked
  | sweepreqs =>
      exact sweepLoop_invariant (SrInstance.Sound ifList)
        (fun address _ held => sweepRequest_sound address held) sound
  | queuereq ip packet => exact arrives.elim

/-- The step lemma for runs: a step that does not end the run is what the action does. -/
theorem step_eq_some {outside : Outside} {sr next : SrInstance} {action : Action}
    (taken : step outside sr action = some next)
    : next = action.run outside sr ∧ next.fault = none := by
  simp only [step] at taken
  split at taken
  · cases taken
  · next clean =>
      obtain rfl := Option.some.inj taken
      exact ⟨rfl, by simpa using clean⟩

/-- With a verified routing table, and frames that arrive on interfaces of the router, the
router stays sound along every run, and does so in the step that ends it.
-/
theorem runFrom_sound (outside : Outside) {ifList : List SrIf} {routingTable : List SrRt}
    {actions : List Action} {sr : SrInstance} {action : Action}
    (verified : srVerifyRoutingTable (srInit ifList routingTable) = 0)
    (arrive : ∀ done ∈ actions, done.Arrives ifList)
    (reached : runFrom outside ifList routingTable actions = some sr)
    (arrives : action.Arrives ifList)
    : sr.Sound ifList ∧ (action.run outside sr).Sound ifList := by
  have sound : sr.Sound ifList := by
    refine StepRuns.exec_invariant_of_guard (fun _ done => done.Arrives ifList)
      (SrInstance.Sound ifList) ?_ (srInit_sound verified)
      (StepRuns.allSteps_of_forall arrive) reached
    intro now done next held arrived taken
    rw [(step_eq_some taken).1]
    exact Action.run_sound held arrived
  exact ⟨sound, Action.run_sound sound arrives⟩

/-- Nothing but zero bytes on the heap, and a second between readings of the clock. -/
def quietOutside : Outside where
  clock := fun tick => tick + 1
  heap := fun _ _ => 0

/-- The rule at a datagram that is queued, and the sweep that asks for its gateway. -/
theorem runFrom_sound_queued
    : let queued := srHandlepacket quietOutside (smallDatagram 64 0xe066) "eth0" oneRoute
      queued.Sound oneRoute.ifList
      ∧ (Action.sweepreqs.run quietOutside queued).Sound oneRoute.ifList := by
  have reached : runFrom quietOutside oneRoute.ifList oneRoute.routingTable
      [.receive (smallDatagram 64 0xe066) "eth0"]
      = some (srHandlepacket quietOutside (smallDatagram 64 0xe066) "eth0" oneRoute) := by
    decide +kernel
  refine runFrom_sound quietOutside (by decide +kernel) ?_ reached trivial
  intro done member
  obtain rfl := List.mem_singleton.mp member
  exact ⟨_, List.mem_singleton_self _, rfl⟩

end Networks.Router
