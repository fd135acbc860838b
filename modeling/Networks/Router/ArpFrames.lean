import Networks.Router.ArpCache
import Networks.Router.ServerMessages

/-! ARP frames that reach the router: which replies it believes, and which requests it
answers.
-/

namespace Networks.Router

open ByteFields
open Ctcp (htons fieldBytes16 fieldBytes32)

-----------------------------------------------------------------------------------------
-- Comparing addresses
-----------------------------------------------------------------------------------------

/-- Two byte strings agree up to a zero byte that both have. -/
def AgreeToZero (left right : List UInt8) : Prop :=
  ∃ shared restLeft restRight,
    left = shared ++ 0 :: restLeft ∧ right = shared ++ 0 :: restRight

theorem agreeToZero_cons {head : UInt8} {left right : List UInt8}
    (agree : AgreeToZero left right)
    : AgreeToZero (head :: left) (head :: right) := by
  obtain ⟨shared, restLeft, restRight, rfl, rfl⟩ := agree
  exact ⟨head :: shared, restLeft, restRight, rfl, rfl⟩

/-- The comparison finds the same bytes, or the same bytes up to a zero. By induction on the
strings, which have one length.
-/
theorem strncmpEqual_iff {left right : List UInt8} (length : left.length = right.length)
    : strncmpEqual left right = true ↔ left = right ∨ AgreeToZero left right := by
  induction left generalizing right with
  | nil =>
      have empty : right = [] := List.eq_nil_of_length_eq_zero length.symm
      simp [empty, strncmpEqual]
  | cons head rest ih =>
      cases right with
      | nil => simp at length
      | cons other others =>
          have tails := @ih others (by simpa using length)
          simp only [strncmpEqual, Bool.and_eq_true, beq_iff_eq, Bool.or_eq_true]
          constructor
          · rintro ⟨rfl, zero | equal⟩
            · exact Or.inr ⟨[], rest, others, by simp [zero], by simp [zero]⟩
            · rcases tails.mp equal with same | agree
              · exact Or.inl (congrArg _ same)
              · exact Or.inr (agreeToZero_cons agree)
          · rintro (same | ⟨shared, restLeft, restRight, split, splitOther⟩)
            · obtain ⟨rfl, sameRest⟩ := List.cons.inj same
              exact ⟨rfl, Or.inr (tails.mpr (Or.inl sameRest))⟩
            · cases shared with
              | nil =>
                  obtain ⟨rfl, -⟩ := List.cons.inj split
                  obtain ⟨rfl, -⟩ := List.cons.inj splitOther
                  exact ⟨rfl, Or.inl rfl⟩
              | cons first shared =>
                  obtain ⟨rfl, splitRest⟩ := List.cons.inj split
                  obtain ⟨rfl, splitOthers⟩ := List.cons.inj splitOther
                  exact ⟨rfl, Or.inr (tails.mpr
                    (Or.inr ⟨shared, restLeft, restRight, splitRest, splitOthers⟩))⟩

-----------------------------------------------------------------------------------------
-- Replies
-----------------------------------------------------------------------------------------

/-- From `sr` to `next` the pair was put into the first free slot of the cache. -/
def SrInstance.Learns (sr next : SrInstance) (mac : Mac) (ip : UInt32) : Prop :=
  ∃ used free rest added,
    sr.entries = used ++ free :: rest ∧ (∀ entry ∈ used, entry.valid) ∧ free.valid = false
    ∧ next.entries = used ++ { mac := mac, ip := ip, added := added, valid := true } :: rest

/-- What reaches the insertion: a whole reply for the first interface with that address, and
a cache with a free slot. How the hardware addresses are compared is left open.
-/
def SrInstance.Accepts (sr : SrInstance) (packet : Frame) (compare : Mac → Mac → Prop)
    : Prop :=
  ethernetHdrSize + arpHdrSize ≤ packet.length ∧ (∃ entry ∈ sr.entries, entry.valid = false)
  ∧ ∃ first, sr.ipCheck (arTip packet) = some first ∧ compare first.addr (arTha packet)

/-- Nothing is learned when the cache stays as it was. -/
theorem not_learns {sr next : SrInstance} {mac : Mac} {ip : UInt32}
    (same : next.entries = sr.entries)
    : ¬ sr.Learns next mac ip := by
  rintro ⟨used, free, rest, added, before, -, unused, after⟩
  rw [same, before] at after
  have first := (List.cons.inj (List.append_cancel_left after)).1
  rw [first] at unused
  exact absurd unused (by simp)

theorem learns_srArpcacheinsert (outside : Outside) (mac : Mac) (ip : UInt32)
    (sr : SrInstance)
    : sr.Learns (srArpcacheinsert outside mac ip sr) mac ip
      ↔ ∃ entry ∈ sr.entries, entry.valid = false := by
  rcases firstFree sr.entries with full | ⟨used, free, rest, split, valid, unused⟩
  · refine iff_of_false (not_learns (entries_srArpcacheinsert_full full)) ?_
    rintro ⟨entry, member, unused⟩
    exact absurd (full entry member) (by simp [unused])
  · exact iff_of_true
      ⟨used, free, rest, _, split, valid, unused,
        entries_srArpcacheinsert_free outside split valid unused⟩
      ⟨free, by simp [split], unused⟩

theorem srForwardPacket_entries (caller : Caller) (packet : Frame) (nexthopIp : UInt32)
    (interface : Option SrIf) (sr : SrInstance)
    : (srForwardPacket caller packet nexthopIp interface sr).entries = sr.entries := by
  cases interface with
  | none => rfl
  | some interface =>
      simp only [srForwardPacket]
      split
      · rfl
      · simp only [srArpcacheQueuereq]
        split <;> split <;> rfl

/-- A reply is learned when the comparison of the hardware addresses lets it through. -/
theorem srHandlepacket_learns (outside : Outside) {packet : Frame} (interface : String)
    (sr : SrInstance) (arp : ethertype packet = ethertypeArp) (reply : arOp packet = 2)
    : sr.Learns (srHandlepacket outside packet interface sr) (arSha packet) (arSip packet)
      ↔ sr.Accepts packet fun own target => strncmpEqual own.toList target.toList = true := by
  have arp : ethertype packet = 2054 := arp
  by_cases short : packet.length < ethernetHdrSize + arpHdrSize
  · refine iff_of_false (not_learns ?_) fun accepted => Nat.not_lt.mpr accepted.1 short
    rw [srHandlepacket, if_pos arp]
    split
    · rfl
    · rw [handleArp, if_pos short]
  have long := Nat.not_lt.mp short
  have handled : srHandlepacket outside packet interface sr
      = arpReply outside packet interface sr := by
    have header : ¬ packet.length < ethernetHdrSize :=
      Nat.not_lt.mpr (Nat.le_trans (Nat.le_add_right _ _) long)
    rw [srHandlepacket, if_neg header, if_pos arp, handleArp, if_neg short, if_pos reply]
  rw [handled, arpReply]
  cases own : sr.ipCheck (arTip packet) with
  | none =>
      refine iff_of_false (not_learns ?_) (by simp [SrInstance.Accepts, own])
      simp only
      split
      · rfl
      · exact srForwardPacket_entries _ _ _ _ _
  | some first =>
      simp only [SrInstance.Accepts, own, Option.some.injEq, exists_eq_left']
      split
      · next equal =>
          rw [learns_srArpcacheinsert]
          exact ⟨fun free => ⟨long, free, equal⟩, fun accepted => accepted.2.1⟩
      · next differs =>
          exact iff_of_false (not_learns rfl) fun accepted => differs accepted.2.2

/-- Two hardware addresses are the same. -/
def SameMac (own target : Mac) : Prop := own = target

/-- Two hardware addresses differ only behind a zero byte that they share. -/
def DifferBehindZero (own target : Mac) : Prop :=
  own ≠ target ∧ AgreeToZero own.toList target.toList

theorem strncmpEqual_toList (own target : Mac)
    : strncmpEqual own.toList target.toList = true
      ↔ SameMac own target ∨ DifferBehindZero own target := by
  rw [strncmpEqual_iff (by simp), SameMac, DifferBehindZero, Vector.toList_inj]
  tauto

/-- Replies are learned exactly when all six bytes of the hardware address are those of the
interface, unless the address differs from it only behind a zero byte that they share.
-/
theorem arp_reply_learned_iff (outside : Outside) (packet : Frame) (interface : String)
    (sr : SrInstance) (arp : ethertype packet = ethertypeArp) (reply : arOp packet = 2)
    : (sr.Learns (srHandlepacket outside packet interface sr) (arSha packet) (arSip packet)
          ↔ sr.Accepts packet SameMac)
      ↔ ¬ sr.Accepts packet DifferBehindZero := by
  rw [srHandlepacket_learns outside interface sr arp reply]
  simp only [SrInstance.Accepts, strncmpEqual_toList]
  constructor
  · rintro same ⟨long, free, first, own, differs⟩
    obtain ⟨-, -, found, ownFound, equal⟩ := same.mp ⟨long, free, first, own, Or.inr differs⟩
    obtain rfl := Option.some.inj (own.symm.trans ownFound)
    exact differs.1 equal
  · intro apart
    constructor
    · rintro ⟨long, free, first, own, equal | differs⟩
      · exact ⟨long, free, first, own, equal⟩
      · exact absurd ⟨long, free, first, own, differs⟩ apart
    · rintro ⟨long, free, first, own, equal⟩
      exact ⟨long, free, first, own, Or.inl equal⟩

/-- A router with one interface, whose hardware address has a zero byte. -/
def zeroByteRouter : SrInstance :=
  srInit [⟨"eth0", #v[0x02, 0, 0, 0, 0, 0x0a], 0x0900000a⟩] [⟨0, 0x0300000a, 0, "eth0"⟩]

/-- An ARP reply from 10.0.0.5 to 10.0.0.9, for a hardware address. -/
def replyFor (tha : List UInt8) : Frame :=
  List.replicate 12 0x00 ++ [0x08, 0x06, 0, 1, 0x08, 0x00, 6, 4, 0, 2]
    ++ List.replicate 6 0x05 ++ [10, 0, 0, 5] ++ tha ++ [10, 0, 0, 9]

/-- The rule at a reply for another hardware address without a zero byte. -/
theorem arp_reply_learned_iff_foreign
    : (zeroByteRouter.Learns
          (srHandlepacket quietOutside (replyFor [2, 7, 7, 7, 7, 7]) "eth0" zeroByteRouter)
          (arSha (replyFor [2, 7, 7, 7, 7, 7])) (arSip (replyFor [2, 7, 7, 7, 7, 7]))
        ↔ zeroByteRouter.Accepts (replyFor [2, 7, 7, 7, 7, 7]) SameMac)
      ↔ ¬ zeroByteRouter.Accepts (replyFor [2, 7, 7, 7, 7, 7]) DifferBehindZero :=
  arp_reply_learned_iff quietOutside _ "eth0" zeroByteRouter (by decide +kernel)
    (by decide +kernel)

/-- A reply for another hardware address is learned, as both have a zero in the same place. -/
theorem replyFor_other_learned
    : ¬ ∀ (outside : Outside) (packet : Frame) (interface : String) (sr : SrInstance),
        ethertype packet = ethertypeArp → arOp packet = 2
        → (sr.Learns (srHandlepacket outside packet interface sr) (arSha packet) (arSip packet)
          ↔ sr.Accepts packet SameMac) := by
  intro always
  have claimed := always quietOutside (replyFor [2, 0, 7, 7, 7, 7]) "eth0" zeroByteRouter
    (by decide +kernel) (by decide +kernel)
  have learned := (@srHandlepacket_learns quietOutside (replyFor [2, 0, 7, 7, 7, 7]) "eth0"
    zeroByteRouter (by decide +kernel) (by decide +kernel)).mpr
    ⟨by decide +kernel, ⟨_, List.mem_replicate.mpr ⟨by decide, rfl⟩, rfl⟩, _, rfl,
      by decide +kernel⟩
  obtain ⟨-, -, first, own, same⟩ := claimed.mp learned
  obtain rfl := Option.some.inj (Eq.trans (Eq.symm own) rfl)
  exact absurd same (by unfold SameMac; decide +kernel)

-----------------------------------------------------------------------------------------
-- Requests
-----------------------------------------------------------------------------------------

/-- From `sr` to `next` an ARP reply was sent on the interface. -/
def SrInstance.Replies (sr next : SrInstance) (reply : Frame) (iface : String) : Prop :=
  ethertype reply = ethertypeArp ∧ arOp reply = 2
  ∧ ∃ events entries,
      next.log = sr.log ++ events ∧ .sendPacket reply iface entries ∈ events

/-- A true answer to a request: an Ethernet/IPv4 ARP reply that says that the interface has
the address asked for, sent to the one who asked.
-/
structure ArpReplyTo (request : Frame) (interface : SrIf) (reply : Frame) : Prop where
  length : reply.length = ethernetHdrSize + arpHdrSize
  dhost : etherDhost reply = arSha request
  shost : etherShost reply = interface.addr
  type : ethertype reply = ethertypeArp
  hrd : halfAt reply 14 = 1
  pro : halfAt reply 16 = ethertypeIp
  hln : byteAt reply 18 = 6
  pln : byteAt reply 19 = 4
  op : arOp reply = 2
  sha : arSha reply = interface.addr
  sip : arSip reply = arTip request
  tha : arTha reply = arSha request
  tip : arTip reply = arSip request

/-- What `sr_arp_make_packet` writes between the Ethernet addresses and the ARP addresses. -/
def arpConstants (op : UInt16) : List UInt8 :=
  [0x08, 0x06, 0x00, 0x01, 0x08, 0x00, 0x06, 0x04] ++ fieldBytes16 (htons op)

theorem arpPacket_split (dhost : Mac) (op : UInt16) (interface : SrIf) (tha : Mac)
    (targetIp : UInt32)
    : arpPacket dhost op interface tha targetIp
      = dhost.toList
        ++ (interface.addr.toList
          ++ (arpConstants op
            ++ (interface.addr.toList
              ++ (fieldBytes32 interface.ip
                ++ (tha.toList ++ (fieldBytes32 targetIp ++ [])))))) := by
  have type : fieldBytes16 (htons 0x0806) = [0x08, 0x06] := by decide
  have hrd : fieldBytes16 (htons 0x0001) = [0x00, 0x01] := by decide
  have pro : fieldBytes16 (htons 0x0800) = [0x08, 0x00] := by decide
  simp [arpPacket, arpConstants, type, hrd, pro]

theorem byteAt_arpPacket (dhost : Mac) (op : UInt16) (interface : SrIf) (tha : Mac)
    (targetIp : UInt32) {index : Nat} (within : index < 10)
    : byteAt (arpPacket dhost op interface tha targetIp) (12 + index)
      = byteAt (arpConstants op) index := by
  have front : (dhost.toList ++ interface.addr.toList).length = 12 := by simp
  rw [arpPacket_split, ← List.append_assoc, ← front]
  exact byteAt_field _ _ within

/-- The reply that is made for a request is true when the interface has the address. -/
theorem arpReplyTo_arpPacket {request : Frame} {interface : SrIf}
    (asked : arTip request = interface.ip)
    : ArpReplyTo request interface
        (arpPacket (arSha request) 0x0002 interface (arSha request) (arSip request)) := by
  have split := arpPacket_split (arSha request) 0x0002 interface (arSha request) (arSip request)
  have constant : ∀ index, index < 10
      → byteAt (arpPacket (arSha request) 0x0002 interface (arSha request) (arSip request))
          (12 + index)
        = byteAt (arpConstants 0x0002) index :=
    fun index within => byteAt_arpPacket _ _ _ _ _ within
  exact {
    length := by simp [split, arpConstants, ethernetHdrSize, arpHdrSize]
    dhost := macAt_field [] (split.trans (List.nil_append _).symm) rfl
    shost := macAt_field _ split (by simp)
    type := by
      rw [ethertype, halfAt, constant 0 (by decide), constant 1 (by decide)]
      decide
    hrd := by
      rw [halfAt, constant 2 (by decide), constant 3 (by decide)]
      decide
    pro := by
      rw [halfAt, constant 4 (by decide), constant 5 (by decide)]
      decide
    hln := constant 6 (by decide)
    pln := constant 7 (by decide)
    op := by
      rw [arOp, halfAt, constant 8 (by decide), constant 9 (by decide)]
      decide
    sha := macAt_field
      ((arSha request).toList ++ interface.addr.toList ++ arpConstants 0x0002)
      (by simp only [split, List.append_assoc]; rfl) (by simp [arpConstants])
    sip := asked ▸ wordAt_field
      ((arSha request).toList ++ interface.addr.toList ++ arpConstants 0x0002
        ++ interface.addr.toList)
      (by simp only [split, List.append_assoc]; rfl) (by simp [arpConstants])
    tha := macAt_field
      ((arSha request).toList ++ interface.addr.toList ++ arpConstants 0x0002
        ++ interface.addr.toList ++ fieldBytes32 interface.ip)
      (by simp only [split, List.append_assoc]; rfl) (by simp [arpConstants])
    tip := wordAt_field
      ((arSha request).toList ++ interface.addr.toList ++ arpConstants 0x0002
        ++ interface.addr.toList ++ fieldBytes32 interface.ip ++ (arSha request).toList)
      (by simp only [split, List.append_assoc]; rfl) (by simp [arpConstants])
  }

section Messages

variable {outside : Outside} {sr next : SrInstance} {packet : Frame} {interface : SrIf}
  {name : String}

/-- A request for the interface it is received on, which any router replies to. -/
theorem srHandlepacket_answers (found : sr.srGetInterface name = some interface)
    (arp : ethertype packet = ethertypeArp) (request : arOp packet = 1)
    (long : ethernetHdrSize + arpHdrSize ≤ packet.length)
    (asked : arTip packet = interface.ip)
    : (srHandlepacket outside packet name sr).log
      = sr.log
        ++ [.sendPacket (arpPacket (arSha packet) 0x0002 interface (arSha packet) (arSip packet))
              interface.name sr.entries] := by
  have arp : ethertype packet = 2054 := arp
  have header : ¬ packet.length < ethernetHdrSize :=
    Nat.not_lt.mpr (Nat.le_trans (Nat.le_add_right _ _) long)
  have own : (sr.ipCheck (arTip packet)).isSome := by
    rw [SrInstance.ipCheck, List.find?_isSome]
    exact ⟨interface, List.mem_of_find?_eq_some found, by simp [asked]⟩
  have other : ¬ arOp packet = 2 := by
    rw [request]
    decide
  rw [srHandlepacket, if_neg header, if_pos arp, handleArp, if_neg (Nat.not_lt.mpr long),
    if_neg other, if_pos request]
  simp only [arpRequested, if_pos own, found, srArpMakePacket]
  split
  · rfl
  · rw [srArpcacheinsert]
    split <;> rfl

/-- A request that is too short, or for another address, is not replied to. -/
theorem delivery_silent (found : sr.srGetInterface name = some interface)
    (arp : ethertype packet = ethertypeArp) (request : arOp packet = 1)
    (other
      : ¬ (ethernetHdrSize + arpHdrSize ≤ packet.length ∧ arTip packet = interface.ip))
    (ran : (Delivery.vnsPacket packet name).run outside sr = some next)
    : next.log = sr.log := by
  obtain ⟨notForUs, filtered, rfl⟩ := Option.map_eq_some_iff.mp ran
  by_cases short : packet.length < ethernetHdrSize + arpHdrSize
  · rw [SrInstance.srArpReqNotForUs, if_pos short] at filtered
    obtain rfl := Option.some.inj filtered
    have arp : ethertype packet = 2054 := arp
    rw [if_neg (by simp), srHandlepacket, if_pos arp, handleArp, if_pos short]
    split <;> rfl
  · have foreign : arTip packet ≠ interface.ip := fun asked =>
      other ⟨Nat.not_lt.mp short, asked⟩
    rw [SrInstance.srArpReqNotForUs, if_neg short, found] at filtered
    obtain rfl := Option.some.inj filtered
    rw [if_pos (by simp [arp, request, foreign])]

/-- A message with an ARP request is replied to exactly when the frame is whole and asks for the
interface it is received on, and the reply is a true answer.
-/
theorem arp_request_answered (outside : Outside) {sr next : SrInstance} {message : Message}
    {delivery : Delivery} {interface : SrIf}
    (delivered : message.delivery = some delivery)
    (found : sr.srGetInterface message.mInterfaceName = some interface)
    (arp : ethertype message.frame = ethertypeArp) (request : arOp message.frame = 1)
    (ran : delivery.run outside sr = some next)
    : ((∃ reply iface, sr.Replies next reply iface)
        ↔ 42 ≤ message.frame.length ∧ arTip message.frame = interface.ip)
      ∧ ∀ reply iface, sr.Replies next reply iface
        → iface = interface.name ∧ sr.accepted reply iface
          ∧ ArpReplyTo message.frame interface reply := by
  obtain rfl := delivery_eq delivered
  by_cases answered : 42 ≤ message.frame.length ∧ arTip message.frame = interface.ip
  · obtain ⟨whole, asked⟩ := answered
    have whole : ethernetHdrSize + arpHdrSize ≤ message.frame.length := whole
    have handled : srHandlepacket outside message.frame message.mInterfaceName sr = next := by
      obtain ⟨notForUs, filtered, rfl⟩ := Option.map_eq_some_iff.mp ran
      rw [SrInstance.srArpReqNotForUs, if_neg (Nat.not_lt.mpr whole), found] at filtered
      obtain rfl := Option.some.inj filtered
      rw [if_neg (by simp [asked])]
    have log := @srHandlepacket_answers outside sr message.frame interface message.mInterfaceName
      found arp request whole asked
    rw [handled] at log
    have answer := @arpReplyTo_arpPacket message.frame interface asked
    have replies : sr.Replies next (arpPacket (arSha message.frame) 0x0002 interface
        (arSha message.frame) (arSip message.frame)) interface.name :=
      ⟨answer.type, answer.op, _, _, log, List.mem_singleton_self _⟩
    have replied : ∃ reply iface, sr.Replies next reply iface := ⟨_, _, replies⟩
    refine ⟨iff_of_true replied ⟨whole, asked⟩, ?_⟩
    rintro reply iface ⟨-, -, events, entries, added, sent⟩
    obtain rfl := List.append_cancel_left (log.symm.trans added)
    obtain ⟨same, name, -⟩ := Event.sendPacket.inj (List.mem_singleton.mp sent)
    rw [same, name]
    exact ⟨rfl, (arpPacket_egress found _ _ _ _).accepted, answer⟩
  · have log := delivery_silent found arp request answered ran
    have silent : ∀ reply iface, ¬ sr.Replies next reply iface := by
      rintro reply iface ⟨-, -, events, entries, added, sent⟩
      rw [log, List.self_eq_append_right] at added
      simp [added] at sent
    have none : ¬ ∃ reply iface, sr.Replies next reply iface := by
      rintro ⟨reply, iface, replies⟩
      exact silent reply iface replies
    exact ⟨iff_of_false none answered,
      fun reply iface replies => absurd replies (silent reply iface)⟩

end Messages

/-- A server message with an ARP request from 10.0.0.5 for 10.0.0.9. -/
def requestMessage : Message :=
  ⟨[0, 0, 0, 66, 0, 0, 0, 4, 0x65, 0x74, 0x68, 0x30] ++ List.replicate 12 0
    ++ List.replicate 6 0xff ++ List.replicate 6 0x05 ++ [0x08, 0x06, 0, 1, 0x08, 0x00, 6, 4, 0, 1]
    ++ List.replicate 6 0x05 ++ [10, 0, 0, 5] ++ List.replicate 6 0x00 ++ [10, 0, 0, 9], by decide⟩

theorem requestMessage_delivery
    : requestMessage.delivery = some (.vnsPacket requestMessage.frame "eth0") := by
  have command : Command.ofWord requestMessage.command = .vnsPacket := by decide +kernel
  have name : requestMessage.mInterfaceName = "eth0" := by decide +kernel
  unfold Message.delivery
  rw [command, name]

theorem requestMessage_run
    : (Delivery.vnsPacket requestMessage.frame "eth0").run quietOutside zeroByteRouter
      = some (srHandlepacket quietOutside requestMessage.frame "eth0" zeroByteRouter) := by
  have forUs : zeroByteRouter.srArpReqNotForUs requestMessage.frame "eth0" = some false := by
    decide +kernel
  rw [Delivery.run, forUs, Option.map_some, if_neg Bool.false_ne_true]

/-- The rule at a request that is replied to. -/
theorem arp_request_answered_reply
    : ∃ reply iface, zeroByteRouter.Replies
        (srHandlepacket quietOutside requestMessage.frame "eth0" zeroByteRouter) reply iface := by
  have found : zeroByteRouter.srGetInterface requestMessage.mInterfaceName
      = some ⟨"eth0", #v[0x02, 0, 0, 0, 0, 0x0a], 0x0900000a⟩ := by
    decide +kernel
  exact (arp_request_answered quietOutside requestMessage_delivery found (by decide +kernel)
    (by decide +kernel) requestMessage_run).1.mpr (by decide +kernel)

end Networks.Router
