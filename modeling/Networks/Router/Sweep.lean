import Networks.Library.StepRuns
import Networks.Router.Handling

/-! The ARP request queue once a second, and the steps of the router. Definitions follow
`sr_arpcache_sweepreqs` and `sr_arpcache_timeout`.
-/

namespace Networks.Router

/-- A loop over the packets of a request, which ends at a fault. Packets that the loop puts on
the request are put in front, so it does not meet them.
-/
def packetLoop (act : SrPacket → SrInstance → SrInstance) :
    List SrPacket → SrInstance → SrInstance
  | [], sr => sr
  | packet :: next, sr =>
      let sr := act packet sr
      if sr.fault.isSome then sr else packetLoop act next sr

/-- A packet that waited for a request sent too often. -/
def reportUnreachable (outside : Outside) (address : Nat) (packet : SrPacket)
    (sr : SrInstance)
    : SrInstance :=
  srIcmpMakePacket outside packet.buf 3 1 (sr.record (.hostUnreachable address packet))

/-- A packet whose next hop is known now. -/
def resend (outside : Outside) (packet : SrPacket) (sr : SrInstance) : SrInstance :=
  match sr.srGetInterface packet.iface with
  | none => sr.fail .nullPointer
  | some interface => srHandlepacket outside packet.buf interface.name sr

/-- A request is destroyed, unless the loop before has ended at a fault. -/
def destroyAfter (address : Nat) (sr : SrInstance) : SrInstance :=
  if sr.fault.isSome then sr else srArpreqDestroy address sr

/-- `req->times_sent++; req->sent = t`. -/
def noteSent (address : Nat) (time : Int) (sr : SrInstance) : SrInstance :=
  { sr with
    requests :=
      sr.requests.map fun request =>
        if request.address = address then
          { request with timesSent := request.timesSent + 1, sent := time }
        else
          request }

/-- What the sweep does to a request that was not sent in the last second. -/
def sweepDue (outside : Outside) (time : Int) (request : SrArpreq) (sr : SrInstance)
    : SrInstance :=
  if request.timesSent ≥ 5 then
    let sr := sr.record (.limitReached request.address time request.packets)
    destroyAfter request.address
      (packetLoop (reportUnreachable outside request.address) request.packets sr)
  else
    match srArpcacheLookup sr.entries request.ip with
    | some _ =>
        destroyAfter request.address (packetLoop (resend outside) request.packets sr)
    | none =>
        let sr := srArpRequest request.ip (sr.record (.arpRequest request.address time))
        if sr.fault.isSome then sr else noteSent request.address time sr

/-- The body of the loop of `sr_arpcache_sweepreqs`, for the request at an address. -/
def sweepRequest (outside : Outside) (address : Nat) (sr : SrInstance) : SrInstance :=
  let time := outside.clock sr.ticks
  match sr.requests.find? (fun request => request.address == address) with
  | none => sr
  | some request =>
      if time - request.sent ≥ 1 then sweepDue outside time request sr.tick else sr.tick

/-- The loop of `sr_arpcache_sweepreqs` over the requests at the given addresses. Requests
queued meanwhile stand in front of them, and the link of a destroyed request is read as if
it were still there.
-/
def sweepLoop (outside : Outside) : List Nat → SrInstance → SrInstance
  | [], sr => sr
  | address :: next, sr =>
      let sr := sweepRequest outside address sr
      if sr.fault.isSome then sr else sweepLoop outside next sr

/-- `sr_arpcache_sweepreqs`. -/
def srArpcacheSweepreqs (outside : Outside) (sr : SrInstance) : SrInstance :=
  sweepLoop outside (sr.requests.map SrArpreq.address) sr

/-- What happens to the router: a frame arrives, the cache is timed out or the queue swept by
`sr_arpcache_timeout`, or a packet is queued for a next hop.
-/
inductive Action
  | receive (packet : Frame) (interface : String)
  | timeout
  | sweepreqs
  | queuereq (ip : UInt32) (packet : SrPacket)

def Action.run (outside : Outside) (sr : SrInstance) : Action → SrInstance
  | .receive packet interface => srHandlepacket outside packet interface sr
  | .timeout =>
      { sr.tick with entries := expireEntries (outside.clock sr.ticks) sr.entries }
  | .sweepreqs => srArpcacheSweepreqs outside sr
  | .queuereq ip packet => srArpcacheQueuereq ip packet sr

/-- A step of the router. A fault ends the run. -/
def step (outside : Outside) (sr : SrInstance) (action : Action) : Option SrInstance :=
  let next := action.run outside sr
  if next.fault.isSome then none else some next

/-- The router that a sequence of actions leads to from its start. -/
def runFrom (outside : Outside) (ifList : List SrIf) (routingTable : List SrRt)
    (actions : List Action)
    : Option SrInstance :=
  StepRuns.exec (step outside) (srInit ifList routingTable) actions

end Networks.Router
