import Networks.Router.Frame

/-! The state of the router: interfaces, routing table, ARP cache and ARP request queue, and
the small functions that search and change them.
The log is not part of the source: it records the calls that properties of whole runs are
about.
-/

namespace Networks.Router

/-- `sr_if`. A name stands for the contents of its array up to the terminating zero, so that
`strncmp` over `sr_IFACE_NAMELEN` bytes compares names.
-/
structure SrIf where
  name : String
  addr : Mac
  ip : UInt32
  deriving DecidableEq

/-- `sr_rt`. -/
structure SrRt where
  dest : UInt32
  gw : UInt32
  mask : UInt32
  interface : String
  deriving DecidableEq

/-- `sr_arpentry`. -/
structure SrArpentry where
  mac : Mac
  ip : UInt32
  added : Int
  valid : Bool
  deriving DecidableEq

/-- `sr_packet`. Its `len` is the length of `buf`. -/
structure SrPacket where
  buf : Frame
  iface : String
  deriving DecidableEq

/-- `sr_arpreq`, with its address on the heap. -/
structure SrArpreq where
  address : Nat
  ip : UInt32
  sent : Int
  timesSent : Nat
  packets : List SrPacket
  deriving DecidableEq

/-- `SR_ARPCACHE_SZ`. -/
def srArpcacheSz : Nat := 100

/-- `SR_ARPCACHE_TO`, in seconds. -/
def srArpcacheTo : Int := 15

/-- An access that ends a run. -/
inductive Fault
  | outOfBounds
  | nullPointer
  deriving DecidableEq

/-- The functions that call `sr_ForwardPacket`. -/
inductive Caller
  | handlepacket
  | icmpMakePacket
  deriving DecidableEq

/-- What the router has done, as far as properties of its runs speak about it. -/
inductive Event
  /-- `sr_icmp_make_packet`, on the frame that holds the IP header. -/
  | icmpMakePacket (type code : UInt8) (packet : Frame)
  /-- `sr_ForwardPacket`. -/
  | forwardPacket (caller : Caller) (packet : Frame) (nexthopIp : UInt32)
  /-- `sr_send_packet`, with the ARP cache at that moment. -/
  | sendPacket (packet : Frame) (iface : String) (entries : List SrArpentry)
  /-- `sr_arp_request` for the IP of a request object. -/
  | arpRequest (request : Nat) (time : Int)
  /-- A sweep finds that a request has been sent often enough, with the packets waiting. -/
  | limitReached (request : Nat) (time : Int) (packets : List SrPacket)
  /-- `sr_icmp_make_packet` with type 3 and code 1, for a packet waiting on a request. -/
  | hostUnreachable (request : Nat) (packet : SrPacket)
  deriving DecidableEq

/-- `sr_instance`. The model never reuses an address: `nextAddress` is the next one a request
object gets. `ticks` and `mallocs` count the readings of the clock and the ICMP error
messages allocated so far.
-/
structure SrInstance where
  ifList : List SrIf
  routingTable : List SrRt
  entries : List SrArpentry
  requests : List SrArpreq
  nextAddress : Nat
  ticks : Nat
  mallocs : Nat
  log : List Event
  fault : Option Fault
  deriving DecidableEq

/-- What the outside decides: the successive values of `time(NULL)` and the contents of the
memory that successive `malloc` calls return.
-/
structure Outside where
  clock : Nat → Int
  heap : Nat → Nat → UInt8

/-- The router after `sr_arpcache_init`, with its interfaces and routing table. -/
def srInit (ifList : List SrIf) (routingTable : List SrRt) : SrInstance where
  ifList := ifList
  routingTable := routingTable
  entries := List.replicate srArpcacheSz ⟨Vector.replicate 6 0, 0, 0, false⟩
  requests := []
  nextAddress := 0
  ticks := 0
  mallocs := 0
  log := []
  fault := none

def SrInstance.record (event : Event) (sr : SrInstance) : SrInstance :=
  { sr with log := sr.log ++ [event] }

def SrInstance.fail (fault : Fault) (sr : SrInstance) : SrInstance :=
  { sr with fault := some fault }

/-- One reading of `time(NULL)`. -/
def SrInstance.tick (sr : SrInstance) : SrInstance := { sr with ticks := sr.ticks + 1 }

/-- The loop of `longestprefixmatch` from an entry on. Masks are compared as they lie in
memory.
-/
def longestprefixmatchLoop (targetIp : UInt32) (nexthop : Option SrRt) (longest : UInt32)
    : List SrRt → Option SrRt
  | [] => nexthop
  | next :: rest =>
      if next.mask &&& next.dest = next.mask &&& targetIp
          ∧ (nexthop = none ∨ next.mask > longest) then
        longestprefixmatchLoop targetIp (some next) next.mask rest
      else
        longestprefixmatchLoop targetIp nexthop longest rest

/-- `longestprefixmatch`. -/
def SrInstance.longestprefixmatch (sr : SrInstance) (targetIp : UInt32) : Option SrRt :=
  longestprefixmatchLoop targetIp none 0 sr.routingTable

/-- `IPcheck`. -/
def SrInstance.ipCheck (sr : SrInstance) (tar : UInt32) : Option SrIf :=
  sr.ifList.find? (fun interface => tar == interface.ip)

/-- `sr_get_interface`. -/
def SrInstance.srGetInterface (sr : SrInstance) (name : String) : Option SrIf :=
  sr.ifList.find? (fun interface => interface.name == name)

/-- `sr_verify_routing_table`. -/
def srVerifyRoutingTable (sr : SrInstance) : Nat :=
  if sr.ifList = [] ∨ sr.routingTable = [] then
    999
  else
    sr.routingTable.countP (fun route => (sr.srGetInterface route.interface).isNone)

-----------------------------------------------------------------------------------------
-- ARP cache
-----------------------------------------------------------------------------------------

/-- `sr_arpcache_lookup`: the loop runs to the end, so the last valid entry is found. -/
def srArpcacheLookup (entries : List SrArpentry) (ip : UInt32) : Option SrArpentry :=
  entries.foldl
    (fun found entry => if entry.valid ∧ entry.ip = ip then some entry else found) none

/-- The loops of `sr_arpcacheinsert`: the first entry that is not valid is overwritten. -/
def insertEntry (new : SrArpentry) : List SrArpentry → List SrArpentry
  | [] => []
  | entry :: rest => if entry.valid then entry :: insertEntry new rest else new :: rest

/-- `sr_arpcacheinsert`. The clock is read only when an entry is free. -/
def srArpcacheinsert (outside : Outside) (mac : Mac) (ip : UInt32) (sr : SrInstance)
    : SrInstance :=
  if sr.entries.all (fun entry => entry.valid) then
    sr
  else
    let new := { mac := mac, ip := ip, added := outside.clock sr.ticks, valid := true }
    { sr.tick with entries := insertEntry new sr.entries }

/-- The loop of `sr_arpcache_timeout` over the cache. -/
def expireEntries (curtime : Int) (entries : List SrArpentry) : List SrArpentry :=
  entries.map fun entry =>
    if entry.valid ∧ curtime - entry.added > srArpcacheTo then
      { entry with valid := false }
    else
      entry

/-- A packet is put in front of the packets of the request for `ip`. -/
def addPacket (ip : UInt32) (packet : SrPacket) : List SrArpreq → List SrArpreq
  | [] => []
  | request :: rest =>
      if request.ip = ip then
        { request with packets := packet :: request.packets } :: rest
      else
        request :: addPacket ip packet rest

/-- `sr_arpcache_queuereq`. Only a packet that is not empty is stored. -/
def srArpcacheQueuereq (ip : UInt32) (packet : SrPacket) (sr : SrInstance) : SrInstance :=
  let sr :=
    if sr.requests.any (fun request => request.ip == ip) then
      sr
    else
      let new :=
        { address := sr.nextAddress, ip := ip, sent := 0, timesSent := 0, packets := [] }
      { sr with requests := new :: sr.requests, nextAddress := sr.nextAddress + 1 }
  if packet.buf = [] then sr else { sr with requests := addPacket ip packet sr.requests }

/-- `sr_arpreq_destroy`. -/
def srArpreqDestroy (address : Nat) (sr : SrInstance) : SrInstance :=
  { sr with requests := sr.requests.eraseP (fun request => request.address == address) }

end Networks.Router
