import Mathlib.Logic.Function.Basic
import Networks.Ctcp.Decoding
import Networks.Ctcp.State
import Networks.Library.StepRuns

/-! How connections are opened. Definitions follow `conn_setup`, `create_tcp_seg`,
`tcp_handshake`, `tcp_new_connection` and the part of `do_loop` that receives packets, for a
server and its clients on one machine, which talk over Unix sockets.
-/

namespace Networks.Ctcp

-----------------------------------------------------------------------------------------
-- Packets of the handshake
-----------------------------------------------------------------------------------------

/-- `conn_t`, with the numbers that packets of the handshake are built from. -/
structure TcpConn extends Conn where
  seqno : UInt32
  nextSeqno : UInt32
  ackno : UInt32

/-- `conn_setup`, for a connection that `calloc` has zeroed, with the result of `rand`. -/
def connSetup (ipAddr : UInt32) (port : UInt16) (rand : UInt32) : TcpConn where
  ipAddr := ipAddr
  port := port
  initSeqno := rand
  theirInitSeqno := 0
  seqno := 0
  nextSeqno := rand
  ackno := 0

/-- The length of a segment fits into the length field. -/
theorem tcpSeg_sized (data : SendBuf)
    : (ntohs (htons (.ofNat (fullHdrSize + data.val.length)))).toNat
      = fullHdrSize + data.val.length := by
  have bound := data.property
  unfold maxSegDataSize at bound
  rw [ntohs_htons, UInt16.toNat_ofNat', fullHdrSize]
  omega

/-- The packet that `create_tcp_seg` fills, with its checksum still zero. -/
def tcpSeg (config : Host) (cfg : CtcpConfig) (dst : TcpConn) (flags : UInt8) (data : SendBuf)
    : Datagram where
  totLen := htons (.ofNat (fullHdrSize + data.val.length))
  saddr := config.ipAddr
  daddr := dst.ipAddr
  sport := htons config.port
  dport := htons dst.port
  seq := htonl dst.nextSeqno
  ack := htonl dst.ackno
  off := 0x50
  flags := flags
  win := if flags &&& thRst = 0 then htons cfg.recvWindow else 0
  sum := 0
  urp := 0
  payload := data.val
  sized := tcpSeg_sized data

/-- `create_tcp_seg`, with what it leaves of the connection. -/
def createTcpSeg (config : Host) (cfg : CtcpConfig) (dst : TcpConn) (flags : UInt8)
    (data : SendBuf)
    : Datagram × TcpConn :=
  let packet := tcpSeg config cfg dst flags data
  ({ packet with sum := cksumTcp packet },
    { dst with
      seqno := dst.nextSeqno
      nextSeqno := dst.nextSeqno + .ofNat data.val.length })

/-- `TH_ACK` as the flag byte of a TCP header. -/
def thAckByte : UInt8 := 0x10

/-- A packet on its way. `sent` is the segment that `conn_send` has made it from, if it is no
packet of a handshake.
-/
structure Flying where
  packet : Datagram
  sent : Option Segment

/-- `send_tcp_conn_seg`. -/
def sendTcpConnSeg (config : Host) (cfg : CtcpConfig) (dst : TcpConn) (flags : UInt8)
    : Flying × TcpConn :=
  let (packet, dst) := createTcpSeg config cfg dst flags ⟨[], Nat.zero_le _⟩
  (⟨packet, none⟩, dst)

/-- The bytes of a packet. `create_datagram` has filled the IP header. -/
def Datagram.bytes (packet : Datagram) : List UInt8 :=
  let header (check : UInt16) : List UInt8 :=
    [0x45, 0] ++ fieldBytes16 packet.totLen ++ fieldBytes16 (htons 144) ++ [0, 0, 64, 6]
      ++ fieldBytes16 check ++ fieldBytes32 packet.saddr ++ fieldBytes32 packet.daddr
  header (cksum (header 0)) ++ fieldBytes16 packet.sport ++ fieldBytes16 packet.dport
    ++ fieldBytes32 packet.seq ++ fieldBytes32 packet.ack ++ [packet.off, packet.flags]
    ++ fieldBytes16 packet.win ++ fieldBytes16 packet.sum ++ fieldBytes16 packet.urp
    ++ packet.payload

/-- The receive buffer after `recv` has copied a packet to it. -/
def Datagram.buffer (packet : Datagram) : Buffer := fun index => packet.bytes.getD index 0

/-- What `recv` returns for a packet. -/
def Datagram.length (packet : Datagram) : Nat := fullHdrSize + packet.payload.length

/-- A 16-bit field is determined by its memory. -/
theorem Buffer.field16_eq {buf : Buffer} {index : Nat} {value : UInt16}
    (bytes : buf.bytes index (fieldBytes16 value).length = fieldBytes16 value)
    : buf.field16 index = value := by
  have field := (buf.bytes_field16 index).symm.trans bytes
  simp only [fieldBytes16, List.cons.injEq, ← UInt8.toNat_inj, UInt8.toNat_ofNat', and_true]
    at field
  have left := (buf.field16 index).toNat_lt
  have right := value.toNat_lt
  apply UInt16.toNat_inj.mp
  omega

/-- A 32-bit field is determined by its memory. -/
theorem Buffer.field32_eq {buf : Buffer} {index : Nat} {value : UInt32}
    (bytes : buf.bytes index (fieldBytes32 value).length = fieldBytes32 value)
    : buf.field32 index = value := by
  have field := (buf.bytes_field32 index).symm.trans bytes
  simp only [fieldBytes32, List.cons.injEq, ← UInt8.toNat_inj, UInt8.toNat_ofNat', and_true]
    at field
  have left := (buf.field32 index).toNat_lt
  have right := value.toNat_lt
  apply UInt32.toNat_inj.mp
  omega

/-- Bytes that lie one behind the other are read one after the other. -/
theorem Buffer.bytes_append_iff {buf : Buffer} {start : Nat} {first second : List UInt8}
    : buf.bytes start (first ++ second).length = first ++ second
      ↔ buf.bytes start first.length = first
        ∧ buf.bytes (start + first.length) second.length = second := by
  rw [List.length_append, bytes_add]
  constructor
  · intro same
    exact List.append_inj same (by rw [length_bytes])
  · rintro ⟨left, right⟩
    rw [left, right]

theorem Datagram.buffer_bytes (packet : Datagram)
    : packet.buffer.bytes 0 packet.bytes.length = packet.bytes := by
  apply List.ext_getElem
  · rw [Buffer.length_bytes]
  · intro index _ inside
    simp [Buffer.bytes, Datagram.buffer, inside]

/-- The fields that a receiver reads in its buffer are those of the packet. -/
theorem Datagram.buffer_holds (packet : Datagram) : packet.buffer.Holds packet := by
  have read := packet.buffer_bytes
  generalize packet.buffer = buf at read
  unfold Datagram.bytes at read
  generalize cksum _ = check at read
  simp only [List.append_assoc, Buffer.bytes_append_iff] at read
  obtain ⟨-, totLen, -, -, -, saddr, daddr, sport, dport, seq, ack, flags, win, sum, urp,
    payload⟩ := read
  constructor
  · exact Buffer.field16_eq totLen
  · exact Buffer.field32_eq saddr
  · exact Buffer.field32_eq daddr
  · exact Buffer.field16_eq sport
  · exact Buffer.field16_eq dport
  · exact Buffer.field32_eq seq
  · exact Buffer.field32_eq ack
  · exact (List.cons.inj flags).1
  · exact (List.cons.inj (List.cons.inj flags).2).1
  · exact Buffer.field16_eq win
  · exact Buffer.field16_eq sum
  · exact Buffer.field16_eq urp
  · exact payload

-----------------------------------------------------------------------------------------
-- The hosts
-----------------------------------------------------------------------------------------

/-- A connection of the server, with the configuration that `ctcp_init` was given. -/
structure ServerConn extends TcpConn where
  cfg : CtcpConfig

/-- A segment that was passed to `ctcp_receive` of the connection to a port, with the segment
that `conn_send` was handed for it.
-/
structure Receipt where
  port : UInt16
  sent : Option Segment
  arrived : Segment

/-- The globals of a server: the newest connection comes first. `taken` are the packets that it
has read from its socket, and `received` what it passed to `ctcp_receive`.
-/
structure ServerHost where
  config : Host
  cfg : CtcpConfig
  connections : List ServerConn
  numConnected : Nat
  newConnection : UInt16
  taken : List Flying
  received : List Receipt

/-- How far a client has come. -/
inductive Phase
  | closed
  | waiting
  | connected
  | failed
  deriving DecidableEq

/-- The globals of a client. -/
structure ClientHost where
  config : Host
  cfg : CtcpConfig
  sconn : TcpConn
  phase : Phase
  taken : List Flying
  received : List Receipt

/-- `tcp_new_connection`, with the SYN-ACK it sends. -/
def tcpNewConnection (rand : UInt32) (pkt : Buffer) (server : ServerHost)
    : ServerHost × List Flying :=
  if server.numConnected ≥ maxNumClients then
    (server, [])
  else
    let conn := connSetup (ntohl pkt.saddr) (ntohs pkt.thSport) rand
    let conn :=
      { conn with
        theirInitSeqno := ntohl pkt.thSeq
        ackno := ntohl pkt.thSeq + 1 }
    let (synack, conn) := sendTcpConnSeg server.config server.cfg conn (thSyn ||| thAckByte)
    let cfg := { server.cfg with sendWindow := ntohs pkt.thWin }
    ({ server with
      numConnected := server.numConnected + 1
      cfg := cfg
      connections := ⟨conn, cfg⟩ :: server.connections },
      [synack])

/-- Whether `do_loop` takes a segment for the ACK that ends a handshake. -/
def endsHandshake (newConnection : UInt16) (pkt : Buffer) (segment : Segment) : Bool :=
  pkt.thSport = newConnection
  ∧ segment.flags &&& thAck ≠ 0
  ∧ segment.seq = 1
  ∧ segment.ack = 1

/-- The part of `do_loop` that receives a packet, on a server. `none` is the end of the
program.
-/
def ServerHost.receive (rand : UInt32) (flying : Flying) (server : ServerHost)
    : Option (ServerHost × List Flying) :=
  let packet := flying.packet
  let server := { server with taken := server.taken ++ [flying] }
  let conns := server.connections.map fun conn => conn.toConn
  match recvFilter server.config conns (some packet.length) packet.buffer with
  | .failed | .dropped => some (server, [])
  | .exit => none
  | .passed _ (conn :: _) =>
      let segment := convertToCtcp conn packet
      -- Don't forward to student code if it's an ACK from a new connection.
      if endsHandshake server.newConnection packet.buffer segment then
        some ({ server with newConnection := 0 }, [])
      else
        some
          ({ server with received := server.received ++ [⟨conn.port, flying.sent, segment⟩] }, [])
  | .passed _ [] =>
      if packet.buffer.thFlags &&& thSyn ≠ 0 then
        let (server, sent) := tcpNewConnection rand packet.buffer server
        some ({ server with newConnection := packet.buffer.thSport }, sent)
      else
        some (server, [])

/-- `start_client` up to the SYN of `tcp_handshake`. -/
def ClientHost.open (serverIp : UInt32) (serverPort : UInt16) (rand : UInt32)
    (client : ClientHost)
    : ClientHost × Flying :=
  let conn := connSetup serverIp serverPort rand
  let (syn, conn) := sendTcpConnSeg client.config client.cfg conn thSyn
  ({ client with sconn := conn, phase := .waiting }, syn)

/-- `tcp_handshake` from the first packet on that arrives for the SYN. `none` is the end of the
program.
-/
def ClientHost.finish (flying : Flying) (client : ClientHost)
    : Option (ClientHost × List Flying) :=
  let packet := flying.packet
  let synack := packet.buffer
  match recvFilter client.config [client.sconn.toConn] (some packet.length) synack with
  | .exit => none
  | .failed | .dropped => some ({ client with phase := .failed }, [])
  | .passed _ _ =>
      let client := { client with cfg.sendWindow := ntohs synack.thWin }
      -- An ACK instead of a SYN-ACK continues a previous connection.
      if synack.thFlags &&& thSyn = 0 then
        let initSeqno := ntohl synack.thAck - 1
        let conn :=
          { client.sconn with
            initSeqno := initSeqno
            theirInitSeqno := ntohl synack.thSeq - 1
            nextSeqno := initSeqno + 1
            ackno := ntohl synack.thSeq }
        some ({ client with sconn := conn, phase := .connected }, [])
      else
        let conn :=
          { client.sconn with
            nextSeqno := client.sconn.nextSeqno + 1
            theirInitSeqno := ntohl synack.thSeq
            ackno := ntohl synack.thSeq + 1 }
        let (ack, conn) := sendTcpConnSeg client.config client.cfg conn thAckByte
        some ({ client with sconn := conn, phase := .connected }, [ack])

/-- `tcp_handshake` when `recv` gives up: `recv_filter` returns -1. -/
def ClientHost.timeout (client : ClientHost) : ClientHost := { client with phase := .failed }

/-- The part of `do_loop` that receives a packet, on a client: `new_connection` stays zero, and
`tcp_new_connection` is for servers only. `none` is the end of the program.
-/
def ClientHost.receive (flying : Flying) (client : ClientHost) : Option ClientHost :=
  let packet := flying.packet
  let client := { client with taken := client.taken ++ [flying] }
  match recvFilter client.config [client.sconn.toConn] (some packet.length) packet.buffer with
  | .failed | .dropped => some client
  | .exit => none
  | .passed _ (conn :: _) =>
      let segment := convertToCtcp conn packet
      if endsHandshake 0 packet.buffer segment then
        some client
      else
        some { client with received := client.received ++ [⟨conn.port, flying.sent, segment⟩] }
  | .passed _ [] => if packet.buffer.thFlags &&& thSyn ≠ 0 then none else some client

-----------------------------------------------------------------------------------------
-- The machine
-----------------------------------------------------------------------------------------

/-- A server and its clients, each of which is known by its port, and the packets that wait at
their sockets, the oldest first.
-/
structure Machine where
  server : ServerHost
  client : UInt16 → ClientHost
  toServer : List Flying
  toClient : UInt16 → List Flying

/-- A step of a host, or what `conn_send` does to packets instead of sending them once.
`rand` is what `rand` returns. A client that gets no packet for `CONN_TIMEOUT` has a `timeout`.
That a server removes connections is left out.
-/
inductive Machine.Event
  | start (port : UInt16) (rand : UInt32)
  | finish (port : UInt16)
  | timeout (port : UInt16)
  | clientSends (port : UInt16) (segment : Segment)
  | serverSends (port : UInt16) (segment : Segment)
  | serverReceives (rand : UInt32)
  | clientReceives (port : UInt16)
  | dropToServer (index : Nat)
  | repeatToServer (index : Nat)
  | dropToClient (port : UInt16) (index : Nat)
  | repeatToClient (port : UInt16) (index : Nat)

/-- `conn_send`, when it sends a segment once. -/
def connSendOnce (config : Host) (conn : Conn) (segment : Segment) : List Flying :=
  (convertToDatagram config conn segment).toList.map fun packet => ⟨packet, some segment⟩

/-- Packets of a handshake do not go through `conn_send`. -/
def unreliable (flights : List Flying) (index : Nat) : Option Flying :=
  flights[index]?.filter fun flying => flying.sent.isSome

/-- A step of the machine. -/
def Machine.step (machine : Machine) : Machine.Event → Option Machine
  | .start port rand =>
      let client := machine.client port
      if client.phase = .closed ∧ port ≠ 0 then
        let (client, syn) :=
          client.open machine.server.config.ipAddr machine.server.config.port rand
        some
          { machine with
            client := Function.update machine.client port client
            toServer := machine.toServer ++ [syn] }
      else
        none
  | .finish port =>
      match (machine.client port).phase, machine.toClient port with
      | .waiting, flying :: rest =>
          ((machine.client port).finish flying).map fun (client, sent) =>
            { machine with
              client := Function.update machine.client port client
              toServer := machine.toServer ++ sent
              toClient := Function.update machine.toClient port rest }
      | _, _ => none
  | .timeout port =>
      let client := machine.client port
      if client.phase = .waiting ∧ machine.toClient port = [] then
        some { machine with client := Function.update machine.client port client.timeout }
      else
        none
  | .clientSends port segment =>
      let client := machine.client port
      if client.phase = .connected then
        some
          { machine with
            toServer := machine.toServer ++ connSendOnce client.config client.sconn.toConn segment }
      else
        none
  | .serverSends port segment =>
      (machine.server.connections.find? fun conn => conn.port = port).map fun conn =>
        { machine with
          toClient :=
            Function.update machine.toClient port
              (machine.toClient port
                ++ connSendOnce machine.server.config conn.toConn segment) }
  | .serverReceives rand =>
      match machine.toServer with
      | [] => none
      | flying :: rest =>
          (machine.server.receive rand flying).map fun (server, sent) =>
            { machine with
              server := server
              toServer := rest
              toClient := fun port =>
                machine.toClient port
                  ++ sent.filter fun answer => ntohs answer.packet.dport = port }
  | .clientReceives port =>
      match (machine.client port).phase, machine.toClient port with
      | .connected, flying :: rest =>
          ((machine.client port).receive flying).map fun client =>
            { machine with
              client := Function.update machine.client port client
              toClient := Function.update machine.toClient port rest }
      | _, _ => none
  | .dropToServer index =>
      (unreliable machine.toServer index).map fun _ =>
        { machine with toServer := machine.toServer.eraseIdx index }
  | .repeatToServer index =>
      (unreliable machine.toServer index).map fun flying =>
        { machine with toServer := machine.toServer ++ [flying] }
  | .dropToClient port index =>
      (unreliable (machine.toClient port) index).map fun _ =>
        { machine with
          toClient :=
            Function.update machine.toClient port ((machine.toClient port).eraseIdx index) }
  | .repeatToClient port index =>
      (unreliable (machine.toClient port) index).map fun flying =>
        { machine with
          toClient := Function.update machine.toClient port (machine.toClient port ++ [flying]) }

-----------------------------------------------------------------------------------------
-- The first connection that accepts a packet
-----------------------------------------------------------------------------------------

/-- The loop finds the first connection that accepts the packet, by induction on the list. -/
theorem filterLoop_find (config : Host) (buf : Buffer) (length : Nat) (connections : List Conn)
    : connections.find? (Conn.accepts config buf) = none
        ∧ filterLoop config buf length connections = .dropped
      ∨ ∃ conn rest,
          connections.find? (Conn.accepts config buf) = some conn
          ∧ filterLoop config buf length connections = .passed length (conn :: rest) := by
  induction connections with
  | nil => exact Or.inl ⟨rfl, rfl⟩
  | cons head next ih =>
      rw [filterLoop, List.find?_cons]
      by_cases accepted : head.accepts config buf
      · rw [if_pos accepted, accepted]
        exact Or.inr ⟨head, next, rfl, rfl⟩
      · rw [if_neg accepted, Bool.eq_false_iff.mpr accepted]
        exact ih

/-- Connections to other ports accept nothing. -/
theorem find_accepts_filter {config : Host} {buf : Buffer} {port : UInt16}
    (sport : buf.thSport = htons port) (connections : List Conn)
    : (connections.filter fun conn => conn.port = port).find? (Conn.accepts config buf)
      = connections.find? (Conn.accepts config buf) := by
  rw [List.find?_filter]
  congr 1
  funext conn
  rw [Conn.accepts, sport, ntohs_htons]
  simp

/-- A packet that a host finds nothing wrong with, but that belongs to no connection yet. -/
theorem recvFilter_syn {config : Host} {buf : Buffer} {length : Nat}
    (full : fullHdrSize ≤ length) (dport : buf.thDport = htons config.port)
    (notRst : buf.thFlags &&& thRst = 0) (syn : buf.thFlags &&& thSyn ≠ 0)
    (connections : List Conn)
    : recvFilter config connections (some length) buf = .passed length [] := by
  simp only [recvFilter, Nat.not_lt.mpr full, dport, notRst, syn, ne_eq, not_true_eq_false,
    not_false_eq_true, if_false, if_true]

/-- Of the connections to a host, a packet is judged by those to the port it comes from. -/
theorem recvFilter_filter {config : Host} {buf : Buffer} {port : UInt16}
    (sport : buf.thSport = htons port) (connections : List Conn) (received : Option Nat)
    : recvFilter config (connections.filter fun conn => conn.port = port) received buf
          = recvFilter config connections received buf
        ∧ (∀ length conn rest,
            recvFilter config connections received buf ≠ .passed length (conn :: rest))
      ∨ ∃ length conn rest others,
          conn.port = port
          ∧ recvFilter config connections received buf = .passed length (conn :: rest)
          ∧ recvFilter config (connections.filter fun conn => conn.port = port) received buf
            = .passed length (conn :: others) := by
  cases received with
  | none => simp [recvFilter]
  | some length =>
      simp only [recvFilter]
      split_ifs
      · simp
      · simp
      · simp
      · simp
      · have same := @find_accepts_filter config _ _ sport connections
        rcases filterLoop_find config buf length connections with
          ⟨none, dropped⟩ | ⟨conn, rest, found, passed⟩
        · rcases filterLoop_find config buf length
              (connections.filter fun conn => conn.port = port) with
            ⟨-, alsoDropped⟩ | ⟨conn, rest, found, -⟩
          · rw [dropped, alsoDropped]
            simp
          · rw [same, none] at found
            cases found
        · rcases filterLoop_find config buf length
              (connections.filter fun conn => conn.port = port) with
            ⟨none, -⟩ | ⟨other, others, otherFound, otherPassed⟩
          · rw [same, found] at none
            cases none
          · rw [same, found] at otherFound
            obtain rfl := Option.some.inj otherFound
            have accepted := List.find?_some found
            rw [Conn.accepts, decide_eq_true_eq, sport, ntohs_htons] at accepted
            exact Or.inr ⟨length, conn, rest, others, accepted.1, passed, otherPassed⟩

-----------------------------------------------------------------------------------------
-- Packets of the handshake
-----------------------------------------------------------------------------------------

/-- A packet of a handshake, in the byte order of the hosts. -/
structure Opening (sport dport : UInt16) (seq ack : UInt32) (flags : UInt8) (window : UInt16)
    (flying : Flying)
    : Prop where
  sport : flying.packet.sport = htons sport
  dport : flying.packet.dport = htons dport
  seq : flying.packet.seq = htonl seq
  ack : flying.packet.ack = htonl ack
  flags : flying.packet.flags = flags
  win : flying.packet.win = htons window
  sent : flying.sent = none

theorem sendTcpConnSeg_opening (config : Host) (cfg : CtcpConfig) (dst : TcpConn) {flags : UInt8}
    (notRst : flags &&& thRst = 0)
    : Opening config.port dst.port dst.nextSeqno dst.ackno flags cfg.recvWindow
        (sendTcpConnSeg config cfg dst flags).1 := by
  have win : (tcpSeg config cfg dst flags ⟨[], Nat.zero_le _⟩).win = htons cfg.recvWindow :=
    if_pos notRst
  exact ⟨rfl, rfl, rfl, rfl, rfl, win, rfl⟩

/-- A packet without data uses up no sequence number. -/
theorem sendTcpConnSeg_conn (config : Host) (cfg : CtcpConfig) (dst : TcpConn) (flags : UInt8)
    : (sendTcpConnSeg config cfg dst flags).2 = { dst with seqno := dst.nextSeqno } := by
  simp [sendTcpConnSeg, createTcpSeg]

/-- The connection that a server with room sets up for a SYN. -/
def synConn (rand : UInt32) (pkt : Buffer) : TcpConn where
  ipAddr := ntohl pkt.saddr
  port := ntohs pkt.thSport
  initSeqno := rand
  theirInitSeqno := ntohl pkt.thSeq
  seqno := rand
  nextSeqno := rand
  ackno := ntohl pkt.thSeq + 1

/-- With room for a client, a SYN is answered. -/
theorem tcpNewConnection_of_room (rand : UInt32) (pkt : Buffer) {server : ServerHost}
    (room : ¬ server.numConnected ≥ maxNumClients)
    : ∃ synack,
        Opening server.config.port (ntohs pkt.thSport) rand (ntohl pkt.thSeq + 1)
          (thSyn ||| thAckByte) server.cfg.recvWindow synack
        ∧ tcpNewConnection rand pkt server
          = ({ server with
              numConnected := server.numConnected + 1
              cfg.sendWindow := ntohs pkt.thWin
              connections :=
                ⟨synConn rand pkt, { server.cfg with sendWindow := ntohs pkt.thWin }⟩
                  :: server.connections },
            [synack]) := by
  refine ⟨_, sendTcpConnSeg_opening server.config server.cfg
    { connSetup (ntohl pkt.saddr) (ntohs pkt.thSport) rand with
      theirInitSeqno := ntohl pkt.thSeq
      ackno := ntohl pkt.thSeq + 1 } (by decide), ?_⟩
  simp only [tcpNewConnection, if_neg room, sendTcpConnSeg_conn]
  rfl

theorem ClientHost.open_opening (serverIp : UInt32) (serverPort : UInt16) (rand : UInt32)
    (client : ClientHost)
    : ∃ syn,
        Opening client.config.port serverPort rand 0 thSyn client.cfg.recvWindow syn
        ∧ client.open serverIp serverPort rand
          = ({ client with
              sconn := { connSetup serverIp serverPort rand with seqno := rand }
              phase := .waiting },
            syn) := by
  refine ⟨_, sendTcpConnSeg_opening client.config client.cfg
    (connSetup serverIp serverPort rand) (by decide), ?_⟩
  simp only [ClientHost.open, sendTcpConnSeg_conn]
  rfl

/-- What a client sends to end a handshake comes from its port. -/
theorem ClientHost.finish_sport {client after : ClientHost} {flying : Flying}
    {sent : List Flying} (finished : client.finish flying = some (after, sent))
    : ∀ answer ∈ sent, answer.packet.sport = htons client.config.port := by
  simp only [ClientHost.finish] at finished
  split at finished
  · cases finished
  · cases finished
    simp
  · cases finished
    simp
  · split at finished
    · cases finished
      simp
    · cases finished
      simpa using (sendTcpConnSeg_opening client.config _ _ (by decide)).sport

/-- A client that gets a SYN-ACK answers it. -/
theorem ClientHost.finish_synack {client : ClientHost} {serverPort : UInt16}
    {seq ack : UInt32} {window : UInt16} {synack : Flying}
    (opening
      : Opening serverPort client.config.port seq ack (thSyn ||| thAckByte) window synack)
    : ∃ answer,
        Opening client.config.port client.sconn.port (client.sconn.nextSeqno + 1) (seq + 1)
          thAckByte client.cfg.recvWindow answer
        ∧ client.finish synack
          = some
            ({ client with
                cfg.sendWindow := window
                sconn :=
                  { client.sconn with
                    seqno := client.sconn.nextSeqno + 1
                    nextSeqno := client.sconn.nextSeqno + 1
                    theirInitSeqno := seq
                    ackno := seq + 1 }
                phase := .connected },
              [answer]) := by
  have holds := synack.packet.buffer_holds
  have passed := @recvFilter_syn client.config synack.packet.buffer synack.packet.length
    (Nat.le_add_right _ _) (holds.dport.trans opening.dport)
    (by rw [holds.flags, opening.flags]; decide) (by rw [holds.flags, opening.flags]; decide)
    [client.sconn.toConn]
  have syn : ¬ synack.packet.buffer.thFlags &&& thSyn = 0 := by
    rw [holds.flags, opening.flags]
    decide
  refine ⟨_, sendTcpConnSeg_opening client.config { client.cfg with sendWindow := window }
    { client.sconn with
      nextSeqno := client.sconn.nextSeqno + 1
      theirInitSeqno := seq
      ackno := seq + 1 } (by decide), ?_⟩
  simp only [ClientHost.finish, passed, syn, if_false, sendTcpConnSeg_conn, holds.seq,
    opening.seq, ntohl_htonl, holds.win, opening.win, ntohs_htons]

end Networks.Ctcp
