import Mathlib.Data.List.Forall2
import Networks.Ctcp.Handshake

/-! One client and the server. Of what a server does, a client notices no more than what concerns
its own port; what is then left of a machine is a dialogue, which goes through the stages of one
handshake.
-/

namespace Networks.Ctcp

-----------------------------------------------------------------------------------------
-- A server as one client sees it
-----------------------------------------------------------------------------------------

/-- The server, as far as it has to do with the client of a port. -/
def ServerHost.facing (port : UInt16) (server : ServerHost) : ServerHost :=
  { server with
    connections := server.connections.filter fun conn => conn.port = port
    newConnection := if server.newConnection = htons port then server.newConnection else 0
    taken := server.taken.filter fun flying => flying.packet.sport = htons port
    received := server.received.filter fun receipt => receipt.port = port }

@[simp] theorem ServerHost.facing_config (port : UInt16) (server : ServerHost)
    : (server.facing port).config = server.config := rfl

theorem ServerHost.facing_conns (port : UInt16) (connections : List ServerConn)
    : ((connections.filter fun conn => conn.port = port).map fun conn => conn.toConn)
      = (connections.map fun conn => conn.toConn).filter fun conn => conn.port = port := by
  rw [List.filter_map]
  rfl

theorem htons_ne_zero {port : UInt16} (named : port ≠ 0) : htons port ≠ 0 :=
  fun zero => named (htons_inj.mp (zero.trans (by decide)))

/-- Port zero apart, a handshake ends for the client when it ends for the server. -/
theorem endsHandshake_facing {buf : Buffer} {port : UInt16} (named : port ≠ 0)
    (sport : buf.thSport = htons port) (newConnection : UInt16) (segment : Segment)
    : endsHandshake (if newConnection = htons port then newConnection else 0) buf segment
      = endsHandshake newConnection buf segment := by
  have nonzero := htons_ne_zero named
  by_cases fresh : newConnection = htons port
  · rw [if_pos fresh]
  · simp [if_neg fresh, endsHandshake, sport, nonzero, Ne.symm fresh]

/-- What a server does with a packet of a client, it does to what this client sees of it. -/
theorem ServerHost.receive_facing {port : UInt16} (named : port ≠ 0) (rand : UInt32)
    {flying : Flying} (sport : flying.packet.sport = htons port) (server : ServerHost)
    : (server.facing port).receive rand flying
      = (server.receive rand flying).map fun (after, sent) => (after.facing port, sent) := by
  have thSport : flying.packet.buffer.thSport = htons port :=
    flying.packet.buffer_holds.sport.trans sport
  have ends := endsHandshake_facing named thSport server.newConnection
  have outcome := @recvFilter_filter server.config _ _ thSport
    (server.connections.map fun conn => conn.toConn) (some flying.packet.length)
  simp only [receive, facing, facing_conns, ends]
  rcases outcome with
    ⟨same, unmatched⟩ | ⟨length, conn, rest, others, rfl, passed, alsoPassed⟩
  · rw [same]
    generalize outcome : recvFilter _ (server.connections.map _) _ _ = filtered at unmatched
    cases filtered with
    | failed => simp [sport]
    | dropped => simp [sport]
    | exit => rfl
    | passed length rconn =>
        cases rconn with
        | cons conn rest => exact absurd rfl (unmatched length conn rest)
        | nil =>
            by_cases syn : flying.packet.buffer.thFlags &&& thSyn ≠ 0
            · by_cases full : server.numConnected ≥ maxNumClients
              · simp [syn, full, sport, tcpNewConnection, thSport]
              · simp [syn, full, sport, tcpNewConnection, thSport, sendTcpConnSeg, createTcpSeg,
                  connSetup]
            · simp [syn, sport]
  · rw [passed, alsoPassed]
    by_cases ended : endsHandshake server.newConnection flying.packet.buffer
        (convertToCtcp conn flying.packet)
    · simp [ended, sport]
    · simp [ended, sport]

/-- What a client does not notice of what a server does for others: it may leave off waiting for
the end of the client's handshake.
-/
structure ServerHost.Unchanged (server after : ServerHost) : Prop where
  config : after.config = server.config
  recvWindow : after.cfg.recvWindow = server.cfg.recvWindow
  connections : after.connections = server.connections
  newConnection : after.newConnection = server.newConnection ∨ after.newConnection = 0
  taken : after.taken = server.taken
  received : after.received = server.received

theorem ServerHost.Unchanged.refl (server : ServerHost) : server.Unchanged server :=
  ⟨rfl, rfl, rfl, Or.inl rfl, rfl, rfl⟩

/-- What a server does with a packet of one client, another client does not notice. -/
theorem ServerHost.receive_aside {port : UInt16} {rand : UInt32} {flying : Flying}
    (sport : flying.packet.sport = htons port) {server after : ServerHost} {sent : List Flying}
    (received : server.receive rand flying = some (after, sent))
    : (∀ other, other ≠ port → (server.facing other).Unchanged (after.facing other))
      ∧ ∀ answer ∈ sent, ntohs answer.packet.dport = port := by
  have thSport : flying.packet.buffer.thSport = htons port :=
    flying.packet.buffer_holds.sport.trans sport
  have distant {other : UInt16} (apart : other ≠ port) : htons port ≠ htons other :=
    fun same => apart (htons_inj.mp same).symm
  have read (other : UInt16) (apart : other ≠ port)
      : (server.facing other).Unchanged
          ({ server with taken := server.taken ++ [flying] : ServerHost }.facing other) := by
    constructor <;> simp [facing, sport, distant apart]
  have outcome := @recvFilter_filter server.config _ _ thSport
    (server.connections.map fun conn => conn.toConn) (some flying.packet.length)
  simp only [receive] at received
  rcases outcome with ⟨-, unmatched⟩ | ⟨length, conn, rest, others, rfl, passed, -⟩
  · generalize recvFilter _ _ _ _ = filtered at received unmatched
    cases filtered with
    | failed =>
        cases received
        exact ⟨read, by simp⟩
    | dropped =>
        cases received
        exact ⟨read, by simp⟩
    | exit => cases received
    | passed length rconn =>
        cases rconn with
        | cons conn rest => exact absurd rfl (unmatched length conn rest)
        | nil =>
            by_cases syn : flying.packet.buffer.thFlags &&& thSyn ≠ 0
            · rw [if_pos syn] at received
              by_cases full : server.numConnected ≥ maxNumClients
              · rw [tcpNewConnection, if_pos full] at received
                cases received
                refine ⟨fun other apart => ?_, by simp⟩
                constructor <;> simp [facing, sport, thSport, distant apart]
              · obtain ⟨synack, opening, answered⟩ := @tcpNewConnection_of_room rand
                  flying.packet.buffer { server with taken := server.taken ++ [flying] } full
                rw [answered] at received
                cases received
                rw [thSport, ntohs_htons] at opening
                refine ⟨fun other apart => ?_, by simp [opening.dport]⟩
                constructor <;>
                  simp [facing, synConn, sport, thSport, distant apart, Ne.symm apart]
            · rw [if_neg syn] at received
              cases received
              exact ⟨read, by simp⟩
  · rw [passed] at received
    by_cases ended : endsHandshake server.newConnection flying.packet.buffer
        (convertToCtcp conn flying.packet)
    · simp only [ended, if_true] at received
      cases received
      refine ⟨fun other apart => ?_, by simp⟩
      constructor <;> simp [facing, sport, distant apart]
    · simp only [ended] at received
      cases received
      refine ⟨fun other apart => ?_, by simp⟩
      constructor <;> simp [facing, sport, distant apart, Ne.symm apart]

-----------------------------------------------------------------------------------------
-- One client and the server
-----------------------------------------------------------------------------------------

/-- A segment that a connection of less than two gigabytes sends. -/
structure Segment.Plain (segment : Segment) : Prop where
  seq : segment.seq < 2 ^ 31
  ack : segment.ack < 2 ^ 31
  short : segment.data.length ≤ maxSegDataSize
  notSyn : segment.flags.toUInt8 &&& thSyn = 0
  notRst : segment.flags.toUInt8 &&& thRst = 0

/-- `conn_send` has made a packet from a plain segment. -/
def SentOn (config : Host) (conn : Conn) (flying : Flying) : Prop :=
  ∃ segment : Segment,
    segment.Plain
    ∧ flying.sent = some segment
    ∧ convertToDatagram config conn segment = some flying.packet

theorem SentOn.ports {sender : Host} {dst : Conn} {flying : Flying}
    (sent : SentOn sender dst flying)
    : flying.packet.sport = htons sender.port ∧ flying.packet.dport = htons dst.port := by
  obtain ⟨segment, -, -, converted⟩ := sent
  unfold convertToDatagram at converted
  split at converted
  · rw [← Option.some.inj converted]
    exact ⟨rfl, rfl⟩
  · cases converted

theorem connSendOnce_sentOn {config : Host} {conn : Conn} {segment : Segment}
    (plain : segment.Plain)
    : ∀ flying ∈ connSendOnce config conn segment, SentOn config conn flying := by
  intro flying member
  simp only [connSendOnce, List.mem_map, Option.mem_toList] at member
  obtain ⟨packet, converted, rfl⟩ := member
  exact ⟨segment, plain, rfl, converted⟩

/-- Packets of a handshake, and then packets of the connection that it has opened. -/
def Queue (config : Host) (conn : Conn) (first queue : List Flying) : Prop :=
  ∃ stream, queue = first ++ stream ∧ ∀ flying ∈ stream, SentOn config conn flying

/-- What `conn_send` does to packets instead of sending each of them once. -/
def Disturbed (queue after : List Flying) : Prop :=
  ∃ before flying behind,
    queue = before ++ flying :: behind
    ∧ flying.sent.isSome
    ∧ (after = before ++ behind ∨ after = queue ++ [flying])

/-- A server and one of its clients, and what is on its way between them. -/
structure Dialogue where
  server : ServerHost
  client : ClientHost
  toServer : List Flying
  toClient : List Flying

/-- What the client of a port sees of a machine. -/
def Machine.dialogue (port : UInt16) (machine : Machine) : Dialogue where
  server := machine.server.facing port
  client := machine.client port
  toServer := machine.toServer.filter fun flying => flying.packet.sport = htons port
  toClient := machine.toClient port

/-- A step of a machine, as the client of a port sees it. -/
inductive Dialogue.Step (port : UInt16) (dialogue : Dialogue) : Dialogue → Prop
  | aside {server : ServerHost} (unchanged : dialogue.server.Unchanged server)
      : Step port dialogue { dialogue with server }
  | start (rand : UInt32) (fits : rand.toNat < 2 ^ 31)
      (closed : dialogue.client.phase = .closed) (named : port ≠ 0) {opened : ClientHost × Flying}
      (opens
        : dialogue.client.open dialogue.server.config.ipAddr dialogue.server.config.port rand
          = opened)
      : Step port dialogue
          { dialogue with client := opened.1, toServer := dialogue.toServer ++ [opened.2] }
  | finish {flying : Flying} {rest sent : List Flying} {client : ClientHost}
      (waiting : dialogue.client.phase = .waiting) (front : dialogue.toClient = flying :: rest)
      (finished : dialogue.client.finish flying = some (client, sent))
      : Step port dialogue
          { dialogue with client, toServer := dialogue.toServer ++ sent, toClient := rest }
  | timeout (waiting : dialogue.client.phase = .waiting) (silent : dialogue.toClient = [])
      : Step port dialogue { dialogue with client := dialogue.client.timeout }
  | clientSends {segment : Segment} (plain : segment.Plain)
      (connected : dialogue.client.phase = .connected)
      : Step port dialogue
          { dialogue with
            toServer :=
              dialogue.toServer
                ++ connSendOnce dialogue.client.config dialogue.client.sconn.toConn segment }
  | serverSends {segment : Segment} {conn : ServerConn} (plain : segment.Plain)
      (known : conn ∈ dialogue.server.connections)
      : Step port dialogue
          { dialogue with
            toClient :=
              dialogue.toClient ++ connSendOnce dialogue.server.config conn.toConn segment }
  | serverReceives {rand : UInt32} (fits : rand.toNat < 2 ^ 31) {flying : Flying}
      {rest sent : List Flying} {server : ServerHost}
      (front : dialogue.toServer = flying :: rest)
      (received : dialogue.server.receive rand flying = some (server, sent))
      : Step port dialogue
          { dialogue with server, toServer := rest, toClient := dialogue.toClient ++ sent }
  | clientReceives {flying : Flying} {rest : List Flying} {client : ClientHost}
      (connected : dialogue.client.phase = .connected)
      (front : dialogue.toClient = flying :: rest)
      (received : dialogue.client.receive flying = some client)
      : Step port dialogue { dialogue with client, toClient := rest }
  | toServer {queue : List Flying} (disturbed : Disturbed dialogue.toServer queue)
      : Step port dialogue { dialogue with toServer := queue }
  | toClient {queue : List Flying} (disturbed : Disturbed dialogue.toClient queue)
      : Step port dialogue { dialogue with toClient := queue }

-----------------------------------------------------------------------------------------
-- How far a dialogue has come
-----------------------------------------------------------------------------------------

/-- Every packet that `conn_send` has made and a host has read was passed on, once, in the order
it was read, and as the segment that it was made from.
-/
def PassedOn (taken : List Flying) (received : List Receipt) : Prop :=
  List.Forall₂
    (fun flying receipt =>
      receipt.sent = flying.sent
      ∧ ∃ segment, flying.sent = some segment ∧ SameSegment segment receipt.arrived)
    (taken.filter fun flying => flying.sent.isSome)
    (received.filter fun receipt => receipt.sent.isSome)

/-- What a client and the server agree on. -/
structure Agreed (client : ClientHost) (conn : ServerConn) : Prop where
  numbers : Connected client.sconn.toConn conn.toConn
  toServer : client.cfg.sendWindow = conn.cfg.recvWindow
  toClient : conn.cfg.sendWindow = client.cfg.recvWindow

/-- The one connection that a server has set up for the client of a port. -/
structure Known (port : UInt16) (server : ServerHost) (conn : ServerConn) : Prop where
  only : server.connections = [conn]
  port : conn.port = port
  initSeqno : conn.initSeqno.toNat < 2 ^ 31
  recvWindow : conn.cfg.recvWindow = server.cfg.recvWindow

/-- A client that has sent its SYN and has not got an answer. -/
def Phase.Unanswered (phase : Phase) : Prop := phase = .waiting ∨ phase = .failed

theorem Phase.Unanswered.ne_closed {phase : Phase} (unanswered : phase.Unanswered)
    : phase ≠ .closed := by
  rcases unanswered with rfl | rfl <;> decide

theorem Phase.Unanswered.ne_connected {phase : Phase} (unanswered : phase.Unanswered)
    : phase ≠ .connected := by
  rcases unanswered with rfl | rfl <;> decide

/-- The stages of a dialogue: before the SYN, with the SYN on its way, after a SYN that the
server had no room for, with the SYN-ACK on its way, with the SYN-ACK for a client that has given
up, with the ACK on its way, and after the handshake.
-/
inductive Stage (port : UInt16) (dialogue : Dialogue) : Prop
  | closed (phase : dialogue.client.phase = .closed) (unknown : dialogue.server.connections = [])
      (toServer : dialogue.toServer = []) (toClient : dialogue.toClient = [])
  | asked {syn : Flying} (phase : dialogue.client.phase.Unanswered)
      (unknown : dialogue.server.connections = [])
      (fresh : dialogue.client.sconn.nextSeqno = dialogue.client.sconn.initSeqno)
      (opening
        : Opening port dialogue.server.config.port dialogue.client.sconn.initSeqno 0 thSyn
            dialogue.client.cfg.recvWindow syn)
      (toServer : dialogue.toServer = [syn]) (toClient : dialogue.toClient = [])
  | refused (phase : dialogue.client.phase.Unanswered)
      (unknown : dialogue.server.connections = [])
      (toServer : dialogue.toServer = []) (toClient : dialogue.toClient = [])
  | answered {conn : ServerConn} {synack : Flying} (phase : dialogue.client.phase = .waiting)
      (known : Known port dialogue.server conn)
      (fresh : dialogue.client.sconn.nextSeqno = dialogue.client.sconn.initSeqno)
      (theirInitSeqno : conn.theirInitSeqno = dialogue.client.sconn.initSeqno)
      (sendWindow : conn.cfg.sendWindow = dialogue.client.cfg.recvWindow)
      (opening
        : Opening dialogue.server.config.port port conn.initSeqno (conn.theirInitSeqno + 1)
            (thSyn ||| thAckByte) conn.cfg.recvWindow synack)
      (toServer : dialogue.toServer = [])
      (toClient : Queue dialogue.server.config conn.toConn [synack] dialogue.toClient)
  | abandoned {conn : ServerConn} (phase : dialogue.client.phase = .failed)
      (known : Known port dialogue.server conn) (toServer : dialogue.toServer = [])
  | joined {conn : ServerConn} {ack : Flying} (phase : dialogue.client.phase = .connected)
      (known : Known port dialogue.server conn) (agreed : Agreed dialogue.client conn)
      (opening
        : Opening port dialogue.server.config.port (conn.theirInitSeqno + 1) (conn.initSeqno + 1)
            thAckByte dialogue.client.cfg.recvWindow ack)
      (toServer
        : Queue dialogue.client.config dialogue.client.sconn.toConn [ack] dialogue.toServer)
      (toClient : Queue dialogue.server.config conn.toConn [] dialogue.toClient)
  | opened {conn : ServerConn} (phase : dialogue.client.phase = .connected)
      (known : Known port dialogue.server conn) (agreed : Agreed dialogue.client conn)
      (ended : dialogue.server.newConnection ≠ htons port)
      (toServer : Queue dialogue.client.config dialogue.client.sconn.toConn [] dialogue.toServer)
      (toClient : Queue dialogue.server.config conn.toConn [] dialogue.toClient)

/-- What holds of a client that has called `tcp_handshake`. -/
structure Started (port : UInt16) (server : ServerHost) (client : ClientHost) : Prop where
  named : port ≠ 0
  server : client.sconn.port = server.config.port
  initSeqno : client.sconn.initSeqno.toNat < 2 ^ 31

/-- The invariant of a dialogue. -/
structure Sound (port : UInt16) (dialogue : Dialogue) : Prop where
  serverUnix : dialogue.server.config.unixSocket = true
  clientUnix : dialogue.client.config.unixSocket = true
  serverPort : dialogue.server.config.port ≠ 0
  clientPort : dialogue.client.config.port = port
  started : dialogue.client.phase ≠ .closed → Started port dialogue.server dialogue.client
  stage : Stage port dialogue
  toServer : PassedOn dialogue.server.taken dialogue.server.received
  toClient : PassedOn dialogue.client.taken dialogue.client.received

-----------------------------------------------------------------------------------------
-- Packets on their way
-----------------------------------------------------------------------------------------

theorem Queue.nil (config : Host) (conn : Conn) (first : List Flying)
    : Queue config conn first first :=
  ⟨[], (List.append_nil first).symm, by simp⟩

/-- What is sent goes behind what is on its way. -/
theorem Queue.append {config : Host} {conn : Conn} {first queue : List Flying}
    (flight : Queue config conn first queue) {segment : Segment} (plain : segment.Plain)
    : Queue config conn first (queue ++ connSendOnce config conn segment) := by
  obtain ⟨stream, rfl, sent⟩ := flight
  refine ⟨stream ++ connSendOnce config conn segment, List.append_assoc .., ?_⟩
  intro flying member
  rcases List.mem_append.mp member with old | new
  · exact sent flying old
  · exact connSendOnce_sentOn plain flying new

/-- Packets of a handshake are neither lost nor repeated, nor overtaken. -/
theorem Queue.disturbed {config : Host} {conn : Conn} {first queue after : List Flying}
    (flight : Queue config conn first queue) (opening : ∀ flying ∈ first, flying.sent = none)
    (disturbed : Disturbed queue after)
    : Queue config conn first after := by
  obtain ⟨stream, rfl, sent⟩ := flight
  obtain ⟨before, flying, behind, split, made, ends⟩ := disturbed
  have streamed : flying ∉ first := by
    intro member
    rw [opening flying member] at made
    cases made
  obtain ⟨lead, rfl, rfl⟩ : ∃ lead, before = first ++ lead ∧ stream = lead ++ flying :: behind := by
    rcases List.append_eq_append_iff.mp split with ⟨lead, rfl, rest⟩ | ⟨lead, rfl, rest⟩
    · exact ⟨lead, rfl, rest⟩
    · cases lead with
      | nil => exact ⟨[], by simp, by simpa using rest.symm⟩
      | cons head lead =>
          obtain ⟨rfl, -⟩ := List.cons.inj rest
          exact absurd (by simp) streamed
  rcases ends with rfl | rfl
  · refine ⟨lead ++ behind, List.append_assoc .., fun other member => sent other ?_⟩
    rcases List.mem_append.mp member with early | late
    · simp [early]
    · simp [late]
  · refine ⟨lead ++ flying :: behind ++ [flying], List.append_assoc .., fun other member => ?_⟩
    rcases List.mem_append.mp member with old | new
    · exact sent other old
    · rw [List.mem_singleton.mp new]
      exact sent flying (by simp)

/-- A host that talks over a Unix socket gets a packet of an open connection: one that was sent
on a connection is found to belong to its other end, and arrives as the segment sent.
-/
theorem SentOn.passes {sender receiver : Host} {dst src : Conn} {flying : Flying}
    (sent : SentOn sender dst flying) (numbers : Connected dst src)
    (senderUnix : sender.unixSocket = true) (receiverUnix : receiver.unixSocket = true)
    (dport : dst.port = receiver.port) (sport : src.port = sender.port)
    (initSeqno : src.initSeqno.toNat < 2 ^ 31) (theirInitSeqno : dst.initSeqno.toNat < 2 ^ 31)
    : recvFilter receiver [src] (some flying.packet.length) flying.packet.buffer
        = .passed flying.packet.length [src]
      ∧ flying.packet.sport = htons sender.port
      ∧ ∃ segment,
          flying.sent = some segment ∧ SameSegment segment (convertToCtcp src flying.packet) := by
  have ports := sent.ports
  obtain ⟨segment, plain, made, converted⟩ := sent
  have holds := flying.packet.buffer_holds
  have carries := convertToDatagram_carries converted
  have flags : sender.thFlags segment = segment.flags.toUInt8 := by simp [Host.thFlags, senderUnix]
  have stream : OfStream receiver src segment.seq segment.ack flying.packet.length
      flying.packet.buffer := by
    refine ⟨Nat.le_add_right _ _, ?_, ?_, Or.inl receiverUnix, ?_, ?_, ?_, ?_⟩
    · rw [holds.dport, ports.2, dport]
    · rw [holds.sport, ports.1, ntohs_htons, sport]
    · rw [holds.seq, carries.seq, ntohl_htonl, Segment.seq, UInt32.ofNat_toNat, numbers.seqno,
        UInt32.add_comm]
    · rw [holds.ack, carries.ack, ntohl_htonl, Segment.ack, UInt32.ofNat_toNat, numbers.ackno,
        UInt32.add_comm]
    · rw [holds.flags, carries.flags, flags]
      exact plain.notSyn
    · rw [holds.flags, carries.flags, flags]
      exact plain.notRst
  refine ⟨?_, ports.1, segment, made, convertToCtcp_same numbers converted⟩
  have seq := plain.seq
  have ack := plain.ack
  have matched := recvFilter_matches_iff receiver [] src [] flying.packet.buffer segment.seq
    segment.ack flying.packet.length seq ack stream
  rw [numbers.seqno] at theirInitSeqno
  exact matched.mpr ⟨by omega, by omega, by simp⟩

/-- The ACK of a handshake is found to belong to the connection it is for, as its first segment
without data.
-/
theorem Opening.passes {receiver : Host} {conn : Conn} {window : UInt16} {ack : Flying}
    (opening
      : Opening conn.port receiver.port (conn.theirInitSeqno + 1) (conn.initSeqno + 1) thAckByte
          window ack)
    (receiverUnix : receiver.unixSocket = true) (initSeqno : conn.initSeqno.toNat < 2 ^ 31)
    (theirInitSeqno : conn.theirInitSeqno.toNat < 2 ^ 31)
    : recvFilter receiver [conn] (some ack.packet.length) ack.packet.buffer
        = .passed ack.packet.length [conn]
      ∧ (convertToCtcp conn ack.packet).seq = 1
      ∧ (convertToCtcp conn ack.packet).ack = 1
      ∧ (convertToCtcp conn ack.packet).flags &&& thAck ≠ 0 := by
  have holds := ack.packet.buffer_holds
  have stream : OfStream receiver conn 1 1 ack.packet.length ack.packet.buffer := by
    refine ⟨Nat.le_add_right _ _, ?_, ?_, Or.inl receiverUnix, ?_, ?_, ?_, ?_⟩
    · rw [holds.dport, opening.dport]
    · rw [holds.sport, opening.sport, ntohs_htons]
    · rw [holds.seq, opening.seq, ntohl_htonl]
      rfl
    · rw [holds.ack, opening.ack, ntohl_htonl]
      rfl
    · rw [holds.flags, opening.flags]
      decide
    · rw [holds.flags, opening.flags]
      decide
  have matched := recvFilter_matches_iff receiver [] conn [] ack.packet.buffer 1 1
    ack.packet.length (by decide) (by decide) stream
  refine ⟨matched.mpr ⟨by omega, by omega, by simp⟩, ?_, ?_, ?_⟩
  · simp only [convertToCtcp, Conn.received, Segment.seq, ntohl_htonl, opening.seq,
      UInt32.add_comm conn.theirInitSeqno, UInt32.add_sub_cancel]
    rfl
  · simp only [convertToCtcp, Conn.received, Segment.ack, ntohl_htonl, opening.ack,
      UInt32.add_comm conn.initSeqno, UInt32.add_sub_cancel]
    rfl
  · simp only [convertToCtcp, Conn.received, opening.flags]
    decide

-----------------------------------------------------------------------------------------
-- What is passed on
-----------------------------------------------------------------------------------------

/-- Packets of a handshake do not count. -/
theorem PassedOn.read {taken : List Flying} {received : List Receipt}
    (passedOn : PassedOn taken received) {flying : Flying} (opening : flying.sent = none)
    : PassedOn (taken ++ [flying]) received := by
  simpa [PassedOn, opening] using passedOn

theorem PassedOn.passOpening {taken : List Flying} {received : List Receipt}
    (passedOn : PassedOn taken received) (port : UInt16) (arrived : Segment)
    : PassedOn taken (received ++ [⟨port, none, arrived⟩]) := by
  simpa [PassedOn] using passedOn

/-- A packet that is passed on as it was sent. -/
theorem PassedOn.pass {taken : List Flying} {received : List Receipt}
    (passedOn : PassedOn taken received) {flying : Flying} {arrived : Segment}
    (port : UInt16)
    (same : ∃ segment, flying.sent = some segment ∧ SameSegment segment arrived)
    : PassedOn (taken ++ [flying]) (received ++ [⟨port, flying.sent, arrived⟩]) := by
  have made : flying.sent.isSome := by
    obtain ⟨segment, made, -⟩ := same
    rw [made]
    rfl
  simp only [PassedOn, List.filter_append, List.filter_cons, made, if_true, List.filter_nil]
  exact List.rel_append passedOn (.cons ⟨rfl, same⟩ .nil)

-----------------------------------------------------------------------------------------
-- What a server does with the packets of a dialogue
-----------------------------------------------------------------------------------------

/-- A server with a SYN at hand sets up a connection, if it has room for one. -/
theorem ServerHost.receive_syn {port : UInt16} {server : ServerHost} {seq ack : UInt32}
    {window : UInt16} {syn : Flying}
    (opening : Opening port server.config.port seq ack thSyn window syn)
    (rand : UInt32)
    : server.receive rand syn
          = some
            ({ server with
                taken := server.taken ++ [syn]
                newConnection := htons port },
              [])
      ∨ ∃ conn synack numConnected cfg,
          server.receive rand syn
            = some
              ({ server with
                  taken := server.taken ++ [syn]
                  newConnection := htons port
                  numConnected
                  cfg
                  connections := conn :: server.connections },
                [synack])
          ∧ conn.port = port
          ∧ conn.initSeqno = rand
          ∧ conn.theirInitSeqno = seq
          ∧ cfg.recvWindow = server.cfg.recvWindow
          ∧ conn.cfg = { server.cfg with sendWindow := window }
          ∧ Opening server.config.port port rand (seq + 1) (thSyn ||| thAckByte)
              server.cfg.recvWindow synack := by
  have holds := syn.packet.buffer_holds
  have thSport : syn.packet.buffer.thSport = htons port := holds.sport.trans opening.sport
  have passed := @recvFilter_syn server.config syn.packet.buffer syn.packet.length
    (Nat.le_add_right _ _) (holds.dport.trans opening.dport)
    (by rw [holds.flags, opening.flags]; decide) (by rw [holds.flags, opening.flags]; decide)
    (server.connections.map fun conn => conn.toConn)
  have isSyn : syn.packet.buffer.thFlags &&& thSyn ≠ 0 := by
    rw [holds.flags, opening.flags]
    decide
  by_cases full : server.numConnected ≥ maxNumClients
  · left
    simp only [ServerHost.receive, passed]
    rw [if_pos isSyn, tcpNewConnection, if_pos full, thSport]
  · right
    obtain ⟨synack, answer, answered⟩ := @tcpNewConnection_of_room rand syn.packet.buffer
      { server with taken := server.taken ++ [syn] } full
    rw [thSport, ntohs_htons, holds.seq, opening.seq, ntohl_htonl] at answer
    refine ⟨⟨synConn rand syn.packet.buffer, { server.cfg with sendWindow := window }⟩, synack,
      server.numConnected + 1, { server.cfg with sendWindow := window }, ?_, ?_, rfl, ?_, rfl, rfl,
      answer⟩
    · simp only [ServerHost.receive, passed]
      rw [if_pos isSyn, answered, thSport, holds.win, opening.win, ntohs_htons]
    · simp only [synConn, thSport, ntohs_htons]
    · simp only [synConn, holds.seq, opening.seq, ntohl_htonl]

/-- What a server does with a packet of a connection: all but the ACK of its newest client is
passed on.
-/
theorem ServerHost.receive_known {port : UInt16} {server : ServerHost} {conn : ServerConn}
    {flying : Flying} (known : Known port server conn)
    (passed
      : recvFilter server.config [conn.toConn] (some flying.packet.length) flying.packet.buffer
        = .passed flying.packet.length [conn.toConn])
    (rand : UInt32)
    : server.receive rand flying
      = some
        (if endsHandshake server.newConnection flying.packet.buffer
            (convertToCtcp conn.toConn flying.packet) then
          ({ server with taken := server.taken ++ [flying], newConnection := 0 }, [])
        else
          ({ server with
              taken := server.taken ++ [flying]
              received :=
                server.received
                  ++ [⟨port, flying.sent, convertToCtcp conn.toConn flying.packet⟩] },
            [])) := by
  simp only [ServerHost.receive, known.only, List.map_cons, List.map_nil, passed, known.port]
  split <;> rfl

-----------------------------------------------------------------------------------------
-- Every step keeps a dialogue sound
-----------------------------------------------------------------------------------------

section Steps

variable {port : UInt16} {dialogue : Dialogue}

theorem Sound.aside (sound : Sound port dialogue) {server : ServerHost}
    (unchanged : dialogue.server.Unchanged server)
    : Sound port { dialogue with server } := by
  obtain ⟨config, recvWindow, connections, newConnection, taken, received⟩ := unchanged
  have known {conn : ServerConn} (known : Known port dialogue.server conn)
      : Known port server conn :=
    ⟨connections.trans known.only, known.port, known.initSeqno,
      known.recvWindow.trans recvWindow.symm⟩
  refine ⟨config ▸ sound.serverUnix, sound.clientUnix, config ▸ sound.serverPort,
    sound.clientPort, ?_, ?_, ?_, sound.toClient⟩
  · intro started
    obtain ⟨named, server, initSeqno⟩ := sound.started started
    exact ⟨named, server.trans (congrArg Host.port config.symm), initSeqno⟩
  · cases sound.stage with
    | closed phase unknown toServer toClient =>
        exact .closed phase (connections.trans unknown) toServer toClient
    | asked phase unknown fresh opening toServer toClient =>
        exact .asked phase (connections.trans unknown) fresh (config.symm ▸ opening) toServer
          toClient
    | refused phase unknown toServer toClient =>
        exact .refused phase (connections.trans unknown) toServer toClient
    | answered phase held fresh theirs window opening toServer toClient =>
        exact .answered phase (known held) fresh theirs window (config.symm ▸ opening) toServer
          (config.symm ▸ toClient)
    | abandoned phase held toServer => exact .abandoned phase (known held) toServer
    | joined phase held agreed opening toServer toClient =>
        exact .joined phase (known held) agreed (config.symm ▸ opening) toServer
          (config.symm ▸ toClient)
    | opened phase held agreed ended toServer toClient =>
        refine .opened phase (known held) agreed ?_ toServer (config.symm ▸ toClient)
        rcases newConnection with same | zero
        · rw [same]
          exact ended
        · rw [zero]
          exact (htons_ne_zero (sound.started (by rw [phase]; decide)).named).symm
  · rw [taken, received]
    exact sound.toServer

theorem Sound.start (sound : Sound port dialogue) {rand : UInt32} (fits : rand.toNat < 2 ^ 31)
    (closed : dialogue.client.phase = .closed) (named : port ≠ 0) {opened : ClientHost × Flying}
    (opens
      : dialogue.client.open dialogue.server.config.ipAddr dialogue.server.config.port rand
        = opened)
    : Sound port
        { dialogue with client := opened.1, toServer := dialogue.toServer ++ [opened.2] } := by
  obtain ⟨syn, opening, opened⟩ := dialogue.client.open_opening dialogue.server.config.ipAddr
    dialogue.server.config.port rand
  rw [opened] at opens
  obtain rfl := opens
  refine ⟨sound.serverUnix, sound.clientUnix, sound.serverPort, sound.clientPort,
    fun _ => ⟨named, rfl, fits⟩, ?_, sound.toServer, sound.toClient⟩
  cases sound.stage with
  | closed _ unknown toServer toClient =>
      rw [sound.clientPort] at opening
      exact .asked (Or.inl rfl) unknown rfl opening (by rw [toServer]; rfl) toClient
  | asked phase | refused phase => exact absurd closed phase.ne_closed
  | answered phase | abandoned phase | joined phase | opened phase =>
      rw [closed] at phase
      cases phase

theorem Sound.finish (sound : Sound port dialogue) {flying : Flying} {rest : List Flying}
    (waiting : dialogue.client.phase = .waiting) (front : dialogue.toClient = flying :: rest)
    : ∃ client sent,
        dialogue.client.finish flying = some (client, sent)
        ∧ client.phase = .connected
        ∧ Sound port
            { dialogue with client, toServer := dialogue.toServer ++ sent, toClient := rest } := by
  obtain ⟨named, server, initSeqno⟩ := sound.started (by rw [waiting]; decide)
  cases sound.stage with
  | asked _ _ _ _ _ toClient | refused _ _ _ toClient =>
      rw [front] at toClient
      cases toClient
  | closed phase | abandoned phase | joined phase | opened phase =>
      rw [waiting] at phase
      cases phase
  | answered _ known fresh theirInitSeqno sendWindow opening toServer toClient =>
      obtain ⟨stream, split, streamed⟩ := toClient
      rw [front] at split
      obtain ⟨rfl, rfl⟩ := List.cons.inj split
      rw [← sound.clientPort] at opening
      obtain ⟨ack, acknowledges, finished⟩ := ClientHost.finish_synack opening
      refine ⟨_, _, finished, rfl, sound.serverUnix, sound.clientUnix, sound.serverPort,
        sound.clientPort, fun _ => ⟨named, server, initSeqno⟩, ?_, sound.toServer, sound.toClient⟩
      rw [sound.clientPort, server, fresh, ← theirInitSeqno] at acknowledges
      refine .joined rfl known ⟨⟨theirInitSeqno.symm, rfl⟩, rfl, sendWindow⟩ acknowledges ?_
        ⟨rest, rfl, streamed⟩
      rw [toServer]
      exact Queue.nil _ _ _

/-- A client can only give up before the server has answered it. -/
theorem Sound.timeout (sound : Sound port dialogue)
    (waiting : dialogue.client.phase = .waiting) (silent : dialogue.toClient = [])
    : Sound port { dialogue with client := dialogue.client.timeout } := by
  refine ⟨sound.serverUnix, sound.clientUnix, sound.serverPort, sound.clientPort,
    fun _ => ?_, ?_, sound.toServer, sound.toClient⟩
  · obtain ⟨named, server, initSeqno⟩ := sound.started (by rw [waiting]; decide)
    exact ⟨named, server, initSeqno⟩
  cases sound.stage with
  | asked _ unknown fresh opening toServer toClient =>
      exact .asked (Or.inr rfl) unknown fresh opening toServer toClient
  | refused _ unknown toServer toClient => exact .refused (Or.inr rfl) unknown toServer toClient
  | answered _ _ _ _ _ _ _ toClient =>
      obtain ⟨stream, split, -⟩ := toClient
      rw [silent] at split
      cases split
  | closed phase | abandoned phase | joined phase | opened phase =>
      rw [waiting] at phase
      cases phase

theorem Sound.clientSends (sound : Sound port dialogue) {segment : Segment}
    (plain : segment.Plain) (connected : dialogue.client.phase = .connected)
    : Sound port
        { dialogue with
          toServer :=
            dialogue.toServer
              ++ connSendOnce dialogue.client.config dialogue.client.sconn.toConn segment } := by
  refine ⟨sound.serverUnix, sound.clientUnix, sound.serverPort, sound.clientPort, sound.started,
    ?_, sound.toServer, sound.toClient⟩
  cases sound.stage with
  | asked phase | refused phase => exact absurd connected phase.ne_connected
  | closed phase | answered phase | abandoned phase =>
      rw [connected] at phase
      cases phase
  | joined phase known agreed opening toServer toClient =>
      exact .joined phase known agreed opening (toServer.append plain) toClient
  | opened phase known agreed ended toServer toClient =>
      exact .opened phase known agreed ended (toServer.append plain) toClient

theorem Sound.serverSends (sound : Sound port dialogue) {segment : Segment} {conn : ServerConn}
    (plain : segment.Plain) (member : conn ∈ dialogue.server.connections)
    : Sound port
        { dialogue with
          toClient :=
            dialogue.toClient ++ connSendOnce dialogue.server.config conn.toConn segment } := by
  refine ⟨sound.serverUnix, sound.clientUnix, sound.serverPort, sound.clientPort, sound.started,
    ?_, sound.toServer, sound.toClient⟩
  cases sound.stage with
  | closed _ unknown | asked _ unknown | refused _ unknown =>
      rw [unknown] at member
      cases member
  | answered phase known fresh theirs window opening toServer toClient =>
      obtain rfl := List.mem_singleton.mp (known.only ▸ member)
      exact .answered phase known fresh theirs window opening toServer (toClient.append plain)
  | abandoned phase known toServer => exact .abandoned phase known toServer
  | joined phase known agreed opening toServer toClient =>
      obtain rfl := List.mem_singleton.mp (known.only ▸ member)
      exact .joined phase known agreed opening toServer (toClient.append plain)
  | opened phase known agreed ended toServer toClient =>
      obtain rfl := List.mem_singleton.mp (known.only ▸ member)
      exact .opened phase known agreed ended toServer (toClient.append plain)

theorem Sound.toServerDisturbed (sound : Sound port dialogue) {queue : List Flying}
    (disturbed : Disturbed dialogue.toServer queue)
    : Sound port { dialogue with toServer := queue } := by
  refine ⟨sound.serverUnix, sound.clientUnix, sound.serverPort, sound.clientPort, sound.started,
    ?_, sound.toServer, sound.toClient⟩
  cases sound.stage with
  | closed _ _ toServer | refused _ _ toServer | answered _ _ _ _ _ _ toServer
  | abandoned _ _ toServer =>
      obtain ⟨before, flying, behind, split, -⟩ := disturbed
      rw [toServer] at split
      simp at split
  | asked _ _ _ opening toServer =>
      obtain ⟨before, flying, behind, split, made, -⟩ := disturbed
      rw [toServer, eq_comm, List.append_eq_singleton_iff] at split
      simp only [List.cons.injEq, reduceCtorEq, and_false, or_false] at split
      rw [split.2.1, opening.sent] at made
      cases made
  | joined phase known agreed opening toServer toClient =>
      exact .joined phase known agreed opening
        (toServer.disturbed (by simpa using opening.sent) disturbed) toClient
  | opened phase known agreed ended toServer toClient =>
      exact .opened phase known agreed ended (toServer.disturbed (by simp) disturbed) toClient

theorem Sound.toClientDisturbed (sound : Sound port dialogue) {queue : List Flying}
    (disturbed : Disturbed dialogue.toClient queue)
    : Sound port { dialogue with toClient := queue } := by
  refine ⟨sound.serverUnix, sound.clientUnix, sound.serverPort, sound.clientPort, sound.started,
    ?_, sound.toServer, sound.toClient⟩
  cases sound.stage with
  | closed _ _ _ toClient | refused _ _ _ toClient | asked _ _ _ _ _ toClient =>
      obtain ⟨before, flying, behind, split, -⟩ := disturbed
      rw [toClient] at split
      simp at split
  | answered phase known fresh theirs window opening toServer toClient =>
      exact .answered phase known fresh theirs window opening toServer
        (toClient.disturbed (by simpa using opening.sent) disturbed)
  | abandoned phase known toServer => exact .abandoned phase known toServer
  | joined phase known agreed opening toServer toClient =>
      exact .joined phase known agreed opening toServer (toClient.disturbed (by simp) disturbed)
  | opened phase known agreed ended toServer toClient =>
      exact .opened phase known agreed ended toServer (toClient.disturbed (by simp) disturbed)

theorem Sound.clientReceives (sound : Sound port dialogue) {flying : Flying}
    {rest : List Flying} (connected : dialogue.client.phase = .connected)
    (front : dialogue.toClient = flying :: rest)
    : ∃ client,
        dialogue.client.receive flying = some client
        ∧ Sound port { dialogue with client, toClient := rest } := by
  obtain ⟨named, server, initSeqno⟩ := sound.started (by rw [connected]; decide)
  have passes {conn : ServerConn} (known : Known port dialogue.server conn)
      (agreed : Agreed dialogue.client conn)
      (sent : SentOn dialogue.server.config conn.toConn flying)
      : ∃ arrived,
          dialogue.client.receive flying
            = some
              { dialogue.client with
                taken := dialogue.client.taken ++ [flying]
                received :=
                  dialogue.client.received ++ [⟨dialogue.client.sconn.port, flying.sent, arrived⟩] }
          ∧ PassedOn (dialogue.client.taken ++ [flying])
              (dialogue.client.received
                ++ [⟨dialogue.client.sconn.port, flying.sent, arrived⟩]) := by
    obtain ⟨passed, sport, same⟩ := @SentOn.passes _ _ _
      dialogue.client.sconn.toConn _ sent
      ⟨agreed.numbers.ackno.symm, agreed.numbers.seqno.symm⟩ sound.serverUnix sound.clientUnix
      (known.port.trans sound.clientPort.symm) server initSeqno known.initSeqno
    have thSport : flying.packet.buffer.thSport ≠ 0 := by
      rw [flying.packet.buffer_holds.sport, sport]
      exact htons_ne_zero sound.serverPort
    have unended : endsHandshake 0 flying.packet.buffer
        (convertToCtcp dialogue.client.sconn.toConn flying.packet) = false := by
      simp [endsHandshake, thSport]
    refine ⟨_, ?_, sound.toClient.pass dialogue.client.sconn.port same⟩
    simp only [ClientHost.receive, passed, unended]
    rfl
  cases sound.stage with
  | asked phase | refused phase => exact absurd connected phase.ne_connected
  | closed phase | answered phase | abandoned phase =>
      rw [connected] at phase
      cases phase
  | joined phase known agreed opening toServer toClient =>
      obtain ⟨stream, split, streamed⟩ := toClient
      rw [front, List.nil_append] at split
      subst split
      obtain ⟨arrived, received, passedOn⟩ := passes known agreed (streamed flying (by simp))
      refine ⟨_, received, sound.serverUnix, sound.clientUnix, sound.serverPort,
        sound.clientPort, fun _ => ⟨named, server, initSeqno⟩, ?_, sound.toServer, passedOn⟩
      exact .joined phase known ⟨agreed.numbers, agreed.toServer, agreed.toClient⟩ opening toServer
        ⟨rest, rfl, fun other member => streamed other (by simp [member])⟩
  | opened phase known agreed ended toServer toClient =>
      obtain ⟨stream, split, streamed⟩ := toClient
      rw [front, List.nil_append] at split
      subst split
      obtain ⟨arrived, received, passedOn⟩ := passes known agreed (streamed flying (by simp))
      refine ⟨_, received, sound.serverUnix, sound.clientUnix, sound.serverPort,
        sound.clientPort, fun _ => ⟨named, server, initSeqno⟩, ?_, sound.toServer, passedOn⟩
      exact .opened phase known ⟨agreed.numbers, agreed.toServer, agreed.toClient⟩ ended toServer
        ⟨rest, rfl, fun other member => streamed other (by simp [member])⟩

theorem Sound.serverReceives (sound : Sound port dialogue) {rand : UInt32}
    (fits : rand.toNat < 2 ^ 31) {flying : Flying} {rest : List Flying}
    (front : dialogue.toServer = flying :: rest)
    : ∃ server sent,
        dialogue.server.receive rand flying = some (server, sent)
        ∧ Sound port
            { dialogue with server, toServer := rest, toClient := dialogue.toClient ++ sent } := by
  cases sound.stage with
  | closed _ _ toServer | refused _ _ toServer | answered _ _ _ _ _ _ toServer
  | abandoned _ _ toServer =>
      rw [front] at toServer
      cases toServer
  | asked phase unknown fresh opening toServer toClient =>
      obtain ⟨rfl, rfl⟩ := List.cons.inj (front.symm.trans toServer)
      obtain ⟨named, server, initSeqno⟩ := sound.started phase.ne_closed
      rcases ServerHost.receive_syn opening rand with
        full | ⟨conn, synack, numConnected, cfg, received, samePort, init, theirs, recvWindow,
          conf, answer⟩
      · refine ⟨_, _, full, sound.serverUnix, sound.clientUnix, sound.serverPort,
          sound.clientPort, fun _ => ⟨named, server, initSeqno⟩, ?_,
          sound.toServer.read opening.sent, sound.toClient⟩
        exact .refused phase unknown rfl (by rw [toClient]; rfl)
      · refine ⟨_, _, received, sound.serverUnix, sound.clientUnix, sound.serverPort,
          sound.clientPort, fun _ => ⟨named, server, initSeqno⟩, ?_,
          sound.toServer.read opening.sent, sound.toClient⟩
        have only : conn :: dialogue.server.connections = [conn] := by rw [unknown]
        have newest : conn.initSeqno.toNat < 2 ^ 31 := by rw [init]; exact fits
        have window : conn.cfg.recvWindow = cfg.recvWindow := by rw [conf, recvWindow]
        have theirWindow : conn.cfg.sendWindow = dialogue.client.cfg.recvWindow := by rw [conf]
        have answers : Opening dialogue.server.config.port port conn.initSeqno
            (conn.theirInitSeqno + 1) (thSyn ||| thAckByte) conn.cfg.recvWindow synack := by
          rw [init, theirs, conf]
          exact answer
        rcases phase with waiting | failed
        · refine .answered waiting ⟨only, samePort, newest, window⟩ fresh theirs theirWindow
            answers rfl ?_
          rw [toClient]
          exact Queue.nil _ _ _
        · exact .abandoned failed ⟨only, samePort, newest, window⟩ rfl
  | @joined conn ack phase known agreed opening toServer toClient =>
      obtain ⟨stream, split, streamed⟩ := toServer
      rw [front] at split
      obtain ⟨rfl, rfl⟩ := List.cons.inj split
      obtain ⟨named, server, initSeqno⟩ := sound.started (by rw [phase]; decide)
      obtain rfl := known.port
      obtain ⟨passed, seq, ack, flags⟩ := opening.passes sound.serverUnix known.initSeqno
        (agreed.numbers.seqno ▸ initSeqno)
      have received := ServerHost.receive_known known passed rand
      have thSport := flying.packet.buffer_holds.sport.trans opening.sport
      by_cases fresh : dialogue.server.newConnection = htons conn.port
      · rw [if_pos (by simp [endsHandshake, thSport, fresh, seq, ack, flags])] at received
        refine ⟨_, _, received, sound.serverUnix, sound.clientUnix, sound.serverPort,
          sound.clientPort, fun _ => ⟨named, server, initSeqno⟩, ?_,
          sound.toServer.read opening.sent, sound.toClient⟩
        refine .opened phase ⟨known.only, rfl, known.initSeqno, known.recvWindow⟩ agreed ?_
          ⟨rest, rfl, streamed⟩ ?_
        · exact (htons_ne_zero named).symm
        · rw [List.append_nil]
          exact toClient
      · rw [if_neg (by simp [endsHandshake, thSport, Ne.symm fresh]), opening.sent] at received
        refine ⟨_, _, received, sound.serverUnix, sound.clientUnix, sound.serverPort,
          sound.clientPort, fun _ => ⟨named, server, initSeqno⟩, ?_,
          (sound.toServer.read opening.sent).passOpening _ _, sound.toClient⟩
        refine .opened phase ⟨known.only, rfl, known.initSeqno, known.recvWindow⟩ agreed fresh
          ⟨rest, rfl, streamed⟩ ?_
        rw [List.append_nil]
        exact toClient
  | @opened conn phase known agreed ended toServer toClient =>
      obtain ⟨stream, split, streamed⟩ := toServer
      rw [front, List.nil_append] at split
      subst split
      obtain ⟨named, server, initSeqno⟩ := sound.started (by rw [phase]; decide)
      obtain ⟨passed, sport, same⟩ := (streamed flying (by simp)).passes agreed.numbers
        sound.clientUnix sound.serverUnix server (known.port.trans sound.clientPort.symm)
        known.initSeqno initSeqno
      have received := ServerHost.receive_known known passed rand
      have thSport : flying.packet.buffer.thSport = htons port := by
        rw [flying.packet.buffer_holds.sport, sport, sound.clientPort]
      rw [if_neg (by simp [endsHandshake, thSport, Ne.symm ended])] at received
      refine ⟨_, _, received, sound.serverUnix, sound.clientUnix, sound.serverPort,
        sound.clientPort, fun _ => ⟨named, server, initSeqno⟩, ?_, sound.toServer.pass port same,
        sound.toClient⟩
      refine .opened phase ⟨known.only, known.port, known.initSeqno, known.recvWindow⟩ agreed ended
        ⟨rest, rfl, fun other member => streamed other (by simp [member])⟩ ?_
      rw [List.append_nil]
      exact toClient

/-- Packets of port zero are never on their way. -/
theorem Sound.named_of_waiting (sound : Sound port dialogue) (waiting : dialogue.toServer ≠ [])
    : port ≠ 0 := by
  refine (sound.started fun closed => ?_).named
  cases sound.stage with
  | closed _ _ toServer => exact waiting toServer
  | asked phase | refused phase => exact phase.ne_closed closed
  | answered phase | abandoned phase | joined phase | opened phase =>
      rw [closed] at phase
      cases phase

theorem Sound.step {after : Dialogue} (sound : Sound port dialogue)
    (step : dialogue.Step port after)
    : Sound port after := by
  cases step with
  | aside unchanged => exact sound.aside unchanged
  | start rand fits closed named opens => exact sound.start fits closed named opens
  | finish waiting front finished =>
      obtain ⟨client, sent, finished', -, kept⟩ := sound.finish waiting front
      obtain ⟨rfl, rfl⟩ := Prod.mk.inj (Option.some.inj (finished.symm.trans finished'))
      exact kept
  | timeout waiting silent => exact sound.timeout waiting silent
  | clientSends plain connected => exact sound.clientSends plain connected
  | serverSends plain known => exact sound.serverSends plain known
  | serverReceives fits front received =>
      obtain ⟨server, sent, received', kept⟩ := sound.serverReceives fits front
      obtain ⟨rfl, rfl⟩ := Prod.mk.inj (Option.some.inj (received.symm.trans received'))
      exact kept
  | clientReceives connected front received =>
      obtain ⟨client, received', kept⟩ := sound.clientReceives connected front
      obtain rfl := Option.some.inj (received.symm.trans received')
      exact kept
  | toServer disturbed => exact sound.toServerDisturbed disturbed
  | toClient disturbed => exact sound.toClientDisturbed disturbed

end Steps

end Networks.Ctcp
