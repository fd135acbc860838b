import Networks.Ctcp.Dialogue
import Networks.Library.StepRuns

/-! What a server and its clients agree on. Seen from the port of one client, a step of the machine
is a step of that client's dialogue with the server, so that each handshake is followed on its own,
whatever the others do in between.
-/

namespace Networks.Ctcp

open StepRuns

-----------------------------------------------------------------------------------------
-- A machine is the dialogues of its server
-----------------------------------------------------------------------------------------

/-- What `rand` returns, and the segments that connections of less than two gigabytes send. -/
def Machine.Event.Plain : Machine.Event → Prop
  | .start _ rand | .serverReceives rand => rand.toNat < 2 ^ 31
  | .clientSends _ segment | .serverSends _ segment => segment.Plain
  | _ => True

/-- Where `conn_send` does something else than to send a packet once. -/
theorem unreliable_split {queue : List Flying} {index : Nat} {flying : Flying}
    (found : unreliable queue index = some flying)
    : flying.sent.isSome
      ∧ ∃ before behind,
          queue = before ++ flying :: behind ∧ queue.eraseIdx index = before ++ behind := by
  obtain ⟨located, made⟩ := Option.filter_eq_some_iff.mp found
  obtain ⟨inside, rfl⟩ := List.getElem?_eq_some_iff.mp located
  have split : queue = queue.take index ++ queue[index] :: queue.drop (index + 1) := by
    rw [← List.drop_eq_getElem_cons inside, List.take_append_drop]
  have erased : queue.eraseIdx index = queue.take index ++ queue.drop (index + 1) :=
    List.eraseIdx_eq_take_drop_succ ..
  exact ⟨made, _, _, split, erased⟩

/-- The packets that come from one port are seen by the client of this port only. -/
theorem filter_sport {flights : List Flying} {port : UInt16}
    (sport : ∀ flying ∈ flights, flying.packet.sport = htons port)
    : flights.filter (fun flying => flying.packet.sport = htons port) = flights :=
  List.filter_eq_self.mpr fun flying member => by simp [sport flying member]

theorem filter_sport_ne {flights : List Flying} {port other : UInt16}
    (sport : ∀ flying ∈ flights, flying.packet.sport = htons other) (apart : port ≠ other)
    : flights.filter (fun flying => flying.packet.sport = htons port) = [] :=
  List.filter_eq_nil_iff.mpr fun flying member => by
    simp [sport flying member, htons_inj, Ne.symm apart]

/-- A client that a step does not concern notices no more of it than that. -/
theorem Dialogue.Step.of_same {port : UInt16} {dialogue after : Dialogue}
    (server : dialogue.server.Unchanged after.server) (client : after.client = dialogue.client)
    (toServer : after.toServer = dialogue.toServer)
    (toClient : after.toClient = dialogue.toClient)
    : dialogue.Step port after := by
  have same : after = { dialogue with server := after.server } := by
    rw [← client, ← toServer, ← toClient]
  rw [same]
  exact .aside server

section Projection

variable {machine next : Machine} {port : UInt16}

theorem Machine.start_dialogue {other : UInt16} {rand : UInt32} (fits : rand.toNat < 2 ^ 31)
    (sport : (machine.client other).config.port = other)
    (taken : machine.step (.start other rand) = some next)
    : (machine.dialogue port).Step port (next.dialogue port) := by
  simp only [Machine.step] at taken
  split at taken
  · next ready =>
      obtain ⟨closed, named⟩ := ready
      obtain ⟨syn, opening, opens⟩ := (machine.client other).open_opening
        machine.server.config.ipAddr machine.server.config.port rand
      rw [sport] at opening
      rw [opens] at taken
      obtain rfl := Option.some.inj taken
      by_cases same : port = other
      · subst same
        have projected := @Dialogue.Step.start port _ rand fits
          (show (machine.dialogue port).client.phase = .closed from closed) named _ opens
        simpa [Machine.dialogue, opening.sport] using projected
      · refine .of_same (.refl _) ?_ ?_ rfl
        · simp [Machine.dialogue, same]
        · simp [Machine.dialogue, opening.sport, htons_inj, Ne.symm same]
  · cases taken

theorem Machine.finish_dialogue {other : UInt16}
    (sport : (machine.client other).config.port = other)
    (taken : machine.step (.finish other) = some next)
    : (machine.dialogue port).Step port (next.dialogue port) := by
  simp only [Machine.step] at taken
  split at taken
  · next flying rest waiting front =>
      obtain ⟨⟨client, sent⟩, finished, ends⟩ := Option.map_eq_some_iff.mp taken
      obtain rfl := ends
      have own := ClientHost.finish_sport finished
      rw [sport] at own
      by_cases same : port = other
      · subst same
        have projected := @Dialogue.Step.finish port (machine.dialogue port) _ _ _ _
          waiting front finished
        simpa [Machine.dialogue, filter_sport own] using projected
      · refine .of_same (.refl _) ?_ ?_ ?_
        · simp [Machine.dialogue, same]
        · simp [Machine.dialogue, filter_sport_ne own same]
        · simp [Machine.dialogue, same]
  · cases taken

theorem Machine.timeout_dialogue {other : UInt16}
    (taken : machine.step (.timeout other) = some next)
    : (machine.dialogue port).Step port (next.dialogue port) := by
  simp only [Machine.step] at taken
  split at taken
  · next gaveUp =>
      obtain ⟨waiting, silent⟩ := gaveUp
      obtain rfl := Option.some.inj taken
      by_cases same : port = other
      · subst same
        have projected := @Dialogue.Step.timeout port (machine.dialogue port) waiting silent
        simpa [Machine.dialogue] using projected
      · refine .of_same (.refl _) ?_ rfl rfl
        simp [Machine.dialogue, same]
  · cases taken

theorem Machine.clientSends_dialogue {other : UInt16} {segment : Segment}
    (plain : segment.Plain) (sport : (machine.client other).config.port = other)
    (taken : machine.step (.clientSends other segment) = some next)
    : (machine.dialogue port).Step port (next.dialogue port) := by
  simp only [Machine.step] at taken
  split at taken
  · next connected =>
      obtain rfl := Option.some.inj taken
      have own : ∀ flying ∈ connSendOnce (machine.client other).config
          (machine.client other).sconn.toConn segment, flying.packet.sport = htons other := by
        intro flying member
        rw [(connSendOnce_sentOn plain flying member).ports.1, sport]
      by_cases same : port = other
      · subst same
        have projected := @Dialogue.Step.clientSends port
          (machine.dialogue port) _ plain connected
        simpa [Machine.dialogue, filter_sport own] using projected
      · refine .of_same (.refl _) rfl ?_ rfl
        simp [Machine.dialogue, filter_sport_ne own same]
  · cases taken

theorem Machine.serverSends_dialogue {other : UInt16} {segment : Segment}
    (plain : segment.Plain)
    (taken : machine.step (.serverSends other segment) = some next)
    : (machine.dialogue port).Step port (next.dialogue port) := by
  obtain ⟨conn, found, rfl⟩ := Option.map_eq_some_iff.mp taken
  by_cases same : port = other
  · subst same
    have known : conn ∈ (machine.dialogue port).server.connections := by
      have named := List.find?_some found
      exact List.mem_filter.mpr ⟨List.mem_of_find?_eq_some found, named⟩
    have projected := @Dialogue.Step.serverSends port _ _ _ plain known
    simpa [Machine.dialogue] using projected
  · refine .of_same (.refl _) rfl rfl ?_
    simp [Machine.dialogue, same]

theorem Machine.clientReceives_dialogue {other : UInt16}
    (taken : machine.step (.clientReceives other) = some next)
    : (machine.dialogue port).Step port (next.dialogue port) := by
  simp only [Machine.step] at taken
  split at taken
  · next flying rest connected front =>
      obtain ⟨client, received, rfl⟩ := Option.map_eq_some_iff.mp taken
      by_cases same : port = other
      · subst same
        have projected := @Dialogue.Step.clientReceives port
          (machine.dialogue port) _ _ _ connected front received
        simpa [Machine.dialogue] using projected
      · refine .of_same (.refl _) ?_ rfl ?_
        · simp [Machine.dialogue, same]
        · simp [Machine.dialogue, same]
  · cases taken

theorem Machine.serverReceives_dialogue {rand : UInt32} (fits : rand.toNat < 2 ^ 31)
    (named : (machine.dialogue port).toServer ≠ [] → port ≠ 0)
    (taken : machine.step (.serverReceives rand) = some next)
    : (machine.dialogue port).Step port (next.dialogue port) := by
  simp only [Machine.step] at taken
  split at taken
  · cases taken
  · next flying rest front =>
      obtain ⟨⟨server, sent⟩, received, rfl⟩ := Option.map_eq_some_iff.mp taken
      by_cases own : flying.packet.sport = htons port
      · have answers := (ServerHost.receive_aside own received).2
        have waiting : (machine.dialogue port).toServer
            = flying :: rest.filter fun flying => flying.packet.sport = htons port := by
          simp [Machine.dialogue, front, own]
        have faced := ServerHost.receive_facing (named (by simp [waiting])) rand own machine.server
        rw [received] at faced
        have projected := @Dialogue.Step.serverReceives port
          (machine.dialogue port) _ fits _ _ _ _ waiting faced
        have kept : sent.filter (fun answer => ntohs answer.packet.dport = port) = sent :=
          List.filter_eq_self.mpr fun answer member => by simp [answers answer member]
        simpa [Machine.dialogue, kept] using projected
      · have source : flying.packet.sport = htons (ntohs flying.packet.sport) := by
          exact (ntohs_htons _).symm
        have apart : port ≠ ntohs flying.packet.sport := by
          rintro rfl
          exact own source
        obtain ⟨unchanged, answers⟩ := ServerHost.receive_aside source received
        refine .of_same (unchanged port apart) rfl ?_ ?_
        · simp [Machine.dialogue, front, own]
        · have none : sent.filter (fun answer => ntohs answer.packet.dport = port) = [] :=
            List.filter_eq_nil_iff.mpr fun answer member => by
              simp [answers answer member, Ne.symm apart]
          simp [Machine.dialogue, none]

theorem Machine.toServer_dialogue {index : Nat} {flying : Flying} {queue : List Flying}
    (found : unreliable machine.toServer index = some flying)
    (ends : queue = machine.toServer.eraseIdx index ∨ queue = machine.toServer ++ [flying])
    : (machine.dialogue port).Step port
        ({ machine with toServer := queue : Machine }.dialogue port) := by
  obtain ⟨made, before, behind, split, erased⟩ := unreliable_split found
  rw [erased] at ends
  by_cases own : flying.packet.sport = htons port
  · have disturbed : Disturbed (machine.dialogue port).toServer
        (queue.filter fun flying => flying.packet.sport = htons port) := by
      refine ⟨before.filter fun flying => flying.packet.sport = htons port, flying,
        behind.filter fun flying => flying.packet.sport = htons port, ?_, made, ?_⟩
      · simp [Machine.dialogue, split, own]
      · rcases ends with rfl | rfl
        · exact Or.inl (List.filter_append ..)
        · right
          simp [Machine.dialogue, own]
    exact .toServer disturbed
  · refine .of_same (.refl _) rfl ?_ rfl
    rcases ends with rfl | rfl
    · simp [Machine.dialogue, split, own]
    · simp [Machine.dialogue, own]

theorem Machine.toClient_dialogue {other : UInt16} {queue : List Flying}
    (disturbed : Disturbed (machine.toClient other) queue)
    : (machine.dialogue port).Step port
        ({ machine with toClient := Function.update machine.toClient other queue }.dialogue port)
    := by
  by_cases same : port = other
  · subst same
    have projected := @Dialogue.Step.toClient port (machine.dialogue port) _ disturbed
    simpa [Machine.dialogue] using projected
  · refine .of_same (.refl _) rfl rfl ?_
    simp [Machine.dialogue, same]

/-- A machine whose hosts talk over Unix sockets, whose clients have other ports than the server
and whose handshakes are sound.
-/
def Machine.Sound (machine : Machine) : Prop := ∀ port, Ctcp.Sound port (machine.dialogue port)

/-- Every step of a machine is a step of each dialogue of its server. -/
theorem Machine.step_dialogue {event : Machine.Event} (plain : event.Plain) (sound : machine.Sound)
    (taken : machine.step event = some next) (port : UInt16)
    : (machine.dialogue port).Step port (next.dialogue port) := by
  have sport (port : UInt16) : (machine.client port).config.port = port := (sound port).clientPort
  cases event with
  | start other rand => exact start_dialogue plain (sport other) taken
  | finish other => exact finish_dialogue (sport other) taken
  | timeout other => exact timeout_dialogue taken
  | clientSends other segment => exact clientSends_dialogue plain (sport other) taken
  | serverSends other segment => exact serverSends_dialogue plain taken
  | serverReceives rand => exact serverReceives_dialogue plain (sound port).named_of_waiting taken
  | clientReceives other => exact clientReceives_dialogue taken
  | dropToServer index =>
      obtain ⟨flying, found, rfl⟩ := Option.map_eq_some_iff.mp taken
      exact toServer_dialogue found (Or.inl rfl)
  | repeatToServer index =>
      obtain ⟨flying, found, rfl⟩ := Option.map_eq_some_iff.mp taken
      exact toServer_dialogue found (Or.inr rfl)
  | dropToClient other index =>
      obtain ⟨flying, found, rfl⟩ := Option.map_eq_some_iff.mp taken
      obtain ⟨made, before, behind, split, erased⟩ := unreliable_split found
      exact toClient_dialogue ⟨before, flying, behind, split, made, Or.inl erased⟩
  | repeatToClient other index =>
      obtain ⟨flying, found, rfl⟩ := Option.map_eq_some_iff.mp taken
      obtain ⟨made, before, behind, split, erased⟩ := unreliable_split found
      exact toClient_dialogue ⟨before, flying, behind, split, made, Or.inr rfl⟩

end Projection

-----------------------------------------------------------------------------------------
-- Runs
-----------------------------------------------------------------------------------------

/-- Hosts on one machine before the first client is started. -/
structure Machine.Fresh (machine : Machine) : Prop where
  serverUnix : machine.server.config.unixSocket = true
  serverPort : machine.server.config.port ≠ 0
  connections : machine.server.connections = []
  serverTaken : machine.server.taken = []
  serverReceived : machine.server.received = []
  clientUnix : ∀ port, (machine.client port).config.unixSocket = true
  clientPort : ∀ port, (machine.client port).config.port = port
  phase : ∀ port, (machine.client port).phase = .closed
  clientTaken : ∀ port, (machine.client port).taken = []
  clientReceived : ∀ port, (machine.client port).received = []
  toServer : machine.toServer = []
  toClient : ∀ port, machine.toClient port = []

theorem Machine.Fresh.sound {machine : Machine} (fresh : machine.Fresh) : machine.Sound := by
  intro port
  refine ⟨fresh.serverUnix, fresh.clientUnix port, fresh.serverPort, fresh.clientPort port,
    fun started => absurd (fresh.phase port) started, ?_, ?_, ?_⟩
  · refine .closed (fresh.phase port) ?_ ?_ (fresh.toClient port)
    · simp [dialogue, ServerHost.facing, fresh.connections]
    · simp [dialogue, fresh.toServer]
  · simp [dialogue, ServerHost.facing, PassedOn, fresh.serverTaken, fresh.serverReceived]
  · simp [dialogue, PassedOn, fresh.clientTaken, fresh.clientReceived]

theorem Machine.Sound.step {machine next : Machine} {event : Machine.Event} (sound : machine.Sound)
    (plain : event.Plain) (taken : machine.step event = some next)
    : next.Sound :=
  fun port => (sound port).step (machine.step_dialogue plain sound taken port)

theorem Machine.Fresh.run_sound {machine final : Machine} {events : List Machine.Event}
    (fresh : machine.Fresh) (plain : ∀ event ∈ events, event.Plain)
    (reached : exec Machine.step machine events = some final)
    : final.Sound :=
  exec_invariant_of_guard (fun _ event => event.Plain) Machine.Sound
    (fun sound plain taken => sound.step plain taken) fresh.sound (allSteps_of_forall plain) reached

theorem ClientHost.receive_phase {client after : ClientHost} {flying : Flying}
    (received : client.receive flying = some after)
    : after.phase = client.phase := by
  simp only [ClientHost.receive] at received
  split at received
  · cases received
    rfl
  · cases received
    rfl
  · cases received
  · split at received <;> (cases received; rfl)
  · split at received <;> cases received
    rfl

/-- Nothing but its own timeout makes the handshake of a client fail. -/
theorem Machine.Sound.step_failed {machine next : Machine} {event : Machine.Event}
    (sound : machine.Sound) (taken : machine.step event = some next) {port : UInt16}
    (failed : (next.client port).phase = .failed)
    : (machine.client port).phase = .failed ∨ event = .timeout port := by
  cases event with
  | start other rand =>
      simp only [Machine.step] at taken
      split at taken
      · obtain rfl := Option.some.inj taken
        by_cases same : port = other
        · subst same
          simp [ClientHost.open] at failed
        · exact Or.inl (by simpa [same] using failed)
      · cases taken
  | finish other =>
      simp only [Machine.step] at taken
      split at taken
      · next flying rest waiting front =>
          obtain ⟨client, sent, finished, connected, -⟩ := (sound other).finish waiting front
          have ends : (machine.client other).finish flying = some (client, sent) := finished
          rw [ends] at taken
          obtain rfl := Option.some.inj taken
          by_cases same : port = other
          · subst same
            simp [connected] at failed
          · exact Or.inl (by simpa [same] using failed)
      · cases taken
  | timeout other =>
      simp only [Machine.step] at taken
      split at taken
      · obtain rfl := Option.some.inj taken
        by_cases same : port = other
        · exact Or.inr (by rw [same])
        · exact Or.inl (by simpa [same] using failed)
      · cases taken
  | clientReceives other =>
      simp only [Machine.step] at taken
      split at taken
      · next flying rest connected front =>
          obtain ⟨client, received, rfl⟩ := Option.map_eq_some_iff.mp taken
          by_cases same : port = other
          · subst same
            exact Or.inl ((ClientHost.receive_phase received).symm.trans (by simpa using failed))
          · exact Or.inl (by simpa [same] using failed)
      · cases taken
  | clientSends other segment =>
      simp only [Machine.step] at taken
      split at taken
      · obtain rfl := Option.some.inj taken
        exact Or.inl failed
      · cases taken
  | serverReceives rand =>
      simp only [Machine.step] at taken
      split at taken
      · cases taken
      · obtain ⟨_, -, rfl⟩ := Option.map_eq_some_iff.mp taken
        exact Or.inl failed
  | serverSends _ _ | dropToServer _ | repeatToServer _ | dropToClient _ _
  | repeatToClient _ _ =>
      obtain ⟨_, -, rfl⟩ := Option.map_eq_some_iff.mp taken
      exact Or.inl failed

/-- However clients connect, send, receive and give up, and whatever `conn_send` loses or repeats:
a client whose `tcp_handshake` has returned a connection has one at the server, with the sequence
numbers and windows of the other end, and no handshake fails but for a timeout. What either host
reads of the packets of a connection it passes on, once, in order and as it was sent.
-/
theorem run_agrees {machine final : Machine} {events : List Machine.Event} (fresh : machine.Fresh)
    (plain : ∀ event ∈ events, event.Plain)
    (reached : exec Machine.step machine events = some final) (port : UInt16)
    : (.timeout port ∉ events → (final.client port).phase ≠ .failed)
      ∧ ((final.client port).phase = .connected
        → ∃ conn,
            final.server.connections.filter (fun conn => conn.port = port) = [conn]
            ∧ Agreed (final.client port) conn)
      ∧ PassedOn (final.server.taken.filter fun flying => flying.packet.sport = htons port)
          (final.server.received.filter fun receipt => receipt.port = port)
      ∧ PassedOn (final.client port).taken (final.client port).received := by
  have sound := fresh.run_sound plain reached port
  refine ⟨?_, ?_, sound.toServer, sound.toClient⟩
  · intro patient
    have waits : ∀ event ∈ events, event.Plain ∧ event ≠ .timeout port := fun event member =>
      ⟨plain event member, fun same => patient (same ▸ member)⟩
    have unharmed := exec_invariant_of_guard
      (fun _ event => event.Plain ∧ event ≠ Machine.Event.timeout port)
      (fun machine => machine.Sound ∧ (machine.client port).phase ≠ .failed)
      (fun held guard taken => ⟨held.1.step guard.1 taken,
        fun failed => (held.1.step_failed taken failed).elim held.2 guard.2⟩)
      ⟨fresh.sound, by simp [fresh.phase]⟩ (allSteps_of_forall waits) reached
    exact unharmed.2
  · intro connected
    cases sound.stage with
    | asked phase | refused phase => exact absurd connected phase.ne_connected
    | closed phase | answered phase | abandoned phase =>
        cases connected.symm.trans phase
    | joined _ known agreed | opened _ known agreed => exact ⟨_, known.only, agreed⟩

/-- In every state that such hosts reach, no packet at a socket ends a program or is left there:
the server can always read the next one, a client that waits for its SYN to be answered is
connected by the first one that arrives, and a connected client can read any.
-/
theorem run_receives {machine final : Machine} {events : List Machine.Event} (fresh : machine.Fresh)
    (plain : ∀ event ∈ events, event.Plain)
    (reached : exec Machine.step machine events = some final)
    : (final.toServer ≠ []
        → ∀ rand : UInt32, rand.toNat < 2 ^ 31
        → ∃ next, final.step (.serverReceives rand) = some next)
      ∧ ∀ port, final.toClient port ≠ []
        → ((final.client port).phase = .waiting
            → ∃ next,
                final.step (.finish port) = some next
                ∧ (next.client port).phase = .connected)
          ∧ ((final.client port).phase = .connected
            → ∃ next, final.step (.clientReceives port) = some next) := by
  have sound := fresh.run_sound plain reached
  constructor
  · intro waiting rand fits
    obtain ⟨flying, rest, front⟩ := List.exists_cons_of_ne_nil waiting
    obtain ⟨port, own⟩ : ∃ port, flying.packet.sport = htons port :=
      ⟨_, (ntohs_htons flying.packet.sport).symm⟩
    have facing : (final.dialogue port).toServer
        = flying :: rest.filter fun flying => flying.packet.sport = htons port := by
      simp [Machine.dialogue, front, own]
    obtain ⟨server, sent, received, -⟩ := (sound port).serverReceives fits facing
    have named := (sound port).named_of_waiting (by simp [facing])
    have faced := ServerHost.receive_facing named rand own final.server
    obtain ⟨⟨after, answers⟩, taken, -⟩ := Option.map_eq_some_iff.mp (faced.symm.trans received)
    simp [Machine.step, front, taken]
  · intro port waiting
    obtain ⟨flying, rest, front⟩ := List.exists_cons_of_ne_nil waiting
    constructor
    · intro phase
      obtain ⟨client, sent, finished, connected, -⟩ := (sound port).finish phase front
      have taken : (final.client port).finish flying = some (client, sent) := finished
      simp [Machine.step, phase, front, taken, connected]
    · intro phase
      obtain ⟨client, received, -⟩ := (sound port).clientReceives phase front
      have taken : (final.client port).receive flying = some client := received
      simp [Machine.step, phase, front, taken]

/-- A server on port 9999 and its clients, before any of them is started. -/
def loopback : Machine where
  server := {
    config := { ipAddr := 0, port := 9999, runProgram := false, unixSocket := true }
    cfg := { recvWindow := 1440, sendWindow := 0, rtTimeout := 200 }
    connections := []
    numConnected := 0
    newConnection := 0
    taken := []
    received := [] }
  client port := {
    config := { ipAddr := 0, port := port, runProgram := false, unixSocket := true }
    cfg := { recvWindow := 2880, sendWindow := 0, rtTimeout := 200 }
    sconn := connSetup 0 0 0
    phase := .closed
    taken := []
    received := [] }
  toServer := []
  toClient _ := []

theorem loopback_fresh : loopback.Fresh := by
  constructor <;> simp [loopback]

/-- Two clients connect at a time, and the first one sends a byte, which `conn_send` repeats. A
third one gives up before the server reads its SYN.
-/
def twoClients : List Machine.Event :=
  [.start 1234 5, .start 80 6, .start 90 3, .serverReceives 7, .serverReceives 8, .finish 80,
    .timeout 90, .finish 1234, .clientSends 1234 oneByteSegment, .repeatToServer 3,
    .serverReceives 9, .serverReceives 10, .serverReceives 11, .serverReceives 12,
    .serverReceives 13]

theorem twoClients_plain : ∀ event ∈ twoClients, event.Plain := by
  have plain : oneByteSegment.Plain := by constructor <;> decide
  simp [twoClients, Machine.Event.Plain, plain]

/-- With all handshakes at once the server is connected to the first client as the client is to
it, and nothing fails for the second one.
-/
theorem run_agrees_twoClients
    : ∃ final conn,
        exec Machine.step loopback twoClients = some final
        ∧ final.server.connections.filter (fun conn => conn.port = 1234) = [conn]
        ∧ Agreed (final.client 1234) conn
        ∧ (final.client 80).phase ≠ .failed := by
  have phase
      : ((exec Machine.step loopback twoClients).map fun final => (final.client 1234).phase)
        = some .connected := by
    decide +kernel
  obtain ⟨final, reached, connected⟩ := Option.map_eq_some_iff.mp phase
  obtain ⟨-, agreed, -⟩ := run_agrees loopback_fresh twoClients_plain reached 1234
  obtain ⟨patient, -⟩ := run_agrees loopback_fresh twoClients_plain reached 80
  obtain ⟨conn, only, agrees⟩ := agreed connected
  exact ⟨final, conn, reached, only, agrees, patient (by simp [twoClients])⟩

/-- Once its SYN is read, the first client gets connected. -/
theorem run_receives_twoClients
    : ∃ final next,
        exec Machine.step loopback (twoClients.take 4) = some final
        ∧ final.step (.finish 1234) = some next
        ∧ (next.client 1234).phase = .connected := by
  have phase
      : ((exec Machine.step loopback (twoClients.take 4)).map
          fun final => ((final.client 1234).phase, (final.toClient 1234).isEmpty))
        = some (.waiting, false) := by
    decide +kernel
  obtain ⟨final, reached, both⟩ := Option.map_eq_some_iff.mp phase
  obtain ⟨waiting, some⟩ := Prod.mk.inj both
  have plain : ∀ event ∈ twoClients.take 4, event.Plain := fun event member =>
    twoClients_plain event (List.mem_of_mem_take member)
  have answered : final.toClient 1234 ≠ [] := by simpa using some
  obtain ⟨-, receives⟩ := run_receives loopback_fresh plain reached
  obtain ⟨next, taken, connected⟩ := (receives 1234 answered).1 waiting
  exact ⟨final, next, reached, taken, connected⟩

end Networks.Ctcp
