import Networks.Router.MainLoop

/-! How the router starts: `main` loads a routing table, connects to the server, which may send
another table, and loads it again. What the server has printed into its messages is what the
router runs with.
-/

namespace Networks.Router

open ByteFields TextFields
open Ctcp (htonl fieldBytes32)

-----------------------------------------------------------------------------------------
-- Starting
-----------------------------------------------------------------------------------------

/-- `sr_load_rt_wrap`, which ends the program when the table cannot be loaded. -/
def srLoadRtWrap (arrays : RtFields) (rtable : List UInt8) (program : Program)
    : Option Program :=
  (srLoadRt arrays (program.files rtable) program.sr.routingTable).bind fun (result, table) =>
    if result = 0 then
      some { program with sr := { program.sr with routingTable := table } }
    else
      none

/-- A message that `sr_connect_to_server` waits for, with what its handler depends on. -/
structure Expected where
  surroundings : Surroundings
  message : Message

/-- `sr_read_from_server_expect` in `sr_connect_to_server`, which gives up unless it returns
one.
-/
def Expected.read (world : World) (expectedCmd : Nat) (expected : Expected) (program : Program)
    : Option Program :=
  (srReadFromServerExpect world expected.surroundings expectedCmd expected.message program).bind
    fun (result, next) => if result = 1 then some next else none

/-- The messages from the server until `main` enters its loop. The last one only comes when a
template was asked for.
-/
structure Greeting where
  authRequest : Expected
  authStatus : Expected
  rtable : Expected

/-- `sr_connect_to_server`, on a connection that can be written to. -/
def srConnectToServer (world : World) (template : List UInt8) (greeting : Greeting)
    (program : Program)
    : Option Program :=
  (greeting.authRequest.read world 128 program).bind fun program =>
    (greeting.authStatus.read world 512 program).bind fun program =>
      if template = [] then some program else greeting.rtable.read world 32 program

/-- The options of `main` that decide about the routing table: `-T` and `-r`. -/
structure MainOptions where
  template : Option (List UInt8)
  rtable : List UInt8

/-- `main` up to its loop. Both calls of `sr_load_rt` have their own arrays. -/
def start (world : World) (options : MainOptions) (first second : RtFields)
    (greeting : Greeting) (files : List UInt8 → Option (List UInt8))
    : Option Program :=
  let program : Program := ⟨srInit [] [], files⟩
  let loaded :=
    if options.template = none then
      srLoadRtWrap first options.rtable program
    else
      some program
  let vrhost := nameBytes "rtable.vrhost"
  (loaded.bind (srConnectToServer world (options.template.getD []) greeting)).bind fun program =>
    if options.template ≠ none ∧ options.rtable = vrhost then
      srLoadRtWrap second vrhost program
    else
      srLoadRtWrap second options.rtable program

-----------------------------------------------------------------------------------------
-- Messages of the server
-----------------------------------------------------------------------------------------

/-- The text of a routing table. -/
def printedTable (table : List SrRt) : List UInt8 := table.flatMap srPrintRoutingEntry

/-- The bytes of a `VNS_RTABLE` message with a routing table for a host. -/
def rtableBytes (host : List UInt8) (table : List SrRt) : List UInt8 :=
  fieldBytes32 (htonl (.ofNat (40 + (printedTable table).length))) ++ fieldBytes32 (htonl 32)
    ++ (host ++ List.replicate (32 - host.length) 0) ++ printedTable table

/-- A message is what the server sends to a host when its bytes are those. -/
structure SendsTable (message : Message) (host : List UInt8) (table : List SrRt) : Prop where
  bytes : message.bytes = rtableBytes host table
  short : host.length < 32
  solid : 0 ∉ host
  plain : ∀ entry ∈ table, PlainName entry.interface
  nonempty : table ≠ []

/-- The message is the expected one, and its handler succeeds. -/
def Expected.Accepted (expectedCmd : Nat) (expected : Expected) : Prop :=
  ∀ consistent names,
    (expected.message.reading
      { expected.surroundings with tableConsistent := consistent, names := names }
      expectedCmd).result = some 1

section Messages

variable {world : World} {program : Program} {expected : Expected} {expectedCmd : Nat}

/-- An expected message that is accepted has the expected command. -/
theorem Expected.Accepted.command (accepted : expected.Accepted expectedCmd)
    (expects : expectedCmd ≠ 0)
    : ¬ expected.message.Unexpected expectedCmd ∧ expected.message.command = expectedCmd := by
  have result := accepted true []
  simp only [Message.reading] at result
  split at result
  · cases result
  split at result
  · simp at result
  · next unexpected =>
      refine ⟨unexpected, ?_⟩
      by_contra other
      have close : Command.ofWord expected.message.command = .vnsClose := by
        by_contra open'
        exact unexpected ⟨expects, other, open'⟩
      split at result <;> simp [close, Command.result] at result

/-- An expected message with the fields of its command, whose strings end in it, is accepted when
its handler succeeds.
-/
theorem Expected.accepted_of_fields (words : 8 ≤ expected.message.len)
    (command : expected.message.command = expectedCmd)
    (fields : (Command.ofWord expected.message.command).headerSize ≤ expected.message.len)
    (ended
      : ∀ surroundings,
          expected.message.StringsEnd surroundings (Command.ofWord expected.message.command))
    (succeeds
      : ∀ consistent names,
          (Command.ofWord expected.message.command).result
              { expected.surroundings with tableConsistent := consistent, names := names }
              expected.message
            = 1)
    : expected.Accepted expectedCmd := by
  intro consistent names
  have expects : ¬ expected.message.Unexpected expectedCmd :=
    fun unexpected => unexpected.2.1 command
  rw [(reading_of_expected _ words expects).2
    (readWithin_of_fields words expects fields (ended _)).within, succeeds]

/-- An accepted message does what its command does. -/
theorem Expected.Accepted.read (accepted : expected.Accepted expectedCmd)
    (expects : expectedCmd ≠ 0) (world : World) (program : Program)
    : expected.read world expectedCmd program
      = expected.message.effect world expected.surroundings.tableOpens program := by
  have same := fun next : Program => accepted (srVerifyRoutingTable next.sr = 0)
    (program.sr.ifList.map fun interface => nameBytes interface.name)
  simp only [Expected.read, srReadFromServerExpect, if_neg (accepted.command expects).1, same]
  cases expected.message.effect world expected.surroundings.tableOpens program <;> rfl

/-- The messages of the authentication change nothing. -/
theorem read_authentication (accepted : expected.Accepted expectedCmd)
    (authentication : expectedCmd = 128 ∨ expectedCmd = 512)
    : expected.read world expectedCmd program = some program := by
  have expects : expectedCmd ≠ 0 := by omega
  rw [accepted.read expects, Message.effect, (accepted.command expects).2]
  rcases authentication with rfl | rfl <;> rfl

end Messages

section Tables

variable {message : Message} {host : List UInt8} {table : List SrRt}

/-- The header in front of the host, the host, and the table behind it. -/
theorem SendsTable.parts (sends : SendsTable message host table)
    : ∃ length : UInt32,
        message.bytes
        = fieldBytes32 (htonl length)
          ++ (fieldBytes32 (htonl 32)
            ++ (host ++ 0 :: List.replicate (31 - host.length) 0 ++ printedTable table)) := by
  have short := sends.short
  have zeros : List.replicate (32 - host.length) (0 : UInt8)
      = 0 :: List.replicate (31 - host.length) 0 := by
    rw [← List.replicate_succ]
    congr 1
    omega
  refine ⟨.ofNat (40 + (printedTable table).length), ?_⟩
  rw [sends.bytes, rtableBytes, zeros]
  simp only [List.append_assoc]

theorem SendsTable.len (sends : SendsTable message host table)
    : message.len = 40 + (printedTable table).length := by
  have short := sends.short
  obtain ⟨length, bytes⟩ := sends.parts
  simp only [Message.len, bytes, List.length_append, List.length_cons, List.length_replicate]
  have word : ∀ field, (fieldBytes32 field).length = 4 := fun _ => rfl
  rw [word, word]
  omega

theorem SendsTable.command (sends : SendsTable message host table) : message.command = 32 := by
  obtain ⟨length, bytes⟩ := sends.parts
  rw [Message.command, bytes]
  exact ntohlAt_field (fieldBytes32 (htonl length)) _ 32

theorem SendsTable.fn (sends : SendsTable message host table)
    : message.fn = some (nameBytes "rtable." ++ host) := by
  have short := sends.short
  obtain ⟨length, bytes⟩ := sends.parts
  have id : message.bytes.drop 8
      = host ++ 0 :: List.replicate (31 - host.length) 0 ++ printedTable table := by
    rw [bytes]
    rfl
  have name : cString (host ++ 0 :: List.replicate (31 - host.length) 0 ++ printedTable table)
      = host := by
    have solid : ∀ byte ∈ host, decide (byte ≠ 0) = true := by
      intro byte member
      have apart : byte ≠ 0 := fun zero => sends.solid (zero ▸ member)
      simpa using apart
    rw [cString, List.append_assoc, List.takeWhile_append_of_pos solid, List.cons_append,
      List.takeWhile_cons_of_neg (by simp), List.append_nil]
  rw [Message.fn, id, name]
  exact if_pos ⟨by simp, by omega⟩

/-- The host ends in the message. -/
theorem SendsTable.hostEnds (sends : SendsTable message host table)
    : 0 ∈ message.bytes.drop 8 := by
  obtain ⟨length, bytes⟩ := sends.parts
  have id : message.bytes.drop 8
      = host ++ 0 :: List.replicate (31 - host.length) 0 ++ printedTable table := by
    rw [bytes]
    rfl
  rw [id]
  simp

/-- The handler writes the printed table into the file of the host. -/
theorem SendsTable.handleRtable (sends : SendsTable message host table) (program : Program)
    : message.handleRtable true program
      = some
        { program with
          files :=
            Function.update program.files (nameBytes "rtable." ++ host)
              (some (printedTable table)) } := by
  have short := sends.short
  obtain ⟨length, bytes⟩ := sends.parts
  have text : message.bytes.drop 40 = printedTable table := by
    have front : message.bytes
        = (fieldBytes32 (htonl length) ++ (fieldBytes32 (htonl 32)
          ++ (host ++ 0 :: List.replicate (31 - host.length) 0))) ++ printedTable table := by
      rw [bytes]
      simp only [List.append_assoc]
    have size : (fieldBytes32 (htonl length) ++ (fieldBytes32 (htonl 32)
          ++ (host ++ 0 :: List.replicate (31 - host.length) 0))).length = 40 := by
      have word : ∀ field, (fieldBytes32 field).length = 4 := fun _ => rfl
      simp only [List.length_append, List.length_cons, List.length_replicate, word]
      omega
    rw [front, ← size, List.drop_left]
  rw [Message.handleRtable, sends.fn, Option.map_some, if_pos rfl, text]

/-- A routing table is an accepted message when its file opens. -/
theorem SendsTable.accepted {expected : Expected}
    (sends : SendsTable expected.message host table)
    (opens : expected.surroundings.tableOpens = true)
    : expected.Accepted 32 := by
  have words : 8 ≤ expected.message.len := by
    rw [sends.len]
    omega
  have known : Command.ofWord expected.message.command = .vnsRtable := by
    rw [sends.command]
    rfl
  have fields : (Command.ofWord expected.message.command).headerSize ≤ expected.message.len := by
    rw [known, sends.len]
    exact Nat.le_add_right _ _
  refine Expected.accepted_of_fields words sends.command fields ?_ ?_
  · intro surroundings
    rw [known]
    exact ⟨nofun, fun _ => sends.hostEnds, nofun⟩
  · intro consistent names
    rw [known, Command.result, if_pos opens]

end Tables

-----------------------------------------------------------------------------------------
-- From the server to the routing table
-----------------------------------------------------------------------------------------

/-- Where a routing table comes from: a file that is there, or, for a template, a message of the
server, when the option names the file that its handler writes.
-/
inductive TableSource (options : MainOptions) (greeting : Greeting)
    (files : List UInt8 → Option (List UInt8)) (table : List SrRt)
    : Prop
  | file (none : options.template = none)
      (text : files options.rtable = some (printedTable table))
  | server {host : List UInt8} (template : ∃ name ≠ [], options.template = some name)
      (sends : SendsTable greeting.rtable.message host table)
      (opens : greeting.rtable.surroundings.tableOpens = true)
      (rtable : options.rtable = nameBytes "rtable." ++ host)

section Starting

variable {world : World} {options : MainOptions} {greeting : Greeting} {table : List SrRt}
variable {files : List UInt8 → Option (List UInt8)}

/-- A file with a printed table is loaded as it is. -/
theorem srLoadRtWrap_printed (plain : ∀ entry ∈ table, PlainName entry.interface)
    (nonempty : table ≠ []) (arrays : RtFields) {rtable : List UInt8} {program : Program}
    (text : program.files rtable = some (printedTable table))
    : srLoadRtWrap arrays rtable program
      = some { program with sr := { program.sr with routingTable := table } } := by
  rw [srLoadRtWrap, text, srLoadRt, printedTable, readLines_printed plain,
    srLoadRtLoop_table plain nonempty, Option.bind_some]
  exact if_pos rfl

/-- `main` enters its loop with the table of its source. -/
theorem start_source (plain : ∀ entry ∈ table, PlainName entry.interface)
    (nonempty : table ≠ []) (source : TableSource options greeting files table)
    (authRequest : greeting.authRequest.Accepted 128)
    (authStatus : greeting.authStatus.Accepted 512) (first second : RtFields)
    : ∃ program,
        start world options first second greeting files = some program
        ∧ program.sr = srInit [] table := by
  have connects : ∀ {template : List UInt8} {program : Program},
      srConnectToServer world template greeting program
      = if template = [] then some program else greeting.rtable.read world 32 program := by
    intro template program
    rw [srConnectToServer, read_authentication authRequest (Or.inl rfl), Option.bind_some,
      read_authentication authStatus (Or.inr rfl), Option.bind_some]
  cases source with
  | file none text =>
      have loaded : ∀ arrays {table' : List SrRt},
          srLoadRtWrap arrays options.rtable ⟨srInit [] table', files⟩
          = some ⟨srInit [] table, files⟩ :=
        fun arrays _ => srLoadRtWrap_printed plain nonempty arrays text
      refine ⟨⟨srInit [] table, files⟩, ?_, rfl⟩
      rw [start, if_pos none, loaded, Option.bind_some, connects, none, Option.getD_none,
        if_pos rfl, Option.bind_some, if_neg (by simp), loaded]
  | @server host template sends opens rtable =>
      obtain ⟨name, given, asked⟩ := template
      let written : Program := ⟨srInit [] [],
        Function.update files (nameBytes "rtable." ++ host) (some (printedTable table))⟩
      have effect : greeting.rtable.read world 32 ⟨srInit [] [], files⟩ = some written := by
        rw [(sends.accepted opens).read (by decide), Message.effect, sends.command]
        have handled := sends.handleRtable ⟨srInit [] [], files⟩
        rw [opens]
        exact handled
      have text : written.files options.rtable = some (printedTable table) := by
        rw [rtable]
        exact Function.update_self _ _ _
      have loaded : srLoadRtWrap second options.rtable written
          = some ⟨srInit [] table, written.files⟩ :=
        srLoadRtWrap_printed plain nonempty second text
      refine ⟨⟨srInit [] table, written.files⟩, ?_, rfl⟩
      have wrapped : ∀ vrhost, (if options.template ≠ none ∧ options.rtable = vrhost then
            srLoadRtWrap second vrhost written
          else
            srLoadRtWrap second options.rtable written)
          = some ⟨srInit [] table, written.files⟩ := by
        intro vrhost
        split
        · next both =>
            rw [← both.2]
            exact loaded
        · exact loaded
      rw [start, if_neg (by simp [asked]), Option.bind_some, connects, asked, Option.getD_some,
        if_neg given, effect, Option.bind_some]
      rw [asked] at wrapped
      exact wrapped _

theorem command_hwinfoMessage {entries : List HwEntry} (fits : 8 + 36 * entries.length ≤ 10000)
    : Command.ofWord (hwinfoMessage entries fits).command = .vnsHwinfo := by
  have bytes : (hwinfoMessage entries fits).bytes
      = fieldBytes32 (htonl (.ofNat (8 + 36 * entries.length)))
        ++ (fieldBytes32 (htonl 16) ++ entries.flatMap HwEntry.bytes) := by
    simp only [hwinfoMessage, hwinfoBytes, List.append_assoc]
  have command : (hwinfoMessage entries fits).command = 16 := by
    rw [Message.command, bytes]
    exact ntohlAt_field (fieldBytes32 (htonl (.ofNat (8 + 36 * entries.length)))) _ 16
  rw [command]
  rfl

/-- Hardware information is accepted by the main loop when the routing table agrees with it. -/
theorem reading_hwinfoMessage {entries : List HwEntry} (fits : 8 + 36 * entries.length ≤ 10000)
    (surroundings : Surroundings)
    : ((hwinfoMessage entries fits).reading surroundings 0).result
      = some (if surroundings.tableConsistent then 1 else -1) := by
  have hwinfo := command_hwinfoMessage fits
  have words : 8 ≤ (hwinfoMessage entries fits).len :=
    (Nat.le_add_right _ _).trans_eq (length_hwinfoBytes _).symm
  have fields : (Command.ofWord (hwinfoMessage entries fits).command).headerSize
      ≤ (hwinfoMessage entries fits).len := by
    rw [hwinfo]
    exact words
  have ended : (hwinfoMessage entries fits).StringsEnd surroundings
      (Command.ofWord (hwinfoMessage entries fits).command) := by
    rw [hwinfo]
    exact ⟨nofun, by simp, nofun⟩
  have expects := not_unexpected (hwinfoMessage entries fits)
  have within := @readWithin_of_fields surroundings 0 _ words expects fields ended
  rw [(reading_of_expected surroundings words expects).2 within.within, hwinfo, Command.result]

/-- The table is verified when the interfaces of all routes are there. -/
theorem srVerifyRoutingTable_named {sr : SrInstance} (nonempty : sr.routingTable ≠ [])
    (named : ∀ route ∈ sr.routingTable, route.interface ∈ names sr.ifList)
    : srVerifyRoutingTable sr = 0 := by
  have some : sr.ifList ≠ [] := by
    intro none
    obtain ⟨route, routes, table⟩ := List.exists_cons_of_ne_nil nonempty
    have first := named route (by rw [table]; exact List.mem_cons_self)
    rw [none] at first
    cases first
  rw [srVerifyRoutingTable, if_neg (by simp [some, nonempty]), List.countP_eq_zero]
  intro route member
  have found := isSome_srGetInterface.mpr (named route member)
  simpa using Option.isSome_iff_ne_none.mp found

/-- The first hardware information, when it describes the interfaces of all routes. -/
theorem mainLoop_described {interfaces : List SrIf} {entries : List (List HwEntry)}
    (nonempty : table ≠ []) (describe : List.Forall₂ Describe entries interfaces)
    (fits : 8 + 36 * entries.flatten.length ≤ 10000)
    (named : ∀ route ∈ table, route.interface ∈ names interfaces) (surroundings : Surroundings)
    {program : Program} (fresh : program.sr = srInit [] table)
    : ∃ next,
        mainLoop world program [.read surroundings (hwinfoMessage entries.flatten fits)] = some next
        ∧ next.sr.ifList = interfaces
        ∧ next.sr.routingTable = table
        ∧ next.sr.Sound interfaces := by
  obtain ⟨sr, programFiles⟩ := program
  obtain rfl : sr = srInit [] table := fresh
  let next : Program := ⟨{ srInit [] table with ifList := interfaces, log := [] }, programFiles⟩
  have hwinfo := command_hwinfoMessage fits
  have verified : srVerifyRoutingTable next.sr = 0 := srVerifyRoutingTable_named nonempty named
  have effect : (hwinfoMessage entries.flatten fits).effect world surroundings.tableOpens
      ⟨srInit [] table, programFiles⟩ = some next := by
    have handled := handleEntries_descriptions describe world.unset []
    simp only [Message.effect, hwinfo, Message.handleHwinfo, mHWInfo_hwinfoMessage]
    rw [show (srInit [] table).ifList = [] from rfl, handled]
    rfl
  have run : (Input.read surroundings (hwinfoMessage entries.flatten fits)).run world
      ⟨srInit [] table, programFiles⟩ = some (1, next) := by
    rw [Input.run, srReadFromServerExpect, if_neg (not_unexpected _), effect, Option.bind_some]
    simp only [reading_hwinfoMessage, verified, decide_true, if_true, Option.map_some]
  have taken := mainLoopStep_eq_some.mpr ⟨run, rfl⟩
  have informed : next.sr.Informed :=
    effect_informed hwinfo rfl (Or.inl ⟨rfl, rfl⟩) effect verified
  exact ⟨next, StepRuns.exec_cons_eq_some.mpr ⟨next, taken, rfl⟩, rfl, rfl, informed.sound⟩

end Starting

/-- From its start to its first hardware information: a routing table that was printed into its
file, or into the message of the server, and interfaces that the server describes, are what the
router runs with, and it is sound with them. Both messages have at most 10000 bytes. A table
from the server is for a host whose name has less than 32 bytes, and the file for it opens.
-/
theorem start_described (world : World) {options : MainOptions} {greeting : Greeting}
    {table : List SrRt} {files : List UInt8 → Option (List UInt8)} {interfaces : List SrIf}
    {entries : List (List HwEntry)} (plain : ∀ entry ∈ table, PlainName entry.interface)
    (nonempty : table ≠ []) (source : TableSource options greeting files table)
    (authRequest : greeting.authRequest.Accepted 128)
    (authStatus : greeting.authStatus.Accepted 512)
    (describe : List.Forall₂ Describe entries interfaces)
    (fits : 8 + 36 * entries.flatten.length ≤ 10000)
    (named : ∀ route ∈ table, route.interface ∈ names interfaces)
    (first second : RtFields) (surroundings : Surroundings)
    : ∃ program next,
        start world options first second greeting files = some program
        ∧ mainLoop world program
            [.read surroundings (hwinfoMessage entries.flatten fits)]
          = some next
        ∧ next.sr.ifList = interfaces
        ∧ next.sr.routingTable = table
        ∧ next.sr.Sound interfaces := by
  obtain ⟨program, started, fresh⟩ := @start_source world _ _ _ _ plain nonempty source authRequest
    authStatus first second
  obtain ⟨next, informed⟩ := @mainLoop_described world _ _ _ nonempty describe fits named
    surroundings _ fresh
  exact ⟨program, next, started, informed⟩

/-- A default route by the interface that is described. -/
def eth3Route : SrRt := ⟨0, 1677787146, 0, "eth3"⟩

/-- A server that accepts the router, and sends it a routing table. -/
def vrhostGreeting : Greeting where
  authRequest := ⟨⟨true, true, true, true, []⟩, ⟨[0, 0, 0, 8, 0, 0, 0, 128], by decide⟩⟩
  authStatus := ⟨⟨true, true, true, true, []⟩, ⟨[0, 0, 0, 9, 0, 0, 2, 0, 1], by decide⟩⟩
  rtable :=
    ⟨⟨true, true, true, true, []⟩,
      ⟨rtableBytes (nameBytes "vrhost") [eth3Route], by decide +kernel⟩⟩

theorem vrhostGreeting_sends
    : SendsTable vrhostGreeting.rtable.message (nameBytes "vrhost") [eth3Route] where
  bytes := rfl
  short := by decide +kernel
  solid := by decide +kernel
  plain := by decide +kernel
  nonempty := by decide

theorem vrhostGreeting_authRequest : vrhostGreeting.authRequest.Accepted 128 := by
  have known : Command.ofWord vrhostGreeting.authRequest.message.command = .vnsAuthRequest := by
    decide
  refine Expected.accepted_of_fields (by decide) (by decide) (by decide) ?_ ?_
  · intro surroundings
    exact ⟨by simp [known], by simp [known], by simp [known]⟩
  · intro consistent names
    rw [known]
    rfl

theorem vrhostGreeting_authStatus : vrhostGreeting.authStatus.Accepted 512 := by
  have known : Command.ofWord vrhostGreeting.authStatus.message.command = .vnsAuthStatus := by
    decide
  have accepted : byteAt vrhostGreeting.authStatus.message.bytes 8 ≠ 0 := by decide
  refine Expected.accepted_of_fields (by decide) (by decide) (by decide) ?_ ?_
  · intro surroundings
    exact ⟨by simp [known], by simp [known], fun _ refused => absurd refused accepted⟩
  · intro consistent names
    rw [known, Command.result, if_neg accepted]

theorem start_described_vrhost
    : let world : World := ⟨quietOutside, fun _ => (Vector.replicate 6 0, 0)⟩
      let options : MainOptions := ⟨some (nameBytes "pair"), nameBytes "rtable.vrhost"⟩
      ∃ program next,
        start world options ⟨[], [], [], []⟩ ⟨[], [], [], []⟩ vrhostGreeting (fun _ => none)
        = some program
        ∧ mainLoop world program
            [.read ⟨true, true, true, true, []⟩ (hwinfoMessage [eth3Entries].flatten (by decide))]
          = some next
        ∧ next.sr.ifList = [eth3]
        ∧ next.sr.routingTable = [eth3Route]
        ∧ next.sr.Sound [eth3] := by
  intro world options
  have source : TableSource options vrhostGreeting (fun _ => none) [eth3Route] :=
    .server ⟨nameBytes "pair", by decide +kernel, rfl⟩ vrhostGreeting_sends rfl (by decide +kernel)
  exact start_described world (by decide +kernel) (by decide) source vrhostGreeting_authRequest
    vrhostGreeting_authStatus
    (.cons eth3Entries_describe .nil) (by decide) (by decide +kernel) _ _ _

end Networks.Router
