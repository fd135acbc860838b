import Mathlib.Data.List.TakeWhile
import Networks.Library.MachineIntegers
import Networks.Library.ReadLoop
import Networks.Router.WaitingFrames

/-! Messages from the server: how `sr_read_from_server_expect` reads one from its socket, and
which of its bytes the handler of each command reads or passes on.
-/

namespace Networks.Router

open ByteFields MachineIntegers ReadLoop

-----------------------------------------------------------------------------------------
-- Messages and commands
-----------------------------------------------------------------------------------------

/-- `ntohl` of four bytes in a message. -/
def ntohlAt (bytes : List UInt8) (index : Nat) : Nat :=
  halfAt bytes index * 65536 + halfAt bytes (index + 2)

/-- The buffer of `len` bytes, with an accepted length. -/
structure Message where
  bytes : List UInt8
  accepted : bytes.length ≤ 10000
  deriving DecidableEq

def Message.len (message : Message) : Nat := message.bytes.length

/-- The command word, which only a message of eight bytes has. -/
def Message.command (message : Message) : Nat := ntohlAt message.bytes 4

/-- The commands that the switch knows. -/
inductive Command
  | vnsPacket
  | vnsClose
  | vnsBanner
  | vnsHwinfo
  | vnsRtable
  | vnsAuthRequest
  | vnsAuthStatus
  | unknown
  deriving DecidableEq

def Command.ofWord : Nat → Command
  | 4 => .vnsPacket
  | 2 => .vnsClose
  | 8 => .vnsBanner
  | 16 => .vnsHwinfo
  | 32 => .vnsRtable
  | 128 => .vnsAuthRequest
  | 512 => .vnsAuthStatus
  | _ => .unknown

/-- The fields that a message of the command has in front of its variable part. -/
def Command.headerSize : Command → Nat
  | .vnsPacket => 38
  | .vnsRtable => 40
  | .vnsAuthStatus => 9
  | _ => 8

-----------------------------------------------------------------------------------------
-- Reading a message
-----------------------------------------------------------------------------------------

/-- A message, or an error after a length that is not accepted. -/
inductive Received
  | error
  | message (message : Message)

theorem accepted_length {length : Int} (accepted : ¬ (length > 10000 ∨ length < 0))
    (bytes : List UInt8)
    : (bytes.take length.toNat).length ≤ 10000 := by
  rw [List.length_take]
  omega

/-- The two loops of `sr_read_from_server_expect`. A call that a signal breaks is made again
with the same count. A length below four leaves nothing to read.
-/
def readMessage (fuel : Nat) (arrivals : List (Arrival UInt8)) : Option Received :=
  (readLoop 4 fuel [] arrivals).bind fun (word, rest) =>
    let len := int32 (ntohlAt word 0)
    if rejected : len > 10000 ∨ len < 0 then
      some .error
    else
      (readLoop (len - 4).toNat fuel [] rest).map fun (body, _) =>
        .message ⟨(word ++ body).take len.toNat, accepted_length rejected _⟩

/-- What the bytes in front of the close amount to: an error, or the message they begin with. -/
def received (bytes : List UInt8) : Received :=
  let len := int32 (ntohlAt (bytes.take 4) 0)
  if rejected : len > 10000 ∨ len < 0 then
    .error
  else
    .message ⟨bytes.take len.toNat, accepted_length rejected _⟩

/-- A whole message, or a whole length word that is not accepted. -/
def CompleteMessage (bytes : List UInt8) : Prop :=
  let len := int32 (ntohlAt (bytes.take 4) 0)
  4 ≤ bytes.length ∧ (¬ (len > 10000 ∨ len < 0) → len ≤ bytes.length)

/-- The length word is what comes first, once it has been read. -/
theorem readWord_result {fuel : Nat} {arrivals rest : List (Arrival UInt8)}
    {word : List UInt8} (read : readLoop 4 fuel [] arrivals = some (word, rest))
    : word = (contents arrivals).take 4 ∧ contents rest = (contents arrivals).drop 4
      ∧ calls rest ≤ calls arrivals := by
  obtain ⟨length, stream, fewer⟩ := readLoop_result (by simp) read
  rw [List.nil_append] at stream
  exact ⟨by rw [← stream, ← length, List.take_left],
    by rw [← stream, ← length, List.drop_left], fewer⟩

/-- Reading a whole message ends, and gives what the bytes amount to. -/
theorem readMessage_of_complete {fuel : Nat} {arrivals : List (Arrival UInt8)}
    (complete : CompleteMessage (contents arrivals)) (enough : calls arrivals < fuel)
    : readMessage fuel arrivals = some (received (contents arrivals)) := by
  obtain ⟨whole, within⟩ := complete
  obtain ⟨word, rest, read⟩ := @readLoop_ends _ 4 fuel [] arrivals (by simpa using whole) enough
  obtain ⟨rfl, left, fewer⟩ := readWord_result read
  rw [readMessage, read, Option.bind_some, received]
  simp only
  split
  · rfl
  · next accepted =>
      have arrived := within accepted
      have behind : (contents rest).length = (contents arrivals).length - 4 := by
        rw [left, List.length_drop]
      obtain ⟨body, last, readBody⟩ := @readLoop_ends _
        (int32 (ntohlAt ((contents arrivals).take 4) 0) - 4).toNat fuel [] rest
        (by simp only [List.length_nil]; omega) (Nat.lt_of_le_of_lt fewer enough)
      obtain ⟨length, stream, -⟩ := readLoop_result (by simp) readBody
      have same : ((contents arrivals).take 4 ++ body).take
            (int32 (ntohlAt ((contents arrivals).take 4) 0)).toNat
          = (contents arrivals).take
            (int32 (ntohlAt ((contents arrivals).take 4) 0)).toNat := by
        have split : contents arrivals
            = (contents arrivals).take 4 ++ body ++ contents last := by
          rw [List.append_assoc, stream, List.nil_append, left, List.take_append_drop]
        have reaches : (int32 (ntohlAt ((contents arrivals).take 4) 0)).toNat
            ≤ ((contents arrivals).take 4 ++ body).length := by
          rw [List.length_append, List.length_take, length]
          omega
        conv_rhs => arg 2; rw [split]
        rw [List.take_append_of_le_length reaches]
      rw [readBody, Option.map_some]
      simp only [same]

/-- Reading anything less never ends. -/
theorem readMessage_of_incomplete (fuel : Nat) {arrivals : List (Arrival UInt8)}
    (incomplete : ¬ CompleteMessage (contents arrivals))
    : readMessage fuel arrivals = none := by
  cases read : readLoop 4 fuel [] arrivals with
  | none => rw [readMessage, read, Option.bind_none]
  | some result =>
      obtain ⟨word, rest⟩ := result
      obtain ⟨rfl, left, -⟩ := readWord_result read
      have whole : 4 ≤ (contents arrivals).length := by
        by_contra short
        rw [readLoop_stuck fuel (by simpa using short)] at read
        simp at read
      obtain ⟨accepted, missing⟩ :
          ¬ (int32 (ntohlAt ((contents arrivals).take 4) 0) > 10000
            ∨ int32 (ntohlAt ((contents arrivals).take 4) 0) < 0)
          ∧ ¬ int32 (ntohlAt ((contents arrivals).take 4) 0)
            ≤ ((contents arrivals).length : Int) := by
        by_contra complete
        refine incomplete ⟨whole, fun accepted => ?_⟩
        by_contra missing
        exact complete ⟨accepted, missing⟩
      rw [readMessage, read, Option.bind_some]
      simp only [dif_neg accepted]
      rw [readLoop_stuck fuel, Option.map_none]
      rw [left, List.length_nil, List.length_drop]
      omega

/-- The call ends with what the bytes amount to when the server closes the connection after a
whole message or a length that is not accepted, however the bytes arrive, and otherwise it
never ends.
-/
theorem readMessage_ends_iff (arrivals : List (Arrival UInt8))
    : (∃ fuel, readMessage fuel arrivals = some (received (contents arrivals)))
      ↔ CompleteMessage (contents arrivals) := by
  constructor
  · rintro ⟨fuel, ended⟩
    by_contra incomplete
    rw [readMessage_of_incomplete fuel incomplete] at ended
    simp at ended
  · intro complete
    exact ⟨_, readMessage_of_complete complete (Nat.lt_succ_self _)⟩

/-- A connection that is closed at once, where the loop for the length never ends. -/
theorem readMessage_closed
    : ¬ ∀ arrivals : List (Arrival UInt8), ∃ fuel, (readMessage fuel arrivals).isSome := by
  intro always
  obtain ⟨fuel, ended⟩ := always []
  rw [readMessage_of_incomplete fuel (by simp [CompleteMessage])] at ended
  exact absurd ended (by simp)

-----------------------------------------------------------------------------------------
-- What is read of a message
-----------------------------------------------------------------------------------------

/-- A run of bytes, counted from the start of the buffer, that is read or handed on. -/
structure Extent where
  start : Nat
  size : Nat
  deriving DecidableEq

/-- All of its bytes lie in a buffer of that length. -/
def Extent.Within (extent : Extent) (len : Nat) : Prop := extent.start + extent.size ≤ len

instance (extent : Extent) (len : Nat) : Decidable (extent.Within len) :=
  inferInstanceAs (Decidable (_ ≤ _))

/-- What the handlers of the commands depend on besides the message: whether the file for the
routing table opens, whether the key for the authentication can be read, whether the reply
to it is sent, whether the routing table agrees with the interfaces, and the names of the
interfaces, each without the zero that ends it.
-/
structure Surroundings where
  tableOpens : Bool
  keyRead : Bool
  replySent : Bool
  tableConsistent : Bool
  names : List (List UInt8)

/-- The length handed to `sr_arp_req_not_for_us` and `sr_handlepacket`, an `unsigned int`. In a
message with its header `sr_log_packet` gets the same one.
-/
def packetSize (len : Nat) : Nat := uint32 (sizeT (len - 38 + 14))

/-- The frame in a message with a packet. -/
def Message.frame (message : Message) : Frame :=
  (message.bytes.drop 24).take (packetSize message.len)

/-- The name that `sr_get_interface` finds at `mInterfaceName`: it ends at a zero byte, and at
most 32 bytes are compared.
-/
def Message.mInterfaceName (message : Message) : String :=
  String.ofList
    ((((message.bytes.drop 8).take 32).takeWhile fun byte => byte ≠ 0).map fun byte =>
      Char.ofNat byte.toNat)

/-- What a message with a packet brings to the router. -/
def Message.delivery (message : Message) : Option Delivery :=
  match Command.ofWord message.command with
  | .vnsPacket => some (.vnsPacket message.frame message.mInterfaceName)
  | _ => none

theorem delivery_eq {message : Message} {delivery : Delivery}
    (delivered : message.delivery = some delivery)
    : delivery = .vnsPacket message.frame message.mInterfaceName := by
  unfold Message.delivery at delivered
  generalize Command.ofWord message.command = command at delivered
  cases command with
  | vnsPacket => exact (Option.some.inj delivered).symm
  | vnsClose | vnsBanner | vnsHwinfo | vnsRtable | vnsAuthRequest | vnsAuthStatus | unknown =>
      cases delivered

/-- `num_entries`, an `int` that gets a quotient of sizes. -/
def numEntries (len : Nat) : Int := int32 (sizeT (len - 8) / 36 : Nat)

/-- The entries that `sr_handle_hwinfo` reads. -/
def srHandleHwinfo (len : Nat) : List Extent :=
  (List.range (numEntries len).toNat).map fun i => ⟨8 + 36 * i, 36⟩

/-- A string in a message, with the zero that ends it. Behind the message there is at least one
more byte to be read when no zero is in it.
-/
def Message.stringAt (message : Message) (start : Nat) : Extent :=
  ⟨start, ((message.bytes.drop start).takeWhile fun byte => byte ≠ 0).length + 1⟩

/-- How many bytes of a text `strncmp` reads to compare it with a name: it stops at the first
difference, behind a zero, and at the limit.
-/
def strncmpReads : Nat → List UInt8 → List UInt8 → Nat
  | 0, _, _ => 0
  | _, _, [] => 1
  | limit + 1, name, byte :: text =>
      if byte = name.headD 0 ∧ byte ≠ 0 then strncmpReads limit name.tail text + 1 else 1

/-- The names that `sr_get_interface` compares with a text: it stops at the first one that is
the same in 32 bytes.
-/
def comparedNames (text : List UInt8) : List (List UInt8) → List (List UInt8)
  | [] => []
  | name :: names =>
      if (text.take 32).takeWhile (fun byte => byte ≠ 0) = name then
        [name]
      else
        name :: comparedNames text names

/-- What `sr_get_interface` reads of `mInterfaceName` and what lies behind it. -/
def Message.nameReads (message : Message) (names : List (List UInt8)) : List Extent :=
  (comparedNames (message.bytes.drop 8) names).map fun name =>
    ⟨8, strncmpReads 32 name (message.bytes.drop 8)⟩

/-- The host in the name of the file, and the table that `sr_handle_rtable` writes to it. -/
def srHandleRtable (surroundings : Surroundings) (message : Message) : List Extent :=
  message.stringAt 8
    :: if surroundings.tableOpens then [⟨40, uint32 (message.len - 8 - 32)⟩] else []

/-- The salt that `sr_handle_auth_request` passes to `SHA1Input`. -/
def srHandleAuthRequest (surroundings : Surroundings) (len : Nat) : List Extent :=
  if surroundings.keyRead then [⟨8, uint32 (sizeT (len - 8))⟩] else []

/-- `auth_ok`, and the text that `sr_handle_auth_status` prints of a refusal. -/
def srHandleAuthStatus (message : Message) : List Extent :=
  ⟨8, 1⟩ :: if byteAt message.bytes 8 = 0 then [message.stringAt 9] else []

/-- What the branch of a command reads of a message, or hands on. -/
def Command.extents (surroundings : Surroundings) (message : Message) : Command → List Extent
  | .vnsPacket => message.nameReads surroundings.names ++ [⟨24, packetSize message.len⟩]
  | .vnsHwinfo => srHandleHwinfo message.len
  | .vnsRtable => srHandleRtable surroundings message
  | .vnsAuthRequest => srHandleAuthRequest surroundings message.len
  | .vnsAuthStatus => srHandleAuthStatus message
  | .vnsClose | .vnsBanner => [message.stringAt 8]
  | .unknown => []

/-- What `sr_read_from_server_expect` returns after the branch of a command. -/
def Command.result (surroundings : Surroundings) (message : Message) : Command → Int
  | .vnsClose => 0
  | .vnsHwinfo => if surroundings.tableConsistent then 1 else -1
  | .vnsRtable => if surroundings.tableOpens then 1 else -1
  | .vnsAuthRequest => if surroundings.keyRead && surroundings.replySent then 1 else -1
  | .vnsAuthStatus => if byteAt message.bytes 8 = 0 then -1 else 1
  | .vnsPacket | .vnsBanner | .unknown => 1

/-- The bytes read of a message or handed on, and the value returned. There is none when some
of these bytes lie outside of the message.
-/
structure Reading where
  extents : List Extent
  result : Option Int

/-- A command that is not the expected one, which only `VNSCLOSE` may be. -/
def Message.Unexpected (message : Message) (expectedCmd : Nat) : Prop :=
  expectedCmd ≠ 0 ∧ message.command ≠ expectedCmd ∧ Command.ofWord message.command ≠ .vnsClose

instance (message : Message) (expectedCmd : Nat) : Decidable (message.Unexpected expectedCmd) :=
  inferInstanceAs (Decidable (_ ∧ _))

/-- The length word is written back, and the command word read. -/
def words : List Extent := [⟨0, 4⟩, ⟨4, 4⟩]

/-- `sr_read_from_server_expect`, once the message is there. -/
def Message.reading (surroundings : Surroundings) (expectedCmd : Nat) (message : Message)
    : Reading :=
  if message.len < 8 then
    ⟨words, none⟩
  else if message.Unexpected expectedCmd then
    ⟨words, some (-1)⟩
  else
    let command := Command.ofWord message.command
    let extents := words ++ command.extents surroundings message
    if ∀ extent ∈ extents, extent.Within message.len then
      ⟨extents, some (command.result surroundings message)⟩
    else
      ⟨extents, none⟩

/-- A message without room for its command word, or for the fields of its command. -/
def Message.TooShort (message : Message) : Prop :=
  message.len < 8 ∨ message.len < (Command.ofWord message.command).headerSize

/-- The strings that the branch of a command reads end in the message. The comparison of the
interface's name with other names also ends at a difference, or after 32 bytes.
-/
structure Message.StringsEnd (surroundings : Surroundings) (message : Message)
    (command : Command)
    : Prop where
  name
    : command = .vnsPacket
      → ∀ name ∈ comparedNames (message.bytes.drop 8) surroundings.names,
          ¬ ((message.bytes.drop 8).length < 32 ∧ message.bytes.drop 8 <+: name
            ∧ 0 ∉ message.bytes.drop 8)
  text
    : command = .vnsClose ∨ command = .vnsBanner ∨ command = .vnsRtable
      → 0 ∈ message.bytes.drop 8
  refusal
    : command = .vnsAuthStatus → byteAt message.bytes 8 = 0 → 0 ∈ message.bytes.drop 9

/-- The message is read within its own bytes, and rejected when it is too short. -/
structure Message.ReadWithin (surroundings : Surroundings) (expectedCmd : Nat)
    (message : Message)
    : Prop where
  within
    : ∀ extent ∈ (message.reading surroundings expectedCmd).extents,
        extent.Within message.len
  rejected
    : message.TooShort → (message.reading surroundings expectedCmd).result = some (-1)

section Readings

variable {surroundings : Surroundings} {expectedCmd : Nat} {message : Message}

theorem numEntries_eq {len : Nat} (words : 8 ≤ len) (accepted : len ≤ 10000)
    : numEntries len = ((len - 8) / 36 : Nat) := by
  have size : sizeT (len - 8) = len - 8 := by
    unfold sizeT
    omega
  rw [numEntries, size]
  exact int32_eq_self (by omega) (by omega)

/-- A string lies within the message when a zero ends it there. -/
theorem stringAt_within_iff {start : Nat}
    : (message.stringAt start).Within message.len ↔ 0 ∈ message.bytes.drop start := by
  have prefixed :=
    List.takeWhile_prefix (fun byte : UInt8 => byte ≠ 0) (l := message.bytes.drop start)
  have length := List.length_drop (i := start) (l := message.bytes)
  have whole : ((message.bytes.drop start).takeWhile fun byte => byte ≠ 0).length
      = (message.bytes.drop start).length ↔ 0 ∉ message.bytes.drop start := by
    constructor
    · intro same ended
      have all := List.takeWhile_eq_self_iff.mp (prefixed.eq_of_length same)
      simpa using all 0 ended
    · intro endless
      refine congrArg List.length (List.takeWhile_eq_self_iff.mpr fun byte member => ?_)
      exact decide_eq_true fun zero => endless (zero ▸ member)
  have shorter := prefixed.length_le
  unfold Extent.Within Message.stringAt Message.len
  by_cases ended : 0 ∈ message.bytes.drop start
  · have strict : ¬ _ := mt whole.mp (not_not_intro ended)
    refine iff_of_true ?_ ended
    simp only
    omega
  · have same := whole.mpr ended
    refine iff_of_false ?_ ended
    simp only
    omega

/-- The comparison stays within a text unless the whole text begins the name, by induction on
the text.
-/
theorem strncmpReads_le_iff {limit : Nat} {name text : List UInt8}
    : strncmpReads limit name text ≤ text.length
      ↔ ¬ (text.length < limit ∧ text <+: name ∧ 0 ∉ text) := by
  induction text generalizing limit name with
  | nil =>
      cases limit with
      | zero => simp [strncmpReads]
      | succ limit => simp [strncmpReads]
  | cons byte text ih =>
      cases limit with
      | zero => simp [strncmpReads]
      | succ limit =>
          rw [strncmpReads, List.length_cons]
          split
          · next same =>
              obtain ⟨head, solid⟩ := same
              rw [Nat.add_le_add_iff_right, ih, Nat.add_lt_add_iff_right]
              cases name with
              | nil => exact absurd head solid
              | cons first name =>
                  have first : byte = first := head
                  simp [← first, List.cons_prefix_cons, solid.symm]
          · next differs =>
              refine iff_of_true (Nat.le_add_left 1 _) ?_
              rintro ⟨-, ⟨rest, whole⟩, solid⟩
              refine differs ⟨?_, fun zero => solid (by simp [zero])⟩
              rw [← whole]
              rfl

theorem nameReads_within_iff (words : 8 ≤ message.len) (names : List (List UInt8))
    : (∀ extent ∈ message.nameReads names, extent.Within message.len)
      ↔ ∀ name ∈ comparedNames (message.bytes.drop 8) names,
          ¬ ((message.bytes.drop 8).length < 32 ∧ message.bytes.drop 8 <+: name
            ∧ 0 ∉ message.bytes.drop 8) := by
  have length : (message.bytes.drop 8).length = message.len - 8 := List.length_drop
  simp only [Message.nameReads, List.forall_mem_map, Extent.Within]
  refine forall₂_congr fun name _ => ?_
  rw [← strncmpReads_le_iff, length]
  omega

/-- A message with the fields of its command, whose strings end in it, holds what the branch of
the command reads.
-/
theorem extents_within (words : 8 ≤ message.len) {command : Command}
    (fields : command.headerSize ≤ message.len)
    (ended : message.StringsEnd surroundings command)
    : ∀ extent ∈ command.extents surroundings message, extent.Within message.len := by
  have accepted : message.len ≤ 10000 := message.accepted
  intro extent member
  cases command with
  | vnsPacket =>
      rcases List.mem_append.mp member with name | handed
      · exact (nameReads_within_iff words surroundings.names).mpr (ended.name rfl) extent name
      · obtain rfl := List.mem_singleton.mp handed
        simp only [Command.headerSize] at fields
        simp only [Extent.Within, packetSize, sizeT, uint32]
        omega
  | vnsHwinfo =>
      obtain ⟨i, below, rfl⟩ := List.mem_map.mp member
      rw [List.mem_range, numEntries_eq words accepted, Int.toNat_natCast] at below
      have whole := Nat.div_mul_le_self (message.len - 8) 36
      have last := Nat.mul_le_mul_right 36 below
      simp only [Extent.Within]
      omega
  | vnsRtable =>
      rcases List.mem_cons.mp member with rfl | table
      · exact stringAt_within_iff.mpr (ended.text (by simp))
      · split at table
        · obtain rfl := List.mem_singleton.mp table
          simp only [Command.headerSize] at fields
          simp only [Extent.Within, uint32]
          omega
        · cases table
  | vnsAuthRequest =>
      simp only [Command.extents, srHandleAuthRequest] at member
      split at member
      · obtain rfl := List.mem_singleton.mp member
        simp only [Extent.Within, sizeT, uint32]
        omega
      · cases member
  | vnsAuthStatus =>
      rcases List.mem_cons.mp member with rfl | text
      · exact fields
      · split at text
        · next refused =>
            obtain rfl := List.mem_singleton.mp text
            exact stringAt_within_iff.mpr (ended.refusal rfl refused)
        · cases text
  | vnsClose | vnsBanner =>
      obtain rfl := List.mem_singleton.mp member
      exact stringAt_within_iff.mpr (ended.text (by simp))
  | unknown => cases member

/-- The strings of a message end in it when what its branch reads lies in it. -/
theorem stringsEnd_of_within (words : 8 ≤ message.len) {command : Command}
    (within : ∀ extent ∈ command.extents surroundings message, extent.Within message.len)
    : message.StringsEnd surroundings command where
  name := by
    rintro rfl
    exact (nameReads_within_iff words surroundings.names).mp
      fun extent member => within extent (List.mem_append_left _ member)
  text := by
    rintro (rfl | rfl | rfl)
    · exact stringAt_within_iff.mp (within _ (List.mem_singleton_self _))
    · exact stringAt_within_iff.mp (within _ (List.mem_singleton_self _))
    · exact stringAt_within_iff.mp (within _ List.mem_cons_self)
  refusal := by
    rintro rfl refused
    refine stringAt_within_iff.mp (within _ (List.mem_cons_of_mem _ ?_))
    rw [if_pos refused]
    exact List.mem_singleton_self _

theorem words_within (words : 8 ≤ message.len)
    : ∀ extent ∈ Router.words, extent.Within message.len := by
  intro extent member
  simp only [Router.words, List.mem_cons, List.not_mem_nil, or_false] at member
  unfold Extent.Within
  rcases member with rfl | rfl <;> simp only <;> omega

/-- The switch is reached by a command that may be expected. -/
theorem reading_of_expected (surroundings : Surroundings) (words : 8 ≤ message.len)
    (expected : ¬ message.Unexpected expectedCmd)
    : (message.reading surroundings expectedCmd).extents
        = Router.words
          ++ (Command.ofWord message.command).extents surroundings message
      ∧ ((∀ extent ∈ (message.reading surroundings expectedCmd).extents,
            extent.Within message.len)
          → (message.reading surroundings expectedCmd).result
            = some ((Command.ofWord message.command).result surroundings message)) := by
  rw [Message.reading, if_neg (Nat.not_lt.mpr words), if_neg expected]
  simp only
  split
  · exact ⟨rfl, fun _ => rfl⟩
  · next outside => exact ⟨rfl, fun within => absurd within outside⟩

/-- A message without the fields of its command is read outside of its bytes or not rejected,
unless it is a routing table for a file that does not open.
-/
theorem not_readWithin_of_fields (words : 8 ≤ message.len)
    (expected : ¬ message.Unexpected expectedCmd)
    (missing : message.len < (Command.ofWord message.command).headerSize)
    (opens : Command.ofWord message.command = .vnsRtable → surroundings.tableOpens = true)
    : ¬ message.ReadWithin surroundings expectedCmd := by
  intro read
  obtain ⟨extents, result⟩ := reading_of_expected surroundings words expected
  have within := read.within
  have rejected := (result within).symm.trans (read.rejected (Or.inr missing))
  rw [extents] at within
  generalize Command.ofWord message.command = command at within rejected missing opens
  cases command with
  | vnsPacket =>
      have one : (1 : Int) = -1 := Option.some.inj rejected
      exact absurd one (by decide)
  | vnsRtable =>
      have reads : ⟨40, uint32 (message.len - 8 - 32)⟩
          ∈ Command.vnsRtable.extents surroundings message := by
        rw [Command.extents, srHandleRtable, if_pos (opens rfl)]
        exact List.mem_cons_of_mem _ (List.mem_singleton_self _)
      exact absurd (Nat.le_trans (Nat.le_add_right 40 _) (within _ (List.mem_append_right _ reads)))
        (Nat.not_le.mpr missing)
  | vnsAuthStatus =>
      have reads : ⟨8, 1⟩ ∈ Command.vnsAuthStatus.extents surroundings message :=
        List.mem_cons_self
      exact absurd (within _ (List.mem_append_right _ reads)) (Nat.not_le.mpr missing)
  | vnsClose | vnsBanner | vnsHwinfo | vnsAuthRequest | unknown =>
      exact absurd words (Nat.not_le.mpr missing)

/-- A message whose strings do not end in it is read outside of its bytes. -/
theorem stringsEnd_of_readWithin (words : 8 ≤ message.len)
    (expected : ¬ message.Unexpected expectedCmd)
    (read : message.ReadWithin surroundings expectedCmd)
    : message.StringsEnd surroundings (Command.ofWord message.command) := by
  have within := read.within
  rw [(reading_of_expected surroundings words expected).1] at within
  exact stringsEnd_of_within words
    fun extent member => within extent (List.mem_append_right _ member)

/-- A command that is not expected is rejected after both words. -/
theorem readWithin_of_unexpected (words : 8 ≤ message.len)
    (unexpected : message.Unexpected expectedCmd)
    : message.ReadWithin surroundings expectedCmd := by
  have reading : message.reading surroundings expectedCmd = ⟨Router.words, some (-1)⟩ := by
    rw [Message.reading, if_neg (Nat.not_lt.mpr words), if_pos unexpected]
  exact ⟨by rw [reading]; exact words_within words, fun _ => by rw [reading]⟩

theorem readWithin_of_fields (words : 8 ≤ message.len)
    (expected : ¬ message.Unexpected expectedCmd)
    (fields : (Command.ofWord message.command).headerSize ≤ message.len)
    (ended : message.StringsEnd surroundings (Command.ofWord message.command))
    : message.ReadWithin surroundings expectedCmd := by
  refine ⟨?_, fun short => absurd short (by simp only [Message.TooShort]; omega)⟩
  rw [(reading_of_expected surroundings words expected).1]
  intro extent member
  rcases List.mem_append.mp member with word | field
  · exact words_within words extent word
  · exact extents_within words fields ended extent field

/-- Only the host is read of a routing table whose file does not open, and the call fails. -/
theorem readWithin_of_closed (words : 8 ≤ message.len)
    (expected : ¬ message.Unexpected expectedCmd)
    (table : Command.ofWord message.command = .vnsRtable)
    (closed : surroundings.tableOpens = false) (ended : 0 ∈ message.bytes.drop 8)
    : message.ReadWithin surroundings expectedCmd := by
  obtain ⟨extents, result⟩ := reading_of_expected surroundings words expected
  have within : ∀ extent ∈ (message.reading surroundings expectedCmd).extents,
      extent.Within message.len := by
    rw [extents, table, Command.extents, srHandleRtable, closed]
    intro extent member
    rcases List.mem_append.mp member with word | host
    · exact words_within words extent word
    · obtain rfl := List.mem_singleton.mp host
      exact stringAt_within_iff.mpr ended
  refine ⟨within, fun _ => ?_⟩
  rw [result within, table, Command.result, closed]
  rfl

/-- A message is read within its own bytes and rejected when it is too short exactly when it
has both words, and then, unless the command is not expected, its strings end in it, and it has
the fields of its command or the file for the routing table does not open.
-/
theorem message_readWithin_iff (surroundings : Surroundings) (expectedCmd : Nat)
    (message : Message)
    : message.ReadWithin surroundings expectedCmd
      ↔ 8 ≤ message.len
        ∧ (message.Unexpected expectedCmd
          ∨ message.StringsEnd surroundings (Command.ofWord message.command)
            ∧ ((Command.ofWord message.command).headerSize ≤ message.len
              ∨ Command.ofWord message.command = .vnsRtable
                ∧ surroundings.tableOpens = false)) := by
  constructor
  · intro read
    have words : 8 ≤ message.len := by
      by_contra short
      have outside := read.within ⟨4, 4⟩ (by
        simp [Message.reading, if_pos (Nat.not_le.mp short), words])
      exact short outside
    refine ⟨words, ?_⟩
    by_cases unexpected : message.Unexpected expectedCmd
    · exact Or.inl unexpected
    · refine Or.inr ⟨stringsEnd_of_readWithin words unexpected read, ?_⟩
      by_contra nothing
      simp only [not_or, not_and, Bool.not_eq_false, Nat.not_le] at nothing
      exact not_readWithin_of_fields words unexpected nothing.1 nothing.2 read
  · rintro ⟨words, condition⟩
    by_cases unexpected : message.Unexpected expectedCmd
    · exact readWithin_of_unexpected words unexpected
    · rcases condition with condition | ⟨ended, fields | ⟨table, closed⟩⟩
      · exact absurd condition unexpected
      · exact readWithin_of_fields words unexpected fields ended
      · exact readWithin_of_closed words unexpected table closed (ended.text (by simp [table]))

end Readings

/-- A message of eight bytes that says it is a packet. -/
def bareVnsPacket : Message := ⟨[0, 0, 0, 8, 0, 0, 0, 4], by decide⟩

/-- Its packet is handed on with a length of 4294967280 bytes. -/
theorem bareVnsPacket_outside
    : ¬ ∀ (surroundings : Surroundings) (expectedCmd : Nat) (message : Message),
        message.ReadWithin surroundings expectedCmd := by
  intro always
  have read := always ⟨true, true, true, true, []⟩ 0 bareVnsPacket
  have handed := read.within ⟨24, packetSize 8⟩ (by decide)
  exact absurd handed (by decide)

end Networks.Router
