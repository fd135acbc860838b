import Networks.Router.RoutingTable
import Networks.Router.ServerMessages

/-! The interfaces of the router, as the server describes them in a `VNSHWINFO` message. A
description begins with the name of an interface; what comes before the next name is about it.
-/

namespace Networks.Router

open ByteFields
open Ctcp (htonl htonl_toNat fieldBytes32)

-----------------------------------------------------------------------------------------
-- Adding interfaces
-----------------------------------------------------------------------------------------

/-- What lies in the memory for each interface before it is set. -/
abbrev Unset := Nat → Mac × UInt32

/-- `sr_add_interface`. Only the name of the new interface is set. -/
def srAddInterface (unset : Unset) (name : List UInt8) (ifList : List SrIf) : List SrIf :=
  ifList ++ [⟨nameOf (cString name), (unset ifList.length).1, (unset ifList.length).2⟩]

/-- A change of the last interface, which is asserted to exist. -/
def changeLast (change : SrIf → SrIf) (ifList : List SrIf) : Option (List SrIf) :=
  ifList.getLast?.map fun last => ifList.dropLast ++ [change last]

/-- `sr_set_ether_addr`. -/
def srSetEtherAddr (addr : List UInt8) (ifList : List SrIf) : Option (List SrIf) :=
  changeLast (fun last => { last with addr := macAt addr 0 }) ifList

/-- `sr_set_ether_ip`. -/
def srSetEtherIp (ipNbo : UInt32) (ifList : List SrIf) : Option (List SrIf) :=
  changeLast (fun last => { last with ip := ipNbo }) ifList

-----------------------------------------------------------------------------------------
-- Hardware information
-----------------------------------------------------------------------------------------

/-- The keys for which `sr_handle_hwinfo` does something. -/
inductive HwKey
  | hwinterface
  | hwethip
  | hwether
  | other
  deriving DecidableEq

def HwKey.ofWord : UInt32 → HwKey
  | 1 => .hwinterface
  | 64 => .hwethip
  | 32 => .hwether
  | _ => .other

/-- `c_hw_entry`, with its key in host byte order. -/
structure HwEntry where
  mKey : UInt32
  value : Vector UInt8 32
  deriving DecidableEq

def HwEntry.key (entry : HwEntry) : HwKey := .ofWord entry.mKey

/-- The entry at an index of a message. -/
def hwEntryAt (bytes : List UInt8) (index : Nat) : HwEntry where
  mKey := .ofNat (ntohlAt bytes index)
  value := Vector.ofFn fun offset => byteAt bytes (index + 4 + offset)

/-- `mHWInfo`, as far as `num_entries` says. -/
def Message.mHWInfo (message : Message) : List HwEntry :=
  (List.range (numEntries message.len).toNat).map fun i => hwEntryAt message.bytes (8 + 36 * i)

/-- The switch of `sr_handle_hwinfo`. -/
def HwEntry.handle (unset : Unset) (ifList : List SrIf) (entry : HwEntry)
    : Option (List SrIf) :=
  match entry.key with
  | .hwinterface => some (srAddInterface unset entry.value.toList ifList)
  | .hwethip => srSetEtherIp (wordAt entry.value.toList 0) ifList
  | .hwether => srSetEtherAddr entry.value.toList ifList
  | .other => some ifList

/-- The loop of `sr_handle_hwinfo`. There is no list when an assertion fails. -/
def handleEntries (unset : Unset) : List SrIf → List HwEntry → Option (List SrIf)
  | ifList, [] => some ifList
  | ifList, entry :: entries =>
      (entry.handle unset ifList).bind fun ifList => handleEntries unset ifList entries

/-- `sr_handle_hwinfo`. -/
def Message.handleHwinfo (message : Message) (unset : Unset) (ifList : List SrIf)
    : Option (List SrIf) :=
  handleEntries unset ifList message.mHWInfo

-----------------------------------------------------------------------------------------
-- Messages of a server
-----------------------------------------------------------------------------------------

/-- The bytes of an entry. -/
def HwEntry.bytes (entry : HwEntry) : List UInt8 :=
  fieldBytes32 (htonl entry.mKey) ++ entry.value.toList

/-- The bytes of a `VNSHWINFO` message with these entries. -/
def hwinfoBytes (entries : List HwEntry) : List UInt8 :=
  fieldBytes32 (htonl (.ofNat (8 + 36 * entries.length))) ++ fieldBytes32 (htonl 16)
    ++ entries.flatMap HwEntry.bytes

theorem length_bytes (entry : HwEntry) : entry.bytes.length = 36 := by
  simp [HwEntry.bytes, fieldBytes32]

theorem length_flatMap_bytes (entries : List HwEntry)
    : (entries.flatMap HwEntry.bytes).length = 36 * entries.length := by
  induction entries with
  | nil => rfl
  | cons entry entries ih =>
      simp only [List.flatMap_cons, List.length_append, length_bytes, ih, List.length_cons]
      omega

theorem length_hwinfoBytes (entries : List HwEntry)
    : (hwinfoBytes entries).length = 8 + 36 * entries.length := by
  rw [hwinfoBytes, List.length_append, length_flatMap_bytes]
  rfl

/-- A message of a server with room for its entries. -/
def hwinfoMessage (entries : List HwEntry) (fits : 8 + 36 * entries.length ≤ 10000)
    : Message :=
  ⟨hwinfoBytes entries, (length_hwinfoBytes entries).trans_le fits⟩

/-- The bytes of a number that is given by them. -/
theorem bytes_of_sum {first second third fourth : Nat} (firstBound : first < 256)
    (secondBound : second < 256) (thirdBound : third < 256)
    : let number := fourth * 16777216 + third * 65536 + second * 256 + first
      number % 256 = first ∧ number / 256 % 256 = second ∧ number / 65536 % 256 = third
      ∧ number / 16777216 = fourth := by
  intro number
  have rest : number / 256 = fourth * 65536 + third * 256 + second := by omega
  have behind : number / 65536 = fourth * 256 + third := by omega
  exact ⟨by omega, by rw [rest]; omega, by rw [behind]; omega, by omega⟩

/-- The bytes of a word in network byte order. -/
theorem fieldBytes32_htonl (word : UInt32)
    : fieldBytes32 (htonl word)
      = [.ofNat (word.toNat / 16777216), .ofNat (word.toNat / 65536 % 256),
          .ofNat (word.toNat / 256 % 256), .ofNat (word.toNat % 256)] := by
  have small := word.toNat_lt
  obtain ⟨first, second, third, fourth⟩ := @bytes_of_sum (word.toNat / 16777216)
    (word.toNat / 65536 % 256) (word.toNat / 256 % 256) (word.toNat % 256) (by omega)
    (Nat.mod_lt _ (by decide)) (Nat.mod_lt _ (by decide))
  rw [fieldBytes32, htonl_toNat, first, second, third, fourth]

/-- A field in network byte order is read back. -/
theorem ntohlAt_field (front behind : List UInt8) (word : UInt32)
    : ntohlAt (front ++ (fieldBytes32 (htonl word) ++ behind)) front.length = word.toNat := by
  have small := word.toNat_lt
  rw [fieldBytes32_htonl]
  generalize inside : [UInt8.ofNat (word.toNat / 16777216), .ofNat (word.toNat / 65536 % 256),
    .ofNat (word.toNat / 256 % 256), .ofNat (word.toNat % 256)] = field
  have bytes : ∀ index < 4, byteAt (front ++ (field ++ behind)) (front.length + index)
      = byteAt field index :=
    fun index below => byteAt_field front behind (by simpa [← inside] using below)
  have first := bytes 0 (by decide)
  rw [Nat.add_zero] at first
  simp only [ntohlAt, halfAt, Nat.add_assoc, first, bytes 1 (by decide), bytes 2 (by decide),
    bytes 3 (by decide), Nat.reduceAdd]
  simp [← inside, byteAt, UInt8.toNat_ofNat']
  omega

theorem hwEntryAt_bytes (front behind : List UInt8) (entry : HwEntry)
    : hwEntryAt (front ++ (entry.bytes ++ behind)) front.length = entry := by
  have key : ntohlAt (front ++ (entry.bytes ++ behind)) front.length = entry.mKey.toNat := by
    rw [HwEntry.bytes, List.append_assoc]
    exact ntohlAt_field front _ _
  have value : (Vector.ofFn fun offset : Fin 32 =>
      byteAt (front ++ (entry.bytes ++ behind)) (front.length + 4 + offset)) = entry.value := by
    ext index below
    have inside : byteAt (front ++ (entry.bytes ++ behind)) (front.length + (4 + index))
        = byteAt entry.bytes (4 + index) :=
      byteAt_field front behind (by rw [length_bytes]; omega)
    have later : byteAt entry.bytes (4 + index) = byteAt entry.value.toList index :=
      byteAt_append_right (fieldBytes32 (htonl entry.mKey)) entry.value.toList index
    rw [Vector.getElem_ofFn, Nat.add_assoc, inside, later]
    simp [byteAt, List.getD_eq_getElem?_getD, below]
  rw [hwEntryAt, key, value, UInt32.ofNat_toNat]

/-- The entries of a message are those that the server put into it. -/
theorem mHWInfo_hwinfoMessage {entries : List HwEntry}
    (fits : 8 + 36 * entries.length ≤ 10000)
    : (hwinfoMessage entries fits).mHWInfo = entries := by
  have len : (hwinfoMessage entries fits).len = 8 + 36 * entries.length :=
    length_hwinfoBytes entries
  have count : (numEntries (hwinfoMessage entries fits).len).toNat = entries.length := by
    rw [numEntries_eq (by omega) (by omega), Int.toNat_natCast]
    omega
  refine List.ext_getElem (by simp [Message.mHWInfo, count]) fun i _ below => ?_
  let front := fieldBytes32 (htonl (.ofNat (8 + 36 * entries.length))) ++ fieldBytes32 (htonl 16)
    ++ (entries.take i).flatMap HwEntry.bytes
  have split : (hwinfoMessage entries fits).bytes
      = front ++ (entries[i].bytes ++ (entries.drop (i + 1)).flatMap HwEntry.bytes) := by
    have parts : entries.flatMap HwEntry.bytes = (entries.take i).flatMap HwEntry.bytes
        ++ (entries[i].bytes ++ (entries.drop (i + 1)).flatMap HwEntry.bytes) := by
      rw [← List.flatMap_cons, List.getElem_cons_drop, ← List.flatMap_append,
        List.take_append_drop]
    simp only [hwinfoMessage, hwinfoBytes, front, parts, List.append_assoc]
  have start : front.length = 8 + 36 * i := by
    simp only [front, List.length_append, length_flatMap_bytes,
      List.length_take_of_le (Nat.le_of_lt below)]
    rfl
  simp only [Message.mHWInfo, List.getElem_map, List.getElem_range]
  rw [split, ← start, hwEntryAt_bytes]

-----------------------------------------------------------------------------------------
-- Descriptions of interfaces
-----------------------------------------------------------------------------------------

/-- The last entry with a key. -/
def lastWith (key : HwKey) (entries : List HwEntry) : Option HwEntry :=
  (entries.filter fun entry => entry.key = key).getLast?

/-- What entries without a name make of the interface in front of them. -/
def described (entries : List HwEntry) (interface : SrIf) : SrIf where
  name := interface.name
  addr := (lastWith .hwether entries).elim interface.addr fun entry => macAt entry.value.toList 0
  ip := (lastWith .hwethip entries).elim interface.ip fun entry => wordAt entry.value.toList 0

theorem changeLast_append (change : SrIf → SrIf) (front : List SrIf) (last : SrIf)
    : changeLast change (front ++ [last]) = some (front ++ [change last]) := by
  simp [changeLast]

theorem lastWith_cons_self {key : HwKey} {entry : HwEntry} (same : entry.key = key)
    (entries : List HwEntry)
    : lastWith key (entry :: entries) = some ((lastWith key entries).getD entry) := by
  rw [lastWith, List.filter_cons_of_pos (by simpa using same), List.getLast?_cons, lastWith]

theorem lastWith_cons_other {key : HwKey} {entry : HwEntry} (other : entry.key ≠ key)
    (entries : List HwEntry)
    : lastWith key (entry :: entries) = lastWith key entries := by
  rw [lastWith, List.filter_cons_of_neg (by simpa using other), lastWith]

/-- Entries without a name only change the last interface, by induction on them. -/
theorem handleEntries_unnamed {entries : List HwEntry}
    (unnamed : ∀ entry ∈ entries, entry.key ≠ .hwinterface) (unset : Unset)
    (front : List SrIf) (last : SrIf)
    : handleEntries unset (front ++ [last]) entries
      = some (front ++ [described entries last]) := by
  induction entries generalizing last with
  | nil => rfl
  | cons entry entries ih =>
      have later := fun last => ih (fun entry member => unnamed entry (by simp [member])) last
      have first := unnamed entry (by simp)
      cases key : entry.key with
      | hwinterface => exact absurd key first
      | hwethip =>
          have one : entry.handle unset (front ++ [last])
              = some (front ++ [{ last with ip := wordAt entry.value.toList 0 }]) := by
            simp only [HwEntry.handle, key, srSetEtherIp, changeLast_append]
          rw [handleEntries, one, Option.bind_some, later, described, described,
            lastWith_cons_self key, lastWith_cons_other (by simp [key])]
          cases lastWith .hwethip entries <;> simp only [Option.elim, Option.getD]
      | hwether =>
          have one : entry.handle unset (front ++ [last])
              = some (front ++ [{ last with addr := macAt entry.value.toList 0 }]) := by
            simp only [HwEntry.handle, key, srSetEtherAddr, changeLast_append]
          rw [handleEntries, one, Option.bind_some, later, described, described,
            lastWith_cons_self key, lastWith_cons_other (by simp [key])]
          cases lastWith .hwether entries <;> simp only [Option.elim, Option.getD]
      | other =>
          have one : entry.handle unset (front ++ [last]) = some (front ++ [last]) := by
            simp only [HwEntry.handle, key]
          rw [handleEntries, one, Option.bind_some, later, described, described,
            lastWith_cons_other (by simp [key]), lastWith_cons_other (by simp [key])]

theorem handleEntries_append (unset : Unset) (ifList : List SrIf) (first second : List HwEntry)
    : handleEntries unset ifList (first ++ second)
      = (handleEntries unset ifList first).bind
          fun ifList => handleEntries unset ifList second := by
  induction first generalizing ifList with
  | nil => rfl
  | cons entry first ih =>
      simp only [List.cons_append, handleEntries, Option.bind_assoc, ih]

/-- The entries describe an interface: they begin with its name, and the last Ethernet address
and the last IP address among them are its own.
-/
structure Describe (entries : List HwEntry) (interface : SrIf) : Prop where
  named
    : ∃ entry ∈ entries.head?, entry.key = .hwinterface
        ∧ nameOf (cString entry.value.toList) = interface.name
  single : ∀ entry ∈ entries.tail, entry.key ≠ .hwinterface
  ether
    : ∃ entry ∈ lastWith .hwether entries.tail, macAt entry.value.toList 0 = interface.addr
  ethip
    : ∃ entry ∈ lastWith .hwethip entries.tail, wordAt entry.value.toList 0 = interface.ip

/-- A description adds its interface, whatever lies in the memory for it. -/
theorem handleEntries_describe {entries : List HwEntry} {interface : SrIf}
    (describe : Describe entries interface) (unset : Unset) (ifList : List SrIf)
    : handleEntries unset ifList entries = some (ifList ++ [interface]) := by
  obtain ⟨first, atHead, isName, name⟩ := describe.named
  obtain ⟨ether, lastEther, addr⟩ := describe.ether
  obtain ⟨ethip, lastEthip, ip⟩ := describe.ethip
  obtain ⟨rest, rfl⟩ := List.head?_eq_some_iff.mp atHead
  have single : ∀ entry ∈ rest, entry.key ≠ .hwinterface := describe.single
  have one : first.handle unset ifList
      = some (srAddInterface unset first.value.toList ifList) := by
    simp only [HwEntry.handle, isName]
  rw [handleEntries, one, Option.bind_some, srAddInterface,
    handleEntries_unnamed single, described]
  rw [List.tail_cons] at lastEther lastEthip
  rw [Option.mem_def.mp lastEther, Option.mem_def.mp lastEthip, name, Option.elim_some,
    Option.elim_some, addr, ip]

/-- Descriptions add their interfaces, by induction on them. -/
theorem handleEntries_descriptions {interfaces : List SrIf} {entries : List (List HwEntry)}
    (describe : List.Forall₂ Describe entries interfaces) (unset : Unset) (ifList : List SrIf)
    : handleEntries unset ifList entries.flatten = some (ifList ++ interfaces) := by
  induction describe generalizing ifList with
  | nil => rw [List.flatten_nil, handleEntries, List.append_nil]
  | cons first rest ih =>
      rw [List.flatten_cons, handleEntries_append, handleEntries_describe first,
        Option.bind_some, ih, List.append_assoc, List.singleton_append]

/-- A message in which a server describes interfaces, one after the other, adds exactly these
to the list of the router.
-/
theorem handleHwinfo_described {interfaces : List SrIf} {entries : List (List HwEntry)}
    (describe : List.Forall₂ Describe entries interfaces)
    (fits : 8 + 36 * entries.flatten.length ≤ 10000) (unset : Unset) (ifList : List SrIf)
    : (hwinfoMessage entries.flatten fits).handleHwinfo unset ifList
      = some (ifList ++ interfaces) := by
  rw [Message.handleHwinfo, mHWInfo_hwinfoMessage]
  exact handleEntries_descriptions describe unset ifList

/-- A value with zeros behind. -/
def hwValue (bytes : List UInt8) : Vector UInt8 32 := Vector.ofFn fun offset => byteAt bytes offset

/-- The description of an interface, with a mask that is ignored. -/
def eth3Entries : List HwEntry :=
  [⟨1, hwValue (nameBytes "eth3")⟩, ⟨128, hwValue [255, 255, 255, 0]⟩,
    ⟨32, hwValue [2, 0, 0, 0, 0, 3]⟩, ⟨64, hwValue [10, 0, 1, 1]⟩]

def eth3 : SrIf := ⟨"eth3", macAt [2, 0, 0, 0, 0, 3] 0, 16842762⟩

theorem eth3Entries_describe : Describe eth3Entries eth3 where
  named := by decide +kernel
  single := by decide +kernel
  ether := by decide +kernel
  ethip := by decide +kernel

theorem handleHwinfo_described_eth3
    : (hwinfoMessage [eth3Entries].flatten (by decide)).handleHwinfo
        (fun _ => (Vector.replicate 6 0, 0)) []
      = some [eth3] :=
  handleHwinfo_described (.cons eth3Entries_describe .nil) (by decide) _ []

end Networks.Router
