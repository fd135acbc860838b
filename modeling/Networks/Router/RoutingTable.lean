import Networks.Library.TextFields
import Networks.Router.LongestPrefix

/-! The routing table as text: how `sr_load_rt` reads a file, and how `sr_print_routing_entry`
prints an entry. What is printed is loaded again, and lines with nothing but spaces, which load
the line before them once more, do not change where packets are sent.
-/

namespace Networks.Router

open ByteFields TextFields
open Ctcp (htonl fieldBytes32)

-----------------------------------------------------------------------------------------
-- Addresses as text
-----------------------------------------------------------------------------------------

/-- `isspace`, which also tells `sscanf` where a field ends. -/
def isspace (char : UInt8) : Bool := char = 32 || (9 ≤ char && char ≤ 13)

/-- `isdigit`. -/
def isdigit (char : UInt8) : Bool := 48 ≤ char && char ≤ 57

/-- The value of a digit in any base that has it; no base has a digit 36. -/
def digitValue (char : UInt8) : Nat :=
  if isdigit char then
    char.toNat - 48
  else if 65 ≤ char ∧ char ≤ 90 then
    char.toNat - 55
  else if 97 ≤ char ∧ char ≤ 122 then
    char.toNat - 87
  else
    36

/-- The number that a text goes on with in a base, and what is behind it. -/
def readDigits (base value : Nat) : List UInt8 → Nat × List UInt8
  | [] => (value, [])
  | char :: text =>
      if digitValue char < base then
        readDigits base (value * base + digitValue char) text
      else
        (value, char :: text)

/-- `strtoul` with base 0, on a text that begins with a digit: hexadecimal after `0x`, octal
after `0`. A value that is too large for its result is left to the caller.
-/
def strtoul : List UInt8 → Nat × List UInt8
  | 48 :: mark :: char :: text =>
      if (mark = 120 ∨ mark = 88) ∧ digitValue char < 16 then
        readDigits 16 0 (char :: text)
      else
        readDigits 8 0 (48 :: mark :: char :: text)
  | 48 :: text => readDigits 8 0 (48 :: text)
  | text => readDigits 10 0 text

/-- The loop of `inet_aton`: the numbers in front of dots, of which there are at most `dots`,
the last number, and what is behind it.
-/
def inetNumbers : Nat → List UInt8 → Option (List UInt8 × Nat × List UInt8)
  | dots, text =>
      if ¬ text.head?.any isdigit ∨ (strtoul text).1 > 0xffffffff then
        none
      else if (strtoul text).2.head? = some 46 then
        match dots with
        | 0 => none
        | dots + 1 =>
            if (strtoul text).1 > 0xff then
              none
            else
              (inetNumbers dots ((strtoul text).2.drop 1)).map
                fun (numbers, last, behind) => (.ofNat (strtoul text).1 :: numbers, last, behind)
      else
        some ([], (strtoul text).1, (strtoul text).2)

/-- `inet_aton`: the last number fills the bytes that the others leave. -/
def inetAton (text : List UInt8) : Option UInt32 :=
  (inetNumbers 3 text).bind fun (numbers, last, behind) =>
    if ¬ behind.head?.all isspace ∨ last ≥ 256 ^ (4 - numbers.length) then
      none
    else
      some (wordAt numbers 0 ||| htonl (.ofNat last))

/-- `%d` of a byte. -/
def decimal (byte : UInt8) : List UInt8 :=
  (Nat.toDigits 10 byte.toNat).map fun char => .ofNat char.toNat

/-- `inet_ntoa`. -/
def inetNtoa (address : UInt32) : List UInt8 :=
  [46].intercalate ((fieldBytes32 address).map decimal)

/-- The digits of a number are read up to what is none, by induction on them. -/
theorem readDigits_append {base : Nat} {digits : List UInt8}
    (valid : ∀ char ∈ digits, digitValue char < base) (value : Nat) (text : List UInt8)
    : readDigits base value (digits ++ text)
      = readDigits base (readDigits base value digits).1 text := by
  induction digits generalizing value with
  | nil => rfl
  | cons char digits ih =>
      have first := valid char (by simp)
      have later := ih (fun char member => valid char (by simp [member]))
      simp only [List.cons_append, readDigits, if_pos first]
      exact later _

/-- The digits of a value, which begin with a zero only if there is nothing else. -/
structure Decimal (digits : List UInt8) (value : Nat) : Prop where
  base : ∀ char ∈ digits, isdigit char ∧ digitValue char < 10
  nonempty : digits ≠ []
  read : (readDigits 10 0 digits).1 = value
  leading : digits.head? = some 48 → digits = [48]

instance (digits : List UInt8) (value : Nat) : Decidable (Decimal digits value) :=
  decidable_of_iff
    ((digits.all fun char => isdigit char ∧ digitValue char < 10) ∧ digits ≠ []
      ∧ (readDigits 10 0 digits).1 = value ∧ (digits.head? = some 48 → digits = [48]))
    ⟨fun ⟨base, nonempty, read, leading⟩ => ⟨by simpa using base, nonempty, read, leading⟩,
      fun holds => ⟨by simpa using holds.base, holds.nonempty, holds.read, holds.leading⟩⟩

theorem decimal_spec (byte : UInt8) : Decimal (decimal byte) byte.toNat := by
  have all : ∀ value < 256, Decimal (decimal (.ofNat value)) value := by decide +kernel
  have one := all byte.toNat byte.toNat_lt
  rwa [UInt8.ofNat_toNat] at one

/-- The text does not go on with a digit of any base, or with the mark of a base. -/
def NoDigit (text : List UInt8) : Prop := ∀ char ∈ text.head?, digitValue char = 36

theorem readDigits_noDigit {base : Nat} {text : List UInt8} (noDigit : NoDigit text)
    (known : base ≤ 36) (value : Nat)
    : readDigits base value text = (value, text) := by
  cases text with
  | nil => rfl
  | cons char text =>
      have none := noDigit char rfl
      rw [readDigits, if_neg (by omega)]

theorem strtoul_decimal {head : UInt8} (nonzero : head ≠ 48) (text : List UInt8)
    : strtoul (head :: text) = readDigits 10 0 (head :: text) := by
  unfold strtoul
  split <;> simp_all

/-- What begins with a zero is an octal number, unless a mark is behind the zero. -/
theorem strtoul_zero {text : List UInt8} (noDigit : NoDigit text)
    : strtoul (48 :: text) = (0, text) := by
  have octal : readDigits 8 0 (48 :: text) = (0, text) := by
    rw [readDigits, if_pos (by decide)]
    exact readDigits_noDigit noDigit (by omega) _
  unfold strtoul
  split
  · next mark char text same =>
      obtain rfl : _ = mark :: char :: text := by simpa using same
      have unmarked : ¬ ((mark = 120 ∨ mark = 88) ∧ digitValue char < 16) := by
        rintro ⟨rfl | rfl, -⟩
        · exact absurd (noDigit 120 rfl) (by decide)
        · exact absurd (noDigit 88 rfl) (by decide)
      rw [if_neg unmarked]
      exact octal
  · next same =>
      obtain ⟨-, rfl⟩ := List.cons.inj same
      exact octal
  · next other =>
      exact absurd rfl (other text)

/-- A decimal number is read back. -/
theorem strtoul_append {digits text : List UInt8} {value : Nat} (numeral : Decimal digits value)
    (noDigit : NoDigit text)
    : strtoul (digits ++ text) = (value, text) := by
  obtain ⟨head, tail, rfl⟩ := List.exists_cons_of_ne_nil numeral.nonempty
  by_cases zero : head = 48
  · subst zero
    have alone := numeral.leading rfl
    obtain ⟨-, rfl⟩ := List.cons.inj alone
    have value := numeral.read
    obtain rfl : 0 = _ := value
    exact strtoul_zero noDigit
  · rw [List.cons_append, strtoul_decimal zero, ← List.cons_append,
      readDigits_append (fun char member => (numeral.base char member).2), numeral.read,
      readDigits_noDigit noDigit (by omega)]

/-- A byte begins with a digit and is no number that `inet_aton` rejects. -/
theorem byte_accepted (byte : UInt8) (text : List UInt8)
    : ¬ (¬ (decimal byte ++ text).head?.any isdigit ∨ byte.toNat > 0xffffffff) := by
  have numeral := decimal_spec byte
  have small := byte.toNat_lt
  obtain ⟨head, tail, same⟩ := List.exists_cons_of_ne_nil numeral.nonempty
  have first : isdigit head := (numeral.base head (by simp [same])).1
  rw [same]
  rintro (none | large)
  · exact none first
  · omega

/-- A byte in front of a dot. -/
theorem inetNumbers_dot (byte : UInt8) (dots : Nat) (text : List UInt8)
    : inetNumbers (dots + 1) (decimal byte ++ 46 :: text)
      = (inetNumbers dots text).map
          fun (numbers, last, behind) => (byte :: numbers, last, behind) := by
  have noDigit : NoDigit (46 :: text) := by
    intro char first
    obtain rfl := Option.some.inj first
    decide
  have read := strtoul_append (decimal_spec byte) noDigit
  have small : ¬ byte.toNat > 0xff := by
    have bound := byte.toNat_lt
    omega
  rw [inetNumbers, read, if_neg (byte_accepted byte _)]
  simp only [List.head?_cons, ↓reduceIte, if_neg small, UInt8.ofNat_toNat, List.drop_one,
    List.tail_cons]

/-- The byte behind the last dot. -/
theorem inetNumbers_last (byte : UInt8) (dots : Nat)
    : inetNumbers dots (decimal byte) = some ([], byte.toNat, []) := by
  have noDigit : NoDigit [] := fun _ first => nomatch first
  have read := strtoul_append (decimal_spec byte) noDigit
  have accepted := byte_accepted byte []
  rw [List.append_nil] at read accepted
  cases dots <;> rw [inetNumbers, read, if_neg accepted, if_neg (by simp)]

/-- Three bytes and a last number make up an address. -/
theorem address_bytes (address : UInt32)
    : wordAt [.ofNat (address.toNat % 256), .ofNat (address.toNat / 256 % 256),
          .ofNat (address.toNat / 65536 % 256)] 0
        ||| htonl (.ofNat (address.toNat / 16777216))
      = address := by
  have small := address.toNat_lt
  have front : (wordAt [.ofNat (address.toNat % 256), .ofNat (address.toNat / 256 % 256),
      .ofNat (address.toNat / 65536 % 256)] 0).toNat = address.toNat % 2 ^ 24 := by
    simp [wordAt, field32_toNat, byteAt, UInt8.toNat_ofNat']
    omega
  have last : (htonl (.ofNat (address.toNat / 16777216))).toNat
      = 2 ^ 24 * (address.toNat / 2 ^ 24) := by
    have byte : address.toNat / 16777216 < 256 := by omega
    have host : (UInt32.ofNat (address.toNat / 16777216)).toNat = address.toNat / 16777216 :=
      UInt32.toNat_ofNat_of_lt' (by simp [UInt32.size]; omega)
    rw [htonl, host, UInt32.toNat_ofNat_of_lt' (by simp [UInt32.size]; omega)]
    omega
  apply UInt32.toNat_inj.mp
  rw [UInt32.toNat_or, front, last, Nat.or_comm,
    ← Nat.two_pow_add_eq_or_of_lt (Nat.mod_lt _ (by decide)), Nat.div_add_mod]

/-- An address that was printed is read back. -/
theorem inetAton_inetNtoa (address : UInt32) : inetAton (inetNtoa address) = some address := by
  have small := address.toNat_lt
  have last : (UInt8.ofNat (address.toNat / 16777216)).toNat = address.toNat / 16777216 := by
    rw [UInt8.toNat_ofNat']
    omega
  have numbers : inetNumbers 3 (inetNtoa address)
      = some ([.ofNat (address.toNat % 256), .ofNat (address.toNat / 256 % 256),
          .ofNat (address.toNat / 65536 % 256)], address.toNat / 16777216, []) := by
    simp only [inetNtoa, fieldBytes32, List.map_cons, List.map_nil, List.intercalate_cons_cons,
      List.intercalate_singleton, List.append_assoc, List.cons_append, List.nil_append,
      inetNumbers_dot, inetNumbers_last, Option.map_some, last]
  have accepted : ¬ (¬ ([] : List UInt8).head?.all isspace
      ∨ address.toNat / 16777216 ≥ 256 ^ (4 - 3)) := by
    rintro (none | large)
    · exact none rfl
    · omega
  rw [inetAton, numbers, Option.bind_some]
  exact (if_neg accepted).trans (congrArg some (address_bytes address))

-----------------------------------------------------------------------------------------
-- Loading a table
-----------------------------------------------------------------------------------------

/-- An array up to its terminating zero. -/
def cString (bytes : List UInt8) : List UInt8 := bytes.takeWhile fun byte => byte ≠ 0

/-- The name in an array of `sr_IFACE_NAMELEN` bytes, after `strncpy`. -/
def nameOf (bytes : List UInt8) : String :=
  String.ofList ((bytes.take 32).map fun byte => Char.ofNat byte.toNat)

/-- The arrays of `sr_load_rt` that the fields of a line are read into. -/
structure RtFields where
  dest : List UInt8
  gw : List UInt8
  mask : List UInt8
  iface : List UInt8
  deriving DecidableEq

/-- `sscanf` with four times `%s`. What the line has no field for stays as it is; a field that
does not fit into its array, with a zero behind, is written behind the end of it.
-/
def RtFields.sscanf (line : List UInt8) (arrays : RtFields) : Option RtFields :=
  let found := fields isspace 4 (cString line)
  if ∀ field ∈ found, field.length < 32 then
    some
      {
        dest := found.getD 0 arrays.dest
        gw := found.getD 1 arrays.gw
        mask := found.getD 2 arrays.mask
        iface := found.getD 3 arrays.iface
      }
  else
    none

/-- The entry that the arrays stand for, if all three addresses are valid. -/
def RtFields.entry (arrays : RtFields) : Option SrRt :=
  match inetAton arrays.dest, inetAton arrays.gw, inetAton arrays.mask with
  | some dest, some gw, some mask => some ⟨dest, gw, mask, nameOf arrays.iface⟩
  | _, _, _ => none

/-- `sr_add_rt_entry`. -/
def srAddRtEntry (entry : SrRt) (table : List SrRt) : List SrRt := table ++ [entry]

/-- The loop of `sr_load_rt`: its result and the routing table. The table is cleared when the
first line turns out to be valid, and a line that is not ends the loop.
-/
def srLoadRtLoop (arrays : RtFields) (clearRoutingTable : Bool) (table : List SrRt)
    : List (List UInt8) → Option (Int × List SrRt)
  | [] => some (0, table)
  | line :: lines =>
      (arrays.sscanf line).bind fun arrays =>
        match arrays.entry with
        | none => some (-1, table)
        | some entry =>
            srLoadRtLoop arrays true
              (srAddRtEntry entry (if clearRoutingTable then table else [])) lines

/-- `sr_load_rt` of a file, which may be missing. The arrays are not initialised; `BUFSIZ` is
8192, of which `fgets` leaves one byte for a zero.
-/
def srLoadRt (arrays : RtFields) (file : Option (List UInt8)) (table : List SrRt)
    : Option (Int × List SrRt) :=
  match file with
  | none => some (-1, table)
  | some text => srLoadRtLoop arrays false table (readLines 10 8191 text.length text)

-----------------------------------------------------------------------------------------
-- Loading what was printed
-----------------------------------------------------------------------------------------

/-- The bytes of a name. -/
def nameBytes (name : String) : List UInt8 := name.toList.map fun char => .ofNat char.toNat

/-- What `sr_print_routing_entry` prints in front of the newline. -/
def printedEntry (entry : SrRt) : List UInt8 :=
  inetNtoa entry.dest ++ [9, 9] ++ inetNtoa entry.gw ++ [9] ++ inetNtoa entry.mask ++ [9]
    ++ nameBytes entry.interface

/-- `sr_print_routing_entry`. -/
def srPrintRoutingEntry (entry : SrRt) : List UInt8 := printedEntry entry ++ [10]

/-- A name that `%s` reads as it was printed. -/
structure PlainName (name : String) : Prop where
  nonempty : name ≠ ""
  fits : name.length < 32
  bytes : ∀ char ∈ name.toList, char.toNat < 256
  solid : ∀ byte ∈ nameBytes name, isspace byte = false ∧ byte ≠ 0

theorem nameOf_nameBytes {name : String} (plain : PlainName name)
    : nameOf (nameBytes name) = name := by
  have whole : (nameBytes name).take 32 = nameBytes name := by
    rw [List.take_of_length_le]
    have fits := plain.fits
    simp only [nameBytes, List.length_map, String.length_toList]
    omega
  have chars : (nameBytes name).map (fun byte => Char.ofNat byte.toNat) = name.toList := by
    rw [nameBytes, List.map_map]
    refine (List.map_congr_left fun char member => ?_).trans (List.map_id _)
    have small := plain.bytes char member
    have byte : (UInt8.ofNat char.toNat).toNat = char.toNat := by
      rw [UInt8.toNat_ofNat']
      omega
    rw [Function.comp_apply, byte, Char.ofNat_toNat, id]
  rw [nameOf, whole, chars, String.ofList_toList]

/-- What a printed field is made of. -/
structure Solid (field : List UInt8) : Prop where
  nonempty : field ≠ []
  fits : field.length < 32
  bytes : ∀ byte ∈ field, isspace byte = false ∧ byte ≠ 0

theorem decimal_solid (byte : UInt8)
    : (decimal byte).length ≤ 3
      ∧ ∀ char ∈ decimal byte, isspace char = false ∧ char ≠ 0 := by
  have all : ∀ value < 256, (decimal (.ofNat value)).length ≤ 3
      ∧ (decimal (.ofNat value)).all fun char => isspace char = false ∧ char ≠ 0 := by
    decide +kernel
  have one := all byte.toNat byte.toNat_lt
  rw [UInt8.ofNat_toNat] at one
  exact ⟨one.1, by simpa using one.2⟩

theorem inetNtoa_solid (address : UInt32) : Solid (inetNtoa address) := by
  have text : ∃ first second third last, inetNtoa address
      = decimal first ++ 46 :: (decimal second ++ 46 :: (decimal third ++ 46 :: decimal last)) :=
    ⟨_, _, _, _, by simp [inetNtoa, fieldBytes32]; rfl⟩
  obtain ⟨first, second, third, last, same⟩ := text
  have firstSolid := decimal_solid first
  have secondSolid := decimal_solid second
  have thirdSolid := decimal_solid third
  have lastSolid := decimal_solid last
  rw [same]
  refine ⟨by simp, by simp; omega, fun byte member => ?_⟩
  have dot : isspace 46 = false ∧ (46 : UInt8) ≠ 0 := by decide
  simp only [List.mem_append, List.mem_cons] at member
  rcases member with inside | rfl | inside | rfl | inside | rfl | inside
  · exact firstSolid.2 byte inside
  · exact dot
  · exact secondSolid.2 byte inside
  · exact dot
  · exact thirdSolid.2 byte inside
  · exact dot
  · exact lastSolid.2 byte inside

theorem PlainName.solid_nameBytes {name : String} (plain : PlainName name)
    : Solid (nameBytes name) where
  nonempty := by
    intro empty
    have chars : name.toList = [] := List.map_eq_nil_iff.mp empty
    exact plain.nonempty (String.toList_eq_nil_iff.mp chars)
  fits := by
    rw [nameBytes, List.length_map, String.length_toList]
    exact plain.fits
  bytes := plain.solid

/-- The fields of a printed entry. -/
def printedFields (entry : SrRt) : RtFields where
  dest := inetNtoa entry.dest
  gw := inetNtoa entry.gw
  mask := inetNtoa entry.mask
  iface := nameBytes entry.interface

theorem printedFields_entry {entry : SrRt} (plain : PlainName entry.interface)
    : (printedFields entry).entry = some entry := by
  simp only [RtFields.entry, printedFields, inetAton_inetNtoa, nameOf_nameBytes plain]

theorem tab_space : isspace 9 = true := rfl

/-- A field behind spaces ends at a space. -/
theorem fields_solid {gap field rest : List UInt8} (spaces : ∀ char ∈ gap, isspace char)
    (solid : Solid field) {space : UInt8} (isSpace : isspace space) (count : Nat)
    : fields isspace (count + 1) (gap ++ (field ++ space :: rest))
      = field :: fields isspace count (space :: rest) :=
  fields_append spaces (fun byte member => (solid.bytes byte member).1) solid.nonempty
    (Or.inr ⟨space, rest, rfl, isSpace⟩) count

theorem fields_printed {entry : SrRt} (plain : PlainName entry.interface)
    : fields isspace 4 (srPrintRoutingEntry entry)
      = [inetNtoa entry.dest, inetNtoa entry.gw, inetNtoa entry.mask,
          nameBytes entry.interface] := by
  calc
    fields isspace 4 (srPrintRoutingEntry entry)
      = fields isspace 4 ([] ++ (inetNtoa entry.dest ++ 9 :: ([9] ++ (inetNtoa entry.gw
        ++ 9 :: (inetNtoa entry.mask ++ 9 :: (nameBytes entry.interface ++ [10])))))) := by
      simp [srPrintRoutingEntry, printedEntry]
    _ = inetNtoa entry.dest :: fields isspace 3 ([9, 9] ++ (inetNtoa entry.gw
        ++ 9 :: (inetNtoa entry.mask ++ 9 :: (nameBytes entry.interface ++ [10])))) :=
      fields_solid (by simp) (inetNtoa_solid entry.dest) rfl 3
    _ = inetNtoa entry.dest :: inetNtoa entry.gw :: fields isspace 2 ([9]
        ++ (inetNtoa entry.mask ++ 9 :: (nameBytes entry.interface ++ [10]))) := by
      rw [fields_solid (by simp [tab_space]) (inetNtoa_solid entry.gw) rfl 2]
      rfl
    _ = inetNtoa entry.dest :: inetNtoa entry.gw :: inetNtoa entry.mask
        :: fields isspace 1 ([9] ++ (nameBytes entry.interface ++ [10])) := by
      rw [fields_solid (by simp [tab_space]) (inetNtoa_solid entry.mask) rfl 1]
      rfl
    _ = [inetNtoa entry.dest, inetNtoa entry.gw, inetNtoa entry.mask,
          nameBytes entry.interface] := by
      rw [fields_solid (by simp [tab_space]) plain.solid_nameBytes rfl 0]
      rfl

/-- A printed entry is one line. -/
theorem printedEntry_bytes {entry : SrRt} (plain : PlainName entry.interface) {byte : UInt8}
    (member : byte ∈ printedEntry entry)
    : byte ≠ 0 ∧ byte ≠ 10 := by
  have solid : ∀ {field : List UInt8}, Solid field → byte ∈ field → byte ≠ 0 ∧ byte ≠ 10 := by
    intro field solid inside
    refine ⟨(solid.bytes byte inside).2, ?_⟩
    rintro rfl
    exact absurd (solid.bytes 10 inside).1 (by decide)
  have tab : (9 : UInt8) ≠ 0 ∧ (9 : UInt8) ≠ 10 := by decide
  simp only [printedEntry, List.mem_append, List.mem_cons, List.not_mem_nil, or_false]
    at member
  rcases member with (((((inside | rfl | rfl) | inside) | rfl) | inside) | rfl) | inside
  · exact solid (inetNtoa_solid _) inside
  · exact tab
  · exact tab
  · exact solid (inetNtoa_solid _) inside
  · exact tab
  · exact solid (inetNtoa_solid _) inside
  · exact tab
  · exact solid plain.solid_nameBytes inside

theorem length_printedEntry {entry : SrRt} (plain : PlainName entry.interface)
    : (printedEntry entry).length < 8191 := by
  have dest := (inetNtoa_solid entry.dest).fits
  have gw := (inetNtoa_solid entry.gw).fits
  have mask := (inetNtoa_solid entry.mask).fits
  have iface := plain.solid_nameBytes.fits
  simp only [printedEntry, List.length_append, List.length_cons, List.length_nil]
  omega

/-- A printed entry is read into its own fields, whatever is in the arrays. -/
theorem sscanf_printed {entry : SrRt} (plain : PlainName entry.interface) (arrays : RtFields)
    : arrays.sscanf (srPrintRoutingEntry entry) = some (printedFields entry) := by
  have string : cString (srPrintRoutingEntry entry) = srPrintRoutingEntry entry := by
    refine List.takeWhile_eq_self_iff.mpr fun byte member => ?_
    rcases List.mem_append.mp member with inside | newline
    · simpa using (printedEntry_bytes plain inside).1
    · obtain rfl := List.mem_singleton.mp newline
      rfl
  have fit : ∀ field ∈ [inetNtoa entry.dest, inetNtoa entry.gw, inetNtoa entry.mask,
      nameBytes entry.interface], field.length < 32 := by
    simp [(inetNtoa_solid _).fits, plain.solid_nameBytes.fits]
  rw [RtFields.sscanf, string, fields_printed plain]
  exact if_pos fit

/-- A line with valid addresses adds its entry. -/
theorem srLoadRtLoop_line {line : List UInt8} {arrays scanned : RtFields} {entry : SrRt}
    (scan : arrays.sscanf line = some scanned) (valid : scanned.entry = some entry)
    (clearRoutingTable : Bool) (table : List SrRt) (lines : List (List UInt8))
    : srLoadRtLoop arrays clearRoutingTable table (line :: lines)
      = srLoadRtLoop scanned true
          (srAddRtEntry entry (if clearRoutingTable then table else [])) lines := by
  simp only [srLoadRtLoop, scan, Option.bind_some, valid]

/-- Printed entries are added one by one, by induction on them. -/
theorem srLoadRtLoop_printed {entries : List SrRt}
    (plain : ∀ entry ∈ entries, PlainName entry.interface) (arrays : RtFields)
    (table : List SrRt)
    : srLoadRtLoop arrays true table (entries.map srPrintRoutingEntry)
      = some (0, table ++ entries) := by
  induction entries generalizing arrays table with
  | nil => simp [srLoadRtLoop]
  | cons entry entries ih =>
      have first := plain entry (by simp)
      rw [List.map_cons, srLoadRtLoop_line (sscanf_printed first arrays)
        (printedFields_entry first), if_pos rfl,
        ih (fun entry member => plain entry (by simp [member])), srAddRtEntry,
        List.append_assoc, List.singleton_append]

/-- The lines of a file. -/
theorem readLines_file {lines : List (List UInt8)} (single : ∀ line ∈ lines, 10 ∉ line)
    (fits : ∀ line ∈ lines, line.length < 8191)
    : readLines 10 8191 (lines.flatMap fun line => line ++ [10]).length
        (lines.flatMap fun line => line ++ [10])
      = lines.map fun line => line ++ [10] :=
  readLines_marked single fits (length_le_flatMap 10 lines)

/-- The lines of a printed table are its entries. -/
theorem readLines_printed {table : List SrRt}
    (plain : ∀ entry ∈ table, PlainName entry.interface)
    : readLines 10 8191 (table.flatMap srPrintRoutingEntry).length
        (table.flatMap srPrintRoutingEntry)
      = table.map srPrintRoutingEntry := by
  have single : ∀ line ∈ table.map printedEntry, 10 ∉ line := by
    intro line member inside
    obtain ⟨entry, listed, rfl⟩ := List.mem_map.mp member
    exact (printedEntry_bytes (plain entry listed) inside).2 rfl
  have fits : ∀ line ∈ table.map printedEntry, line.length < 8191 := by
    intro line member
    obtain ⟨entry, listed, rfl⟩ := List.mem_map.mp member
    exact length_printedEntry (plain entry listed)
  have read := readLines_file single fits
  rwa [List.flatMap_map, List.map_map] at read

/-- The first printed entry clears the table, and the others are added. -/
theorem srLoadRtLoop_table {table : List SrRt}
    (plain : ∀ entry ∈ table, PlainName entry.interface) (nonempty : table ≠ [])
    (arrays : RtFields) (old : List SrRt)
    : srLoadRtLoop arrays false old (table.map srPrintRoutingEntry) = some (0, table) := by
  obtain ⟨entry, entries, rfl⟩ := List.exists_cons_of_ne_nil nonempty
  have first := plain entry (by simp)
  rw [List.map_cons, srLoadRtLoop_line (sscanf_printed first arrays)
    (printedFields_entry first), if_neg (by decide),
    srLoadRtLoop_printed fun entry member => plain entry (by simp [member])]
  rfl

/-- A routing table that was printed is loaded as it was, whatever the router had before and
whatever lies on the stack.
-/
theorem srLoadRt_printed {table : List SrRt}
    (plain : ∀ entry ∈ table, PlainName entry.interface) (nonempty : table ≠ [])
    (arrays : RtFields) (old : List SrRt)
    : srLoadRt arrays (some (table.flatMap srPrintRoutingEntry)) old = some (0, table) := by
  rw [srLoadRt, readLines_printed plain]
  exact srLoadRtLoop_table plain nonempty arrays old

instance (name : String) : Decidable (PlainName name) :=
  decidable_of_iff
    (name ≠ "" ∧ name.length < 32 ∧ (name.toList.all fun char => char.toNat < 256)
      ∧ (nameBytes name).all fun byte => isspace byte = false ∧ byte ≠ 0)
    ⟨fun ⟨nonempty, fits, bytes, solid⟩ =>
        ⟨nonempty, fits, by simpa using bytes, by simpa using solid⟩,
      fun holds =>
        ⟨holds.nonempty, holds.fits, by simpa using holds.bytes, by simpa using holds.solid⟩⟩

/-- The routing table that comes with the router, printed and loaded. -/
theorem srLoadRt_printed_rtable
    : srLoadRt ⟨[], [], [], []⟩ (some (rtable.flatMap srPrintRoutingEntry)) [] = some (0, rtable) :=
  srLoadRt_printed (by decide +kernel) (by decide) _ _

-----------------------------------------------------------------------------------------
-- Blank lines
-----------------------------------------------------------------------------------------

/-- A line with nothing but spaces. -/
def Blank (line : List UInt8) : Prop := ∀ byte ∈ cString line, isspace byte

instance (line : List UInt8) : Decidable (Blank line) :=
  decidable_of_iff ((cString line).all isspace) List.all_eq_true

/-- A blank line leaves the arrays as they are. -/
theorem sscanf_blank {line : List UInt8} (blank : Blank line) (arrays : RtFields)
    : arrays.sscanf (line ++ [10]) = some arrays := by
  have spaces : ∀ byte ∈ cString (line ++ [10]), isspace byte := by
    intro byte member
    rw [cString, List.takeWhile_append] at member
    split at member
    · next whole =>
        have same : cString line = line := (List.takeWhile_prefix _).eq_of_length whole
        rcases List.mem_append.mp member with inside | newline
        · exact blank byte (same.symm ▸ inside)
        · obtain rfl := List.mem_singleton.mp ((List.takeWhile_sublist _).subset newline)
          rfl
    · exact blank byte member
  rw [RtFields.sscanf, fields_of_spaces spaces]
  rfl

/-- Two results of loading agree if packets go the same ways. -/
structure SameRoutes (left right : Int × List SrRt) : Prop where
  result : left.1 = right.1
  routes
    : ∀ (sr : SrInstance) (targetIp : UInt32),
        { sr with routingTable := left.2 }.longestprefixmatch targetIp
        = { sr with routingTable := right.2 }.longestprefixmatch targetIp

theorem matching_append (targetIp : UInt32) (table : List SrRt) (entry : SrRt)
    : matching targetIp (table ++ [entry])
      = matching targetIp table ++ if entry.Matches targetIp then [entry] else [] := by
  by_cases matched : entry.Matches targetIp <;> simp [matching, matched]

/-- An entry that is there already is no better match at the end. -/
theorem argmax_again {table : List SrRt} {entry : SrRt} (listed : entry ∈ table)
    (targetIp : UInt32)
    : (matching targetIp (table ++ [entry])).argmax SrRt.maskNumber
      = (matching targetIp table).argmax SrRt.maskNumber := by
  rw [matching_append]
  split
  · next matched =>
      have candidate := mem_matching.mpr ⟨listed, matched⟩
      rw [List.argmax_concat]
      cases best : (matching targetIp table).argmax SrRt.maskNumber with
      | none =>
          rw [List.argmax_eq_none.mp best] at candidate
          cases candidate
      | some route =>
          exact if_neg (Nat.not_lt.mpr (List.le_of_mem_argmax candidate best))
  · rw [List.append_nil]

/-- An entry at the end of tables that route alike changes them alike. -/
theorem argmax_both {table padded : List SrRt} {targetIp : UInt32}
    (same
      : (matching targetIp padded).argmax SrRt.maskNumber
        = (matching targetIp table).argmax SrRt.maskNumber)
    (entry : SrRt)
    : (matching targetIp (padded ++ [entry])).argmax SrRt.maskNumber
      = (matching targetIp (table ++ [entry])).argmax SrRt.maskNumber := by
  rw [matching_append, matching_append]
  split
  · rw [List.argmax_concat, List.argmax_concat, same]
  · rw [List.append_nil, List.append_nil, same]

theorem sameRoutes_of_argmax {table padded : List SrRt}
    (same
      : ∀ targetIp,
          (matching targetIp padded).argmax SrRt.maskNumber
          = (matching targetIp table).argmax SrRt.maskNumber)
    (result : Int)
    : SameRoutes (result, padded) (result, table) where
  result := rfl
  routes := by
    intro sr targetIp
    rw [longestprefixmatch_eq_argmax, longestprefixmatch_eq_argmax]
    exact same targetIp

/-- Blank lines behind a valid one, by induction on the lines: the line before is loaded again,
and its entry is there already.
-/
theorem srLoadRtLoop_blank {lines : List (List UInt8)} {arrays : RtFields} {entry : SrRt}
    {table padded : List SrRt} (valid : arrays.entry = some entry) (listed : entry ∈ padded)
    (same
      : ∀ targetIp,
          (matching targetIp padded).argmax SrRt.maskNumber
          = (matching targetIp table).argmax SrRt.maskNumber)
    : Option.Rel SameRoutes
        (srLoadRtLoop arrays true padded (lines.map fun line => line ++ [10]))
        (srLoadRtLoop arrays true table
          ((lines.filter fun line => ¬ Blank line).map fun line => line ++ [10])) := by
  induction lines generalizing arrays entry table padded with
  | nil => exact .some (sameRoutes_of_argmax same 0)
  | cons line lines ih =>
      by_cases blank : Blank line
      · rw [List.filter_cons_of_neg (by simpa using blank), List.map_cons,
          srLoadRtLoop_line (sscanf_blank blank arrays) valid, if_pos rfl]
        exact ih valid (by simp [srAddRtEntry]) fun targetIp =>
          (argmax_again listed targetIp).trans (same targetIp)
      · rw [List.filter_cons_of_pos (by simpa using blank), List.map_cons, List.map_cons]
        cases scan : arrays.sscanf (line ++ [10]) with
        | none =>
            simp only [srLoadRtLoop, scan, Option.bind_none]
            exact .none
        | some scanned =>
            cases next : scanned.entry with
            | none =>
                simp only [srLoadRtLoop, scan, Option.bind_some, next]
                exact .some (sameRoutes_of_argmax same (-1))
            | some added =>
                rw [srLoadRtLoop_line scan next, srLoadRtLoop_line scan next, if_pos rfl,
                  if_pos rfl]
                exact ih next (by simp [srAddRtEntry]) fun targetIp =>
                  argmax_both (same targetIp) added

/-- The text of a file with these lines. -/
def fileOf (lines : List (List UInt8)) : List UInt8 := lines.flatMap fun line => line ++ [10]

/-- Blank lines behind the first line of a file change neither the result of loading it nor the
way any packet goes. The file ends with a newline, and its lines fit the buffer of `fgets`.
-/
theorem srLoadRt_blankLines {first : List UInt8} {lines : List (List UInt8)}
    (single : ∀ line ∈ first :: lines, 10 ∉ line)
    (fits : ∀ line ∈ first :: lines, line.length < 8191)
    (arrays : RtFields) (old : List SrRt)
    : Option.Rel SameRoutes
        (srLoadRt arrays (some (fileOf (first :: lines))) old)
        (srLoadRt arrays (some (fileOf (first :: lines.filter fun line => ¬ Blank line)))
          old) := by
  have kept : ∀ line ∈ first :: lines.filter (fun line => ¬ Blank line), line ∈ first :: lines := by
    intro line member
    rcases List.mem_cons.mp member with rfl | inside
    · exact List.mem_cons_self
    · exact List.mem_cons_of_mem _ (List.mem_of_mem_filter inside)
  simp only [srLoadRt, fileOf]
  rw [readLines_file single fits,
    readLines_file (fun line member => single line (kept line member))
      fun line member => fits line (kept line member), List.map_cons, List.map_cons]
  cases scan : arrays.sscanf (first ++ [10]) with
  | none =>
      simp only [srLoadRtLoop, scan, Option.bind_none]
      exact .none
  | some scanned =>
      cases valid : scanned.entry with
      | none =>
          simp only [srLoadRtLoop, scan, Option.bind_some, valid]
          exact .some ⟨rfl, fun _ _ => rfl⟩
      | some entry =>
          rw [srLoadRtLoop_line scan valid, srLoadRtLoop_line scan valid]
          exact srLoadRtLoop_blank valid (by simp [srAddRtEntry]) fun _ => rfl

/-- Two lines of the routing table that comes with the router, with a blank one between. -/
theorem srLoadRt_blankLines_rtable
    : let first := nameBytes "0.0.0.0  10.0.1.100  0.0.0.0 eth3"
      let second := nameBytes "192.168.2.2 192.168.2.2 255.255.255.255 eth1"
      Option.Rel SameRoutes
        (srLoadRt ⟨[], [], [], []⟩ (some (fileOf [first, [32, 32], second])) [])
        (srLoadRt ⟨[], [], [], []⟩
          (some (fileOf (first :: [[32, 32], second].filter fun line => ¬ Blank line))) []) :=
  srLoadRt_blankLines (by decide +kernel) (by decide +kernel) _ _

end Networks.Router
