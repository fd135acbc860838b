import Networks.Router.HeaderChecksum

/-! The two implementations of `cksum`, with their loops on machine integers. The models of the
two programs use functions of the bytes in their place.
-/

namespace Networks.Router

open ByteFields OnesComplement
open Ctcp (htons ntohs fieldBytes16)

-----------------------------------------------------------------------------------------
-- The loops
-----------------------------------------------------------------------------------------

/-- `(data[0] << 8) | data[1]`. -/
def cksumWord (data : List UInt8) : UInt32 :=
  (byteAt data 0).toUInt32 <<< 8 ||| (byteAt data 1).toUInt32

/-- The summing loop of `cksum` in `ctcp_utils.c`, where `len` has 16 bits. -/
def ctcpSum (sum : UInt32) (data : List UInt8) (len : UInt16) : UInt32 :=
  if 2 ≤ len then
    ctcpSum (sum + cksumWord data) (data.drop 2) (len - 2)
  else if 0 < len then
    sum + (byteAt data 0).toUInt32 <<< 8
  else
    sum
termination_by len.toNat
decreasing_by
  rename_i more
  have two := UInt16.le_iff_toNat_le.mp more
  rw [UInt16.toNat_sub_of_le _ _ more]
  have same : (2 : UInt16).toNat = 2 := rfl
  omega

/-- The summing loop of `cksum` in `sr_utils.c`, where `len` is an `int`. -/
def srSum (sum : UInt32) (data : List UInt8) (len : Int) : UInt32 :=
  if 2 ≤ len then
    srSum (sum + cksumWord data) (data.drop 2) (len - 2)
  else if 0 < len then
    sum + (byteAt data 0).toUInt32 <<< 8
  else
    sum
termination_by len.toNat

theorem foldStep_toNat (sum : UInt32)
    : ((sum >>> 16) + (sum &&& 0xffff)).toNat = sum.toNat / 65536 + sum.toNat % 65536 := by
  have bound := sum.toNat_lt
  have low : (sum &&& 0xffff).toNat = sum.toNat % 65536 := by
    rw [UInt32.toNat_and]
    exact Nat.and_two_pow_sub_one_eq_mod sum.toNat 16
  have high : (sum >>> 16).toNat = sum.toNat / 65536 := by
    rw [UInt32.toNat_shiftRight]
    exact Nat.shiftRight_eq_div_pow sum.toNat 16
  rw [UInt32.toNat_add, low, high]
  omega

/-- `while (sum > 0xffff) sum = (sum >> 16) + (sum & 0xffff)`. -/
def foldSum (sum : UInt32) : UInt32 :=
  if 0xffff < sum then foldSum ((sum >>> 16) + (sum &&& 0xffff)) else sum
termination_by sum.toNat
decreasing_by
  rename_i more
  have above := UInt32.lt_iff_toNat_lt.mp more
  have same : (0xffff : UInt32).toNat = 65535 := rfl
  rw [foldStep_toNat]
  omega

/-- `sum = htons(~sum)`, and then `sum ? sum : 0xffff`. -/
def complementSum (sum : UInt32) : UInt16 :=
  let sum := htons (~~~sum).toUInt16
  if sum ≠ 0 then sum else 0xffff

/-- `cksum` of `ctcp_utils.c`. -/
def ctcpCksum (data : List UInt8) (len : UInt16) : UInt16 :=
  complementSum (foldSum (ctcpSum 0 data len))

/-- `cksum` of `sr_utils.c`. -/
def srCksum (data : List UInt8) (len : Int) : UInt16 :=
  complementSum (foldSum (srSum 0 data len))

/-- The counters of the two loops are equal on 16 bits, by induction on the loop. -/
theorem ctcpSum_eq_srSum (sum : UInt32) (data : List UInt8) (len : UInt16)
    : ctcpSum sum data len = srSum sum data len.toNat := by
  fun_induction ctcpSum sum data len with
  | case1 sum data len more ih =>
      have two : (2 : UInt16).toNat ≤ len.toNat := UInt16.le_iff_toNat_le.mp more
      have same : (2 : UInt16).toNat = 2 := rfl
      have less : ((len - 2).toNat : Int) = len.toNat - 2 := by
        rw [UInt16.toNat_sub_of_le _ _ more]
        omega
      rw [srSum, if_pos (by omega), ← less]
      exact ih
  | case2 sum data len few one =>
      have two := UInt16.le_iff_toNat_le.not.mp few
      have positive := UInt16.lt_iff_toNat_lt.mp one
      have same : (2 : UInt16).toNat = 2 := rfl
      have zero : (0 : UInt16).toNat = 0 := rfl
      rw [srSum, if_neg (by omega), if_pos (by omega)]
  | case3 sum data len few none =>
      have nothing := UInt16.lt_iff_toNat_lt.not.mp none
      have zero : (0 : UInt16).toNat = 0 := rfl
      rw [srSum, if_neg (by omega), if_neg (by omega)]

theorem shifted_toNat (high : UInt8) : (high.toUInt32 <<< 8).toNat = high.toNat * 256 := by
  have bound := high.toNat_lt
  rw [UInt32.toNat_shiftLeft, UInt8.toNat_toUInt32]
  show high.toNat <<< 8 % 4294967296 = _
  rw [Nat.shiftLeft_eq]
  omega

theorem cksumWord_toNat (high low : UInt8) (rest : List UInt8)
    : (cksumWord (high :: low :: rest)).toNat = high.toNat * 256 + low.toNat := by
  show (high.toUInt32 <<< 8 ||| low.toUInt32).toNat = _
  have shifted : high.toNat <<< 8 = high.toNat * 256 := Nat.shiftLeft_eq high.toNat 8
  rw [UInt32.toNat_or, shifted_toNat, UInt8.toNat_toUInt32, ← shifted,
    ← Nat.shiftLeft_add_eq_or_of_lt low.toNat_lt]

/-- The accumulator holds the sum of the words and does not overflow, by induction on the
loop, with the sum still to come in the bound.
-/
theorem srSum_toNat {sum : UInt32} {data : List UInt8} {len : Nat}
    (within : len ≤ data.length) (bound : sum.toNat + (len + 1) / 2 * 65535 < 4294967296)
    : (srSum sum data len).toNat = sum.toNat + wordSum (data.take len) := by
  generalize counter : (len : Int) = remaining
  fun_induction srSum sum data remaining generalizing len with
  | case1 sum data remaining more ih =>
      obtain ⟨rest, rfl⟩ : ∃ rest, len = rest + 2 := ⟨len - 2, by omega⟩
      obtain ⟨high, tail, rfl⟩ := List.exists_cons_of_length_pos (by omega : 0 < data.length)
      rw [List.length_cons] at within
      obtain ⟨low, behind, rfl⟩ := List.exists_cons_of_length_pos (by omega : 0 < tail.length)
      have word := cksumWord_toNat high low behind
      have highBound := high.toNat_lt
      have lowBound := low.toNat_lt
      have next : (sum + cksumWord (high :: low :: behind)).toNat
          = sum.toNat + (high.toNat * 256 + low.toNat) := by
        rw [UInt32.toNat_add, word]
        omega
      have fits : rest ≤ behind.length := by simpa using within
      rw [@ih rest fits (by omega) (by omega), next]
      simp only [List.drop_succ_cons, List.drop_zero, List.take_succ_cons, wordSum]
      omega
  | case2 sum data remaining few one =>
      obtain rfl : len = 1 := by omega
      obtain ⟨high, behind, rfl⟩ := List.exists_cons_of_length_pos (by omega : 0 < data.length)
      have highBound := high.toNat_lt
      have first : ((byteAt (high :: behind) 0).toUInt32 <<< 8).toNat = high.toNat * 256 :=
        shifted_toNat high
      rw [UInt32.toNat_add, first]
      simp only [List.take_succ_cons, List.take_zero, wordSum]
      omega
  | case3 sum data remaining few none =>
      obtain rfl : len = 0 := by omega
      simp [wordSum]

/-- The folding loop ends with 16 bits, by induction on the loop. -/
theorem foldSum_folds (sum : UInt32) : Folds sum.toNat (foldSum sum).toNat := by
  fun_induction foldSum sum with
  | case1 sum more ih =>
      have above := UInt32.lt_iff_toNat_lt.mp more
      have same : (0xffff : UInt32).toNat = 65535 := rfl
      obtain ⟨small, residue, zero⟩ := ih
      rw [foldStep_toNat] at residue zero
      exact ⟨small, by omega, by omega⟩
  | case2 sum small =>
      have below := UInt32.lt_iff_toNat_lt.not.mp small
      have same : (0xffff : UInt32).toNat = 65535 := rfl
      exact ⟨by omega, rfl, Iff.rfl⟩

/-- The complement of a folded sum, in network order. -/
theorem ntohs_complementSum {sum : UInt32} (small : sum.toNat ≤ 65535)
    : (ntohs (complementSum sum)).toNat
      = if sum.toNat = 65535 then 65535 else 65535 - sum.toNat := by
  have bound := sum.toNat_lt
  have inverted : (~~~sum).toUInt16.toNat = 65535 - sum.toNat := by
    rw [UInt32.toNat_toUInt16, UInt32.toNat_not]
    show (4294967296 - 1 - sum.toNat) % 65536 = _
    omega
  by_cases ones : sum.toNat = 65535
  · have zero : (~~~sum).toUInt16 = 0 := UInt16.toNat_inj.mp (inverted.trans (by simp [ones]))
    rw [if_pos ones, complementSum, zero]
    decide
  · have nonzero : htons (~~~sum).toUInt16 ≠ 0 := by
      intro zero
      have same := congrArg (fun word => (ntohs word).toNat) zero
      simp only [Ctcp.ntohs_htons, inverted] at same
      have none : (ntohs 0).toNat = 0 := by decide
      omega
    simp only [if_neg ones, complementSum, if_pos nonzero, Ctcp.ntohs_htons, inverted]

theorem complementSum_ne_zero (sum : UInt32) : complementSum sum ≠ 0 := by
  simp only [complementSum]
  split
  · assumption
  · decide

-----------------------------------------------------------------------------------------
-- The checksum
-----------------------------------------------------------------------------------------

section Checksum

variable {data : List UInt8}

theorem srSum_take (short : data.length ≤ 65535) {len : Nat} (within : len ≤ data.length)
    : (srSum 0 data len).toNat = wordSum (data.take len) := by
  have summed := @srSum_toNat 0 data len within (by simp only [UInt32.toNat_zero]; omega)
  rwa [UInt32.toNat_zero, Nat.zero_add] at summed

theorem srSum_length (short : data.length ≤ 65535)
    : (srSum 0 data data.length).toNat = wordSum data := by
  rw [srSum_take short (Nat.le_refl _), List.take_length]

/-- Both loops run alike on a length of 16 bits. -/
theorem ctcpSum_ofNat {len : Nat} (short : len ≤ 65535)
    : ctcpSum 0 data (.ofNat len) = srSum 0 data len := by
  rw [ctcpSum_eq_srSum, UInt16.toNat_ofNat', Nat.mod_eq_of_lt (by omega)]

/-- The folded sum is the sum with end-around carry. -/
theorem foldSum_eq (short : data.length ≤ 65535)
    : (foldSum (srSum 0 data data.length)).toNat = endAroundSum data := by
  have folds := foldSum_folds (srSum 0 data data.length)
  rw [srSum_length short] at folds
  exact folds.unique (folds_endAroundSum data)

theorem ntohs_srCksum (short : data.length ≤ 65535)
    : (ntohs (srCksum data data.length)).toNat
      = if endAroundSum data = 65535 then 65535 else 65535 - endAroundSum data := by
  have folded := foldSum_eq short
  have small := (folds_endAroundSum data).small
  rw [srCksum, ntohs_complementSum (by omega), folded]

/-- The function that the model uses computes what the code computes. -/
theorem srCksum_eq (short : data.length ≤ 65535) : srCksum data data.length = Ctcp.cksum data := by
  have folds := folds_endAroundSum data
  have sumBound : wordSum data < 4294967296 := by
    have le := wordSum_le data
    omega
  have same : (ntohs (srCksum data data.length)).toNat = (ntohs (Ctcp.cksum data)).toNat := by
    obtain ⟨small, residue, zero⟩ := folds
    rw [ntohs_srCksum short, Ctcp.cksum_eq short, Ctcp.ntohs_htons, UInt16.toNat_ofNat',
      complement_eq sumBound]
    split <;> omega
  exact Ctcp.htons_inj.mp (UInt16.toNat_inj.mp same)

/-- The checksum of a byte string: both implementations compute it without overflow, it is the
complement of the sum with end-around carry, not zero, completes a zeroed field, and no two
strings that differ in one bit share it. Both models of the programs use it.
-/
structure SoundCksum (data : List UInt8) : Prop where
  same : ctcpCksum data (.ofNat data.length) = srCksum data data.length
  modelled
    : Ctcp.cksum data = ctcpCksum data (.ofNat data.length)
      ∧ cksum data data.length = srCksum data data.length
  summed
    : ∀ len, len ≤ data.length
      → (ctcpSum 0 data (.ofNat len)).toNat = wordSum (data.take len)
        ∧ (srSum 0 data len).toNat = wordSum (data.take len)
  folded
    : (foldSum (srSum 0 data data.length)).toNat = endAroundSum data
      ∧ (foldSum (srSum 0 data data.length)).toNat ≤ 0xffff
  nonzero : srCksum data data.length ≠ 0
  complement
    : (ntohs (srCksum data data.length)).toNat = 0xffff - endAroundSum data
      ∨ endAroundSum data = 0xffff ∧ ntohs (srCksum data data.length) = 0xffff
  completes
    : ∀ offset, offset % 2 = 0 → offset + 2 ≤ data.length → halfAt data offset = 0
      → endAroundSum (overwrite offset (fieldBytes16 (srCksum data data.length)) data) % 65535
        = 0
  flipped
    : ∀ bit, bit < 8 * data.length
      → srCksum (flipBit bit data) (flipBit bit data).length ≠ srCksum data data.length

/-- Writing the checksum into a zeroed field makes the sum a multiple of 65535. -/
theorem endAroundSum_overwrite (short : data.length ≤ 65535) {offset : Nat}
    (even : offset % 2 = 0) (inside : offset + 2 ≤ data.length) (zeroed : halfAt data offset = 0)
    : endAroundSum (overwrite offset (fieldBytes16 (srCksum data data.length)) data) % 65535
      = 0 := by
  have written := @wordSum_overwrite offset (fieldBytes16 (srCksum data data.length)) data even
    rfl inside
  have sumBound : wordSum data < 4294967296 := by
    have le := wordSum_le data
    omega
  have le := complement_le sumBound
  rw [zeroed, srCksum_eq short, Ctcp.cksum_eq short, Ctcp.wordSum_fieldBytes16,
    Ctcp.ntohs_htons, UInt16.toNat_ofNat', complement_eq sumBound] at written
  rw [(folds_endAroundSum _).residue, srCksum_eq short, Ctcp.cksum_eq short,
    complement_eq sumBound]
  omega

/-- Inverting a bit changes the checksum. -/
theorem srCksum_flipBit (short : data.length ≤ 65535) {bit : Nat} (inside : bit < 8 * data.length)
    : srCksum (flipBit bit data) (flipBit bit data).length ≠ srCksum data data.length := by
  have length : (flipBit bit data).length = data.length := List.length_modify _ _ _
  rw [srCksum_eq (length ▸ short), srCksum_eq short, ne_eq,
    Ctcp.cksum_eq_cksum (length ▸ short) short]
  exact (wordSum_flipBit inside).mod_ne

/-- The checksum of every string of up to 65535 bytes is sound. -/
theorem cksum_sound (data : List UInt8) (short : data.length ≤ 65535) : SoundCksum data := by
  have folded := foldSum_eq short
  have small := (folds_endAroundSum data).small
  have same : ctcpCksum data (.ofNat data.length) = srCksum data data.length := by
    rw [ctcpCksum, ctcpSum_ofNat short, srCksum]
  have whole : cksum data data.length = Ctcp.cksum data := by
    have all : data.take (data.length : Int).toNat = data := by simp
    rw [cksum, all]
    rfl
  refine
    { same := same
      modelled := ⟨?_, ?_⟩
      summed := fun len within => ⟨?_, srSum_take short within⟩
      folded := ⟨folded, by omega⟩
      nonzero := complementSum_ne_zero _
      complement := ?_
      completes := fun offset even inside zeroed =>
        endAroundSum_overwrite short even inside zeroed
      flipped := fun bit inside => srCksum_flipBit short inside }
  · rw [same, srCksum_eq short]
  · rw [whole, srCksum_eq short]
  · rw [ctcpSum_ofNat (by omega), srSum_take short within]
  · have result := ntohs_srCksum short
    split at result
    · next ones => exact Or.inr ⟨ones, UInt16.toNat_inj.mp result⟩
    · exact Or.inl result

/-- An odd string whose words add up to all ones. -/
theorem cksum_sound_odd : SoundCksum [0xff, 0xfe, 0, 0, 0, 1, 0] :=
  cksum_sound [0xff, 0xfe, 0, 0, 0, 1, 0] (by decide)

end Checksum

end Networks.Router
