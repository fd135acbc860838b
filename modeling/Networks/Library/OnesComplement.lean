import Mathlib.Data.List.Basic
import Mathlib.Algebra.Group.Nat.Defs
import Mathlib.Tactic.IntervalCases

/-! One's-complement 16-bit sums of byte strings.
Folding carries keeps a sum modulo 65535, so the complemented sum is a function of that
residue alone. The all-zero result is replaced by its other representation, 65535.
-/

namespace OnesComplement

/-- The sum of the big-endian 16-bit words, a last odd byte being padded with zero. -/
def wordSum : List UInt8 → Nat
  | high :: low :: rest => high.toNat * 256 + low.toNat + wordSum rest
  | [high] => high.toNat * 256
  | [] => 0

/-- At most `fuel` rounds of adding the high half of a sum to its low half. -/
def foldCarries : Nat → Nat → Nat
  | 0, sum => sum
  | fuel + 1, sum =>
      if sum > 65535 then foldCarries fuel (sum / 65536 + sum % 65536) else sum

/-- The one's-complement sum of the 16-bit words. -/
def onesSum (bytes : List UInt8) : Nat := foldCarries 2 (wordSum bytes)

/-- The complement of a folded sum, with zero written as 65535. -/
def complement (sum : Nat) : Nat :=
  if foldCarries 2 sum = 65535 then 65535 else 65535 - foldCarries 2 sum

/-- A byte string sums to at most 65535 for each word it has, by induction on the words. -/
theorem wordSum_le (bytes : List UInt8) : wordSum bytes ≤ (bytes.length + 1) / 2 * 65535 := by
  fun_induction wordSum bytes with
  | case1 high low rest ih =>
      have highBound := high.toNat_lt
      have lowBound := low.toNat_lt
      simp only [List.length_cons]
      omega
  | case2 high =>
      have highBound := high.toNat_lt
      simp only [List.length_singleton]
      omega
  | case3 => simp

/-- Summing an even number of bytes first splits the sum, by induction on the words. -/
theorem wordSum_append (first second : List UInt8) (even : first.length % 2 = 0)
    : wordSum (first ++ second) = wordSum first + wordSum second := by
  fun_induction wordSum first with
  | case1 high low rest ih =>
      have evenRest : rest.length % 2 = 0 := by simpa [Nat.add_assoc] using even
      simp only [List.cons_append, wordSum, ih evenRest]
      omega
  | case2 high => simp at even
  | case3 => simp

/-- Folding carries does not change the residue, since 65536 is one modulo 65535. -/
theorem foldCarries_mod (fuel sum : Nat) : foldCarries fuel sum % 65535 = sum % 65535 := by
  induction fuel generalizing sum with
  | zero => rfl
  | succ fuel ih =>
      unfold foldCarries
      split
      · rw [ih]
        omega
      · rfl

/-- Folding carries reaches zero from zero only. -/
theorem foldCarries_eq_zero {fuel sum : Nat} : foldCarries fuel sum = 0 ↔ sum = 0 := by
  induction fuel generalizing sum with
  | zero => rfl
  | succ fuel ih =>
      unfold foldCarries
      split
      · rw [ih]
        omega
      · rfl

/-- Two rounds are enough for a 32-bit sum: the loop has ended. -/
theorem foldCarries_le {sum : Nat} (bound : sum < 4294967296) : foldCarries 2 sum ≤ 65535 := by
  simp only [foldCarries]
  split
  · split <;> omega
  · omega

/-- The complement in closed form. Witness: the folded sum has the residue of the sum, lies
below 65536, and is zero only for the sum zero.
-/
theorem complement_eq {sum : Nat} (bound : sum < 4294967296)
    : complement sum = 65535 - sum % 65535 := by
  have residue := foldCarries_mod 2 sum
  have small := foldCarries_le bound
  have zero : foldCarries 2 sum = 0 ↔ sum = 0 := foldCarries_eq_zero
  unfold complement
  split <;> omega

/-- A folded sum is all ones exactly when the sum is a multiple of 65535, but not zero. -/
theorem foldCarries_eq_ones {sum : Nat} (bound : sum < 4294967296)
    : foldCarries 2 sum = 65535 ↔ sum % 65535 = 0 ∧ sum ≠ 0 := by
  have residue := foldCarries_mod 2 sum
  have small := foldCarries_le bound
  have zero : foldCarries 2 sum = 0 ↔ sum = 0 := foldCarries_eq_zero
  omega

/-- Bytes have the sum of all ones exactly when their words add up to a multiple of 65535 and
are not all zero.
-/
theorem onesSum_eq_ones {bytes : List UInt8} (short : bytes.length ≤ 65535)
    : onesSum bytes = 65535 ↔ wordSum bytes % 65535 = 0 ∧ wordSum bytes ≠ 0 := by
  have le := wordSum_le bytes
  exact foldCarries_eq_ones (by omega)

/-- The complement has 16 bits. -/
theorem complement_le {sum : Nat} (bound : sum < 4294967296) : complement sum ≤ 65535 := by
  rw [complement_eq bound]
  omega

/-- Equal complements are equal residues. -/
theorem complement_inj {left right : Nat} (leftBound : left < 4294967296)
    (rightBound : right < 4294967296)
    : complement left = complement right ↔ left % 65535 = right % 65535 := by
  rw [complement_eq leftBound, complement_eq rightBound]
  omega

-----------------------------------------------------------------------------------------
-- End-around carry
-----------------------------------------------------------------------------------------

/-- One's-complement addition in 16 bits: the carry is added at the low end. -/
def addEndAround (left right : Nat) : Nat := (left + right) / 65536 + (left + right) % 65536

/-- The big-endian 16-bit words, a last odd byte being padded with zero. -/
def words : List UInt8 → List Nat
  | high :: low :: rest => (high.toNat * 256 + low.toNat) :: words rest
  | [high] => [high.toNat * 256]
  | [] => []

/-- The one's-complement sum, with the carry added at each word. -/
def endAroundSum (bytes : List UInt8) : Nat := (words bytes).foldl addEndAround 0

/-- A 16-bit value stands for a sum: they agree modulo 65535, and zero stands for zero only. -/
structure Folds (sum value : Nat) : Prop where
  small : value ≤ 65535
  residue : value % 65535 = sum % 65535
  zero : value = 0 ↔ sum = 0

/-- The value that stands for a sum is unique. -/
theorem Folds.unique {sum left right : Nat} (first : Folds sum left) (second : Folds sum right)
    : left = right := by
  obtain ⟨firstSmall, firstResidue, firstZero⟩ := first
  obtain ⟨secondSmall, secondResidue, secondZero⟩ := second
  omega

theorem Folds.addEndAround {left leftValue right : Nat} (folds : Folds left leftValue)
    (word : right ≤ 65535)
    : Folds (left + right) (addEndAround leftValue right) := by
  obtain ⟨small, residue, zero⟩ := folds
  refine ⟨?_, ?_, ?_⟩ <;> unfold OnesComplement.addEndAround <;> omega

theorem words_le {bytes : List UInt8} {word : Nat} (member : word ∈ words bytes)
    : word ≤ 65535 := by
  fun_induction words bytes with
  | case1 high low rest ih =>
      have highBound := high.toNat_lt
      have lowBound := low.toNat_lt
      rcases List.mem_cons.mp member with first | later
      · omega
      · exact ih later
  | case2 high =>
      have highBound := high.toNat_lt
      have only := List.mem_singleton.mp member
      omega
  | case3 => simp at member

theorem sum_words (bytes : List UInt8) : (words bytes).sum = wordSum bytes := by
  fun_induction words bytes with
  | case1 high low rest ih => rw [List.sum_cons, ih, wordSum]
  | case2 high => rw [List.sum_singleton, wordSum]
  | case3 => rfl

/-- Adding words with the carry at each word folds their sum, by induction on the words. -/
theorem Folds.foldl {sum value : Nat} (folds : Folds sum value) {added : List Nat}
    (small : ∀ word ∈ added, word ≤ 65535)
    : Folds (sum + added.sum) (added.foldl OnesComplement.addEndAround value) := by
  induction added generalizing sum value with
  | nil => exact folds
  | cons word rest ih =>
      have next := ih (folds.addEndAround (small word (by simp)))
        (fun later member => small later (by simp [member]))
      rw [List.sum_cons, ← Nat.add_assoc]
      exact next

/-- The one's-complement sum of a byte string folds the sum of its words. -/
theorem folds_endAroundSum (bytes : List UInt8) : Folds (wordSum bytes) (endAroundSum bytes) := by
  have start : Folds 0 0 := ⟨by decide, rfl, Iff.rfl⟩
  have folded := start.foldl (fun word (member : word ∈ words bytes) => words_le member)
  rwa [Nat.zero_add, sum_words] at folded

/-- The byte string with one bit inverted, bit zero being the lowest of the first byte. -/
def flipBit (bit : Nat) (bytes : List UInt8) : List UInt8 :=
  bytes.modify (bit / 8) (fun byte => byte ^^^ ((1 : UInt8) <<< UInt8.ofNat (bit % 8)))

/-- One number is the other with a power of two of 16 bits added. -/
def OneBitApart (left right : Nat) : Prop :=
  ∃ exponent, exponent < 16 ∧ (left = right + 2 ^ exponent ∨ right = left + 2 ^ exponent)

/-- Powers of two are not multiples of 65535. -/
theorem OneBitApart.mod_ne {left right : Nat} (apart : OneBitApart left right)
    : left % 65535 ≠ right % 65535 := by
  obtain ⟨exponent, small, differ⟩ := apart
  interval_cases exponent <;> omega

private theorem flippedByte_finite
    : ∀ (byte : Fin 256) (bit : Fin 8),
        let flipped := (UInt8.ofNat byte.val ^^^ ((1 : UInt8) <<< UInt8.ofNat bit.val)).toNat
        flipped = byte.val + 2 ^ bit.val ∨ byte.val = flipped + 2 ^ bit.val := by
  decide +kernel

/-- Inverting a bit of a byte adds or takes its power of two. -/
theorem flippedByte_toNat (byte : UInt8) (bit : Nat)
    : let flipped := (byte ^^^ ((1 : UInt8) <<< UInt8.ofNat (bit % 8))).toNat
      flipped = byte.toNat + 2 ^ (bit % 8) ∨ byte.toNat = flipped + 2 ^ (bit % 8) := by
  have finite :=
    flippedByte_finite ⟨byte.toNat, byte.toNat_lt⟩ ⟨bit % 8, Nat.mod_lt _ (by decide)⟩
  simpa only [UInt8.ofNat_toNat] using finite

/-- Inverting a bit of the high byte of a word moves the word by one bit. -/
theorem flippedHigh_apart (high : UInt8) (bit rest : Nat)
    : OneBitApart
        ((high ^^^ ((1 : UInt8) <<< UInt8.ofNat (bit % 8))).toNat * 256 + rest)
        (high.toNat * 256 + rest) := by
  have apart := flippedByte_toNat high bit
  have small : bit % 8 < 8 := Nat.mod_lt _ (by decide)
  have scaled : 2 ^ (bit % 8 + 8) = 2 ^ (bit % 8) * 256 := Nat.pow_add _ _ _
  refine ⟨bit % 8 + 8, by omega, ?_⟩
  simp only at apart
  omega

/-- Inverting one bit of a byte string moves its sum by one bit, by induction on the words:
the bit lies in the high byte of the first word, in its low byte, or behind it.
-/
theorem wordSum_flipBit {bit : Nat} {bytes : List UInt8} (inside : bit < 8 * bytes.length)
    : OneBitApart (wordSum (flipBit bit bytes)) (wordSum bytes) := by
  fun_induction wordSum bytes generalizing bit with
  | case1 high low rest ih =>
      rcases Nat.lt_trichotomy (bit / 8) 1 with first | second | later
      · have index : bit / 8 = 0 := by omega
        simp only [flipBit, index, List.modify_zero_cons, wordSum, Nat.add_assoc]
        exact flippedHigh_apart high bit (low.toNat + wordSum rest)
      · have apart := flippedByte_toNat low bit
        have small : bit % 8 < 8 := Nat.mod_lt _ (by decide)
        refine ⟨bit % 8, by omega, ?_⟩
        simp only [flipBit, second, List.modify_succ_cons, List.modify_zero_cons, wordSum]
          at apart ⊢
        omega
      · simp only [List.length_cons] at inside
        have atRest : bit - 16 < 8 * rest.length := by omega
        obtain ⟨exponent, small, apart⟩ := ih atRest
        refine ⟨exponent, small, ?_⟩
        have index : bit / 8 = (bit - 16) / 8 + 2 := by omega
        have same : bit % 8 = (bit - 16) % 8 := by omega
        simp only [flipBit, index, same, List.modify_succ_cons, wordSum] at apart ⊢
        omega
  | case2 high =>
      have index : bit / 8 = 0 := by
        simp only [List.length_singleton] at inside
        omega
      simp only [flipBit, index, List.modify_zero_cons, wordSum]
      simpa only [Nat.add_zero] using flippedHigh_apart high bit 0
  | case3 => simp at inside

end OnesComplement
