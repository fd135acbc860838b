import Mathlib.Tactic.Ring

/-! Values of fixed-width machine integers, written in the unbounded integers.
Signed values are two's complement; a conversion to an unsigned type reduces modulo its
width, so mixed comparisons can be read on natural numbers.
-/

namespace MachineIntegers

/-- The 32-bit signed value with the same low 32 bits. -/
def int32 (value : Int) : Int :=
  (value + 2147483648) % 4294967296 - 2147483648

/-- Conversion to a 16-bit unsigned value. -/
def uint16 (value : Int) : Nat :=
  (value % 65536).toNat

/-- Conversion to a 32-bit unsigned value. -/
def uint32 (value : Int) : Nat :=
  (value % 4294967296).toNat

/-- Conversion to a 64-bit unsigned size. -/
def sizeT (value : Int) : Nat :=
  (value % 18446744073709551616).toNat

/-- Signed wrapping leaves representable values alone. -/
theorem int32_eq_self {value : Int} (low : -2147483648 ≤ value) (high : value < 2147483648)
    : int32 value = value := by
  unfold int32
  omega

/-- Signed wrapping does not change the unsigned reading. -/
@[simp] theorem uint32_int32 (value : Int) : uint32 (int32 value) = uint32 value := by
  unfold uint32 int32
  omega

/-- Signed wrapping forgets an inner signed wrapping in a sum. -/
@[simp] theorem int32_int32_add (left right : Int)
    : int32 (int32 left + right) = int32 (left + right) := by
  unfold int32
  omega

@[simp] theorem int32_int32 (value : Int) : int32 (int32 value) = int32 value := by
  unfold int32
  omega

/-- Taking off what was added restores the wrapped value. -/
theorem int32_add_sub_self (value amount : Int)
    : int32 (int32 (value + amount) - amount) = int32 value := by
  unfold int32
  omega

@[simp] theorem int32_zero : int32 0 = 0 := by decide

/-- An unsigned 32-bit reading is below its width. -/
theorem uint32_lt (value : Int) : uint32 value < 4294967296 := by
  unfold uint32
  omega

/-- Small natural numbers read as themselves. -/
theorem uint32_natCast {value : Nat} (high : value < 4294967296)
    : uint32 (value : Int) = value := by
  unfold uint32
  omega

/-- Small natural numbers have themselves as size. -/
theorem sizeT_natCast {value : Nat} (high : value < 18446744073709551616)
    : sizeT (value : Int) = value := by
  unfold sizeT
  omega

/-- A 32-bit sum is the sum of the readings modulo the width. -/
theorem uint32_add (left : Int) (right : Nat)
    : uint32 (left + right) = (uint32 left + right) % 4294967296 := by
  unfold uint32
  omega

-----------------------------------------------------------------------------------------
-- Serial numbers
-----------------------------------------------------------------------------------------

/-- How far a 32-bit serial number lies behind another, counted upwards and around. -/
def serialOffset (start position : Nat) : Nat := uint32 (position - start)

/-- A 32-bit serial number is not later than another: the way up to it is the shorter one. -/
def serialLe (first second : Nat) : Bool := 0 ≤ int32 (second - first)

theorem serialOffset_self (start : Nat) : serialOffset start start = 0 := by
  rw [serialOffset, uint32, Int.sub_self]
  rfl

theorem serialLe_iff (first second : Nat)
    : serialLe first second = true ↔ serialOffset first second < 2147483648 := by
  rw [serialLe, decide_eq_true_eq, serialOffset, uint32, int32]
  omega

/-- Near to a start, serial numbers are in the order of their offsets. -/
theorem serialLe_add_iff {start position length other : Nat}
    (near : serialOffset start position + length < 2147483648)
    (nearOther : serialOffset start other < 2147483648)
    : serialLe (position + length) other = true
      ↔ serialOffset start position + length ≤ serialOffset start other := by
  rw [serialLe, decide_eq_true_eq]
  simp only [serialOffset, uint32, int32, Nat.cast_add] at *
  omega

/-- A 32-bit number is its offset behind the start, or that much less the width. -/
theorem serialOffset_cases {start position : Nat} (startBound : start < 4294967296)
    (bound : position < 4294967296)
    : position = start + serialOffset start position
      ∨ position + 4294967296 = start + serialOffset start position := by
  simp only [serialOffset, uint32]
  omega

end MachineIntegers
