import Mathlib.Data.List.Basic

/-! Fields of byte strings: single bytes, and runs of bytes that are overwritten in place.
A byte behind the end of a string reads as zero; whether an index is inside is for the
program that uses it to check.
-/

namespace ByteFields

/-- The byte at an index. -/
def byteAt (bytes : List UInt8) (index : Nat) : UInt8 := bytes.getD index 0

/-- The number that a little-endian host reads from two bytes. -/
def field16 (low high : UInt8) : UInt16 := .ofNat (low.toNat + high.toNat * 256)

/-- The number that a little-endian host reads from four bytes. -/
def field32 (byte0 byte1 byte2 byte3 : UInt8) : UInt32 :=
  .ofNat
    (byte0.toNat + byte1.toNat * 256 + byte2.toNat * 65536 + byte3.toNat * 16777216)

/-- A 16-bit field as it lies in memory. -/
def shortAt (bytes : List UInt8) (index : Nat) : UInt16 :=
  field16 (byteAt bytes index) (byteAt bytes (index + 1))

/-- A 32-bit field as it lies in memory. -/
def wordAt (bytes : List UInt8) (index : Nat) : UInt32 :=
  field32 (byteAt bytes index) (byteAt bytes (index + 1)) (byteAt bytes (index + 2))
    (byteAt bytes (index + 3))

theorem field16_toNat (low high : UInt8)
    : (field16 low high).toNat = low.toNat + high.toNat * 256 := by
  have lowBound := low.toNat_lt
  have highBound := high.toNat_lt
  rw [field16, UInt16.toNat_ofNat']
  omega

theorem field32_toNat (byte0 byte1 byte2 byte3 : UInt8)
    : (field32 byte0 byte1 byte2 byte3).toNat
      = byte0.toNat + byte1.toNat * 256 + byte2.toNat * 65536 + byte3.toNat * 16777216 := by
  have bound0 := byte0.toNat_lt
  have bound1 := byte1.toNat_lt
  have bound2 := byte2.toNat_lt
  have bound3 := byte3.toNat_lt
  rw [field32, UInt32.toNat_ofNat']
  omega

theorem byteAt_append_left {bytes : List UInt8} {index : Nat} (within : index < bytes.length)
    (behind : List UInt8)
    : byteAt (bytes ++ behind) index = byteAt bytes index := by
  simp only [byteAt, List.getD_eq_getElem?_getD, List.getElem?_append_left within]

theorem byteAt_append_right (bytes behind : List UInt8) (index : Nat)
    : byteAt (bytes ++ behind) (bytes.length + index) = byteAt behind index := by
  simp only [byteAt, List.getD_eq_getElem?_getD,
    List.getElem?_append_right (Nat.le_add_right _ _), Nat.add_sub_cancel_left]

/-- A field between other bytes is read where it begins. -/
theorem byteAt_field (bytes : List UInt8) {field : List UInt8} (behind : List UInt8)
    {index : Nat} (within : index < field.length)
    : byteAt (bytes ++ (field ++ behind)) (bytes.length + index) = byteAt field index := by
  rw [byteAt_append_right, byteAt_append_left within]

/-- The string with the bytes from `offset` on replaced. -/
def overwrite (offset : Nat) (field bytes : List UInt8) : List UInt8 :=
  bytes.take offset ++ field ++ bytes.drop (offset + field.length)

/-- Writing inside a string keeps its length. -/
theorem length_overwrite {offset : Nat} {field bytes : List UInt8}
    (inside : offset + field.length ≤ bytes.length)
    : (overwrite offset field bytes).length = bytes.length := by
  simp only [overwrite, List.length_append, List.length_take, List.length_drop]
  omega

/-- A written byte reads as written, any other as it was. -/
theorem byteAt_overwrite {offset : Nat} {field bytes : List UInt8} (index : Nat)
    (inside : offset + field.length ≤ bytes.length)
    : byteAt (overwrite offset field bytes) index
      = if offset ≤ index ∧ index < offset + field.length then
          byteAt field (index - offset)
        else
          byteAt bytes index := by
  have front : (bytes.take offset).length = offset := by
    rw [List.length_take]
    omega
  simp only [byteAt, overwrite, List.getD_eq_getElem?_getD]
  rcases Nat.lt_or_ge index offset with before | behind
  · rw [if_neg (by omega), List.append_assoc, List.getElem?_append_left (by omega),
      List.getElem?_take_of_lt before]
  · rcases Nat.lt_or_ge index (offset + field.length) with within | after
    · rw [if_pos ⟨behind, within⟩, List.append_assoc, List.getElem?_append_right (by omega),
        front, List.getElem?_append_left (by omega)]
    · rw [if_neg (by omega), List.getElem?_append_right (by rw [List.length_append]; omega),
        List.length_append, front, List.getElem?_drop]
      congr 2
      omega

/-- Outside the written bytes nothing changes. -/
theorem byteAt_overwrite_outside {offset index : Nat} {field bytes : List UInt8}
    (inside : offset + field.length ≤ bytes.length)
    (outside : index < offset ∨ offset + field.length ≤ index)
    : byteAt (overwrite offset field bytes) index = byteAt bytes index := by
  rw [byteAt_overwrite index inside, if_neg (by omega)]

/-- The written bytes read as written. -/
theorem byteAt_overwrite_inside {offset : Nat} {field bytes : List UInt8} (index : Nat)
    (inside : offset + field.length ≤ bytes.length) (within : index < field.length)
    : byteAt (overwrite offset field bytes) (offset + index) = byteAt field index := by
  rw [byteAt_overwrite _ inside, if_pos ⟨Nat.le_add_right _ _, by omega⟩,
    Nat.add_sub_cancel_left]

/-- Dropping bytes in front of a field shifts the field. -/
theorem drop_overwrite {offset start : Nat} {field bytes : List UInt8}
    (behind : start ≤ offset) (inside : offset ≤ bytes.length)
    : (overwrite offset field bytes).drop start
      = overwrite (offset - start) field (bytes.drop start) := by
  have front : start ≤ (bytes.take offset).length := by
    rw [List.length_take]
    omega
  have index : start + (offset - start + field.length) = offset + field.length := by omega
  rw [overwrite, overwrite, List.append_assoc, List.drop_append_of_le_length front,
    List.drop_take, List.drop_drop, index, List.append_assoc]

/-- Taking a field and some bytes behind it leaves the field where it is. -/
theorem take_overwrite {offset stop : Nat} {field bytes : List UInt8}
    (within : offset + field.length ≤ stop) (inside : offset + field.length ≤ bytes.length)
    : (overwrite offset field bytes).take stop = overwrite offset field (bytes.take stop) := by
  have front : (bytes.take offset ++ field).length = offset + field.length := by
    rw [List.length_append, List.length_take]
    omega
  have before : (bytes.take stop).take offset = bytes.take offset := by
    rw [List.take_take, Nat.min_eq_left (by omega)]
  rw [overwrite, overwrite, List.take_append, List.take_of_length_le (by omega), front, before,
    List.drop_take]

/-- A field in the midst of a string splits it. -/
theorem split_at_field (offset length : Nat) (bytes : List UInt8)
    : bytes
      = bytes.take offset ++ (bytes.drop offset).take length ++ bytes.drop (offset + length) := by
  rw [List.append_assoc, ← List.drop_drop, List.take_append_drop, List.take_append_drop]

end ByteFields
