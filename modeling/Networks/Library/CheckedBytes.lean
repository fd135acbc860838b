import Networks.Library.ByteFields

/-! Byte strings read and written byte by byte with bounds checks. An access outside the
string yields nothing. Inside it a load yields a piece of the string, and a store yields what
`overwrite` yields.
-/

namespace CheckedBytes

open ByteFields

/-- The byte at an index. -/
def load (bytes : List UInt8) (index : Nat) : Option UInt8 := bytes[index]?

/-- The string with the byte at an index replaced. -/
def store (index : Nat) (byte : UInt8) (bytes : List UInt8) : Option (List UInt8) :=
  if index < bytes.length then some (bytes.set index byte) else none

/-- The bytes from `offset` on, one after the other. -/
def loadBytes (bytes : List UInt8) : Nat → Nat → Option (List UInt8)
  | _, 0 => some []
  | offset, count + 1 => do
      let byte ← load bytes offset
      let rest ← loadBytes bytes (offset + 1) count
      return byte :: rest

/-- The string with the bytes from `offset` on replaced, one after the other. -/
def storeBytes : Nat → List UInt8 → List UInt8 → Option (List UInt8)
  | _, [], bytes => some bytes
  | offset, byte :: rest, bytes => do
      let bytes ← store offset byte bytes
      storeBytes (offset + 1) rest bytes

section Loads

variable {bytes : List UInt8} {index offset count : Nat}

end Loads

section Stores

variable {bytes stored field : List UInt8} {index offset : Nat}

end Stores

end CheckedBytes
