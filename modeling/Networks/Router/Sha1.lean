import Mathlib
import Networks.Library.BlockHash
import Networks.Library.StepRuns

/-! SHA-1 as `sha1.c` computes it, piece by piece, and the hash of a whole message that it is
said to compute. The authentication of the router hashes with it.
-/

namespace Networks.Router

open BlockHash

/-- The five words of a digest. -/
abbrev Digest : Type := Vector UInt32 5

-----------------------------------------------------------------------------------------
-- The code
-----------------------------------------------------------------------------------------

/-- `SHA1Context`. -/
structure SHA1Context where
  messageDigest : Digest
  lengthLow : UInt32
  lengthHigh : UInt32
  messageBlock : Vector UInt8 64
  messageBlockIndex : Nat
  computed : Bool
  corrupted : Bool
  deriving DecidableEq

/-- The macro `SHA1CircularShift`. -/
def sha1CircularShift (bits word : UInt32) : UInt32 :=
  ((word <<< bits) &&& 0xFFFFFFFF) ||| (word >>> (32 - bits))

/-- The constants defined in SHA-1. -/
def startDigest : Digest :=
  #v[0x67452301, 0xEFCDAB89, 0x98BADCFE, 0x10325476, 0xC3D2E1F0]

/-- `SHA1Reset`. -/
def SHA1Context.sha1Reset (context : SHA1Context) : SHA1Context where
  lengthLow := 0
  lengthHigh := 0
  messageBlockIndex := 0
  messageDigest := startDigest
  computed := false
  corrupted := false
  messageBlock := context.messageBlock

/-- A word of the block, most significant byte first. -/
def blockWord (block : Vector UInt8 64) (t : Nat) : UInt32 :=
  let byte (index : Nat) : UInt32 := (block.toList.getD index 0).toUInt32
  byte (t * 4) <<< 24 ||| byte (t * 4 + 1) <<< 16 ||| byte (t * 4 + 2) <<< 8 ||| byte (t * 4 + 3)

/-- A later word of the sequence `W`, from the words before it. -/
def laterWord (words : Array UInt32) (t : Nat) : UInt32 :=
  sha1CircularShift 1
    (words.getD (t - 3) 0 ^^^ words.getD (t - 8) 0 ^^^ words.getD (t - 14) 0
      ^^^ words.getD (t - 16) 0)

/-- The word sequence `W`, by its two loops. -/
def wordSequence (block : Vector UInt8 64) : Array UInt32 :=
  let first := (List.range 16).foldl (fun words t => words.push (blockWord block t)) #[]
  (List.range' 16 64).foldl (fun words t => words.push (laterWord words t)) first

/-- The word buffers. -/
structure WordBuffers where
  a : UInt32
  b : UInt32
  c : UInt32
  d : UInt32
  e : UInt32

/-- The body of the four loops over the word sequence. -/
def WordBuffers.round (mixed constant word : UInt32) (buffers : WordBuffers) : WordBuffers :=
  let temp := sha1CircularShift 5 buffers.a + mixed + buffers.e + word + constant
  { e := buffers.d
    d := buffers.c
    c := sha1CircularShift 30 buffers.b
    b := buffers.a
    a := temp &&& 0xFFFFFFFF }

/-- One of the four loops. -/
def WordBuffers.rounds (mix : UInt32 → UInt32 → UInt32 → UInt32) (constant : UInt32)
    (words : Array UInt32) (from' : Nat) (buffers : WordBuffers)
    : WordBuffers :=
  (List.range' from' 20).foldl
    (fun buffers t =>
      buffers.round (mix buffers.b buffers.c buffers.d) constant (words.getD t 0))
    buffers

/-- The word buffers begin as the digest. -/
def WordBuffers.ofDigest (digest : Digest) : WordBuffers :=
  ⟨digest[0], digest[1], digest[2], digest[3], digest[4]⟩

/-- The word buffers are added to the digest. -/
def WordBuffers.addTo (digest : Digest) (buffers : WordBuffers) : Digest :=
  #v[(digest[0] + buffers.a) &&& 0xFFFFFFFF, (digest[1] + buffers.b) &&& 0xFFFFFFFF,
    (digest[2] + buffers.c) &&& 0xFFFFFFFF, (digest[3] + buffers.d) &&& 0xFFFFFFFF,
    (digest[4] + buffers.e) &&& 0xFFFFFFFF]

/-- What `SHA1ProcessMessageBlock` makes of the digest. -/
def processBlock (block : Vector UInt8 64) (digest : Digest) : Digest :=
  let words := wordSequence block
  let buffers := WordBuffers.ofDigest digest
  let buffers :=
    buffers.rounds (fun b c d => (b &&& c) ||| (~~~b &&& d)) 0x5A827999 words 0
  let buffers := buffers.rounds (fun b c d => b ^^^ c ^^^ d) 0x6ED9EBA1 words 20
  let buffers :=
    buffers.rounds (fun b c d => (b &&& c) ||| (b &&& d) ||| (c &&& d)) 0x8F1BBCDC words 40
  let buffers := buffers.rounds (fun b c d => b ^^^ c ^^^ d) 0xCA62C1D6 words 60
  buffers.addTo digest

namespace SHA1Context

/-- `SHA1ProcessMessageBlock`. -/
def sha1ProcessMessageBlock (context : SHA1Context) : SHA1Context :=
  { context with
    messageDigest := processBlock context.messageBlock context.messageDigest
    messageBlockIndex := 0 }

/-- `Message_Block[Message_Block_Index++] = byte`, inside the array. -/
def storeByte (byte : UInt8) (context : SHA1Context) : Option SHA1Context :=
  if inside : context.messageBlockIndex < 64 then
    some
      { context with
        messageBlock := context.messageBlock.set context.messageBlockIndex byte
        messageBlockIndex := context.messageBlockIndex + 1 }
  else
    none

/-- The loops that store zeros below a limit. -/
def storeZeros (limit : Nat) (context : SHA1Context) : Option SHA1Context :=
  (List.replicate (limit - context.messageBlockIndex) (0 : UInt8)).foldlM
    (fun context zero => context.storeByte zero) context

/-- The message length is stored as the last 8 octets. -/
def storeLength (context : SHA1Context) : SHA1Context :=
  let high := context.lengthHigh
  let low := context.lengthLow
  { context with
    messageBlock :=
      ((((((((context.messageBlock.set 56 ((high >>> 24) &&& 0xFF).toUInt8).set
        57 ((high >>> 16) &&& 0xFF).toUInt8).set
        58 ((high >>> 8) &&& 0xFF).toUInt8).set
        59 (high &&& 0xFF).toUInt8).set
        60 ((low >>> 24) &&& 0xFF).toUInt8).set
        61 ((low >>> 16) &&& 0xFF).toUInt8).set
        62 ((low >>> 8) &&& 0xFF).toUInt8).set
        63 (low &&& 0xFF).toUInt8) }

/-- `SHA1PadMessage`. -/
def sha1PadMessage (context : SHA1Context) : Option SHA1Context :=
  (if context.messageBlockIndex > 55 then
      (context.storeByte 0x80).bind fun context =>
        (context.storeZeros 64).bind fun context =>
          context.sha1ProcessMessageBlock.storeZeros 56
    else
      (context.storeByte 0x80).bind fun context => context.storeZeros 56).map
    fun context => context.storeLength.sha1ProcessMessageBlock

/-- `SHA1Result`, with the digest where it returns one and nothing where it returns zero. -/
def sha1Result (context : SHA1Context) : Option (Option Digest × SHA1Context) :=
  if context.corrupted then
    some (none, context)
  else if context.computed then
    some (some context.messageDigest, context)
  else
    context.sha1PadMessage.map fun context =>
      (some context.messageDigest, { context with computed := true })

/-- The length of the message grows by one byte. -/
def countByte (context : SHA1Context) : SHA1Context :=
  let low := (context.lengthLow + 8) &&& 0xFFFFFFFF
  let high :=
    if low = 0 then (context.lengthHigh + 1) &&& 0xFFFFFFFF else context.lengthHigh
  -- Message is too long
  let corrupted := if low = 0 ∧ high = 0 then true else context.corrupted
  { context with lengthLow := low, lengthHigh := high, corrupted := corrupted }

/-- What `SHA1Input` does with one byte. -/
def inputByte (byte : UInt8) (context : SHA1Context) : Option SHA1Context :=
  (context.storeByte byte).map fun context =>
    let context := context.countByte
    if context.messageBlockIndex = 64 then context.sha1ProcessMessageBlock else context

/-- The loop of `SHA1Input`. -/
def inputLoop : List UInt8 → SHA1Context → Option SHA1Context
  | [], context => some context
  | byte :: rest, context =>
      if context.corrupted then
        some context
      else
        (context.inputByte byte).bind (inputLoop rest)

/-- `SHA1Input`, of a piece of the message. -/
def sha1Input (piece : List UInt8) (context : SHA1Context) : Option SHA1Context :=
  if piece = [] then
    some context
  else if context.computed || context.corrupted then
    some { context with corrupted := true }
  else
    context.inputLoop piece

end SHA1Context

-----------------------------------------------------------------------------------------
-- The hash of a message
-----------------------------------------------------------------------------------------

namespace Sha1

/-- The circular left shift. -/
def rotate (bits : Nat) (word : UInt32) : UInt32 := .ofBitVec (word.toBitVec.rotateLeft bits)

/-- The word of four bytes, most significant first. -/
def wordOf (bytes : List UInt8) : UInt32 :=
  .ofNat (bytes.foldl (fun value byte => value * 256 + byte.toNat) 0)

/-- The words of the message schedule. -/
def schedule (block : List UInt8) (t : Nat) : UInt32 :=
  if t < 16 then
    wordOf ((block.drop (4 * t)).take 4)
  else
    rotate 1
      (schedule block (t - 3) ^^^ schedule block (t - 8) ^^^ schedule block (t - 14)
        ^^^ schedule block (t - 16))
termination_by t

/-- The logical functions. -/
def logical (t : Nat) (b c d : UInt32) : UInt32 :=
  if t < 20 then (b &&& c) ||| (~~~b &&& d)
  else if t < 40 then b ^^^ c ^^^ d
  else if t < 60 then (b &&& c) ||| (b &&& d) ||| (c &&& d)
  else b ^^^ c ^^^ d

/-- The constants. -/
def constant (t : Nat) : UInt32 :=
  if t < 20 then 0x5A827999
  else if t < 40 then 0x6ED9EBA1
  else if t < 60 then 0x8F1BBCDC
  else 0xCA62C1D6

/-- One of the 80 steps. -/
def step (block : List UInt8) (buffers : WordBuffers) (t : Nat) : WordBuffers where
  a := rotate 5 buffers.a + logical t buffers.b buffers.c buffers.d + buffers.e
    + schedule block t + constant t
  b := buffers.a
  c := rotate 30 buffers.b
  d := buffers.c
  e := buffers.d

/-- The sum of the digest and the buffers, word for word. -/
def sum (digest : Digest) (buffers : WordBuffers) : Digest :=
  #v[digest[0] + buffers.a, digest[1] + buffers.b, digest[2] + buffers.c,
    digest[3] + buffers.d, digest[4] + buffers.e]

/-- The compression function. -/
def compress (digest : Digest) (block : List UInt8) : Digest :=
  sum digest ((List.range 80).foldl (step block) (.ofDigest digest))

/-- The 64-bit length field, most significant byte first. -/
def lengthField (bits : Nat) : List UInt8 :=
  (List.range 8).map fun index => .ofNat (bits / 256 ^ (7 - index))

/-- The padding of a message: a one bit, the fewest zeros that leave room for the length in the
last block, and the length in bits.
-/
def padding (length : Nat) : List UInt8 :=
  0x80 :: List.replicate ((119 - length % 64) % 64) 0 ++ lengthField (8 * length)

/-- The padded message. -/
def pad (message : List UInt8) : List UInt8 := message ++ padding message.length

/-- The hash of a message. -/
def hash (message : List UInt8) : Digest := chain 64 compress startDigest (pad message)

end Sha1

section Compression

theorem and_ones (word : UInt32) : word &&& 0xFFFFFFFF = word := by
  refine UInt32.toBitVec_inj.mp ?_
  exact BitVec.and_allOnes

/-- The macro shifts in a circle, for the counts that it is used with. -/
theorem sha1CircularShift_eq (bits word : UInt32) (inside : bits.toNat < 32)
    (some : 0 < bits.toNat)
    : sha1CircularShift bits word = Sha1.rotate bits.toNat word := by
  have kept : (bits.toBitVec % 32).toNat = bits.toNat := by
    rw [BitVec.toNat_umod]
    exact Nat.mod_eq_of_lt inside
  have rest : ((32 - bits).toBitVec % 32).toNat = 32 - bits.toNat := by
    have difference := UInt32.toNat_sub_of_le 32 bits
      (UInt32.le_iff_toNat_le.mpr (Nat.le_of_lt inside))
    rw [BitVec.toNat_umod, UInt32.toNat_toBitVec, difference]
    exact Nat.mod_eq_of_lt (Nat.sub_lt (by decide) some)
  refine UInt32.toBitVec_inj.mp ?_
  rw [sha1CircularShift, and_ones, Sha1.rotate, UInt32.toBitVec_or, UInt32.toBitVec_shiftLeft,
    UInt32.toBitVec_shiftRight, BitVec.rotateLeft_def, Nat.mod_eq_of_lt inside,
    BitVec.shiftLeft_eq', BitVec.ushiftRight_eq', kept, rest]

/-- Four bytes put together by shifts are their number. -/
theorem shifts_eq_wordOf (first second third fourth : UInt8)
    : first.toUInt32 <<< 24 ||| second.toUInt32 <<< 16 ||| third.toUInt32 <<< 8
        ||| fourth.toUInt32
      = Sha1.wordOf [first, second, third, fourth] := by
  have shifted : ∀ (byte : UInt8) (bits : UInt32), bits.toNat ≤ 24
      → (byte.toUInt32 <<< bits).toNat = byte.toNat <<< bits.toNat := by
    intro byte bits within
    have bound : byte.toNat <<< bits.toNat < 2 ^ 32 := by
      rw [Nat.shiftLeft_eq]
      calc byte.toNat * 2 ^ bits.toNat
          ≤ 255 * 2 ^ 24 :=
            Nat.mul_le_mul (Nat.le_of_lt_succ byte.toNat_lt)
              (Nat.pow_le_pow_right (by decide) within)
        _ < 2 ^ 32 := by decide
    rw [UInt32.toNat_shiftLeft, UInt8.toNat_toUInt32, Nat.mod_eq_of_lt (by omega : _ < 32),
      Nat.mod_eq_of_lt bound]
  have low := Nat.shiftLeft_add_eq_or_of_lt fourth.toNat_lt third.toNat
  have lowBound : third.toNat <<< 8 + fourth.toNat < 2 ^ 16 := by
    have := fourth.toNat_lt
    have := third.toNat_lt
    omega
  have middle := Nat.shiftLeft_add_eq_or_of_lt lowBound second.toNat
  have middleBound
      : second.toNat <<< 16 + (third.toNat <<< 8 + fourth.toNat) < 2 ^ 24 := by
    have := second.toNat_lt
    omega
  have high := Nat.shiftLeft_add_eq_or_of_lt middleBound first.toNat
  have top := first.toNat_lt
  refine UInt32.toNat_inj.mp ?_
  rw [UInt32.toNat_or, UInt32.toNat_or, UInt32.toNat_or, shifted _ 24 (by decide),
    shifted _ 16 (by decide), shifted _ 8 (by decide), UInt8.toNat_toUInt32, Nat.or_assoc,
    Nat.or_assoc]
  change first.toNat <<< 24 ||| (second.toNat <<< 16 ||| (third.toNat <<< 8 ||| fourth.toNat))
    = _
  rw [← low, ← middle, ← high, Sha1.wordOf, UInt32.toNat_ofNat']
  simp only [List.foldl_cons, List.foldl_nil]
  omega

/-- The first loop over the words reads the block. -/
theorem blockWord_eq (block : Vector UInt8 64) {t : Nat} (early : t < 16)
    : blockWord block t = Sha1.schedule block.toList t := by
  have whole : block.toList.length = 64 := Vector.length_toList
  have four : (block.toList.drop (4 * t)).take 4
      = [block.toList.getD (t * 4) 0, block.toList.getD (t * 4 + 1) 0,
        block.toList.getD (t * 4 + 2) 0, block.toList.getD (t * 4 + 3) 0] := by
    refine List.ext_getElem (by simp [whole]; omega) fun index inside _ => ?_
    rw [List.length_take, List.length_drop, whole] at inside
    have cases : index = 0 ∨ index = 1 ∨ index = 2 ∨ index = 3 := by omega
    obtain rfl | rfl | rfl | rfl := cases
      <;> simp [Nat.mul_comm t 4] <;> rw [Vector.getElem?_eq_getElem (by omega)] <;> rfl
  rw [blockWord, shifts_eq_wordOf, Sha1.schedule, if_pos early, four]

/-- Entries that are pushed one after the other, each from those before it. -/
theorem pushes_eq (next : Array UInt32 → Nat → UInt32) {value : Nat → UInt32}
    {words : Array UInt32} {start : Nat} (count : Nat) (sized : words.size = start)
    (before : ∀ t, t < start → words.getD t 0 = value t)
    (step
      : ∀ (words : Array UInt32) t, start ≤ t → t < start + count
        → (∀ index, index < t → words.getD index 0 = value index) → next words t = value t)
    : ((List.range' start count).foldl (fun words t => words.push (next words t)) words).size
        = start + count
      ∧ ∀ t, t < start + count
        → ((List.range' start count).foldl (fun words t => words.push (next words t))
            words).getD t 0
          = value t := by
  induction count generalizing start words with
  | zero => exact ⟨sized, before⟩
  | succ count ih =>
      rw [List.range'_succ, List.foldl_cons, show start + (count + 1) = start + 1 + count by omega]
      refine ih (by rw [Array.size_push, sized]) ?_ ?_
      · intro t within
        rw [Array.getD_eq_getD_getElem?, Array.getElem?_push, sized]
        split
        · next last =>
            rw [last]
            exact step words start (Nat.le_refl _) (by omega) before
        · rw [← Array.getD_eq_getD_getElem?]
          exact before t (by omega)
      · intro words t from' within entries
        exact step words t (by omega) (by omega) entries

/-- The word sequence is the message schedule of the block. -/
theorem wordSequence_eq (block : Vector UInt8 64) {t : Nat} (within : t < 80)
    : (wordSequence block).getD t 0 = Sha1.schedule block.toList t := by
  have none : ∀ t, t < 0 → (#[] : Array UInt32).getD t 0 = Sha1.schedule block.toList t :=
    fun t before => absurd before (Nat.not_lt_zero t)
  have first := pushes_eq (fun _ t => blockWord block t) 16 Array.size_empty none
    (fun _ t _ early _ => blockWord_eq block (by simpa using early))
  rw [wordSequence, List.range_eq_range']
  refine (pushes_eq laterWord 64 first.1 first.2 ?_).2 t within
  intro words t late _ entries
  rw [laterWord, sha1CircularShift_eq _ _ (by decide) (by decide), entries _ (by omega),
    entries _ (by omega), entries _ (by omega), entries _ (by omega),
    Sha1.schedule.eq_def _ t, if_neg (by omega)]
  rfl

/-- One of the four loops takes its 20 steps. -/
theorem rounds_eq {block : Vector UInt8 64} {mix : UInt32 → UInt32 → UInt32 → UInt32}
    {constant : UInt32} (from' : Nat) (within : from' + 20 ≤ 80)
    (same
      : ∀ t, from' ≤ t → t < from' + 20
        → mix = Sha1.logical t ∧ constant = Sha1.constant t)
    (buffers : WordBuffers)
    : buffers.rounds mix constant (wordSequence block) from'
      = (List.range' from' 20).foldl (Sha1.step block.toList) buffers := by
  refine List.foldl_ext _ _ buffers fun buffers t member => ?_
  rw [List.mem_range'_1] at member
  obtain ⟨mixes, constants⟩ := same t member.1 member.2
  rw [WordBuffers.round, Sha1.step, and_ones, wordSequence_eq block (by omega),
    sha1CircularShift_eq _ _ (by decide) (by decide),
    sha1CircularShift_eq _ _ (by decide) (by decide), mixes, constants]
  rfl

/-- The 80 steps are four times 20. -/
theorem foldl_steps (step : WordBuffers → Nat → WordBuffers) (buffers : WordBuffers)
    : (List.range 80).foldl step buffers
      = (List.range' 60 20).foldl step
          ((List.range' 40 20).foldl step
            ((List.range' 20 20).foldl step ((List.range' 0 20).foldl step buffers))) := by
  rw [← List.foldl_append, ← List.foldl_append, ← List.foldl_append, List.range'_append_1,
    List.range'_append_1, List.range'_append_1, List.range_eq_range']

/-- The four loops are the 80 steps. -/
theorem rounds_steps (block : Vector UInt8 64) (buffers : WordBuffers)
    : (((buffers.rounds (fun b c d => (b &&& c) ||| (~~~b &&& d)) 0x5A827999
          (wordSequence block) 0).rounds (fun b c d => b ^^^ c ^^^ d) 0x6ED9EBA1
          (wordSequence block) 20).rounds
          (fun b c d => (b &&& c) ||| (b &&& d) ||| (c &&& d)) 0x8F1BBCDC
          (wordSequence block) 40).rounds (fun b c d => b ^^^ c ^^^ d) 0xCA62C1D6
          (wordSequence block) 60
      = (List.range 80).foldl (Sha1.step block.toList) buffers := by
  rw [foldl_steps, ← rounds_eq 0 (by decide), ← rounds_eq 20 (by decide),
    ← rounds_eq 40 (by decide), ← rounds_eq 60 (by decide)]
  all_goals
    intro t first last
    exact ⟨by funext b c d; grind [Sha1.logical], by grind [Sha1.constant]⟩

theorem addTo_eq (digest : Digest) (buffers : WordBuffers)
    : buffers.addTo digest = Sha1.sum digest buffers := by
  simp only [WordBuffers.addTo, and_ones, Sha1.sum]

/-- What the code makes of a block is the compression function. -/
theorem processBlock_eq (block : Vector UInt8 64) (digest : Digest)
    : processBlock block digest = Sha1.compress digest block.toList := by
  rw [Sha1.compress, ← rounds_steps, ← addTo_eq]
  rfl

end Compression

-----------------------------------------------------------------------------------------
-- Taking a message in pieces
-----------------------------------------------------------------------------------------

section Storing

/-- The bytes of the open block. -/
def SHA1Context.opened (context : SHA1Context) : List UInt8 :=
  context.messageBlock.toList.take context.messageBlockIndex

/-- The length of the message in bits, as the two words count it. -/
def SHA1Context.bits (context : SHA1Context) : Nat :=
  context.lengthHigh.toNat * 4294967296 + context.lengthLow.toNat

/-- Bytes are stored behind those that are there, and nothing else changes. -/
structure Stores (bytes : List UInt8) (context next : SHA1Context) : Prop where
  opened : next.opened = context.opened ++ bytes
  index : next.messageBlockIndex = context.messageBlockIndex + bytes.length
  digest : next.messageDigest = context.messageDigest
  bits : next.bits = context.bits
  computed : next.computed = context.computed
  corrupted : next.corrupted = context.corrupted

theorem Stores.refl (context : SHA1Context) : Stores [] context context :=
  ⟨(List.append_nil _).symm, rfl, rfl, rfl, rfl, rfl⟩

theorem Stores.trans {front back : List UInt8} {context next last : SHA1Context}
    (first : Stores front context next) (second : Stores back next last)
    : Stores (front ++ back) context last where
  opened := by rw [second.opened, first.opened, List.append_assoc]
  index := by rw [second.index, first.index, List.length_append, Nat.add_assoc]
  digest := second.digest.trans first.digest
  bits := second.bits.trans first.bits
  computed := second.computed.trans first.computed
  corrupted := second.corrupted.trans first.corrupted

/-- A byte that finds room is stored. -/
theorem storeByte_stores (byte : UInt8) {context : SHA1Context}
    (room : context.messageBlockIndex < 64)
    : ∃ next, context.storeByte byte = some next ∧ Stores [byte] context next := by
  have whole : context.messageBlock.toList.length = 64 := Vector.length_toList
  rw [SHA1Context.storeByte, dif_pos room]
  refine ⟨_, rfl, ?_, rfl, rfl, rfl, rfl, rfl⟩
  change (context.messageBlock.set context.messageBlockIndex byte).toList.take
    (context.messageBlockIndex + 1) = _
  rw [Vector.toList_set, List.take_set, List.set_eq_take_append_cons_drop,
    if_pos (by rw [List.length_take]; omega), List.take_take, List.drop_take,
    Nat.min_eq_left (Nat.le_succ _), Nat.sub_self, List.take_zero]
  rfl

/-- Bytes that find room are stored one behind the other, by induction on the bytes. -/
theorem foldlM_storeByte (bytes : List UInt8) {context : SHA1Context}
    (room : context.messageBlockIndex + bytes.length ≤ 64)
    : ∃ next,
        bytes.foldlM (fun context byte => context.storeByte byte) context = some next
        ∧ Stores bytes context next := by
  induction bytes generalizing context with
  | nil => exact ⟨context, rfl, .refl context⟩
  | cons byte rest ih =>
      rw [List.length_cons] at room
      have inside : context.messageBlockIndex < 64 := by omega
      obtain ⟨next, taken, stores⟩ := storeByte_stores byte inside
      have later : next.messageBlockIndex + rest.length ≤ 64 := by
        rw [stores.index, List.length_singleton]
        omega
      obtain ⟨last, reached, more⟩ := ih later
      refine ⟨last, ?_, stores.trans more⟩
      rw [List.foldlM_cons, taken]
      exact reached

/-- Zeros are stored up to the limit. -/
theorem storeZeros_stores {limit : Nat} (context : SHA1Context) (inside : limit ≤ 64)
    (before : context.messageBlockIndex ≤ limit)
    : ∃ next,
        context.storeZeros limit = some next
        ∧ Stores (List.replicate (limit - context.messageBlockIndex) 0) context next := by
  refine foldlM_storeByte _ ?_
  rw [List.length_replicate]
  omega

/-- The open block is as long as the index says. -/
theorem length_opened {context : SHA1Context} (room : context.messageBlockIndex ≤ 64)
    : context.opened.length = context.messageBlockIndex := by
  have whole : context.messageBlock.toList.length = 64 := Vector.length_toList
  rw [SHA1Context.opened, List.length_take]
  omega

/-- A full block is compressed, and the next one opened. -/
theorem process_opened {context : SHA1Context} (full : context.messageBlockIndex = 64)
    : context.sha1ProcessMessageBlock.messageDigest
        = Sha1.compress context.messageDigest context.opened
      ∧ context.sha1ProcessMessageBlock.opened = [] := by
  have whole : context.opened = context.messageBlock.toList := by
    rw [SHA1Context.opened, full]
    exact List.take_of_length_le (Nat.le_of_eq Vector.length_toList)
  exact ⟨whole ▸ processBlock_eq .., List.take_zero⟩

/-- One byte of a word, by shift and mask. -/
theorem toUInt8_shift (word : UInt32) (bits : UInt32) (inside : bits.toNat < 32)
    : ((word >>> bits) &&& 0xFF).toUInt8 = .ofNat (word.toNat / 2 ^ bits.toNat) := by
  refine UInt8.toNat_inj.mp ?_
  have masked : (0xFF : UInt32).toNat = 2 ^ 8 - 1 := rfl
  rw [UInt32.toNat_toUInt8, UInt32.toNat_and, UInt32.toNat_shiftRight, Nat.mod_eq_of_lt inside,
    masked, Nat.and_two_pow_sub_one_eq_mod, Nat.mod_mod, Nat.shiftRight_eq_div_pow,
    UInt8.toNat_ofNat']

/-- Eight bytes stored at the end of a block, by setting one after the other. -/
theorem set_last {block : List UInt8} (whole : block.length = 64)
    (a b c d e f g h : UInt8)
    : (((((((block.set 56 a).set 57 b).set 58 c).set 59 d).set 60 e).set 61 f).set 62 g).set 63 h
      = block.take 56 ++ [a, b, c, d, e, f, g, h] := by
  have front : (block.take 56).length = 56 := by
    rw [List.length_take]
    omega
  obtain ⟨last, split⟩ : ∃ last, last = block.drop 56 := ⟨_, rfl⟩
  have eight : last.length = 8 := by
    rw [split, List.length_drop]
    omega
  conv_lhs => rw [← List.take_append_drop 56 block, ← split]
  obtain ⟨_, _, _, _, _, _, _, _, rfl⟩ : ∃ s t u v w x y z, last = [s, t, u, v, w, x, y, z] := by
    rcases last with _ | ⟨s, _ | ⟨t, _ | ⟨u, _ | ⟨v, _ | ⟨w, _ | ⟨x, _ | ⟨y, _ | ⟨z, rest⟩⟩⟩⟩⟩⟩⟩⟩
    case cons.cons.cons.cons.cons.cons.cons.cons =>
      obtain rfl := List.eq_nil_of_length_eq_zero (by simpa using eight)
      exact ⟨s, t, u, v, w, x, y, z, rfl⟩
    all_goals simp at eight
  simp [front]

/-- The lowest byte of a word, by mask. -/
theorem toUInt8_mask (word : UInt32) : (word &&& 0xFF).toUInt8 = .ofNat word.toNat := by
  have shifted := toUInt8_shift word 0 (by decide)
  rwa [UInt32.shiftRight_zero, UInt32.toNat_zero, Nat.pow_zero, Nat.div_one] at shifted

/-- The bytes of the length field, one by one. -/
theorem lengthField_eq (bits : Nat)
    : Sha1.lengthField bits
      = [.ofNat (bits / 72057594037927936), .ofNat (bits / 281474976710656),
        .ofNat (bits / 1099511627776), .ofNat (bits / 4294967296), .ofNat (bits / 16777216),
        .ofNat (bits / 65536), .ofNat (bits / 256), .ofNat (bits / 1)] :=
  rfl

/-- The length is stored as the last eight bytes of the block. -/
theorem storeLength_block (context : SHA1Context)
    : context.storeLength.messageBlock.toList
      = context.messageBlock.toList.take 56 ++ Sha1.lengthField context.bits := by
  have low := context.lengthLow.toNat_lt
  have same : ∀ {left right : Nat}, left % 256 = right % 256
      → UInt8.ofNat left = .ofNat right := by
    intro left right equal
    rw [← UInt8.toNat_inj, UInt8.toNat_ofNat', UInt8.toNat_ofNat']
    exact equal
  rw [SHA1Context.storeLength]
  simp only [Vector.toList_set]
  rw [set_last Vector.length_toList, lengthField_eq, toUInt8_shift _ 24 (by decide),
    toUInt8_shift _ 16 (by decide), toUInt8_shift _ 8 (by decide), toUInt8_mask,
    toUInt8_shift _ 24 (by decide), toUInt8_shift _ 16 (by decide),
    toUInt8_shift _ 8 (by decide), toUInt8_mask]
  have eight : (8 : UInt32).toNat = 8 := rfl
  have sixteen : (16 : UInt32).toNat = 16 := rfl
  have twentyFour : (24 : UInt32).toNat = 24 := rfl
  simp only [SHA1Context.bits, eight, sixteen, twentyFour]
  congr 2
  · exact same (by omega)
  refine List.cons_eq_cons.mpr ⟨same (by omega), ?_⟩
  refine List.cons_eq_cons.mpr ⟨same (by omega), ?_⟩
  refine List.cons_eq_cons.mpr ⟨same (by omega), ?_⟩
  refine List.cons_eq_cons.mpr ⟨same (by omega), ?_⟩
  refine List.cons_eq_cons.mpr ⟨same (by omega), ?_⟩
  refine List.cons_eq_cons.mpr ⟨same (by omega), ?_⟩
  exact List.cons_eq_cons.mpr ⟨same (by omega), rfl⟩

end Storing

section Inputs

/-- The context stands for a hash in progress. -/
structure InProgress (context : SHA1Context) (progress : Progress Digest UInt8) : Prop where
  digest : context.messageDigest = progress.chaining
  opened : context.opened = progress.buffer
  room : context.messageBlockIndex < 64

/-- The progress of a message that has been taken byte by byte. -/
def Sha1.progress (message : List UInt8) : Progress Digest UInt8 :=
  message.foldl (absorb 64 Sha1.compress) ⟨startDigest, []⟩

/-- The context has taken a message. -/
structure Takes (context : SHA1Context) (message : List UInt8) : Prop where
  represents : InProgress context (Sha1.progress message)
  bits : context.bits = 8 * message.length
  computed : context.computed = false
  corrupted : context.corrupted = false

/-- The lower word of the length runs over exactly when it counted all but one byte. -/
theorem lengthLow_carries (low : UInt32)
    : low + 8 = 0 ↔ (low.toNat + 8) % 4294967296 = 0 := by
  rw [← UInt32.toNat_inj, UInt32.toNat_add]
  rfl

/-- The length counts bytes until it overflows its two words. -/
theorem countByte_bits {context : SHA1Context} {length : Nat}
    (bits : context.bits = 8 * length) (fits : length + 1 < 2 ^ 61)
    : context.countByte.bits = 8 * (length + 1)
      ∧ context.countByte.corrupted = context.corrupted := by
  have low := context.lengthLow.toNat_lt
  have high := context.lengthHigh.toNat_lt
  have carries := lengthLow_carries context.lengthLow
  have lowSum : (context.lengthLow + 8).toNat = (context.lengthLow.toNat + 8) % 4294967296 :=
    UInt32.toNat_add ..
  have highSum : (context.lengthHigh + 1).toNat = (context.lengthHigh.toNat + 1) % 4294967296 :=
    UInt32.toNat_add ..
  simp only [SHA1Context.bits] at bits
  simp only [SHA1Context.countByte, and_ones, SHA1Context.bits]
  by_cases carry : context.lengthLow + 8 = 0
  · have wraps := carries.mp carry
    have apart : context.lengthHigh + 1 ≠ 0 := by
      rw [ne_eq, ← UInt32.toNat_inj, highSum, UInt32.toNat_zero]
      omega
    rw [if_pos carry, if_neg (fun both => apart both.2), lowSum, highSum, wraps,
      Nat.mod_eq_of_lt (by omega), Nat.add_mul, Nat.one_mul, Nat.add_zero]
    exact ⟨by omega, rfl⟩
  · have stays := mt carries.mpr carry
    rw [if_neg carry, if_neg (fun both => carry both.1), lowSum]
    exact ⟨by omega, rfl⟩

/-- The byte that makes the message too long for its length is noticed. -/
theorem countByte_corrupted {context : SHA1Context} {length : Nat}
    (bits : context.bits = 8 * length) (last : length + 1 = 2 ^ 61)
    : context.countByte.corrupted = true := by
  have low := context.lengthLow.toNat_lt
  have high := context.lengthHigh.toNat_lt
  have carry := lengthLow_carries context.lengthLow
  have highSum : (context.lengthHigh + 1).toNat = (context.lengthHigh.toNat + 1) % 4294967296 :=
    UInt32.toNat_add ..
  rw [SHA1Context.bits] at bits
  have wraps : context.lengthLow + 8 = 0 := carry.mpr (by omega)
  have overHigh : context.lengthHigh + 1 = 0 := by
    rw [← UInt32.toNat_inj, highSum, UInt32.toNat_zero]
    omega
  simp only [SHA1Context.countByte, and_ones]
  rw [if_pos wraps, if_pos ⟨wraps, overHigh⟩]

/-- What the context does with a byte: it is stored and counted, and completes a block or leaves
it open.
-/
theorem inputByte_inProgress {context : SHA1Context} {progress : Progress Digest UInt8}
    (represents : InProgress context progress) (byte : UInt8)
    : ∃ next stored,
        context.inputByte byte = some next
        ∧ InProgress next (absorb 64 Sha1.compress progress byte)
        ∧ Stores [byte] context stored
        ∧ next.computed = context.computed
        ∧ next.bits = stored.countByte.bits
        ∧ next.corrupted = stored.countByte.corrupted := by
  have length := length_opened (Nat.le_of_lt represents.room)
  have room := represents.room
  obtain ⟨stored, taken, stores⟩ := storeByte_stores byte represents.room
  have opened := stores.opened
  have index : stored.messageBlockIndex = context.messageBlockIndex + 1 := stores.index
  have digest := stores.digest
  rw [represents.digest] at digest
  rw [represents.opened] at opened length
  rw [SHA1Context.inputByte, taken, Option.map_some, absorb, length, ← index]
  by_cases full : stored.messageBlockIndex = 64
  · have closed : stored.countByte.messageBlockIndex = 64 := full
    obtain ⟨reached, emptied⟩ := process_opened closed
    refine ⟨_, stored, congrArg some (if_pos full), ?_, stores, stores.computed, rfl, rfl⟩
    rw [if_pos full]
    refine ⟨reached.trans ?_, emptied, Nat.zero_lt_succ 63⟩
    exact congrArg₂ Sha1.compress digest opened
  · refine ⟨_, stored, congrArg some (if_neg full), ?_, stores, stores.computed, rfl, rfl⟩
    rw [if_neg full]
    refine ⟨digest, opened, ?_⟩
    change stored.messageBlockIndex < 64
    omega

theorem progress_concat (message : List UInt8) (byte : UInt8)
    : Sha1.progress (message ++ [byte])
      = absorb 64 Sha1.compress (Sha1.progress message) byte := by
  rw [Sha1.progress, List.foldl_append]
  rfl

/-- The loop takes a piece of the message, or fails where the message becomes too long. By
induction on the piece.
-/
theorem inputLoop_takes {context : SHA1Context} {message : List UInt8}
    (takes : Takes context message) (within : message.length < 2 ^ 61) (piece : List UInt8)
    : ∃ next,
        context.inputLoop piece = some next
        ∧ (message.length + piece.length < 2 ^ 61 → Takes next (message ++ piece))
        ∧ (2 ^ 61 ≤ message.length + piece.length → next.corrupted = true) := by
  induction piece generalizing context message with
  | nil =>
      refine ⟨context, rfl, fun _ => ?_, fun long => absurd within (Nat.not_lt.mpr long)⟩
      rwa [List.append_nil]
  | cons byte rest ih =>
      obtain ⟨next, stored, taken, represents, stores, computed, bits, corrupted⟩ :=
        inputByte_inProgress takes.represents byte
      have before : stored.bits = 8 * message.length := stores.bits.trans takes.bits
      rw [SHA1Context.inputLoop, takes.corrupted, if_neg (by decide), taken, Option.bind_some]
      by_cases fits : message.length + 1 < 2 ^ 61
      · obtain ⟨counted, kept⟩ := countByte_bits before fits
        have later : Takes next (message ++ [byte]) :=
          { represents := progress_concat message byte ▸ represents
            bits := by rw [bits, counted, List.length_append, List.length_singleton]
            computed := computed.trans takes.computed
            corrupted := by rw [corrupted, kept, stores.corrupted, takes.corrupted] }
        have length : (message ++ [byte]).length = message.length + 1 := by simp
        obtain ⟨final, reached, good, bad⟩ := ih later (by rw [length]; exact fits)
        rw [length] at good bad
        refine ⟨final, reached, fun short => ?_, fun long => bad ?_⟩
        · rw [List.append_cons]
          refine good ?_
          rw [List.length_cons] at short
          omega
        · rw [List.length_cons] at long
          omega
      · have failed : next.corrupted = true := by
          rw [corrupted]
          exact countByte_corrupted before (by omega)
        have stopped : next.inputLoop rest = some next := by
          cases rest with
          | nil => rfl
          | cons _ _ => rw [SHA1Context.inputLoop, if_pos failed]
        refine ⟨next, stopped, fun short => ?_, fun _ => failed⟩
        rw [List.length_cons] at short
        omega

end Inputs

section Padding

theorem progress_eq (message : List UInt8)
    : Sha1.progress message
      = ⟨chain 64 Sha1.compress startDigest message, remainder 64 message⟩ :=
  foldl_absorb (Nat.zero_lt_succ 63) message

@[simp] theorem length_lengthField (bits : Nat) : (Sha1.lengthField bits).length = 8 := by
  rw [Sha1.lengthField, List.length_map, List.length_range]

/-- Zeros and the length close a block that has room for them. -/
theorem close_block (context : SHA1Context) (room : context.messageBlockIndex ≤ 56)
    : ∃ next,
        (context.storeZeros 56).map
            (fun context => context.storeLength.sha1ProcessMessageBlock)
          = some next
        ∧ next.messageDigest
          = Sha1.compress context.messageDigest
              (context.opened ++ List.replicate (56 - context.messageBlockIndex) 0
                ++ Sha1.lengthField context.bits)
        ∧ next.corrupted = context.corrupted := by
  obtain ⟨stored, taken, stores⟩ := storeZeros_stores context (by decide) room
  have index : stored.messageBlockIndex = 56 := by
    rw [stores.index, List.length_replicate]
    omega
  have front : stored.messageBlock.toList.take 56
      = context.opened ++ List.replicate (56 - context.messageBlockIndex) 0 := by
    rw [← stores.opened, SHA1Context.opened, index]
  rw [taken, Option.map_some]
  refine ⟨_, rfl, ?_, stores.corrupted⟩
  refine (processBlock_eq ..).trans ?_
  rw [storeLength_block, front, stores.bits, ← stores.digest]
  rfl

/-- The padding of a message whose open block has room for the length. -/
theorem hash_of_room {message : List UInt8} (room : message.length % 64 ≤ 55)
    : Sha1.hash message
      = Sha1.compress (chain 64 Sha1.compress startDigest message)
          (remainder 64 message ++ [0x80] ++ List.replicate (55 - message.length % 64) 0
            ++ Sha1.lengthField (8 * message.length)) := by
  have zeros : (119 - message.length % 64) % 64 = 55 - message.length % 64 := by omega
  have filled : message.length % 64 + (Sha1.padding message.length).length = 64 := by
    rw [Sha1.padding, zeros, List.length_append, List.length_cons, List.length_replicate,
      length_lengthField]
    omega
  rw [Sha1.hash, Sha1.pad, chain_filled (Nat.zero_lt_succ 63) filled, Sha1.padding, zeros]
  simp only [List.append_assoc, List.cons_append, List.nil_append]

/-- The padding of a message whose open block has no room for the length. -/
theorem hash_of_full {message : List UInt8} (full : 55 < message.length % 64)
    : Sha1.hash message
      = Sha1.compress
          (Sha1.compress (chain 64 Sha1.compress startDigest message)
            (remainder 64 message ++ [0x80] ++ List.replicate (63 - message.length % 64) 0))
          (List.replicate 56 0 ++ Sha1.lengthField (8 * message.length)) := by
  have bound := Nat.mod_lt message.length (Nat.zero_lt_succ 63)
  let first : List UInt8 := 0x80 :: List.replicate (63 - message.length % 64) 0
  have length : first.length = 64 - message.length % 64 := by
    rw [List.length_cons, List.length_replicate]
    omega
  have zeros : (119 - message.length % 64) % 64 = 63 - message.length % 64 + 56 := by omega
  have split : Sha1.padding message.length
      = first ++ (List.replicate 56 0 ++ Sha1.lengthField (8 * message.length)) := by
    rw [Sha1.padding, zeros, List.replicate_add, List.cons_append, List.cons_append,
      List.append_assoc]
  have filled : message.length % 64 + first.length = 64 := by omega
  have whole : (message ++ first).length % 64 = 0 := by
    rw [List.length_append]
    omega
  have none : remainder 64 (message ++ first) = [] :=
    List.eq_nil_of_length_eq_zero (by rw [length_remainder, whole])
  have last : (message ++ first).length % 64
      + (List.replicate 56 0 ++ Sha1.lengthField (8 * message.length)).length = 64 := by
    rw [whole, List.length_append, List.length_replicate, length_lengthField]
  rw [Sha1.hash, Sha1.pad, split, ← List.append_assoc,
    chain_filled (Nat.zero_lt_succ 63) last, none, List.nil_append,
    chain_filled (Nat.zero_lt_succ 63) filled, List.append_assoc (remainder 64 message)]
  rfl

/-- The padding makes the digest the hash of the message. -/
theorem sha1PadMessage_eq {context : SHA1Context} {message : List UInt8}
    (takes : Takes context message)
    : ∃ next,
        context.sha1PadMessage = some next
        ∧ next.messageDigest = Sha1.hash message
        ∧ next.corrupted = context.corrupted := by
  have represents := takes.represents
  rw [progress_eq] at represents
  have opened : context.opened = remainder 64 message := represents.opened
  have digest : context.messageDigest = chain 64 Sha1.compress startDigest message :=
    represents.digest
  have room := represents.room
  have index : message.length % 64 = context.messageBlockIndex := by
    rw [← length_opened (Nat.le_of_lt room), opened, length_remainder]
  obtain ⟨begun, taken, stores⟩ := storeByte_stores 0x80 room
  have begunIndex : begun.messageBlockIndex = context.messageBlockIndex + 1 := stores.index
  rw [SHA1Context.sha1PadMessage, taken, Option.bind_some, Option.bind_some]
  by_cases late : context.messageBlockIndex > 55
  · -- the padding goes on into a second block
    obtain ⟨filled, zeros, more⟩ := storeZeros_stores begun (Nat.le_refl 64) (by omega)
    have full : filled.messageBlockIndex = 64 := by
      rw [more.index, List.length_replicate]
      omega
    obtain ⟨reached, emptied⟩ := process_opened full
    obtain ⟨next, closed, last, kept⟩ :=
      close_block filled.sha1ProcessMessageBlock (Nat.zero_le 56)
    rw [if_pos late, zeros, Option.bind_some]
    refine ⟨next, closed, ?_, kept.trans (more.corrupted.trans stores.corrupted)⟩
    have bits : filled.sha1ProcessMessageBlock.bits = 8 * message.length :=
      more.bits.trans (stores.bits.trans takes.bits)
    have left : 64 - begun.messageBlockIndex = 63 - message.length % 64 := by omega
    rw [last, reached, emptied, bits, more.digest, stores.digest, more.opened, stores.opened,
      hash_of_full (index ▸ late), digest, opened, left]
    rfl
  · obtain ⟨next, closed, reached, kept⟩ := close_block begun (by omega)
    rw [if_neg late]
    refine ⟨next, closed, ?_, kept.trans stores.corrupted⟩
    have left : 56 - begun.messageBlockIndex = 55 - message.length % 64 := by omega
    rw [reached, hash_of_room (by omega), stores.bits, takes.bits, stores.digest, digest,
      stores.opened, opened, left]

end Padding

-----------------------------------------------------------------------------------------
-- Runs of calls
-----------------------------------------------------------------------------------------

/-- The calls of a program that hashes. -/
inductive HashCall where
  | reset
  | input (piece : List UInt8)
  | result
  deriving DecidableEq

/-- What a context is for: it takes a message, has its hash, or has failed. -/
inductive Hashing where
  | absorbing (message : List UInt8)
  | finished (message : List UInt8)
  | failed
  deriving DecidableEq

/-- A run of calls, with what the calls of `SHA1Result` returned. -/
structure HashRun (σ : Type) where
  state : σ
  results : List (Option Digest)

/-- A call on the context. -/
def HashRun.call (run : HashRun SHA1Context) : HashCall → Option (HashRun SHA1Context)
  | .reset => some { run with state := run.state.sha1Reset }
  | .input piece => (run.state.sha1Input piece).map fun context => { run with state := context }
  | .result =>
      run.state.sha1Result.map fun (answer, context) =>
        { state := context, results := run.results ++ [answer] }

namespace Hashing

/-- The message goes on, unless it becomes too long for the length field. Behind a finished
message nothing may follow.
-/
def takePiece (piece : List UInt8) : Hashing → Hashing
  | absorbing message =>
      if message.length + piece.length < 2 ^ 61 then absorbing (message ++ piece) else failed
  | finished message => if piece = [] then finished message else failed
  | failed => failed

/-- The message is finished. -/
def finish : Hashing → Hashing
  | absorbing message => finished message
  | finished message => finished message
  | failed => failed

/-- The answer is the hash of the message. -/
def answer : Hashing → Option Digest
  | absorbing message => some (Sha1.hash message)
  | finished message => some (Sha1.hash message)
  | failed => none

/-- What a call is for. -/
def call (run : HashRun Hashing) : HashCall → HashRun Hashing
  | .reset => { run with state := absorbing [] }
  | .input piece => { run with state := run.state.takePiece piece }
  | .result => { state := run.state.finish, results := run.results ++ [run.state.answer] }

/-- The context is in this state. -/
def Holds (context : SHA1Context) : Hashing → Prop
  | absorbing message => Takes context message ∧ message.length < 2 ^ 61
  | finished message =>
      context.computed = true ∧ context.corrupted = false
      ∧ context.messageDigest = Sha1.hash message
  | failed => context.corrupted = true

end Hashing

section Runs

variable {context : SHA1Context} {hashing : Hashing}

/-- A context that is reset takes the empty message. -/
theorem sha1Reset_holds (context : SHA1Context)
    : Hashing.Holds context.sha1Reset (.absorbing []) := by
  have bits : context.sha1Reset.bits = 0 := by
    simp [SHA1Context.bits, SHA1Context.sha1Reset]
  exact ⟨⟨⟨rfl, List.take_zero, Nat.zero_lt_succ 63⟩, bits, rfl, rfl⟩, Nat.two_pow_pos 61⟩

/-- A piece of input. -/
theorem sha1Input_holds (holds : Hashing.Holds context hashing) (piece : List UInt8)
    : ∃ next,
        context.sha1Input piece = some next ∧ Hashing.Holds next (hashing.takePiece piece) := by
  by_cases none : piece = []
  · refine ⟨context, if_pos none, ?_⟩
    cases hashing with
    | absorbing message =>
        rw [Hashing.takePiece, none, List.length_nil, Nat.add_zero, if_pos holds.2,
          List.append_nil]
        exact holds
    | finished message =>
        rw [Hashing.takePiece, if_pos none]
        exact holds
    | failed => exact holds
  · rw [SHA1Context.sha1Input, if_neg none]
    cases hashing with
    | absorbing message =>
        obtain ⟨next, taken, good, bad⟩ := inputLoop_takes holds.1 holds.2 piece
        rw [holds.1.computed, holds.1.corrupted, if_neg (by decide), Hashing.takePiece]
        refine ⟨next, taken, ?_⟩
        split
        · next fits => exact ⟨good fits, by rw [List.length_append]; exact fits⟩
        · next long => exact bad (Nat.le_of_not_lt long)
    | finished message =>
        rw [if_pos (by rw [holds.1, Bool.true_or]), Hashing.takePiece, if_neg none]
        exact ⟨_, rfl, rfl⟩
    | failed =>
        have corrupted : context.corrupted = true := holds
        rw [if_pos (by rw [corrupted, Bool.or_true])]
        exact ⟨_, rfl, rfl⟩

/-- The result. -/
theorem sha1Result_holds (holds : Hashing.Holds context hashing)
    : ∃ next,
        context.sha1Result = some (hashing.answer, next)
        ∧ Hashing.Holds next hashing.finish := by
  rw [SHA1Context.sha1Result]
  cases hashing with
  | absorbing message =>
      obtain ⟨next, padded, digest, kept⟩ := sha1PadMessage_eq holds.1
      rw [holds.1.corrupted, if_neg (by decide), holds.1.computed, if_neg (by decide), padded,
        Option.map_some, digest]
      exact ⟨_, rfl, rfl, kept.trans holds.1.corrupted, rfl⟩
  | finished message =>
      rw [holds.2.1, if_neg (by decide), if_pos holds.1, holds.2.2]
      exact ⟨_, rfl, holds⟩
  | failed =>
      have corrupted : context.corrupted = true := holds
      rw [if_pos corrupted]
      exact ⟨_, rfl, holds⟩

/-- A run of calls on the context follows the run of what it is for. -/
def HashRun.Follows (run : HashRun SHA1Context) (abstract : HashRun Hashing) : Prop :=
  Hashing.Holds run.state abstract.state ∧ run.results = abstract.results

theorem call_follows {run : HashRun SHA1Context} {abstract : HashRun Hashing} {call : HashCall}
    (follows : run.Follows abstract)
    : ∃ next, run.call call = some next ∧ next.Follows (Hashing.call abstract call) := by
  obtain ⟨holds, results⟩ := follows
  cases call with
  | reset => exact ⟨_, rfl, sha1Reset_holds run.state, results⟩
  | input piece =>
      obtain ⟨next, taken, later⟩ := sha1Input_holds holds piece
      exact ⟨_, congrArg (Option.map _) taken, later, results⟩
  | result =>
      obtain ⟨next, taken, later⟩ := sha1Result_holds holds
      refine ⟨_, congrArg (Option.map _) taken, later, ?_⟩
      exact congrArg (· ++ [abstract.state.answer]) results

/-- Whatever a program calls from a reset on, in whatever pieces it gives its messages, no byte
is stored outside the block, and every result is the hash of the message that was given since
the last reset, or a failure where that message was too long or went on behind its result.
-/
theorem sha1_hashes (context : SHA1Context) (calls : List HashCall)
    : ∃ final,
        StepRuns.exec HashRun.call ⟨context.sha1Reset, []⟩ calls = some final
        ∧ final.results = (calls.foldl Hashing.call ⟨.absorbing [], []⟩).results := by
  have start : HashRun.Follows ⟨context.sha1Reset, []⟩ ⟨.absorbing [], []⟩ :=
    ⟨sha1Reset_holds context, rfl⟩
  obtain ⟨final, reached, follows⟩ :=
    StepRuns.exec_simulates Hashing.call HashRun.Follows call_follows start
  exact ⟨final, reached, follows.2⟩

/-- The test vector of the message "abc", given in two pieces. -/
example
    : (StepRuns.exec HashRun.call ⟨⟨startDigest, 0, 0, .replicate 64 0, 0, false, false⟩, []⟩
          [.input [0x61], .input [0x62, 0x63], .result]).map HashRun.results
      = some [some #v[0xA9993E36, 0x4706816A, 0xBA3E2571, 0x7850C26C, 0x9CD0D89D]] := by
  decide +kernel

end Runs

-----------------------------------------------------------------------------------------
-- Collisions
-----------------------------------------------------------------------------------------

section Collisions

variable {message other : List UInt8}

/-- The value of a field of bytes, most significant first. -/
theorem foldl_lengthField {bits : Nat} (fits : bits < 2 ^ 64)
    : (Sha1.lengthField bits).foldl (fun value byte => value * 256 + byte.toNat) 0 = bits := by
  rw [lengthField_eq]
  simp only [List.foldl_cons, List.foldl_nil, UInt8.toNat_ofNat']
  omega

theorem lengthField_inj {bits more : Nat} (fits : bits < 2 ^ 64) (moreFits : more < 2 ^ 64)
    (same : Sha1.lengthField bits = Sha1.lengthField more)
    : bits = more := by
  rw [← foldl_lengthField fits, same, foldl_lengthField moreFits]

theorem length_pad (message : List UInt8)
    : (Sha1.pad message).length = (message.length + 8) / 64 * 64 + 64 := by
  rw [Sha1.pad, Sha1.padding, List.length_append, List.length_append, List.length_cons,
    List.length_replicate, length_lengthField]
  omega

/-- The padded message ends with its length. -/
theorem drop_pad (message : List UInt8)
    : (Sha1.pad message).drop ((Sha1.pad message).length - 8)
      = Sha1.lengthField (8 * message.length) := by
  rw [Sha1.pad, Sha1.padding, ← List.append_assoc, List.drop_left']
  simp only [List.length_append, length_lengthField, Nat.add_sub_cancel]

/-- The padding of messages whose length fits strengthens them. -/
theorem strengthens_pad
    : Strengthens 64 (fun message : List UInt8 => message.length < 2 ^ 61) Sha1.pad where
  whole message := by
    rw [length_pad]
    omega
  apart := by
    intro message other fits otherFits same
    have ends := drop_pad message
    rw [same, drop_pad] at ends
    have bits := lengthField_inj (by omega) (by omega) ends
    refine (List.append_inj same ?_).1
    omega
  last := by
    intro message other fits otherFits differ
    have last : ∀ message, blocks 64 (Sha1.pad message)
        = blocks 64 ((Sha1.pad message).take ((Sha1.pad message).length - 64))
          ++ [(Sha1.pad message).drop ((Sha1.pad message).length - 64)] := by
      intro message
      have length := length_pad message
      exact blocks_last (Nat.zero_lt_succ 63) (by omega) (by omega)
    have field : ∀ message, ((Sha1.pad message).drop ((Sha1.pad message).length - 64)).drop 56
        = Sha1.lengthField (8 * message.length) := by
      intro message
      have length := length_pad message
      rw [List.drop_drop, ← drop_pad]
      congr 1
      omega
    refine ⟨_, _, _, _, last message, last other, fun same => differ ?_⟩
    have ends := field message
    rw [same, field] at ends
    have bits := lengthField_inj (by omega) (by omega) ends
    rw [length_pad, length_pad]
    omega

/-- Two different messages have different hashes, or exhibit a collision of the compression
function along their padded blocks.
-/
theorem hash_collides (fits : message.length < 2 ^ 61) (otherFits : other.length < 2 ^ 61)
    (differ : message ≠ other)
    : Sha1.hash message ≠ Sha1.hash other
      ∨ Collides Sha1.compress startDigest (blocks 64 (Sha1.pad message))
          (blocks 64 (Sha1.pad other)) := by
  by_cases same : Sha1.hash message = Sha1.hash other
  · exact Or.inr (strengthens_pad.collides fits otherFits differ same)
  · exact Or.inl same

/-- Two passwords behind one salt. -/
theorem hash_collides_salted
    : Sha1.hash [0x73, 0x61] ≠ Sha1.hash [0x73, 0x62]
      ∨ Collides Sha1.compress startDigest (blocks 64 (Sha1.pad [0x73, 0x61]))
          (blocks 64 (Sha1.pad [0x73, 0x62])) :=
  hash_collides (by decide) (by decide) (by decide)

end Collisions

end Networks.Router
