import Mathlib.Data.List.Induction

/-! Hashes that chain a compression function along the blocks of a stream. A hash that takes
the stream in pieces keeps the elements of the open block, and compresses each block once it
is full.
-/

namespace BlockHash

variable {α β σ : Type*}

-----------------------------------------------------------------------------------------
-- Blocks of a stream
-----------------------------------------------------------------------------------------

/-- The block with the given number. -/
def block (size : Nat) (stream : List α) (index : Nat) : List α :=
  (stream.drop (index * size)).take size

/-- The whole blocks of a stream. -/
def blocks (size : Nat) (stream : List α) : List (List α) :=
  (List.range (stream.length / size)).map (block size stream)

/-- What stands behind the last whole block. -/
def remainder (size : Nat) (stream : List α) : List α :=
  stream.drop (stream.length / size * size)

variable {size : Nat} {stream front back : List α}

@[simp] theorem length_blocks : (blocks size stream).length = stream.length / size := by
  simp [blocks]

@[simp] theorem length_remainder
    : (remainder size stream).length = stream.length % size := by
  rw [remainder, List.length_drop, Nat.mod_eq_sub, Nat.mul_comm]

/-- A block that is filled by more elements does not change with what follows. -/
theorem block_append {index : Nat} (inside : (index + 1) * size ≤ front.length)
    : block size (front ++ back) index = block size front index := by
  rw [Nat.add_mul, Nat.one_mul] at inside
  rw [block, block, List.drop_append_of_le_length (by omega), List.take_append_of_le_length]
  rw [List.length_drop]
  omega

theorem block_inside {index : Nat} (inside : index < front.length / size)
    : block size (front ++ back) index = block size front index := by
  refine block_append ?_
  calc (index + 1) * size
      ≤ front.length / size * size := Nat.mul_le_mul_right size inside
    _ ≤ front.length := Nat.div_mul_le_self ..

/-- The blocks behind whole blocks are those of the rest. -/
theorem block_behind {index count : Nat} (whole : front.length = count * size)
    : block size (front ++ back) (count + index) = block size back index := by
  rw [block, block, Nat.add_mul, ← whole, ← List.drop_drop, List.drop_left]

/-- A stream is its whole blocks, and what is behind them, by induction on their number. -/
theorem flatten_blocks (size : Nat) (stream : List α)
    : (blocks size stream).flatten ++ remainder size stream = stream := by
  have upTo : ∀ count, count * size ≤ stream.length
      → ((List.range count).map (block size stream)).flatten
        = stream.take (count * size) := by
    intro count
    induction count with
    | zero => simp
    | succ count ih =>
        intro within
        rw [Nat.add_mul, Nat.one_mul] at within ⊢
        rw [List.range_succ, List.map_append, List.flatten_append, ih (by omega),
          List.map_singleton, List.flatten_singleton, block, ← List.take_add]
  rw [blocks, upTo _ (Nat.div_mul_le_self ..), remainder, List.take_append_drop]

/-- Whole blocks come first. -/
theorem blocks_append (positive : 0 < size) (whole : size ∣ front.length)
    : blocks size (front ++ back) = blocks size front ++ blocks size back := by
  obtain ⟨count, length⟩ := whole
  rw [Nat.mul_comm] at length
  have fronts : front.length / size = count := by rw [length, Nat.mul_div_cancel _ positive]
  have more : (front ++ back).length / size = count + back.length / size := by
    rw [List.length_append, length, Nat.mul_comm count, Nat.mul_add_div positive]
  rw [blocks, more, List.range_add, List.map_append, List.map_map, blocks, fronts, blocks]
  refine congrArg₂ _ (List.map_congr_left fun index member => ?_)
    (List.map_congr_left fun index _ => ?_)
  · exact block_inside (fronts ▸ List.mem_range.mp member)
  · exact block_behind length

/-- A stream of one block. -/
theorem blocks_single (positive : 0 < size) (single : stream.length = size)
    : blocks size stream = [stream] := by
  rw [blocks, single, Nat.div_self positive, List.range_one, List.map_singleton, block,
    Nat.zero_mul, List.drop_zero, List.take_of_length_le (Nat.le_of_eq single)]

/-- A stream without a whole block. -/
theorem blocks_short (short : stream.length < size) : blocks size stream = [] := by
  rw [blocks, Nat.div_eq_of_lt short, List.range_zero, List.map_nil]

/-- A stream of whole blocks ends with its last block. -/
theorem blocks_last (positive : 0 < size) (whole : size ∣ stream.length)
    (enough : size ≤ stream.length)
    : blocks size stream
      = blocks size (stream.take (stream.length - size))
        ++ [stream.drop (stream.length - size)] := by
  have front : (stream.take (stream.length - size)).length = stream.length - size := by
    rw [List.length_take]
    omega
  have single : (stream.drop (stream.length - size)).length = size := by
    rw [List.length_drop]
    omega
  conv_lhs => rw [← List.take_append_drop (stream.length - size) stream]
  rw [blocks_append positive, blocks_single positive single]
  rw [front]
  exact Nat.dvd_sub whole (Nat.dvd_refl size)

/-- The whole blocks of a stream take whole blocks of its elements. -/
theorem dvd_length_blocks : size ∣ (blocks size stream).flatten.length := by
  have total := congrArg List.length (flatten_blocks size stream)
  have quotient := Nat.div_add_mod stream.length size
  rw [List.length_append, length_remainder] at total
  exact ⟨stream.length / size, by omega⟩

theorem length_remainder_lt (positive : 0 < size) : (remainder size stream).length < size := by
  rw [length_remainder]
  exact Nat.mod_lt _ positive

/-- Only the elements of the open block still matter for the blocks to come. -/
theorem blocks_remainder (positive : 0 < size)
    : blocks size (front ++ back)
      = blocks size front ++ blocks size (remainder size front ++ back) := by
  have split := flatten_blocks size front
  have before : blocks size front = blocks size (blocks size front).flatten := by
    conv_lhs => rw [← split, blocks_append positive dvd_length_blocks,
      blocks_short (length_remainder_lt positive), List.append_nil]
  conv_lhs => rw [← split, List.append_assoc, blocks_append positive dvd_length_blocks, ← before]

/-- The open block is filled. -/
theorem blocks_filled (positive : 0 < size) (filled : front.length % size + back.length = size)
    : blocks size (front ++ back) = blocks size front ++ [remainder size front ++ back] := by
  have single : (remainder size front ++ back).length = size := by
    rw [List.length_append, length_remainder, filled]
  rw [blocks_remainder positive, blocks_single positive single]

-----------------------------------------------------------------------------------------
-- Chaining
-----------------------------------------------------------------------------------------

/-- The compression function chained along the whole blocks of a stream. -/
def chain (size : Nat) (compress : σ → List α → σ) (start : σ) (stream : List α) : σ :=
  (blocks size stream).foldl compress start

/-- A hash in progress, with the elements of the open block. -/
structure Progress (σ α : Type*) where
  chaining : σ
  buffer : List α

/-- Taking one more element. -/
def absorb (size : Nat) (compress : σ → List α → σ) (state : Progress σ α) (element : α)
    : Progress σ α :=
  if state.buffer.length + 1 = size then
    ⟨compress state.chaining (state.buffer ++ [element]), []⟩
  else
    ⟨state.chaining, state.buffer ++ [element]⟩

section Chaining

variable {compress : σ → List α → σ} {start : σ}

/-- A stream whose open block is filled. -/
theorem chain_filled (positive : 0 < size) (filled : front.length % size + back.length = size)
    : chain size compress start (front ++ back)
      = compress (chain size compress start front) (remainder size front ++ back) := by
  rw [chain, blocks_filled positive filled, List.foldl_append]
  rfl

/-- A stream whose open block stays open. -/
theorem chain_open (positive : 0 < size) (opened : front.length % size + back.length < size)
    : chain size compress start (front ++ back) = chain size compress start front := by
  have short : (remainder size front ++ back).length < size := by
    rw [List.length_append, length_remainder]
    exact opened
  rw [chain, blocks_remainder positive, blocks_short short, List.append_nil, chain]

theorem remainder_concat_full (element : α) (full : stream.length % size + 1 = size)
    : remainder size (stream ++ [element]) = [] := by
  refine List.eq_nil_of_length_eq_zero ?_
  have quotient := Nat.div_add_mod stream.length size
  have next : stream.length + 1 = size * (stream.length / size + 1) := by
    rw [Nat.mul_add, Nat.mul_one]
    omega
  rw [length_remainder, List.length_append, List.length_singleton, next, Nat.mul_mod_right]

theorem div_succ_of_open {length : Nat} (opened : length % size + 1 < size)
    : (length + 1) / size = length / size := by
  have quotient := Nat.div_add_mod length size
  have next : length + 1 = size * (length / size) + (length % size + 1) := by omega
  rw [next, Nat.mul_add_div (by omega), Nat.div_eq_of_lt opened, Nat.add_zero]

theorem remainder_concat_open (element : α) (opened : stream.length % size + 1 < size)
    : remainder size (stream ++ [element]) = remainder size stream ++ [element] := by
  rw [remainder, remainder, List.length_append, List.length_singleton, div_succ_of_open opened,
    List.drop_append_of_le_length (Nat.div_mul_le_self ..)]

/-- Taking a stream element by element chains its whole blocks and keeps the rest, by
induction from the end of the stream.
-/
theorem foldl_absorb (positive : 0 < size) (stream : List α)
    : stream.foldl (absorb size compress) ⟨start, []⟩
      = ⟨chain size compress start stream, remainder size stream⟩ := by
  induction stream using List.reverseRecOn with
  | nil =>
      rw [chain, blocks_short positive, remainder, List.drop_nil]
      rfl
  | append_singleton stream element ih =>
      have bound := Nat.mod_lt stream.length positive
      rw [List.foldl_append, ih, List.foldl_cons, List.foldl_nil, absorb, length_remainder]
      split
      · next full =>
          rw [remainder_concat_full element full, chain_filled positive full]
      · next opened =>
          have short : stream.length % size + 1 < size := by omega
          rw [remainder_concat_open element short, chain_open positive short]

end Chaining

-----------------------------------------------------------------------------------------
-- Collisions
-----------------------------------------------------------------------------------------

/-- Somewhere along two lists of blocks the compression function takes two different inputs to
the same output.
-/
def Collides (compress : σ → β → σ) (start : σ) (left right : List β) : Prop :=
  ∃ front one front' other,
    front ++ [one] <+: left
    ∧ front' ++ [other] <+: right
    ∧ (front.foldl compress start, one) ≠ (front'.foldl compress start, other)
    ∧ compress (front.foldl compress start) one = compress (front'.foldl compress start) other

section Collisions

variable {compress : σ → β → σ} {start : σ} {left right : List β}

/-- A collision of initial parts is one of the whole. -/
theorem Collides.extend (collides : Collides compress start left right) (one other : List β)
    : Collides compress start (left ++ one) (right ++ other) := by
  obtain ⟨front, first, front', second, here, there, differ, same⟩ := collides
  exact ⟨front, first, front', second, here.trans (List.prefix_append ..),
    there.trans (List.prefix_append ..), differ, same⟩

/-- Different last blocks collide where the chains meet. -/
theorem collides_of_last_ne {one other : β} (differ : one ≠ other)
    (same : (left ++ [one]).foldl compress start = (right ++ [other]).foldl compress start)
    : Collides compress start (left ++ [one]) (right ++ [other]) := by
  rw [List.foldl_append, List.foldl_append] at same
  refine ⟨left, one, right, other, List.prefix_refl _, List.prefix_refl _, ?_, same⟩
  exact fun equal => differ (Prod.mk.inj equal).2

/-- Chains of the same length over different blocks that meet have a collision, by induction
from their ends.
-/
theorem collides_of_length_eq (lengths : left.length = right.length) (differ : left ≠ right)
    (same : left.foldl compress start = right.foldl compress start)
    : Collides compress start left right := by
  induction left using List.reverseRecOn generalizing right with
  | nil => exact absurd (List.eq_nil_of_length_eq_zero lengths.symm).symm differ
  | append_singleton left one ih =>
      rcases List.eq_nil_or_concat right with rfl | ⟨right, other, rfl⟩
      · simp at lengths
      rw [List.concat_eq_append] at *
      by_cases blockSame : one = other
      · subst blockSame
        have before : left.length = right.length := by simpa using lengths
        have apart : left ≠ right := fun equal => differ (by rw [equal])
        by_cases chained : left.foldl compress start = right.foldl compress start
        · exact (ih before apart chained).extend _ _
        · rw [List.foldl_append, List.foldl_append] at same
          exact ⟨left, one, right, one, List.prefix_refl _, List.prefix_refl _,
            fun equal => chained (Prod.mk.inj equal).1, same⟩
      · exact collides_of_last_ne blockSame same

end Collisions

/-- A padding to whole blocks that tells messages apart: two of the same padded length by their
padded streams, others by their last blocks.
-/
structure Strengthens (size : Nat) (accepts : List α → Prop) (pad : List α → List α)
    : Prop where
  whole : ∀ message, size ∣ (pad message).length
  apart
    : ∀ {message other}, accepts message → accepts other → pad message = pad other
      → message = other
  last
    : ∀ {message other}, accepts message → accepts other
      → (pad message).length ≠ (pad other).length
      → ∃ front one front' another,
        blocks size (pad message) = front ++ [one]
        ∧ blocks size (pad other) = front' ++ [another]
        ∧ one ≠ another

/-- Two messages with one hash exhibit a collision of the compression function. -/
theorem Strengthens.collides {accepts : List α → Prop} {pad : List α → List α}
    {compress : σ → List α → σ} {start : σ} (strengthens : Strengthens size accepts pad)
    {message other : List α} (accepted : accepts message)
    (otherAccepted : accepts other) (differ : message ≠ other)
    (same : chain size compress start (pad message) = chain size compress start (pad other))
    : Collides compress start (blocks size (pad message)) (blocks size (pad other)) := by
  by_cases lengths : (pad message).length = (pad other).length
  · refine collides_of_length_eq (by rw [length_blocks, length_blocks, lengths]) ?_ same
    intro blocksSame
    have rest : ∀ message, remainder size (pad message) = [] := by
      intro message
      refine List.eq_nil_of_length_eq_zero ?_
      rw [length_remainder, Nat.mod_eq_zero_of_dvd (strengthens.whole message)]
    have streams : pad message = pad other := by
      rw [← flatten_blocks size (pad message), ← flatten_blocks size (pad other), blocksSame,
        rest, rest]
    exact differ (strengthens.apart accepted otherAccepted streams)
  · obtain ⟨front, one, front', another, here, there, apart⟩ :=
      strengthens.last accepted otherAccepted lengths
    rw [chain, chain, here, there] at same
    rw [here, there]
    exact collides_of_last_ne apart same

end BlockHash
