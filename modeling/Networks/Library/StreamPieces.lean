import Mathlib.Data.List.Basic

/-! Byte streams cut into consecutive pieces.
A piece starts at a stream position and carries data; pieces of length zero may share a
position with their neighbours. Nothing here depends on what a piece is besides the two
projections `start` and `data`.
-/

namespace StreamPieces

variable {β α : Type*}

section Chained

variable (start : β → Nat) (data : β → List α)

/-- The pieces tile the positions from the first argument to the last, without gaps. -/
def Chained : Nat → List β → Nat → Prop
  | position, [], stop => position = stop
  | position, piece :: rest, stop =>
      start piece = position ∧ Chained (position + (data piece).length) rest stop

/-- The data of the pieces, in order. -/
def content (pieces : List β) : List α :=
  pieces.flatMap data

/-- A piece lies wholly before `limit`. -/
def endsBy (limit : Nat) (piece : β) : Bool :=
  start piece + (data piece).length ≤ limit

variable {start data}

@[simp] theorem content_nil : content data ([] : List β) = [] := rfl

@[simp] theorem content_cons (piece : β) (rest : List β)
    : content data (piece :: rest) = data piece ++ content data rest := rfl

@[simp] theorem content_append (first second : List β)
    : content data (first ++ second) = content data first ++ content data second := by
  simp [content]

/-- Splitting pieces by a test splits their content, by induction on the pieces. -/
theorem length_content_filter (test : β → Bool) (pieces : List β)
    : (content data pieces).length
      = (content data (pieces.filter test)).length
        + (content data (pieces.filter (fun piece => !test piece))).length := by
  induction pieces with
  | nil => rfl
  | cons piece rest ih =>
      cases passed : test piece <;>
        simp only [passed, List.filter_cons, Bool.not_true, Bool.not_false, if_true, if_false,
          Bool.false_eq_true, content_cons, List.length_append, ih] <;>
        omega

@[simp] theorem chained_nil {position stop : Nat}
    : Chained start data position [] stop ↔ position = stop := Iff.rfl

@[simp] theorem chained_cons {position stop : Nat} {piece : β} {rest : List β}
    : Chained start data position (piece :: rest) stop
      ↔ start piece = position
        ∧ Chained start data (position + (data piece).length) rest stop := Iff.rfl

/-- Tilings compose and split at any piece boundary, by induction on the first part. -/
theorem chained_append {position stop : Nat} {first second : List β}
    : Chained start data position (first ++ second) stop
      ↔ ∃ middle,
          Chained start data position first middle
          ∧ Chained start data middle second stop := by
  induction first generalizing position with
  | nil => simp
  | cons piece rest ih => simp only [List.cons_append, chained_cons, ih, and_assoc, exists_and_left]

/-- A tiling spans exactly its content, by induction on the pieces. -/
theorem Chained.stop_eq {position stop : Nat} {pieces : List β}
    (tiling : Chained start data position pieces stop)
    : stop = position + (content data pieces).length := by
  induction pieces generalizing position with
  | nil => simpa using tiling.symm
  | cons piece rest ih =>
      have later := ih tiling.2
      simp only [content_cons, List.length_append]
      omega

/-- Every piece of a tiling ends inside it. -/
theorem Chained.piece_end_le {position stop : Nat} {pieces : List β}
    (tiling : Chained start data position pieces stop) {piece : β} (member : piece ∈ pieces)
    : position ≤ start piece ∧ start piece + (data piece).length ≤ stop := by
  induction pieces generalizing position with
  | nil => cases member
  | cons head rest ih =>
      obtain ⟨atHead, later⟩ := tiling
      have spans := Chained.stop_eq later
      rcases List.mem_cons.mp member with same | inRest
      · subst same
        omega
      · have bounds := ih later inRest
        omega

/-- Neighbours in a tiling meet, by induction on the pieces. -/
theorem Chained.isChain {position stop : Nat} {pieces : List β}
    (tiling : Chained start data position pieces stop)
    : pieces.IsChain (fun piece next => start next = start piece + (data piece).length) := by
  induction pieces generalizing position with
  | nil => exact .nil
  | cons piece rest ih =>
      obtain ⟨atPiece, later⟩ := tiling
      cases rest with
      | nil => exact .singleton piece
      | cons next rest => exact .cons_cons (by rw [later.1, atPiece]) (ih later)

/-- The last piece of a tiling ends where the tiling stops, by induction on the pieces. -/
theorem Chained.getLast?_end {position stop : Nat} {pieces : List β}
    (tiling : Chained start data position pieces stop) {last : β}
    (isLast : last ∈ pieces.getLast?)
    : start last + (data last).length = stop := by
  induction pieces generalizing position with
  | nil => cases isLast
  | cons piece rest ih =>
      obtain ⟨atPiece, later⟩ := tiling
      cases rest with
      | nil =>
          have same : piece = last := by simpa using isLast
          rw [← same, atPiece]
          exact later
      | cons next rest => exact ih later (by simpa using isLast)

/-- Pieces tile what their images tile, by induction on the pieces. -/
theorem chained_map {γ : Type*} {start : γ → Nat} {data : γ → List α} {image : β → γ}
    {position stop : Nat} {pieces : List β}
    : Chained start data position (pieces.map image) stop
      ↔ Chained (start ∘ image) (data ∘ image) position pieces stop := by
  induction pieces generalizing position with
  | nil => rfl
  | cons piece rest ih => simp only [List.map_cons, chained_cons, ih, Function.comp_apply]

/-- A piece of a tiling ends by the end of an initial part of it, or starts from there on. -/
theorem Chained.apart {position stop : Nat} {pieces front : List β}
    (tiling : Chained start data position pieces stop) (isFront : front <+: pieces) {piece : β}
    (member : piece ∈ pieces)
    : start piece + (data piece).length ≤ position + (content data front).length
      ∨ position + (content data front).length ≤ start piece := by
  obtain ⟨rest, rfl⟩ := isFront
  obtain ⟨middle, first, second⟩ := chained_append.mp tiling
  have atMiddle := first.stop_eq
  rcases List.mem_append.mp member with inFront | inRest
  · exact Or.inl (atMiddle ▸ (first.piece_end_le inFront).2)
  · exact Or.inr (atMiddle ▸ (second.piece_end_le inRest).1)

/-- A piece that starts where an initial part of a tiling ends, leads to a longer initial part.
Witness: the pieces before it and that part are initial parts with the same content.
-/
theorem Chained.boundary_grows {position stop : Nat} {pieces front : List β}
    (tiling : Chained start data position pieces stop) (isFront : front <+: pieces) {piece : β}
    (member : piece ∈ pieces) (expected : start piece = position + (content data front).length)
    : ∃ longer, longer <+: pieces ∧ content data longer = content data front ++ data piece := by
  obtain ⟨before, after, rfl⟩ := List.append_of_mem member
  obtain ⟨middle, first, second⟩ := chained_append.mp tiling
  have atMiddle := first.stop_eq
  have starts := second.1
  have sameContent : content data before = content data front := by
    have emptied : ∀ more : List β, (content data more).length = 0 → content data more = [] :=
      fun _ => List.eq_nil_of_length_eq_zero
    rcases List.prefix_or_prefix_of_prefix isFront (List.prefix_append before (piece :: after)) with
      ⟨more, rfl⟩ | ⟨more, rfl⟩
    · rw [content_append, List.length_append] at atMiddle
      rw [content_append, emptied more (by omega), List.append_nil]
    · rw [content_append, List.length_append] at expected
      rw [content_append, emptied more (by omega), List.append_nil]
  refine ⟨before ++ [piece], ⟨after, by simp⟩, ?_⟩
  rw [content_append, sameContent, content_cons, content_nil, List.append_nil]

/-- In a tiling nothing that starts after `limit` ends by it. -/
theorem Chained.filter_endsBy_eq_nil {position stop limit : Nat} {pieces : List β}
    (tiling : Chained start data position pieces stop) (above : limit < position)
    : pieces.filter (endsBy start data limit) = [] := by
  rw [List.filter_eq_nil_iff]
  intro piece member
  have bounds := tiling.piece_end_le member
  simp only [endsBy, decide_eq_true_eq]
  omega

/-- Taking away the pieces that end by a limit takes away an initial part of the tiling.
Witness: induction on the pieces; once a piece ends after the limit, so do all later ones.
-/
theorem Chained.split_at {position stop : Nat} (limit : Nat) {pieces : List β}
    (tiling : Chained start data position pieces stop)
    : ∃ middle,
        pieces
          = pieces.filter (endsBy start data limit)
            ++ pieces.filter (fun piece => !endsBy start data limit piece)
        ∧ Chained start data position (pieces.filter (endsBy start data limit)) middle
        ∧ Chained start data middle
            (pieces.filter (fun piece => !endsBy start data limit piece)) stop
        ∧ (middle ≤ limit ∨ middle = position) := by
  induction pieces generalizing position with
  | nil => exact ⟨position, by simpa using tiling⟩
  | cons head rest ih =>
      obtain ⟨atHead, later⟩ := tiling
      by_cases ended : endsBy start data limit head
      · obtain ⟨middle, parts, first, second, low⟩ := ih later
        refine ⟨middle, ?_, ?_, ?_, ?_⟩
        · simpa [ended] using parts
        · simpa [ended] using ⟨atHead, first⟩
        · simpa [ended] using second
        · have headEnd : start head + (data head).length ≤ limit := by simpa [endsBy] using ended
          omega
      · refine ⟨position, ?_, ?_, ?_, Or.inr rfl⟩
        all_goals
          have headEnd : limit < start head + (data head).length := by simpa [endsBy] using ended
          have none_rest : rest.filter (endsBy start data limit) = [] :=
            Chained.filter_endsBy_eq_nil later (by omega)
          have all_rest : rest.filter (fun piece => !endsBy start data limit piece) = rest := by
            rw [List.filter_eq_self]
            intro piece member
            simpa using List.filter_eq_nil_iff.mp none_rest piece member
          simp [ended, none_rest, all_rest]
        exact ⟨atHead, later⟩

end Chained

-----------------------------------------------------------------------------------------
-- Slices of a growing stream
-----------------------------------------------------------------------------------------

/-- `data` stands in `stream` from `position` on. -/
def SliceAt (stream : List α) (position : Nat) (data : List α) : Prop :=
  ∃ before after, stream = before ++ data ++ after ∧ before.length = position

/-- A slice stays where it is when the stream grows. -/
theorem SliceAt.grow {stream data : List α} {position : Nat} (more : List α)
    (slice : SliceAt stream position data)
    : SliceAt (stream ++ more) position data := by
  obtain ⟨before, after, rfl, atPosition⟩ := slice
  exact ⟨before, after ++ more, by simp, atPosition⟩

/-- What was just appended is a slice at the old length. -/
theorem sliceAt_append (stream data : List α) : SliceAt (stream ++ data) stream.length data :=
  ⟨stream, [], by simp, rfl⟩

/-- The pieces of a tiling are slices of what they tile, by induction on the pieces. -/
theorem Chained.slices {β : Type*} {start : β → Nat} {data : β → List α} {origin stop : Nat}
    {before : List α} {pieces : List β}
    (tiling : Chained start data (origin + before.length) pieces stop) {piece : β}
    (member : piece ∈ pieces)
    : ∃ position,
        start piece = origin + position
        ∧ SliceAt (before ++ content data pieces) position (data piece) := by
  induction pieces generalizing before with
  | nil => cases member
  | cons head rest ih =>
      obtain ⟨atHead, later⟩ := tiling
      rcases List.mem_cons.mp member with same | inRest
      · subst same
        exact ⟨before.length, atHead, before, content data rest, by simp, rfl⟩
      · rw [Nat.add_assoc, ← List.length_append] at later
        obtain ⟨position, starts, slice⟩ := ih later inRest
        refine ⟨position, starts, ?_⟩
        rw [content_cons, ← List.append_assoc]
        exact slice

/-- A prefix followed by the slice at its length is again a prefix. Witness: the prefix and
the part before the slice are equally long prefixes of one stream.
-/
theorem SliceAt.prefix_append {stream done data : List α}
    (slice : SliceAt stream done.length data) (isPrefix : done <+: stream)
    : done ++ data <+: stream := by
  obtain ⟨before, after, rfl, sameLength⟩ := slice
  have same : done = before :=
    (List.prefix_of_prefix_length_le isPrefix (by simp [List.append_assoc])
      (Nat.le_of_eq sameLength.symm)).eq_of_length sameLength.symm
  exact ⟨after, by rw [same]⟩

end StreamPieces
