import Mathlib.Data.List.TakeWhile

/-! Text in lines, and lines in fields. A line ends with a mark, or where the room of the reader
ends; a field is a run of characters that are no space.
-/

namespace TextFields

variable {α : Type*}

-----------------------------------------------------------------------------------------
-- Lines
-----------------------------------------------------------------------------------------

/-- The characters up to the first mark, as far as there is room for them, and the rest. -/
def readLine [DecidableEq α] (mark : α) : Nat → List α → List α × List α
  | _, [] => ([], [])
  | 0, text => ([], text)
  | room + 1, head :: text =>
      if head = mark then
        ([head], text)
      else
        (head :: (readLine mark room text).1, (readLine mark room text).2)

/-- The lines of a text. There are no more of them than `fuel`. -/
def readLines [DecidableEq α] (mark : α) (room : Nat) : Nat → List α → List (List α)
  | 0, _ => []
  | _, [] => []
  | fuel + 1, text =>
      (readLine mark room text).1 :: readLines mark room fuel (readLine mark room text).2

theorem readLines_of_ne_nil [DecidableEq α] {mark : α} {room fuel : Nat} {text : List α}
    (some : text ≠ [])
    : readLines mark room (fuel + 1) text
      = (readLine mark room text).1 :: readLines mark room fuel (readLine mark room text).2 := by
  cases text with
  | nil => exact absurd rfl some
  | cons head text => rfl

/-- A line that the reader has room for is read whole, by induction on the line. -/
theorem readLine_marked [DecidableEq α] {mark : α} {room : Nat} {line : List α}
    (unmarked : mark ∉ line) (fits : line.length < room) (text : List α)
    : readLine mark room (line ++ mark :: text) = (line ++ [mark], text) := by
  induction line generalizing room with
  | nil =>
      obtain ⟨room, rfl⟩ := Nat.exists_eq_succ_of_ne_zero (Nat.ne_of_gt fits)
      simp [readLine]
  | cons head line ih =>
      obtain ⟨room, rfl⟩ := Nat.exists_eq_succ_of_ne_zero (Nat.ne_of_gt (Nat.zero_lt_of_lt fits))
      have apart : head ≠ mark := fun same => unmarked (by simp [same])
      have later := ih (fun member => unmarked (by simp [member]))
        (Nat.lt_of_succ_lt_succ fits)
      simp [readLine, apart, later]

/-- A text of lines that the reader has room for is read line by line, by induction on them. -/
theorem readLines_marked [DecidableEq α] {mark : α} {room fuel : Nat} {lines : List (List α)}
    (unmarked : ∀ line ∈ lines, mark ∉ line) (fits : ∀ line ∈ lines, line.length < room)
    (enough : lines.length ≤ fuel)
    : readLines mark room fuel (lines.flatMap fun line => line ++ [mark])
      = lines.map fun line => line ++ [mark] := by
  induction lines generalizing fuel with
  | nil => cases fuel <;> rfl
  | cons line lines ih =>
      obtain ⟨fuel, rfl⟩ := Nat.exists_eq_succ_of_ne_zero (Nat.ne_of_gt (Nat.zero_lt_of_lt enough))
      have first := readLine_marked (unmarked line (by simp)) (fits line (by simp))
        (lines.flatMap fun line => line ++ [mark])
      have text : (line :: lines).flatMap (fun line => line ++ [mark])
          = line ++ mark :: lines.flatMap fun line => line ++ [mark] := by simp
      have later := ih (fun line member => unmarked line (by simp [member]))
        (fun line member => fits line (by simp [member])) (Nat.le_of_succ_le_succ enough)
      have some : line ++ mark :: lines.flatMap (fun line => line ++ [mark]) ≠ [] := by simp
      rw [text, List.map_cons, ← later, readLines_of_ne_nil some, first]

/-- Every line takes up a character at least. -/
theorem length_le_flatMap (mark : α) (lines : List (List α))
    : lines.length ≤ (lines.flatMap fun line => line ++ [mark]).length := by
  induction lines with
  | nil => simp
  | cons line lines ih =>
      simp only [List.flatMap_cons, List.length_append, List.length_cons, List.length_nil]
      omega

-----------------------------------------------------------------------------------------
-- Fields
-----------------------------------------------------------------------------------------

/-- The first field of a text, which is empty if there is none, and what is behind it. -/
def nextField (space : α → Bool) (text : List α) : List α × List α :=
  let text := text.dropWhile space
  (text.takeWhile fun char => !space char, text.dropWhile fun char => !space char)

/-- The first fields of a text, at most so many. -/
def fields (space : α → Bool) : Nat → List α → List (List α)
  | 0, _ => []
  | count + 1, text =>
      if (nextField space text).1 = [] then
        []
      else
        (nextField space text).1 :: fields space count (nextField space text).2

variable {space : α → Bool}

/-- A field behind some spaces is found, with what is behind it. -/
theorem nextField_append {gap field rest : List α} (spaces : ∀ char ∈ gap, space char)
    (solid : ∀ char ∈ field, space char = false) (some : field ≠ [])
    (ends : rest = [] ∨ ∃ char behind, rest = char :: behind ∧ space char)
    : nextField space (gap ++ (field ++ rest)) = (field, rest) := by
  have skipped : (gap ++ (field ++ rest)).dropWhile space = field ++ rest := by
    rw [List.dropWhile_append_of_pos spaces]
    obtain ⟨head, tail, rfl⟩ := List.exists_cons_of_ne_nil some
    rw [List.cons_append, List.dropWhile_cons_of_neg]
    simp [solid head (by simp)]
  have whole : ∀ char ∈ field, (!space char) = true := fun char member => by
    simp [solid char member]
  have stops : rest.takeWhile (fun char => !space char) = []
      ∧ rest.dropWhile (fun char => !space char) = rest := by
    rcases ends with rfl | ⟨char, behind, rfl, isSpace⟩
    · simp
    · simp [isSpace]
  simp only [nextField, skipped, List.takeWhile_append_of_pos whole,
    List.dropWhile_append_of_pos whole, stops, List.append_nil]

/-- There is no field among spaces. -/
theorem fields_of_spaces {text : List α} (spaces : ∀ char ∈ text, space char) (count : Nat)
    : fields space count text = [] := by
  have nothing : text.dropWhile space = [] := List.dropWhile_eq_nil_iff.mpr spaces
  cases count with
  | zero => rfl
  | succ count => simp [fields, nextField, nothing]

/-- The fields of a text begin with the field it begins with. -/
theorem fields_append {gap field rest : List α} (spaces : ∀ char ∈ gap, space char)
    (solid : ∀ char ∈ field, space char = false) (some : field ≠ [])
    (ends : rest = [] ∨ ∃ char behind, rest = char :: behind ∧ space char) (count : Nat)
    : fields space (count + 1) (gap ++ (field ++ rest)) = field :: fields space count rest := by
  rw [fields, nextField_append spaces solid some ends, if_neg some]

end TextFields
