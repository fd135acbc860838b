import Mathlib.Data.List.Basic

/-! Reading a fixed number of elements from a stream that arrives in pieces, with calls that
are interrupted in between. A call on a stream that has been closed receives nothing, and
the loop does not look at that: it only counts what it has.
-/

namespace ReadLoop

variable {α : Type}

/-- What a call meets: some elements that have arrived together, or an interruption. -/
inductive Arrival (α : Type)
  | piece (first : α) (more : List α)
  | interrupted
  deriving DecidableEq

def Arrival.elements : Arrival α → List α
  | .piece first more => first :: more
  | .interrupted => []

/-- All elements that arrive before the stream is closed. -/
def contents (arrivals : List (Arrival α)) : List α := arrivals.flatMap Arrival.elements

/-- What is left of a piece comes first. -/
def putBack : List α → List (Arrival α) → List (Arrival α)
  | [], rest => rest
  | first :: more, rest => .piece first more :: rest

/-- What a call answers. Nothing received means that the stream is closed. -/
inductive Answer (α : Type)
  | received (elements : List α)
  | interrupted

/-- A call for at most `count` elements, with the arrivals that it leaves. -/
def receive (count : Nat) : List (Arrival α) → Answer α × List (Arrival α)
  | [] => (.received [], [])
  | .interrupted :: rest => (.interrupted, rest)
  | .piece first more :: rest =>
      (.received ((first :: more).take count), putBack ((first :: more).drop count) rest)

/-- The loop that calls until it has `wanted` elements, as long as the fuel lasts. -/
def readLoop (wanted : Nat)
    : Nat → List α → List (Arrival α) → Option (List α × List (Arrival α))
  | 0, _, _ => none
  | fuel + 1, got, arrivals =>
      if got.length < wanted then
        match receive (wanted - got.length) arrivals with
        | (.interrupted, rest) => readLoop wanted fuel got rest
        | (.received elements, rest) => readLoop wanted fuel (got ++ elements) rest
      else
        some (got, arrivals)

@[simp] theorem contents_nil : contents ([] : List (Arrival α)) = [] := rfl

@[simp] theorem contents_interrupted (rest : List (Arrival α))
    : contents (.interrupted :: rest) = contents rest := rfl

@[simp] theorem contents_piece (first : α) (more : List α) (rest : List (Arrival α))
    : contents (.piece first more :: rest) = first :: more ++ contents rest := rfl

@[simp] theorem contents_putBack (elements : List α) (rest : List (Arrival α))
    : contents (putBack elements rest) = elements ++ contents rest := by
  cases elements <;> rfl

/-- How many calls the arrivals can take up. -/
def calls (arrivals : List (Arrival α)) : Nat := arrivals.length + (contents arrivals).length

/-- An interrupted call receives nothing and takes up one of the arrivals. -/
theorem receive_interrupted {count : Nat} {arrivals rest : List (Arrival α)}
    (answer : receive count arrivals = (.interrupted, rest))
    : contents rest = contents arrivals ∧ calls rest < calls arrivals := by
  cases arrivals with
  | nil => simp [receive] at answer
  | cons arrival others =>
      cases arrival with
      | interrupted =>
          obtain rfl := (Prod.mk.inj answer).2
          refine ⟨rfl, ?_⟩
          simp only [calls, contents_interrupted, List.length_cons]
          omega
      | piece first more => simp [receive] at answer

/-- Another call receives what comes first in the stream, at most as much as it asks for. It
takes up some of the arrivals unless the stream is closed.
-/
theorem receive_received {count : Nat} {arrivals rest : List (Arrival α)} {elements : List α}
    (asked : 0 < count) (answer : receive count arrivals = (.received elements, rest))
    : elements ++ contents rest = contents arrivals ∧ elements.length ≤ count
      ∧ (arrivals ≠ [] → calls rest < calls arrivals) := by
  cases arrivals with
  | nil =>
      obtain ⟨received, rfl⟩ := Prod.mk.inj answer
      obtain rfl := Answer.received.inj received
      exact ⟨rfl, Nat.zero_le _, fun open_ => absurd rfl open_⟩
  | cons arrival others =>
      cases arrival with
      | interrupted => simp [receive] at answer
      | piece first more =>
          obtain ⟨received, rfl⟩ := Prod.mk.inj answer
          obtain rfl := Answer.received.inj received
          refine ⟨?_, ?_, fun _ => ?_⟩
          · rw [contents_putBack, contents_piece, ← List.append_assoc, List.take_append_drop]
          · rw [List.length_take]
            exact Nat.min_le_left _ _
          · have fewer : (putBack ((first :: more).drop count) others).length
                ≤ others.length + 1 := by
              cases (first :: more).drop count with
              | nil => exact Nat.le_succ _
              | cons _ _ => exact Nat.le_refl _
            simp only [calls, contents_putBack, contents_piece, List.length_append,
              List.length_drop, List.length_cons] at fewer ⊢
            omega

/-- A loop that ends has the first elements of the stream, whatever the pieces, and leaves the
others. By induction on the fuel.
-/
theorem readLoop_result {wanted fuel : Nat} {got taken : List α}
    {arrivals rest : List (Arrival α)} (below : got.length ≤ wanted)
    (ended : readLoop wanted fuel got arrivals = some (taken, rest))
    : taken.length = wanted ∧ taken ++ contents rest = got ++ contents arrivals
      ∧ calls rest ≤ calls arrivals := by
  induction fuel generalizing got arrivals with
  | zero => simp [readLoop] at ended
  | succ fuel ih =>
      by_cases more : got.length < wanted
      · rw [readLoop, if_pos more] at ended
        cases answer : receive (wanted - got.length) arrivals with
        | mk result others =>
            rw [answer] at ended
            cases result with
            | interrupted =>
                obtain ⟨same, fewer⟩ := receive_interrupted answer
                obtain ⟨length, stream, calls⟩ := ih below ended
                exact ⟨length, by rw [stream, same], by omega⟩
            | received elements =>
                obtain ⟨same, atMost, fewer⟩ :=
                  receive_received (Nat.sub_pos_of_lt more) answer
                obtain ⟨length, stream, calls⟩ :=
                  ih (by rw [List.length_append]; omega) ended
                refine ⟨length, by rw [stream, List.append_assoc, same], ?_⟩
                by_cases closed : arrivals = []
                · rw [closed] at answer ⊢
                  obtain rfl := (Prod.mk.inj answer).2
                  exact calls
                · exact Nat.le_of_lt (Nat.lt_of_le_of_lt calls (fewer closed))
      · rw [readLoop, if_neg more] at ended
        obtain ⟨rfl, rfl⟩ := Prod.mk.inj (Option.some.inj ended)
        exact ⟨by omega, rfl, Nat.le_refl _⟩

/-- The loop ends when all that it wants arrives before the stream is closed. By induction on
the fuel: each call takes up some of the arrivals.
-/
theorem readLoop_ends {wanted fuel : Nat} {got : List α} {arrivals : List (Arrival α)}
    (arrived : wanted ≤ got.length + (contents arrivals).length)
    (enough : calls arrivals < fuel)
    : ∃ taken rest, readLoop wanted fuel got arrivals = some (taken, rest) := by
  induction fuel generalizing got arrivals with
  | zero => exact absurd enough (Nat.not_lt_zero _)
  | succ fuel ih =>
      by_cases more : got.length < wanted
      · rw [readLoop, if_pos more]
        cases answer : receive (wanted - got.length) arrivals with
        | mk result others =>
            cases result with
            | interrupted =>
                obtain ⟨same, fewer⟩ := receive_interrupted answer
                exact ih (by rw [same]; exact arrived) (by omega)
            | received elements =>
                obtain ⟨same, -, fewer⟩ := receive_received (Nat.sub_pos_of_lt more) answer
                have waiting : arrivals ≠ [] := by
                  rintro rfl
                  rw [contents_nil, List.length_nil] at arrived
                  omega
                have progress := fewer waiting
                have length := congrArg List.length same
                rw [List.length_append] at length
                exact ih (by rw [List.length_append]; omega) (by omega)
      · exact ⟨got, arrivals, by rw [readLoop, if_neg more]⟩

/-- The loop calls for ever when the stream is closed before all that it wants has arrived. By
induction on the fuel: no call brings what is missing.
-/
theorem readLoop_stuck {wanted : Nat} (fuel : Nat) {got : List α}
    {arrivals : List (Arrival α)}
    (missing : got.length + (contents arrivals).length < wanted)
    : readLoop wanted fuel got arrivals = none := by
  induction fuel generalizing got arrivals with
  | zero => rfl
  | succ fuel ih =>
      have more : got.length < wanted := by omega
      rw [readLoop, if_pos more]
      cases answer : receive (wanted - got.length) arrivals with
      | mk result others =>
          cases result with
          | interrupted => exact ih (by rw [(receive_interrupted answer).1]; exact missing)
          | received elements =>
              obtain ⟨same, -⟩ := receive_received (Nat.sub_pos_of_lt more) answer
              have length := congrArg List.length same
              rw [List.length_append] at length
              exact ih (by rw [List.length_append]; omega)

end ReadLoop
