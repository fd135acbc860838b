import Mathlib.Data.List.Basic
import Mathlib.Data.Int.Order.Basic

/-! Lists of timed entries that lose their oldest entries, and in which the last entry counts.
An entry that is put somewhere in the list need not become the last one. Whether it will once
older entries are gone is known when it is put there.
-/

namespace TimedList

variable {α β : Type*} (time : α → Int) (value : α → β)

/-- The entries from some time on. -/
def since (threshold : Int) (entries : List α) : List α :=
  entries.filter (fun entry => threshold ≤ time entry)

/-- The last entry has the value, whatever time the oldest entries have been removed to. -/
def Steady (current : β) (entries : List α) : Prop :=
  ∀ threshold, ∀ last ∈ (since time threshold entries).getLast?, value last = current

variable {time : α → Int} {value : α → β}

theorem since_append (threshold : Int) (before behind : List α)
    : since time threshold (before ++ behind)
      = since time threshold before ++ since time threshold behind :=
  List.filter_append _ _

theorem since_cons (threshold : Int) (entry : α) (rest : List α)
    : since time threshold (entry :: rest)
      = if threshold ≤ time entry then entry :: since time threshold rest
        else since time threshold rest := by
  simp [since, List.filter_cons]

/-- A time before all entries removes none. -/
theorem exists_since_eq (time : α → Int) (entries : List α)
    : ∃ threshold, since time threshold entries = entries := by
  induction entries with
  | nil => exact ⟨0, rfl⟩
  | cons entry rest ih =>
      obtain ⟨threshold, all⟩ := ih
      refine ⟨min threshold (time entry), ?_⟩
      have restKept : ∀ other ∈ rest, threshold ≤ time other := by
        intro other member
        rw [← all] at member
        exact of_decide_eq_true (List.mem_filter.mp member).2
      refine List.filter_eq_self.mpr fun other member => decide_eq_true ?_
      rcases List.mem_cons.mp member with rfl | later
      · exact Int.min_le_right _ _
      · exact Int.le_trans (Int.min_le_left _ _) (restKept other later)

theorem steady_nil (current : β) : Steady time value current [] := by
  intro threshold last ends
  simp [since] at ends

/-- The last entry itself has the value. -/
theorem Steady.last {current : β} {entries : List α} (steady : Steady time value current entries)
    {last : α} (ends : entries.getLast? = some last)
    : value last = current := by
  obtain ⟨threshold, all⟩ := exists_since_eq time entries
  exact steady threshold last (by rw [all]; exact ends)

/-- Removing old entries keeps a list steady. -/
theorem Steady.since {current : β} {entries : List α}
    (steady : Steady time value current entries) (oldest : Int)
    : Steady time value current (since time oldest entries) := by
  intro threshold last ends
  refine steady (max threshold oldest) last ?_
  have both : TimedList.since time threshold (TimedList.since time oldest entries)
      = TimedList.since time (max threshold oldest) entries := by
    simp only [TimedList.since, List.filter_filter]
    refine List.filter_congr fun entry _ => ?_
    rw [← Bool.decide_and]
    exact decide_eq_decide.mpr (by omega)
  rw [← both]
  exact ends

/-- An entry newer than all others makes a list steady at its own value wherever it is put, if
it is the last entry or the last entry has its value.
-/
theorem Steady.insert {current : β} {before behind : List α} {new : α}
    (steady : Steady time value current (before ++ behind))
    (newest : ∀ entry ∈ before ++ behind, time entry ≤ time new)
    (shown : ∀ last ∈ behind.getLast?, value last = value new)
    : Steady time value (value new) (before ++ new :: behind) := by
  intro threshold last ends
  have split : TimedList.since time threshold (before ++ new :: behind)
      = TimedList.since time threshold before
        ++ TimedList.since time threshold ([new] ++ behind) :=
    since_append threshold before (new :: behind)
  rw [split, since_append, ← List.append_assoc] at ends
  cases later : (TimedList.since time threshold behind).getLast? with
  | some final =>
      obtain rfl : final = last := by
        rw [List.getLast?_append, later, Option.mem_def, Option.some_or] at ends
        exact Option.some.inj ends
      -- The last entry of all shows that the value has not changed
      have same : value new = current := by
        cases last' : behind.getLast? with
        | none =>
            rw [List.getLast?_eq_none_iff.mp last'] at later
            simp [TimedList.since] at later
        | some shownLast =>
            rw [← shown shownLast last']
            refine steady.last ?_
            rw [List.getLast?_append, last', Option.some_or]
      rw [same]
      refine steady threshold final ?_
      rw [since_append, List.getLast?_append, later, Option.some_or]
      rfl
  | none =>
      have nothing : TimedList.since time threshold behind = [] :=
        List.getLast?_eq_none_iff.mp later
      rw [nothing, List.append_nil] at ends
      by_cases recent : threshold ≤ time new
      · have kept : TimedList.since time threshold [new] = [new] := by
          simp [TimedList.since, recent]
        rw [kept, List.getLast?_append, List.getLast?_singleton, Option.some_or] at ends
        rw [Option.mem_def, Option.some.injEq] at ends
        rw [ends]
      · have gone : TimedList.since time threshold before = [] := by
          refine List.filter_eq_nil_iff.mpr fun entry member => ?_
          have older := newest entry (List.mem_append_left _ member)
          simp only [decide_eq_true_eq]
          omega
        have dropped : TimedList.since time threshold [new] = [] := by
          simp [TimedList.since, recent]
        rw [gone, dropped] at ends
        simp at ends

end TimedList
