import Mathlib.Data.List.Basic

/-! Lists in which an element has been inserted in front of some occurrences of a mark.
Behind the last mark such a list is unchanged, so that nothing can be missing there.
-/

namespace Insertions

variable {α : Type*}

/-- The second list is the first one with `inserted` in front of some of its marks. -/
inductive Inserts (mark inserted : α) : List α → List α → Prop
  | nil : Inserts mark inserted [] []
  | keep {before after : List α} (element : α) (rest : Inserts mark inserted before after)
    : Inserts mark inserted (element :: before) (element :: after)
  | insert {before after : List α} (rest : Inserts mark inserted before after)
    : Inserts mark inserted (mark :: before) (inserted :: mark :: after)

variable {mark inserted : α}

/-- Nothing needs to be inserted. -/
theorem Inserts.refl (list : List α) : Inserts mark inserted list list := by
  induction list with
  | nil => exact .nil
  | cons element _ ih => exact .keep element ih

/-- Insertions compose along concatenation, by induction on the first ones. -/
theorem Inserts.append {before after before' after' : List α}
    (first : Inserts mark inserted before after) (second : Inserts mark inserted before' after')
    : Inserts mark inserted (before ++ before') (after ++ after') := by
  induction first with
  | nil => exact second
  | keep element _ ih => exact .keep element ih
  | insert _ ih => exact .insert ih

/-- Insertions keep the marks. -/
theorem Inserts.mem_iff {before after : List α} (inserts : Inserts mark inserted before after)
    : mark ∈ before ↔ mark ∈ after := by
  induction inserts with
  | nil => rfl
  | keep element _ ih => rw [List.mem_cons, List.mem_cons, ih]
  | insert _ _ => simp

section AfterLast

variable [DecidableEq α]

/-- What follows the last mark, and the whole list if it has none. -/
def afterLast (mark : α) : List α → List α
  | [] => []
  | element :: rest =>
      if mark ∈ rest then afterLast mark rest
      else if element = mark then rest
      else element :: rest

theorem afterLast_of_not_mem {list : List α} (absent : mark ∉ list)
    : afterLast mark list = list := by
  cases list with
  | nil => rfl
  | cons element rest =>
      obtain ⟨other, later⟩ := not_or.mp (mt List.mem_cons.mpr absent)
      rw [afterLast, if_neg later, if_neg (Ne.symm other)]

@[simp] theorem afterLast_mark_cons (list : List α)
    : afterLast mark (mark :: list) = afterLast mark list := by
  by_cases later : mark ∈ list
  · rw [afterLast, if_pos later]
  · rw [afterLast, if_neg later, if_pos rfl, afterLast_of_not_mem later]

/-- An element that is no mark follows the last one. -/
theorem afterLast_concat {element : α} (other : element ≠ mark) (list : List α)
    : afterLast mark (list ++ [element]) = afterLast mark list ++ [element] := by
  induction list with
  | nil => simp [afterLast, other]
  | cons head rest ih =>
      have same : mark ∈ rest ++ [element] ↔ mark ∈ rest := by
        simp [Ne.symm other]
      rw [List.cons_append, afterLast, afterLast, ih]
      simp only [same]
      split
      · rfl
      · split
        · rfl
        · rfl

/-- Behind the last mark nothing is inserted, by induction on the insertions. -/
theorem Inserts.afterLast_eq {before after : List α}
    (inserts : Inserts mark inserted before after)
    : afterLast mark before = afterLast mark after := by
  induction inserts with
  | nil => rfl
  | @keep before after element rest ih =>
      by_cases later : mark ∈ before
      · rw [afterLast, afterLast, if_pos later, if_pos (rest.mem_iff.mp later), ih]
      · have absent := mt rest.mem_iff.mpr later
        rw [afterLast_of_not_mem later, afterLast_of_not_mem absent] at ih
        rw [ih]
  | insert rest ih =>
      rw [afterLast_mark_cons, afterLast, if_pos (List.mem_cons_self ..), afterLast_mark_cons, ih]

/-- An element that is no mark cannot be missing at the end. -/
theorem Inserts.not_missing {before after : List α} {element : α} (other : element ≠ mark)
    (inserts : Inserts mark inserted before after)
    : ¬ Inserts mark inserted (before ++ [element]) after := by
  intro missing
  have same := missing.afterLast_eq.trans inserts.afterLast_eq.symm
  rw [afterLast_concat other] at same
  exact absurd (congrArg List.length same) (by simp)

end AfterLast

end Insertions
