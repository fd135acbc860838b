import Mathlib.Data.List.Nodup
import Mathlib.Data.Finset.Card

/-! A heap of cells, and chains of cells that are linked through one of their fields. Reading,
writing or freeing a cell that is not allocated returns nothing.
-/

namespace LinkedHeap

/-- Cells at addresses. From `top` on no cell is allocated. -/
structure Heap (α : Type*) where
  cell : Nat → Option α
  top : Nat
  above : ∀ address, top ≤ address → cell address = none

variable {α : Type*}

-----------------------------------------------------------------------------------------
-- Single cells
-----------------------------------------------------------------------------------------

theorem empty_above
    : ∀ address : Nat, 0 ≤ address → (fun _ => none : Nat → Option α) address = none :=
  fun _ _ => rfl

def Heap.empty : Heap α := ⟨fun _ => none, 0, empty_above⟩

/-- The cells with one changed. -/
def assign (cell : Nat → Option α) (address : Nat) (value : Option α) : Nat → Option α :=
  fun other => if other = address then value else cell other

theorem alloc_above (heap : Heap α) (value : α)
    : ∀ address, heap.top + 1 ≤ address
      → assign heap.cell heap.top (some value) address = none := by
  intro address high
  rw [assign, if_neg (by omega), heap.above address (by omega)]

/-- A new cell, at `top`. -/
def Heap.alloc (heap : Heap α) (value : α) : Heap α where
  cell := assign heap.cell heap.top (some value)
  top := heap.top + 1
  above := alloc_above heap value

theorem modify_above (heap : Heap α) (address : Nat) (change : α → Option α)
    : ∀ other, heap.top ≤ other
      → assign heap.cell address ((heap.cell address).bind change) other = none := by
  intro other high
  rw [assign]
  split
  · next same => rw [← same, heap.above other high, Option.bind_none]
  · exact heap.above other high

/-- A cell changed, or freed. -/
def Heap.modify (heap : Heap α) (address : Nat) (change : α → Option α) : Heap α where
  cell := assign heap.cell address ((heap.cell address).bind change)
  top := heap.top
  above := modify_above heap address change

/-- A write to an allocated cell. -/
def Heap.write (heap : Heap α) (address : Nat) (change : α → α) : Option (Heap α) :=
  if (heap.cell address).isSome then
    some (heap.modify address fun value => some (change value))
  else
    none

/-- `free` of an allocated cell. -/
def Heap.free (heap : Heap α) (address : Nat) : Option (Heap α) :=
  if (heap.cell address).isSome then some (heap.modify address fun _ => none) else none

variable {heap other : Heap α}

theorem cell_alloc_top (value : α) : (heap.alloc value).cell heap.top = some value :=
  if_pos rfl

theorem cell_alloc {value : α} {address : Nat} (old : address ≠ heap.top)
    : (heap.alloc value).cell address = heap.cell address :=
  if_neg old

theorem cell_modify (address : Nat) (change : α → Option α)
    : (heap.modify address change).cell address = (heap.cell address).bind change :=
  if_pos rfl

theorem cell_modify_other {address away : Nat} (change : α → Option α) (apart : away ≠ address)
    : (heap.modify address change).cell away = heap.cell away :=
  if_neg apart

theorem cell_alloc_ite (heap : Heap α) (value : α) (address : Nat)
    : (heap.alloc value).cell address
      = if address = heap.top then some value else heap.cell address := rfl

theorem cell_modify_ite (heap : Heap α) (address : Nat) (change : α → Option α) (other : Nat)
    : (heap.modify address change).cell other
      = if other = address then (heap.cell other).bind change else heap.cell other := by
  by_cases same : other = address
  · rw [if_pos same, same, cell_modify]
  · rw [if_neg same, cell_modify_other _ same]

theorem cell_top (heap : Heap α) : heap.cell heap.top = none :=
  heap.above heap.top (Nat.le_refl _)

/-- A field is kept by a write that keeps it. -/
theorem map_cell_modify {β : Type*} {view : α → β} {change : α → α}
    (keeps : ∀ value, view (change value) = view value) (address away : Nat)
    : ((heap.modify address fun value => some (change value)).cell away).map view
      = (heap.cell away).map view := by
  by_cases same : away = address
  · rw [same, cell_modify]
    cases heap.cell address with
    | none => rfl
    | some value => rw [Option.bind_some, Option.map_some, Option.map_some, keeps]
  · rw [cell_modify_other _ same]

theorem lt_top {address : Nat} {value : α} (found : heap.cell address = some value)
    : address < heap.top := by
  by_contra high
  rw [heap.above address (Nat.not_lt.mp high)] at found
  cases found

theorem write_eq {address : Nat} {value : α} (found : heap.cell address = some value)
    (change : α → α)
    : heap.write address change
      = some (heap.modify address fun value => some (change value)) := by
  rw [Heap.write, found]
  exact if_pos rfl

theorem free_eq {address : Nat} {value : α} (found : heap.cell address = some value)
    : heap.free address = some (heap.modify address fun _ => none) := by
  rw [Heap.free, found]
  exact if_pos rfl

-----------------------------------------------------------------------------------------
-- Chains
-----------------------------------------------------------------------------------------

/-- The cells at the given addresses are linked, from a start to an end without successor. -/
inductive Chain (next : α → Option Nat) (heap : Heap α) : Option Nat → List Nat → Prop
  | nil : Chain next heap none []
  | cons {address rest value} (found : heap.cell address = some value)
    (behind : Chain next heap (next value) rest)
    : Chain next heap (some address) (address :: rest)

namespace Chain

variable {next : α → Option Nat} {start : Option Nat} {addresses : List Nat}

theorem head (chain : Chain next heap start addresses) : start = addresses.head? := by
  cases chain <;> rfl

/-- A chain is read off the heap. -/
theorem unique {others : List Nat} (chain : Chain next heap start addresses)
    (also : Chain next heap start others)
    : addresses = others := by
  induction chain generalizing others with
  | nil => cases also; rfl
  | cons found _ ih =>
      cases also with
      | cons again behind =>
          obtain rfl := Option.some.inj (found.symm.trans again)
          rw [ih behind]

theorem found (chain : Chain next heap start addresses) {address : Nat}
    (member : address ∈ addresses)
    : ∃ value, heap.cell address = some value := by
  induction chain with
  | nil => cases member
  | cons here _ ih =>
      rcases List.mem_cons.mp member with rfl | later
      · exact ⟨_, here⟩
      · exact ih later

/-- What follows the first address of a chain is a chain. -/
theorem tail {address : Nat} {rest : List Nat} (chain : Chain next heap start (address :: rest))
    : ∃ value, heap.cell address = some value ∧ Chain next heap (next value) rest := by
  cases chain with
  | cons found behind => exact ⟨_, found, behind⟩

/-- What follows an address in a chain is a chain. -/
theorem behind {before rest : List Nat} {address : Nat}
    (chain : Chain next heap start (before ++ address :: rest))
    : ∃ value, heap.cell address = some value ∧ Chain next heap (next value) rest := by
  induction before generalizing start with
  | nil => exact chain.tail
  | cons first before ih =>
      obtain ⟨_, _, behind⟩ := chain.tail
      exact ih behind

/-- A chain that ends does not meet an address twice: from there on it would repeat. -/
theorem nodup (chain : Chain next heap start addresses) : addresses.Nodup := by
  induction chain with
  | nil => exact .nil
  | @cons address rest value found chain ih =>
      refine List.nodup_cons.mpr ⟨fun again => ?_, ih⟩
      obtain ⟨before, after, rfl⟩ := List.mem_iff_append.mp again
      obtain ⟨same, foundAgain, tail⟩ := chain.behind
      obtain rfl := Option.some.inj (found.symm.trans foundAgain)
      have repeats := congrArg List.length (chain.unique tail)
      simp only [List.length_append, List.length_cons] at repeats
      omega

theorem length_le (chain : Chain next heap start addresses) : addresses.length ≤ heap.top := by
  have below : addresses ⊆ List.range heap.top := by
    intro address member
    obtain ⟨value, found⟩ := chain.found member
    exact List.mem_range.mpr (lt_top found)
  simpa using (chain.nodup.subperm below).length_le

/-- A chain is kept by every change that keeps the links of its cells. -/
theorem congr (chain : Chain next heap start addresses)
    (same : ∀ address ∈ addresses,
      (other.cell address).map next = (heap.cell address).map next)
    : Chain next other start addresses := by
  induction chain with
  | nil => exact .nil
  | @cons address rest value found _ ih =>
      have linked := same address List.mem_cons_self
      rw [found, Option.map_some] at linked
      obtain ⟨kept, keptFound, keptLink⟩ := Option.map_eq_some_iff.mp linked
      refine .cons keptFound ?_
      rw [keptLink]
      exact ih fun later member => same later (List.mem_cons_of_mem _ member)

/-- A chain is kept by every change to other cells. -/
theorem frame (chain : Chain next heap start addresses)
    (same : ∀ address ∈ addresses, other.cell address = heap.cell address)
    : Chain next other start addresses :=
  chain.congr fun address member => by rw [same address member]

theorem alloc (chain : Chain next heap start addresses) (value : α)
    : Chain next (heap.alloc value) start addresses := by
  refine chain.frame fun address member => cell_alloc ?_
  obtain ⟨_, found⟩ := chain.found member
  exact Nat.ne_of_lt (lt_top found)

/-- A new cell is put in front of a chain. -/
theorem push (chain : Chain next heap start addresses) {value : α} (link : next value = start)
    : Chain next (heap.alloc value) (some heap.top) (heap.top :: addresses) :=
  .cons (cell_alloc_top value) (link ▸ chain.alloc value)

/-- An address behind the first one is unlinked by a write to the cell before it. -/
theorem unlink {before rest : List Nat} {previous gone : Nat} {value : α}
    {change : α → Option α}
    (chain : Chain next heap start (before ++ previous :: gone :: rest))
    (found : heap.cell gone = some value)
    (relink : ∀ old, heap.cell previous = some old
      → ∃ new, change old = some new ∧ next new = next value)
    : Chain next (heap.modify previous change) start (before ++ previous :: rest) := by
  induction before generalizing start with
  | nil =>
      have apart := chain.nodup
      cases chain with
      | @cons _ _ old here behind =>
          obtain ⟨new, changed, link⟩ := relink old here
          obtain ⟨same, sameFound, tail⟩ := behind.tail
          obtain rfl := Option.some.inj (found.symm.trans sameFound)
          have written : (heap.modify previous change).cell previous = some new := by
            rw [cell_modify, here, Option.bind_some, changed]
          refine .cons written ?_
          · rw [link]
            refine tail.frame fun address member => cell_modify_other _ ?_
            rintro rfl
            simp [member] at apart
  | cons first before ih =>
      have apart := (List.nodup_cons.mp chain.nodup).1
      cases chain with
      | cons here behind =>
          refine .cons ?_ (ih behind)
          rw [cell_modify_other _ ?_]
          · exact here
          · rintro rfl
            simp at apart

/-- A new cell is put behind the last one, which is made to link to it. -/
theorem snoc {init : List Nat} {last : Nat} {value : α} {change : α → Option α}
    (chain : Chain next heap start (init ++ [last])) (ends : next value = none)
    (relink : ∀ old, heap.cell last = some old
      → ∃ new, change old = some new ∧ next new = some heap.top)
    : Chain next ((heap.alloc value).modify last change) start (init ++ [last, heap.top]) := by
  have apart : ∀ address ∈ init ++ [last], address ≠ heap.top := by
    intro address member
    obtain ⟨old, found⟩ := chain.found member
    exact Nat.ne_of_lt (lt_top found)
  have newest : ((heap.alloc value).modify last change).cell heap.top = some value := by
    rw [cell_modify_other _ (apart last (by simp)).symm, cell_alloc_top]
  induction init generalizing start with
  | nil =>
      cases chain with
      | cons here _ =>
          obtain ⟨new, changed, link⟩ := relink _ here
          have written : ((heap.alloc value).modify last change).cell last = some new := by
            rw [cell_modify, cell_alloc (apart last (by simp)), here, Option.bind_some, changed]
          refine .cons written ?_
          · rw [link]
            exact .cons newest (ends ▸ .nil)
  | cons first init ih =>
      have once := (List.nodup_cons.mp chain.nodup).1
      cases chain with
      | cons here behind =>
          refine .cons ?_ (ih behind fun address member => apart address (by simp_all))
          rw [cell_modify_other _ (by rintro rfl; simp at once), cell_alloc (apart first (by simp)),
            here]

end Chain

-----------------------------------------------------------------------------------------
-- What a chain holds
-----------------------------------------------------------------------------------------

/-- A chain of cells that hold the given values, next to their links. -/
structure Holds {β : Type*} (next : α → Option Nat) (view : α → β) (heap : Heap α)
    (start : Option Nat) (addresses : List Nat) (values : List β)
    : Prop where
  chain : Chain next heap start addresses
  values : addresses.map (fun address => (heap.cell address).map view) = values.map some

namespace Holds

variable {β : Type*} {next : α → Option Nat} {view : α → β} {start : Option Nat}
  {addresses : List Nat} {values : List β}

theorem nil : Holds next view heap none [] [] := ⟨.nil, rfl⟩

theorem length_eq (holds : Holds next view heap start addresses values)
    : addresses.length = values.length := by
  simpa using congrArg List.length holds.values

/-- The first cell of a chain holds the first value. -/
theorem cons_iff {value : β}
    : Holds next view heap start addresses (value :: values)
      ↔ ∃ address rest cell,
        start = some address ∧ addresses = address :: rest ∧ heap.cell address = some cell
        ∧ view cell = value ∧ Holds next view heap (next cell) rest values := by
  constructor
  · rintro ⟨chain, same⟩
    cases chain with
    | nil => cases same
    | @cons address rest cell found behind =>
        obtain ⟨here, later⟩ := List.cons.inj same
        simp only [found, Option.map_some, Option.some_inj] at here
        exact ⟨address, rest, cell, rfl, rfl, found, here, behind, later⟩
  · rintro ⟨address, rest, cell, rfl, rfl, found, rfl, behind⟩
    refine ⟨.cons found behind.chain, ?_⟩
    rw [List.map_cons, List.map_cons, found, behind.values]
    rfl

/-- The values are kept by every change to other cells. -/
theorem frame (holds : Holds next view heap start addresses values)
    (same : ∀ address ∈ addresses, other.cell address = heap.cell address)
    : Holds next view other start addresses values := by
  refine ⟨holds.chain.frame same, ?_⟩
  rw [← holds.values]
  exact List.map_congr_left fun address member => by rw [same address member]

theorem push (holds : Holds next view heap start addresses values) {cell : α}
    (link : next cell = start)
    : Holds next view (heap.alloc cell) (some heap.top) (heap.top :: addresses)
        (view cell :: values) := by
  refine cons_iff.mpr ⟨_, _, _, rfl, rfl, cell_alloc_top cell, rfl, link ▸ holds.frame ?_⟩
  intro address member
  obtain ⟨_, found⟩ := holds.chain.found member
  exact cell_alloc (Nat.ne_of_lt (lt_top found))

/-- A write to one cell of a chain that keeps its link changes the value there. -/
theorem write {before rest : List Nat} {address : Nat} {earlier later : List β} {value : β}
    {cell : α} {change : α → α}
    (holds : Holds next view heap start (before ++ address :: rest) (earlier ++ value :: later))
    (aligned : before.length = earlier.length) (found : heap.cell address = some cell)
    (link : next (change cell) = next cell)
    : Holds next view (heap.modify address fun cell => some (change cell)) start
        (before ++ address :: rest) (earlier ++ view (change cell) :: later) := by
  have written : (heap.modify address fun cell => some (change cell)).cell address
      = some (change cell) := by
    rw [cell_modify, found, Option.bind_some]
  have kept : ∀ others : List Nat, address ∉ others
      → others.map (fun other =>
          ((heap.modify address fun cell => some (change cell)).cell other).map view)
        = others.map (fun other => (heap.cell other).map view) := by
    intro others away
    refine List.map_congr_left fun other member => ?_
    rw [cell_modify_other]
    rintro rfl
    exact away member
  have once := List.nodup_middle.mp holds.chain.nodup
  rw [List.nodup_cons, List.mem_append, not_or] at once
  have values := holds.values
  simp only [List.map_append, List.map_cons] at values
  obtain ⟨front, back⟩ := List.append_inj values (by simpa using aligned)
  refine ⟨holds.chain.congr fun other _ => ?_, ?_⟩
  · by_cases same : other = address
    · rw [same, written, found, Option.map_some, Option.map_some, link]
    · rw [cell_modify_other _ same]
  · simp only [List.map_append, List.map_cons]
    rw [kept before once.1.1, kept rest once.1.2, front, written, (List.cons.inj back).2]
    rfl

/-- A new cell behind the last one holds the last value. -/
theorem snoc {init : List Nat} {last : Nat} {cell : α} {change : α → Option α}
    (holds : Holds next view heap start (init ++ [last]) values) (ends : next cell = none)
    (relink : ∀ old, heap.cell last = some old
      → ∃ new, change old = some new ∧ next new = some heap.top ∧ view new = view old)
    : Holds next view ((heap.alloc cell).modify last change) start (init ++ [last, heap.top])
        (values ++ [view cell]) := by
  have apart : ∀ address ∈ init ++ [last], address ≠ heap.top := by
    intro address member
    obtain ⟨_, found⟩ := holds.chain.found member
    exact Nat.ne_of_lt (lt_top found)
  refine ⟨holds.chain.snoc ends fun old found => ?_, ?_⟩
  · obtain ⟨new, changed, link, -⟩ := relink old found
    exact ⟨new, changed, link⟩
  · have kept : ∀ address ∈ init ++ [last],
        (((heap.alloc cell).modify last change).cell address).map view
          = (heap.cell address).map view := by
      intro address member
      by_cases here : address = last
      · obtain ⟨old, found⟩ := holds.chain.found (by simp : last ∈ _)
        obtain ⟨new, changed, -, same⟩ := relink old found
        rw [here, cell_modify, cell_alloc (apart last (by simp)), found, Option.bind_some,
          changed, Option.map_some, Option.map_some, same]
      · rw [cell_modify_other _ here, cell_alloc (apart address member)]
    have newest : ((heap.alloc cell).modify last change).cell heap.top = some cell := by
      rw [cell_modify_other _ (apart last (by simp)).symm, cell_alloc_top]
    have split : init ++ [last, heap.top] = (init ++ [last]) ++ [heap.top] := by simp
    rw [split, List.map_append, List.map_congr_left kept, holds.values]
    simp [newest]

end Holds

-----------------------------------------------------------------------------------------
-- Loops along a chain
-----------------------------------------------------------------------------------------

/-- The loop `for (cur = start; cur != NULL; cur = cur->next)` that ends at the first cell
with a property, and keeps the cell before it.
-/
def seek (next : α → Option Nat) (stop : Nat → α → Bool) (heap : Heap α)
    : Nat → Option Nat → Option Nat → Option (Option Nat × Option Nat)
  | _, previous, none => some (previous, none)
  | 0, _, some _ => none
  | fuel + 1, previous, some address =>
      (heap.cell address).bind fun value =>
        if stop address value then
          some (previous, some address)
        else
          seek next stop heap fuel (some address) (next value)

/-- The loop that frees every cell of a chain; the link is read before the cell is freed. -/
def freeAll (next : α → Option Nat) : Nat → Heap α → Option Nat → Option (Heap α)
  | _, heap, none => some heap
  | 0, _, some _ => none
  | fuel + 1, heap, some address =>
      (heap.cell address).bind fun value =>
        (heap.free address).bind fun heap => freeAll next fuel heap (next value)

/-- The cells of a chain in order. -/
def walk (next : α → Option Nat) (heap : Heap α) : Nat → Option Nat → Option (List (Nat × α))
  | _, none => some []
  | 0, some _ => none
  | fuel + 1, some address =>
      (heap.cell address).bind fun value =>
        (walk next heap fuel (next value)).map ((address, value) :: ·)

section Loops

variable {next : α → Option Nat} {stop : Nat → α → Bool} {start previous : Option Nat}
  {before rest addresses : List Nat} {fuel : Nat}

theorem getLast?_cons_or (first : Nat)
    : (first :: before).getLast?.or previous = before.getLast?.or (some first) := by
  rw [List.getLast?_cons, Option.some_or]
  cases before.getLast? <;> rfl

/-- The search ends at the first cell with the property. -/
theorem seek_stops {address : Nat} {value : α}
    (chain : Chain next heap start (before ++ address :: rest))
    (found : heap.cell address = some value) (stops : stop address value)
    (passes : ∀ earlier ∈ before, ∀ value, heap.cell earlier = some value
      → ¬ stop earlier value)
    (enough : before.length < fuel)
    : seek next stop heap fuel previous start
      = some (before.getLast?.or previous, some address) := by
  induction before generalizing start previous fuel with
  | nil =>
      obtain ⟨fuel, rfl⟩ := Nat.exists_eq_succ_of_ne_zero (Nat.ne_of_gt enough)
      cases chain
      simp only [seek, found, Option.bind_some, if_pos stops]
      rfl
  | cons first before ih =>
      obtain ⟨fuel, rfl⟩ :=
        Nat.exists_eq_succ_of_ne_zero (Nat.ne_of_gt (Nat.zero_lt_of_lt enough))
      cases chain with
      | cons here behind =>
          have passed := passes first List.mem_cons_self _ here
          simp only [seek, here, Option.bind_some, if_neg passed]
          rw [ih behind (fun earlier member => passes earlier (List.mem_cons_of_mem _ member))
            (by simpa using enough), getLast?_cons_or]

/-- The search finds nothing where no cell has the property. -/
theorem seek_ends (chain : Chain next heap start addresses)
    (passes : ∀ address ∈ addresses, ∀ value, heap.cell address = some value
      → ¬ stop address value)
    (enough : addresses.length ≤ fuel)
    : seek next stop heap fuel previous start
      = some (addresses.getLast?.or previous, none) := by
  induction chain generalizing previous fuel with
  | nil => cases fuel <;> simp [seek]
  | @cons address rest value found behind ih =>
      obtain ⟨fuel, rfl⟩ := Nat.exists_eq_succ_of_ne_zero
        (Nat.ne_of_gt (Nat.lt_of_lt_of_le (Nat.zero_lt_succ _) enough))
      have passed := passes address List.mem_cons_self value found
      simp only [seek, found, Option.bind_some, if_neg passed]
      rw [ih (fun later member => passes later (List.mem_cons_of_mem _ member))
        (by simpa using enough), getLast?_cons_or]

/-- Freeing a chain frees its cells, and no others. -/
theorem freeAll_frees (chain : Chain next heap start addresses)
    (enough : addresses.length ≤ fuel)
    : ∃ freed,
        freeAll next fuel heap start = some freed
        ∧ (∀ address ∈ addresses, freed.cell address = none)
        ∧ (∀ address, address ∉ addresses → freed.cell address = heap.cell address)
        ∧ freed.top = heap.top := by
  induction addresses generalizing heap start fuel with
  | nil =>
      cases chain
      exact ⟨heap, by cases fuel <;> rfl, by simp, fun _ _ => rfl, rfl⟩
  | cons address rest ih =>
      have apart := (List.nodup_cons.mp chain.nodup).1
      obtain ⟨fuel, rfl⟩ := Nat.exists_eq_succ_of_ne_zero
        (Nat.ne_of_gt (Nat.lt_of_lt_of_le (Nat.zero_lt_succ _) enough))
      cases chain with
      | @cons _ _ value found behind =>
          have away : ∀ later, later ≠ address
              → (heap.modify address fun _ => none).cell later = heap.cell later :=
            fun later => cell_modify_other _
          have left : Chain next (heap.modify address fun _ => none) (next value) rest :=
            behind.frame fun later member => away later (fun same => apart (same ▸ member))
          obtain ⟨freed, ends, gone, kept, top⟩ := ih left (by simpa using enough)
          refine ⟨freed, ?_, ?_, ?_, top⟩
          · simp only [freeAll, found, Option.bind_some, free_eq found, ends]
          · intro later member
            rcases List.mem_cons.mp member with rfl | behindIt
            · rw [kept _ apart, cell_modify]
              cases heap.cell later <;> rfl
            · exact gone later behindIt
          · intro later outside
            rw [List.mem_cons, not_or] at outside
            rw [kept later outside.2, away later outside.1]

/-- Walking along a chain lists its cells. -/
theorem walk_lists (chain : Chain next heap start addresses)
    (enough : addresses.length ≤ fuel)
    : ∃ cells,
        walk next heap fuel start = some cells ∧ cells.map Prod.fst = addresses
        ∧ ∀ entry ∈ cells, heap.cell entry.1 = some entry.2 := by
  induction chain generalizing fuel with
  | nil => exact ⟨[], by cases fuel <;> rfl, rfl, by simp⟩
  | @cons address rest value found behind ih =>
      obtain ⟨fuel, rfl⟩ := Nat.exists_eq_succ_of_ne_zero
        (Nat.ne_of_gt (Nat.lt_of_lt_of_le (Nat.zero_lt_succ _) enough))
      obtain ⟨cells, walked, same, each⟩ := ih (by simpa using enough)
      refine ⟨(address, value) :: cells, ?_, ?_, ?_⟩
      · simp only [walk, found, Option.bind_some, walked, Option.map_some]
      · rw [List.map_cons, same]
      · intro entry member
        rcases List.mem_cons.mp member with rfl | later
        · exact found
        · exact each entry later

/-- Walking along a chain lists its values. -/
theorem walk_holds {β : Type*} {view : α → β} {values : List β}
    (holds : Holds next view heap start addresses values) (enough : addresses.length ≤ fuel)
    : ∃ cells,
        walk next heap fuel start = some cells
        ∧ cells.map (fun entry => view entry.2) = values := by
  obtain ⟨cells, walked, here, each⟩ := walk_lists holds.chain enough
  refine ⟨cells, walked, List.map_injective_iff.mpr (Option.some_injective _) ?_⟩
  rw [← holds.values, ← here, List.map_map, List.map_map]
  refine List.map_congr_left fun entry member => ?_
  simp only [Function.comp_apply, each entry member, Option.map_some]

end Loops

end LinkedHeap
