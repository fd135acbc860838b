import Networks.Ctcp.State
import Networks.Library.DoublyLinked
import Networks.Library.StepRuns
import Mathlib.Data.List.TakeWhile

/-! The linked lists that hold segments: nodes on a heap that are linked in both directions.
Definitions follow `ctcp_linked_list.c`. The other modules keep the same segments in sequences,
and the operations on nodes do what theirs do.
-/

namespace Networks.Ctcp

open LinkedHeap MachineIntegers

/-- `ll_node_t`. Objects are the pointers other than NULL. -/
structure LlNode (ω : Type*) where
  next : Option Nat
  prev : Option Nat
  object : ω

/-- `linked_list_t`. -/
structure LinkedList where
  head : Option Nat
  tail : Option Nat
  length : Nat
  deriving DecidableEq

/-- A list, or NULL for `list`, and the heap of nodes. -/
structure Lists (ω : Type*) where
  nodes : Heap (LlNode ω)
  list : Option LinkedList

namespace Lists

variable {ω : Type*}

/-- `ll_create`, on an empty heap. -/
def llCreate : Lists ω where
  nodes := .empty
  list := some { head := none, tail := none, length := 0 }

/-- `ll_create_node`. -/
def llCreateNode (object : ω) (nodes : Heap (LlNode ω)) : Nat × Heap (LlNode ω) :=
  (nodes.top, nodes.alloc { next := none, prev := none, object := object })

/-- A write to the node that a pointer leads to. -/
def writeTo (pointer : Option Nat) (change : LlNode ω → LlNode ω) (nodes : Heap (LlNode ω))
    : Option (Heap (LlNode ω)) :=
  pointer.bind fun node => nodes.write node change

/-- `ll_add`. -/
def llAdd (object : Option ω) (lists : Lists ω) : Option (Option Nat × Lists ω) :=
  match lists.list, object with
  | some list, some object =>
      let node := (llCreateNode object lists.nodes).1
      let nodes := (llCreateNode object lists.nodes).2
      let length := uint32 (list.length + 1)
      if list.head = none then
        some (some node, ⟨nodes, some ⟨some node, some node, length⟩⟩)
      else
        (writeTo list.tail (fun last => { last with next := some node }) nodes).bind fun nodes =>
          (nodes.write node fun new => { new with prev := list.tail }).map fun nodes =>
            (some node, ⟨nodes, some ⟨list.head, some node, length⟩⟩)
  | _, _ => some (none, lists)

/-- `ll_add_front`. -/
def llAddFront (object : Option ω) (lists : Lists ω) : Option (Option Nat × Lists ω) :=
  match lists.list, object with
  | some list, some object =>
      let node := (llCreateNode object lists.nodes).1
      let nodes := (llCreateNode object lists.nodes).2
      let length := uint32 (list.length + 1)
      if list.head = none then
        some (some node, ⟨nodes, some ⟨some node, some node, length⟩⟩)
      else
        (nodes.write node fun new => { new with next := list.head }).bind fun nodes =>
          (writeTo list.head (fun first => { first with prev := some node }) nodes).map
            fun nodes => (some node, ⟨nodes, some ⟨some node, list.tail, length⟩⟩)
  | _, _ => some (none, lists)

/-- `ll_add_after`. -/
def llAddAfter (node : Option Nat) (object : Option ω) (lists : Lists ω)
    : Option (Option Nat × Lists ω) :=
  match lists.list, node, object with
  | some list, some node, some object =>
      let newNode := (llCreateNode object lists.nodes).1
      let nodes := (llCreateNode object lists.nodes).2
      (nodes.cell node).bind fun cell =>
        (nodes.write newNode fun new => { new with prev := some node, next := cell.next }).bind
          fun nodes =>
            (if cell.next = none then
                some nodes
              else
                writeTo cell.next (fun next => { next with prev := some newNode }) nodes).bind
              fun nodes =>
                (nodes.write node fun cell => { cell with next := some newNode }).map
                  fun nodes =>
                    (some newNode,
                      ⟨nodes,
                        some
                          { head := list.head
                            tail :=
                              if some node = list.tail then some newNode else list.tail
                            length := uint32 (list.length + 1) }⟩)
  | _, _, _ => some (none, lists)

/-- `ll_remove`, with the object it returns. -/
def llRemove (node : Option Nat) (lists : Lists ω) : Option (Option ω × Lists ω) :=
  match lists.list, node with
  | some list, some node =>
      (lists.nodes.cell node).bind fun cell =>
        (if some node = list.head then
            some (cell.next, lists.nodes)
          else
            (writeTo cell.prev (fun prev => { prev with next := cell.next }) lists.nodes).map
              fun nodes => (list.head, nodes)).bind
          fun front =>
            (front.2.cell node).bind fun again =>
              (if some node = list.tail then
                  some (again.prev, front.2)
                else
                  (writeTo again.next (fun next => { next with prev := again.prev })
                      front.2).map fun nodes => (list.tail, nodes)).bind
                fun back =>
                  (back.2.free node).map fun nodes =>
                    (some cell.object,
                      ⟨nodes, some ⟨front.1, back.1, uint32 (list.length - 1)⟩⟩)
  | _, _ => some (none, lists)

/-- `ll_find`. -/
def llFind [DecidableEq ω] (object : Option ω) (lists : Lists ω) : Option (Option Nat) :=
  match lists.list, object with
  | some list, some object =>
      (seek LlNode.next (fun _ curr => curr.object = object) lists.nodes lists.nodes.top none
        list.head).map Prod.snd
  | _, _ => some none

/-- `ll_front`. -/
def llFront (lists : Lists ω) : Option (Option Nat) := lists.list.map LinkedList.head

/-- `ll_back`. -/
def llBack (lists : Lists ω) : Option (Option Nat) := lists.list.map LinkedList.tail

/-- `ll_length`. -/
def llLength (lists : Lists ω) : Option Nat := lists.list.map LinkedList.length

-----------------------------------------------------------------------------------------
-- Operations
-----------------------------------------------------------------------------------------

/-- The `linked_list_t` of a list with the given entries, whose length `unsigned int` counts. -/
def listOf (entries : List (Nat × ω)) : LinkedList where
  head := entries.head?.map Prod.fst
  tail := entries.getLast?.map Prod.fst
  length := uint32 entries.length

/-- A list that holds the entries. -/
structure Represents (lists : Lists ω) (entries : List (Nat × ω)) : Prop where
  doubly : Doubly LlNode.next LlNode.prev LlNode.object lists.nodes entries
  list : lists.list = some (listOf entries)

section Operations

variable {lists : Lists ω} {entries front back : List (Nat × ω)} {heap other : Heap (LlNode ω)}

/-- Two writes at most relink the nodes around a place. -/
theorem relinked_of_cells {before after forth home : Option Nat} {away : Nat}
    (apart : ∀ node, before = some node → after ≠ some node)
    (outside : before ≠ some away ∧ after ≠ some away)
    (cells
      : ∀ node, node ≠ away
        → other.cell node
          = if before = some node then
              (heap.cell node).map fun cell => { cell with next := forth }
            else if after = some node then
              (heap.cell node).map fun cell => { cell with prev := home }
            else
              heap.cell node)
    : Relinked LlNode.next LlNode.prev LlNode.object heap other before after forth home away := by
  constructor
  · rintro node rfl cell found
    rw [cells node (fun same => outside.1 (same ▸ rfl)), if_pos rfl, found]
    exact ⟨_, rfl, rfl, rfl, rfl⟩
  · rintro node rfl cell found
    rw [cells node (fun same => outside.2 (same ▸ rfl)),
      if_neg (fun same => apart node same rfl), if_pos rfl, found]
    exact ⟨_, rfl, rfl, rfl, rfl⟩
  · intro node away first second
    rw [cells node away, if_neg first, if_neg second]

/-- The nodes around a place are different. -/
theorem Represents.apart (rep : Represents lists (front ++ back)) {node : Nat}
    (last : front.getLast?.map Prod.fst = some node)
    : back.head?.map Prod.fst ≠ some node := by
  intro first
  rw [← List.head?_map] at first
  exact (rep.doubly.ahead last).1 (List.mem_of_head? first)

/-- The nodes around a place are old. -/
theorem Represents.old (rep : Represents lists (front ++ back))
    : front.getLast?.map Prod.fst ≠ some lists.nodes.top
      ∧ back.head?.map Prod.fst ≠ some lists.nodes.top := by
  have free := cell_top lists.nodes
  constructor
  · intro last
    obtain ⟨-, cell, found⟩ := rep.doubly.ahead last
    exact absurd (free.symm.trans found) (by simp)
  · intro first
    obtain ⟨-, cell, found⟩ := rep.doubly.behind first
    exact absurd (free.symm.trans found) (by simp)

/-- A new node is put in a place, when the nodes around it lead to it and it leads to them. -/
theorem Represents.inserted (rep : Represents lists (front ++ back)) {object : ω}
    (cells
      : ∀ node,
          other.cell node
          = if node = lists.nodes.top then
              some
                { next := back.head?.map Prod.fst
                  prev := front.getLast?.map Prod.fst
                  object := object }
            else if front.getLast?.map Prod.fst = some node then
              (lists.nodes.cell node).map fun cell => { cell with next := some lists.nodes.top }
            else if back.head?.map Prod.fst = some node then
              (lists.nodes.cell node).map fun cell => { cell with prev := some lists.nodes.top }
            else
              lists.nodes.cell node)
    : Doubly LlNode.next LlNode.prev LlNode.object other
        (front ++ (lists.nodes.top, object) :: back) := by
  have placed := cells lists.nodes.top
  rw [if_pos rfl] at placed
  refine rep.doubly.insert (cell_top lists.nodes) ?_ ⟨_, placed, rfl, rfl, rfl⟩
  refine relinked_of_cells (fun node last => rep.apart last) rep.old fun node away => ?_
  rw [cells, if_neg away]

/-- A node and the nodes around it are different. -/
theorem Represents.neighbours {node : Nat} {value : ω}
    (rep : Represents lists (front ++ (node, value) :: back))
    : front.getLast?.map Prod.fst ≠ some node
      ∧ back.head?.map Prod.fst ≠ some node
      ∧ ∀ place, front.getLast?.map Prod.fst = some place
        → back.head?.map Prod.fst ≠ some place := by
  have behind : Doubly LlNode.next LlNode.prev LlNode.object lists.nodes
      ((front ++ [(node, value)]) ++ back) := by simpa using rep.doubly
  refine ⟨fun last => (rep.doubly.ahead last).1 (by simp),
    fun first => (behind.behind first).1 (by simp), fun place last first => ?_⟩
  rw [← List.head?_map] at first
  exact (rep.doubly.ahead last).1 (List.mem_cons_of_mem _ (List.mem_of_head? first))

/-- A node is taken out of a place, when the nodes around it lead to each other. -/
theorem Represents.removed {node : Nat} {value : ω}
    (rep : Represents lists (front ++ (node, value) :: back))
    (cells
      : ∀ place, place ≠ node
        → other.cell place
          = if front.getLast?.map Prod.fst = some place then
              (lists.nodes.cell place).map fun cell =>
                { cell with next := back.head?.map Prod.fst }
            else if back.head?.map Prod.fst = some place then
              (lists.nodes.cell place).map fun cell =>
                { cell with prev := front.getLast?.map Prod.fst }
            else
              lists.nodes.cell place)
    : Doubly LlNode.next LlNode.prev LlNode.object other (front ++ back) := by
  obtain ⟨notBefore, notAfter, apart⟩ := rep.neighbours
  exact rep.doubly.remove (relinked_of_cells apart ⟨notBefore, notAfter⟩ cells)

theorem uint32_succ (count : Nat) : uint32 (uint32 count + 1) = uint32 (count + 1 : Nat) := by
  unfold uint32
  omega

theorem listOf_cons (full : entries ≠ []) (entry : Nat × ω)
    : listOf (entry :: entries)
      = ⟨some entry.1, (listOf entries).tail, uint32 ((listOf entries).length + 1)⟩ := by
  have length : uint32 (entry :: entries).length = uint32 (uint32 entries.length + 1) := by
    rw [uint32_succ, List.length_cons]
  obtain ⟨first, rest, rfl⟩ := List.exists_cons_of_ne_nil full
  simp only [listOf, length, List.getLast?_cons_cons]
  rfl

theorem listOf_concat (full : entries ≠ []) (entry : Nat × ω)
    : listOf (entries ++ [entry])
      = ⟨(listOf entries).head, some entry.1, uint32 ((listOf entries).length + 1)⟩ := by
  have length : uint32 (entries ++ [entry]).length = uint32 (uint32 entries.length + 1) := by
    rw [uint32_succ, List.length_append, List.length_singleton]
  obtain ⟨first, rest, rfl⟩ := List.exists_cons_of_ne_nil full
  simp only [listOf, length, List.getLast?_concat, Option.map_some]
  rfl

theorem tail_listOf (front back : List (Nat × ω)) (entry : Nat × ω)
    : (listOf (front ++ entry :: back)).tail = some (back.getLast?.getD entry).1 := by
  simp [listOf, List.getLast?_append, List.getLast?_cons]

theorem listOf_insert {node : Nat} {value : ω} (once : node ∉ back.map Prod.fst)
    (new : Nat × ω)
    : listOf (front ++ (node, value) :: new :: back)
      = ⟨(listOf (front ++ (node, value) :: back)).head,
          if some node = (listOf (front ++ (node, value) :: back)).tail then
            some new.1
          else
            (listOf (front ++ (node, value) :: back)).tail,
          uint32 ((listOf (front ++ (node, value) :: back)).length + 1)⟩ := by
  have length : uint32 (front ++ (node, value) :: new :: back).length
      = uint32 (uint32 (front ++ (node, value) :: back).length + 1) := by
    rw [uint32_succ]
    simp only [List.length_append, List.length_cons]
    rfl
  have head : (front ++ (node, value) :: new :: back).head?
      = (front ++ (node, value) :: back).head? := by
    cases front <;> rfl
  have tail : (listOf (front ++ (node, value) :: new :: back)).tail
      = if some node = (listOf (front ++ (node, value) :: back)).tail then
          some new.1
        else
          (listOf (front ++ (node, value) :: back)).tail := by
    rw [tail_listOf, tail_listOf, List.getLast?_cons, Option.getD_some]
    cases final : back.getLast? with
    | none => rw [Option.getD_none, Option.getD_none, if_pos rfl]
    | some last =>
        have apart : node ≠ last.1 := by
          rintro rfl
          exact once (List.mem_map_of_mem (List.mem_of_getLast? final))
        rw [Option.getD_some, Option.getD_some, if_neg (fun same => apart (Option.some.inj same))]
  rw [← tail]
  simp only [listOf, length, head]

/-- Into an empty list both functions put the first node. -/
theorem Represents.first (rep : Represents lists []) (object : ω)
    : Doubly LlNode.next LlNode.prev LlNode.object
        (lists.nodes.alloc { next := none, prev := none, object := object })
        [(lists.nodes.top, object)] :=
  @Represents.inserted _ lists [] [] _ rep object fun node => by
    simpa using cell_alloc_ite lists.nodes _ node

/-- `ll_add` puts the object behind the others. -/
theorem Represents.llAdd (rep : Represents lists entries) (object : ω)
    : ∃ next,
        lists.llAdd (some object) = some (some lists.nodes.top, next)
        ∧ Represents next (entries ++ [(lists.nodes.top, object)]) := by
  let node : LlNode ω := { next := none, prev := none, object := object }
  rcases List.eq_nil_or_concat entries with rfl | ⟨init, ⟨last, value⟩, rfl⟩
  · refine ⟨⟨lists.nodes.alloc node, some (listOf [(lists.nodes.top, object)])⟩, ?_,
      ⟨rep.first object, rfl⟩⟩
    simp only [Lists.llAdd, rep.list]
    rfl
  · rw [List.concat_eq_append] at *
    have tail : (init ++ [(last, value)]).getLast?.map Prod.fst = some last := by simp
    have whole : Represents lists ((init ++ [(last, value)]) ++ []) := by simpa using rep
    obtain ⟨-, cell, found⟩ := whole.doubly.ahead tail
    have apart : last ≠ lists.nodes.top := Nat.ne_of_lt (lt_top found)
    have head : (listOf (init ++ [(last, value)])).head ≠ none := by
      cases init <;> simp [listOf]
    let linked := (lists.nodes.alloc node).modify last fun old =>
      some { old with next := some lists.nodes.top }
    have stays : (lists.nodes.alloc node).cell last = some cell := (cell_alloc apart).trans found
    have placed : linked.cell lists.nodes.top = some node :=
      (cell_modify_other _ apart.symm).trans (cell_alloc_top node)
    have longer := listOf_concat (by simp : init ++ [(last, value)] ≠ [])
      (lists.nodes.top, object)
    refine ⟨⟨linked.modify lists.nodes.top fun new => some { new with prev := some last },
      some (listOf _)⟩, ?_, ⟨whole.inserted fun place => ?_, rfl⟩⟩
    · have same : (listOf (init ++ [(last, value)])).tail = some last := tail
      rw [longer]
      simp only [Lists.llAdd, rep.list, llCreateNode, if_neg head, same, writeTo, Option.bind_some]
      rw [write_eq stays, Option.bind_some, write_eq placed, Option.map_some]
    · rw [cell_modify_ite, cell_modify_ite, cell_alloc_ite, tail]
      by_cases new : place = lists.nodes.top
      · simp [new, apart.symm, node]
      by_cases here : place = last
      · simp [here, apart, found]
      · simp [new, here, Ne.symm here]

/-- `ll_add_front` puts the object in front of the others. -/
theorem Represents.llAddFront (rep : Represents lists entries) (object : ω)
    : ∃ next,
        lists.llAddFront (some object) = some (some lists.nodes.top, next)
        ∧ Represents next ((lists.nodes.top, object) :: entries) := by
  let node : LlNode ω := { next := none, prev := none, object := object }
  cases entries with
  | nil =>
      refine ⟨⟨lists.nodes.alloc node, some (listOf [(lists.nodes.top, object)])⟩, ?_,
        ⟨rep.first object, rfl⟩⟩
      simp only [Lists.llAddFront, rep.list]
      rfl
  | cons entry rest =>
      have whole : Represents lists ([] ++ entry :: rest) := rep
      obtain ⟨-, cell, found⟩ := whole.doubly.behind (rfl : _ = some entry.1)
      have apart : entry.1 ≠ lists.nodes.top := Nat.ne_of_lt (lt_top found)
      have head : (listOf (entry :: rest)).head = some entry.1 := rfl
      let linked := (lists.nodes.alloc node).modify lists.nodes.top fun new =>
        some { new with next := some entry.1 }
      have stays : linked.cell entry.1 = some cell := by
        rw [cell_modify_other _ apart, cell_alloc apart, found]
      have longer := listOf_cons (by simp : entry :: rest ≠ []) (lists.nodes.top, object)
      refine ⟨⟨linked.modify entry.1 fun old => some { old with prev := some lists.nodes.top },
        some (listOf _)⟩, ?_, ⟨whole.inserted fun place => ?_, rfl⟩⟩
      · rw [longer]
        simp only [Lists.llAddFront, rep.list, llCreateNode, head, reduceCtorEq, if_false, writeTo,
          Option.bind_some]
        rw [write_eq (cell_alloc_top node), Option.bind_some, write_eq stays, Option.map_some]
      · rw [cell_modify_ite, cell_modify_ite, cell_alloc_ite]
        by_cases new : place = lists.nodes.top
        · simp [new, apart.symm, node]
        by_cases here : place = entry.1
        · simp [here, apart, found]
        · simp [new, here, Ne.symm here]

/-- A write through a pointer that may be NULL. -/
theorem written (nodes : Heap (LlNode ω)) {pointer : Option Nat} (change : LlNode ω → LlNode ω)
    (valid : ∀ node, pointer = some node → ∃ cell, nodes.cell node = some cell)
    : ∃ relinked : Heap (LlNode ω),
        (∀ node,
          relinked.cell node
            = if pointer = some node then (nodes.cell node).map change else nodes.cell node)
        ∧ (pointer ≠ none → writeTo pointer change nodes = some relinked)
        ∧ (pointer = none → relinked = nodes) := by
  cases pointer with
  | none => exact ⟨nodes, by simp, by simp, fun _ => rfl⟩
  | some address =>
      obtain ⟨cell, found⟩ := valid address rfl
      refine ⟨nodes.modify address fun cell => some (change cell), fun node => ?_,
        fun _ => write_eq found change, by simp⟩
      rw [cell_modify_ite]
      by_cases same : node = address
      · simp [same, found]
      · simp [same, Ne.symm same]

/-- `ll_add_after` puts the object behind a node of the list. -/
theorem Represents.llAddAfter {node : Nat} {value : ω}
    (rep : Represents lists (front ++ (node, value) :: back)) (object : ω)
    : ∃ next,
        lists.llAddAfter (some node) (some object) = some (some lists.nodes.top, next)
        ∧ Represents next (front ++ (node, value) :: (lists.nodes.top, object) :: back) := by
  obtain ⟨cell, found, -, -, leadsOn⟩ := rep.doubly.between
  have apart : node ≠ lists.nodes.top := Nat.ne_of_lt (lt_top found)
  have before : (front ++ [(node, value)]).getLast?.map Prod.fst = some node := by simp
  have whole : Represents lists ((front ++ [(node, value)]) ++ back) := by simpa using rep
  have notAfter : back.head?.map Prod.fst ≠ some node := whole.apart before
  let new : LlNode ω := { next := cell.next, prev := some node, object := object }
  let placed := (lists.nodes.alloc ⟨none, none, object⟩).modify lists.nodes.top fun new =>
    some { new with prev := some node, next := cell.next }
  have placedCells : ∀ place,
      placed.cell place = if place = lists.nodes.top then some new else lists.nodes.cell place := by
    intro place
    rw [cell_modify_ite, cell_alloc_ite]
    split <;> rfl
  have valid : ∀ after, cell.next = some after → ∃ cell, placed.cell after = some cell := by
    intro after link
    obtain ⟨-, next, here⟩ := whole.doubly.behind (leadsOn ▸ link)
    exact ⟨next, by rw [placedCells, if_neg (Nat.ne_of_lt (lt_top here)), here]⟩
  obtain ⟨relinked, cells, wrote, same⟩ :=
    written placed (fun next => { next with prev := some lists.nodes.top }) valid
  have still : relinked.cell node = some cell := by
    rw [cells, leadsOn, if_neg notAfter, placedCells, if_neg apart, found]
  have chosen : (if cell.next = none then some placed
        else writeTo cell.next (fun next => { next with prev := some lists.nodes.top }) placed)
      = some relinked := by
    split
    · next none => rw [same none]
    · next some => exact wrote some
  have once : node ∉ back.map Prod.fst := (whole.doubly.ahead before).1
  have longer := @listOf_insert _ front back node value once (lists.nodes.top, object)
  have linked := @Represents.inserted _ _ _ _
    (relinked.modify node fun cell => some { cell with next := some lists.nodes.top }) whole object
    fun place => ?_
  · refine ⟨⟨relinked.modify node fun cell => some { cell with next := some lists.nodes.top },
      some (listOf _)⟩, ?_, ⟨by simpa using linked, rfl⟩⟩
    simp only [Lists.llAddAfter, rep.list, llCreateNode, cell_alloc apart, found, Option.bind_some]
    rw [write_eq (cell_alloc_top _), Option.bind_some, chosen, Option.bind_some, write_eq still,
      Option.map_some, longer]
  · rw [cell_modify_ite, cells, placedCells, leadsOn, before]
    by_cases fresh : place = lists.nodes.top
    · subst fresh
      rw [if_neg apart.symm, if_neg whole.old.2, if_pos rfl, if_pos rfl, ← leadsOn]
    by_cases here : place = node
    · subst here
      rw [if_pos rfl, if_neg notAfter, if_neg fresh, if_neg fresh, if_pos rfl, found]
      rfl
    · have away : some node ≠ some place := fun same => here (Option.some.inj same).symm
      rw [if_neg here, if_neg fresh, if_neg fresh, if_neg away]

theorem head_listOf (front back : List (Nat × ω)) (entry : Nat × ω)
    : (listOf (front ++ entry :: back)).head = some (front.head?.getD entry).1 := by
  cases front <;> rfl

/-- The first half of `ll_remove`, and what it makes of `head`. -/
theorem unlinkFront {node : Nat} {value : ω} {cell : LlNode ω} (nodes : Heap (LlNode ω))
    (once : node ∉ front.map Prod.fst) (leadsBack : cell.prev = front.getLast?.map Prod.fst)
    (leadsOn : cell.next = back.head?.map Prod.fst)
    (valid : ∀ before, cell.prev = some before → ∃ cell, nodes.cell before = some cell)
    : ∃ relinked : Heap (LlNode ω),
        (∀ other,
          relinked.cell other
            = if cell.prev = some other then
                (nodes.cell other).map fun prev => { prev with next := cell.next }
              else
                nodes.cell other)
        ∧ (if some node = (listOf (front ++ (node, value) :: back)).head then
              some (cell.next, nodes)
            else
              (writeTo cell.prev (fun prev => { prev with next := cell.next }) nodes).map
                fun nodes => ((listOf (front ++ (node, value) :: back)).head, nodes))
          = some ((listOf (front ++ back)).head, relinked) := by
  obtain ⟨relinked, cells, wrote, same⟩ :=
    written nodes (fun prev => { prev with next := cell.next }) valid
  refine ⟨relinked, cells, ?_⟩
  rw [head_listOf]
  cases front with
  | nil =>
      rw [List.head?_nil, Option.getD_none, if_pos rfl, leadsOn, same leadsBack]
      rfl
  | cons first rest =>
      have apart : node ≠ first.1 := by
        rintro rfl
        exact once (by simp)
      have some : cell.prev ≠ none := by
        rw [leadsBack]
        simp
      rw [List.head?_cons, Option.getD_some, if_neg (fun same => apart (Option.some.inj same)),
        wrote some, Option.map_some]
      rfl

/-- The second half of `ll_remove`, and what it makes of `tail`. -/
theorem unlinkBack {node : Nat} {value : ω} {cell : LlNode ω} (nodes : Heap (LlNode ω))
    (once : node ∉ back.map Prod.fst) (leadsBack : cell.prev = front.getLast?.map Prod.fst)
    (leadsOn : cell.next = back.head?.map Prod.fst)
    (valid : ∀ after, cell.next = some after → ∃ cell, nodes.cell after = some cell)
    : ∃ relinked : Heap (LlNode ω),
        (∀ other,
          relinked.cell other
            = if cell.next = some other then
                (nodes.cell other).map fun next => { next with prev := cell.prev }
              else
                nodes.cell other)
        ∧ (if some node = (listOf (front ++ (node, value) :: back)).tail then
              some (cell.prev, nodes)
            else
              (writeTo cell.next (fun next => { next with prev := cell.prev }) nodes).map
                fun nodes => ((listOf (front ++ (node, value) :: back)).tail, nodes))
          = some ((listOf (front ++ back)).tail, relinked) := by
  obtain ⟨relinked, cells, wrote, same⟩ :=
    written nodes (fun next => { next with prev := cell.prev }) valid
  refine ⟨relinked, cells, ?_⟩
  rw [tail_listOf]
  cases back with
  | nil =>
      rw [List.getLast?_nil, Option.getD_none, if_pos rfl, leadsBack, same leadsOn,
        List.append_nil]
      rfl
  | cons first rest =>
      obtain ⟨last, final⟩ : ∃ last, (first :: rest).getLast? = some last :=
        ⟨_, List.getLast?_cons⟩
      have apart : node ≠ last.1 := by
        rintro rfl
        exact once (List.mem_map_of_mem (List.mem_of_getLast? final))
      have some : cell.next ≠ none := by
        rw [leadsOn]
        simp
      have tail : (listOf (front ++ first :: rest)).tail = Option.some last.1 := by
        simp only [listOf, List.getLast?_append, final, Option.some_or, Option.map_some]
      rw [final, Option.getD_some, if_neg (fun same => apart (Option.some.inj same)), wrote some,
        Option.map_some, tail]

/-- `ll_remove` takes a node out of the list, and returns its object. -/
theorem Represents.llRemove {node : Nat} {value : ω}
    (rep : Represents lists (front ++ (node, value) :: back))
    : ∃ next,
        lists.llRemove (some node) = some (some value, next)
        ∧ Represents next (front ++ back) := by
  obtain ⟨cell, found, holds, leadsBack, leadsOn⟩ := rep.doubly.between
  obtain ⟨notBefore, notAfter, apart⟩ := rep.neighbours
  have whole : Doubly LlNode.next LlNode.prev LlNode.object lists.nodes
      ((front ++ [(node, value)]) ++ back) := by simpa using rep.doubly
  have nodup := rep.doubly.nodup
  rw [List.map_append, List.map_cons] at nodup
  have once := List.nodup_cons.mp (List.nodup_middle.mp nodup)
  rw [List.mem_append, not_or] at once
  obtain ⟨unlinked, cells, first⟩ := @unlinkFront _ front back node value cell lists.nodes
    once.1.1 leadsBack leadsOn fun before link => (rep.doubly.ahead (leadsBack ▸ link)).2
  have kept : unlinked.cell node = some cell := by
    rw [cells, leadsBack, if_neg notBefore, found]
  have valid : ∀ after, cell.next = some after → ∃ cell, unlinked.cell after = some cell := by
    intro after link
    rw [leadsOn] at link
    obtain ⟨-, next, here⟩ := whole.behind link
    refine ⟨next, ?_⟩
    rw [cells, leadsBack, if_neg (fun last => apart after last link), here]
  obtain ⟨relinked, moreCells, second⟩ :=
    @unlinkBack _ front back node value cell unlinked once.1.2 leadsBack leadsOn valid
  have still : relinked.cell node = some cell := by
    rw [moreCells, leadsOn, if_neg notAfter, kept]
  have length : uint32 ((listOf (front ++ (node, value) :: back)).length - 1)
      = (listOf (front ++ back)).length := by
    simp only [listOf, List.length_append, List.length_cons]
    unfold uint32
    omega
  refine ⟨⟨relinked.modify node fun _ => none, some (listOf (front ++ back))⟩, ?_,
    ⟨rep.removed fun place away => ?_, rfl⟩⟩
  · simp only [Lists.llRemove, rep.list, found, Option.bind_some]
    rw [first, Option.bind_some, kept, Option.bind_some, second, Option.bind_some,
      free_eq still, Option.map_some, length, holds]
  · rw [cell_modify_other _ away, moreCells, cells, leadsBack, leadsOn]
    by_cases last : front.getLast?.map Prod.fst = some place
    · rw [if_neg (apart place last), if_pos last, if_pos last]
    · rw [if_neg last, if_neg last]

/-- An address of the list leads to a node that holds the object of its entry. -/
theorem Represents.object_eq (rep : Represents lists entries) {part : List (Nat × ω)}
    (inside : part ⊆ entries) {node : Nat} (member : node ∈ part.map Prod.fst) {cell : LlNode ω}
    (found : lists.nodes.cell node = some cell)
    : ∃ entry ∈ part, cell.object = entry.2 := by
  obtain ⟨entry, inPart, rfl⟩ := List.mem_map.mp member
  obtain ⟨same, here, holds⟩ := rep.doubly.found (inside inPart)
  obtain rfl := Option.some.inj (found.symm.trans here)
  exact ⟨entry, inPart, holds⟩

/-- `ll_find` returns the first node that holds the object. -/
theorem Represents.llFind [DecidableEq ω] (rep : Represents lists entries) (object : ω)
    : lists.llFind (some object)
      = some ((entries.find? fun entry => entry.2 = object).map Prod.fst) := by
  have chain := rep.doubly.forwards.chain
  have head : (listOf entries).head = entries.head?.map Prod.fst := rfl
  have enough := chain.length_le
  simp only [Lists.llFind, rep.list, head]
  cases search : entries.find? fun entry => entry.2 = object with
  | none =>
      have differ := List.find?_eq_none.mp search
      rw [seek_ends chain (fun node member cell found => ?_) enough]
      · rfl
      · obtain ⟨entry, inside, same⟩ := rep.object_eq (List.Subset.refl _) member found
        rw [same]
        exact differ entry inside
  | some entry =>
      obtain ⟨equal, before, after, rfl, differ⟩ := List.find?_eq_some_iff_append.mp search
      obtain ⟨cell, found, holds⟩ := rep.doubly.found (by simp : entry ∈ before ++ entry :: after)
      rw [List.map_append, List.map_cons] at chain enough
      have passes : ∀ node ∈ before.map Prod.fst, ∀ cell, lists.nodes.cell node = some cell
          → ¬ (decide (cell.object = object)) = true := by
        intro node member cell found
        obtain ⟨other, inside, same⟩ :=
          rep.object_eq (List.subset_append_left before _) member found
        rw [same]
        simpa using differ other inside
      have within : (before.map Prod.fst).length < lists.nodes.top := by
        simp only [List.length_append, List.length_cons] at enough
        omega
      rw [seek_stops chain found (by simpa [holds] using equal) passes within]
      rfl

end Operations

-----------------------------------------------------------------------------------------
-- Sequences of segments
-----------------------------------------------------------------------------------------

/-- A list whose objects are the segments of a sequence, told by their addresses. -/
def Carries (lists : Lists Nat) (segments : List SegmentRef) : Prop :=
  ∃ entries, lists.Represents entries ∧ entries.map Prod.snd = segments.map SegmentRef.address

section Sequences

variable {lists : Lists Nat} {segments : List SegmentRef}

/-- `ll_add` on a sequence is `ll_add` on nodes. -/
theorem Carries.llAdd (carries : lists.Carries segments) (object : SegmentRef)
    : ∃ node next,
        lists.llAdd (some object.address) = some (some node, next)
        ∧ next.Carries (Ctcp.llAdd segments object) := by
  obtain ⟨entries, rep, same⟩ := carries
  obtain ⟨next, called, after⟩ := rep.llAdd object.address
  refine ⟨_, next, called, _, after, ?_⟩
  rw [Ctcp.llAdd, List.map_append, List.map_append, same]
  rfl

/-- `ll_find` on a sequence is the part of the list behind the node that `ll_find` returns. -/
theorem Carries.llFind (carries : lists.Carries segments) (object : SegmentRef)
    : ∃ node addresses,
        lists.llFind (some object.address) = some node
        ∧ Holds LlNode.next LlNode.object lists.nodes node addresses
            ((Ctcp.llFind segments object).map SegmentRef.address) := by
  obtain ⟨entries, rep, same⟩ := carries
  have split := List.takeWhile_append_dropWhile
    (p := fun entry : Nat × Nat => entry.2 != object.address) (l := entries)
  have rest := rep.doubly
  rw [← split] at rest
  have found : (entries.find? fun entry => entry.2 = object.address)
      = (entries.dropWhile fun entry => entry.2 != object.address).head? := by
    rw [List.find?_eq_head?_dropWhile_not]
    rfl
  have behind : (Ctcp.llFind segments object).map SegmentRef.address
      = (entries.dropWhile fun entry => entry.2 != object.address).map Prod.snd := by
    have onAddresses := congrArg (List.dropWhile fun address => address != object.address) same
    rw [List.dropWhile_map, List.dropWhile_map] at onAddresses
    exact onAddresses.symm
  have called := rep.llFind object.address
  rw [found] at called
  rw [behind]
  exact ⟨_, _, called, rest.forwardsFrom⟩

/-- `ll_remove` of the front takes the first segment away. -/
theorem Carries.llRemove {object : SegmentRef} (carries : lists.Carries (object :: segments))
    : ∃ node next,
        lists.llFront = some (some node)
        ∧ lists.llRemove (some node) = some (some object.address, next)
        ∧ next.Carries segments := by
  obtain ⟨entries, rep, same⟩ := carries
  obtain ⟨⟨node, address⟩, rest, rfl, rfl, behind⟩ := List.map_eq_cons_iff.mp same
  obtain ⟨next, called, after⟩ := @Represents.llRemove _ lists [] rest node _ rep
  refine ⟨node, next, ?_, called, rest, after, behind⟩
  rw [Lists.llFront, rep.list]
  rfl

end Sequences

-----------------------------------------------------------------------------------------
-- Runs
-----------------------------------------------------------------------------------------

end Lists

/-- A call of one of the functions that change a list. The objects are not NULL. -/
inductive LlCall (ω : Type*)
  | add (object : ω)
  | addFront (object : ω)
  | addAfter (node : Nat) (object : ω)
  | remove (node : Nat)

/-- A sequence of nodes with their objects, with an entry put behind the one of a node. -/
def insertAfter {ω : Type*} (node : Nat) (new : Nat × ω) : List (Nat × ω) → List (Nat × ω)
  | [] => []
  | entry :: rest =>
      if entry.1 = node then entry :: new :: rest else entry :: insertAfter node new rest

/-- A list, and the sequence that the same insertions and deletions make. -/
structure LlRun (ω : Type*) where
  lists : Lists ω
  entries : List (Nat × ω)

namespace LlRun

variable {ω : Type*}

def start : LlRun ω := ⟨Lists.llCreate, []⟩

/-- A call, with the node that it returns in the sequence. -/
def step (run : LlRun ω) : LlCall ω → Option (LlRun ω)
  | .add object =>
      (run.lists.llAdd (some object)).bind fun result =>
        result.1.map fun node => ⟨result.2, run.entries ++ [(node, object)]⟩
  | .addFront object =>
      (run.lists.llAddFront (some object)).bind fun result =>
        result.1.map fun node => ⟨result.2, (node, object) :: run.entries⟩
  | .addAfter node object =>
      (run.lists.llAddAfter (some node) (some object)).bind fun result =>
        result.1.map fun new => ⟨result.2, insertAfter node (new, object) run.entries⟩
  | .remove node =>
      (run.lists.llRemove (some node)).map fun result =>
        ⟨result.2, run.entries.eraseP fun entry => entry.1 = node⟩

/-- The nodes that calls name belong to the list. -/
def Belongs (run : LlRun ω) : LlCall ω → Prop
  | .add _ => True
  | .addFront _ => True
  | .addAfter node _ => node ∈ run.entries.map Prod.fst
  | .remove node => node ∈ run.entries.map Prod.fst

instance decidableBelongs (run : LlRun ω) : (call : LlCall ω) → Decidable (run.Belongs call)
  | .add _ => isTrue trivial
  | .addFront _ => isTrue trivial
  | .addAfter node _ => inferInstanceAs (Decidable (node ∈ run.entries.map Prod.fst))
  | .remove node => inferInstanceAs (Decidable (node ∈ run.entries.map Prod.fst))

/-- What holds along a run. -/
def Faithful (run : LlRun ω) : Prop := run.lists.Represents run.entries

theorem start_faithful : (start : LlRun ω).Faithful := ⟨.nil, rfl⟩

/-- A list is what its sequence says: the links lead through it in both directions and end,
the length counts it modulo 2^32, both ends are NULL for the empty list only, and objects are
found where they come first.
-/
structure Exact [DecidableEq ω] (run : LlRun ω) (list : LinkedList) : Prop where
  described : run.lists.list = some list
  forwards
    : Holds LlNode.next LlNode.object run.lists.nodes list.head (run.entries.map Prod.fst)
        (run.entries.map Prod.snd)
  backwards
    : Holds LlNode.prev LlNode.object run.lists.nodes list.tail
        (run.entries.map Prod.fst).reverse (run.entries.map Prod.snd).reverse
  length : list.length = run.entries.length % 4294967296
  head : list.head = none ↔ run.entries = []
  tail : list.tail = none ↔ run.entries = []
  found
    : ∀ object,
        run.lists.llFind (some object)
          = some ((run.entries.find? fun entry => entry.2 = object).map Prod.fst)

section Runs

variable {run next : LlRun ω}

theorem insertAfter_append {node : Nat} {value : ω} (new : Nat × ω) {front back : List (Nat × ω)}
    (once : node ∉ front.map Prod.fst)
    : insertAfter node new (front ++ (node, value) :: back)
      = front ++ (node, value) :: new :: back := by
  induction front with
  | nil => exact if_pos rfl
  | cons entry front ih =>
      rw [List.map_cons, List.mem_cons, not_or] at once
      rw [List.cons_append, insertAfter, if_neg (Ne.symm once.1), ih once.2, List.cons_append]

theorem eraseP_append {node : Nat} {value : ω} {front back : List (Nat × ω)}
    (once : node ∉ front.map Prod.fst)
    : (front ++ (node, value) :: back).eraseP (fun entry => entry.1 = node) = front ++ back := by
  rw [List.eraseP_append_right]
  · simp
  · intro entry member same
    exact once (List.mem_map.mpr ⟨entry, member, by simpa using same⟩)

/-- The nodes of a list are apart. -/
theorem Faithful.split (faithful : run.Faithful) {node : Nat}
    (member : node ∈ run.entries.map Prod.fst)
    : ∃ front value back,
        run.entries = front ++ (node, value) :: back ∧ node ∉ front.map Prod.fst := by
  obtain ⟨⟨_, value⟩, inside, rfl⟩ := List.mem_map.mp member
  obtain ⟨front, back, same⟩ := List.mem_iff_append.mp inside
  have once := faithful.doubly.nodup
  rw [same, List.map_append, List.map_cons] at once
  refine ⟨front, value, back, same, fun again => ?_⟩
  exact (List.nodup_append.mp once).2.2 _ again _ List.mem_cons_self rfl

/-- Every call with a node of the list returns, and keeps the list faithful. -/
theorem Faithful.step (faithful : run.Faithful) {call : LlCall ω} (belongs : run.Belongs call)
    : ∃ next, run.step call = some next ∧ next.Faithful := by
  cases call with
  | add object =>
      obtain ⟨lists, called, rep⟩ := faithful.llAdd object
      exact ⟨⟨lists, _⟩, by rw [LlRun.step, called]; rfl, rep⟩
  | addFront object =>
      obtain ⟨lists, called, rep⟩ := faithful.llAddFront object
      exact ⟨⟨lists, _⟩, by rw [LlRun.step, called]; rfl, rep⟩
  | addAfter node object =>
      obtain ⟨front, value, back, same, once⟩ := faithful.split belongs
      have whole : run.lists.Represents (front ++ (node, value) :: back) := same ▸ faithful
      obtain ⟨lists, called, rep⟩ := whole.llAddAfter object
      refine ⟨⟨lists, front ++ (node, value) :: (run.lists.nodes.top, object) :: back⟩, ?_, rep⟩
      rw [LlRun.step, called, Option.bind_some, Option.map_some, same, insertAfter_append _ once]
  | remove node =>
      obtain ⟨front, value, back, same, once⟩ := faithful.split belongs
      have whole : run.lists.Represents (front ++ (node, value) :: back) := same ▸ faithful
      obtain ⟨lists, called, rep⟩ := whole.llRemove
      refine ⟨⟨lists, front ++ back⟩, ?_, rep⟩
      rw [LlRun.step, called, Option.map_some, same, eraseP_append once]

/-- A faithful list is exact. -/
theorem Faithful.exact [DecidableEq ω] (faithful : run.Faithful)
    : run.Exact (Lists.listOf run.entries) where
  described := faithful.list
  forwards := faithful.doubly.forwards
  backwards := faithful.doubly.backwards
  length := by
    show uint32 run.entries.length = _
    unfold uint32
    omega
  head := by simp [Lists.listOf]
  tail := by simp [Lists.listOf]
  found := faithful.llFind

/-- Along every run the list is what the same insertions and deletions make of a sequence. -/
theorem linkedList_exact [DecidableEq ω] (calls : List (LlCall ω))
    (belong : StepRuns.AllSteps LlRun.step Belongs start calls)
    : ∃ run list, StepRuns.exec LlRun.step start calls = some run ∧ run.Exact list := by
  obtain ⟨run, reached, faithful⟩ :=
    StepRuns.exec_returns_of_guard Belongs Faithful (fun held guard => held.step guard)
      start_faithful belong
  exact ⟨run, _, reached, faithful.exact⟩

/-- Objects are put in on all sides of others, and one is taken out. -/
theorem linkedList_exact_removed
    : ∃ run list,
        StepRuns.exec LlRun.step start
          [.add 7, .addFront 3, .addAfter 0 5, .addAfter 1 7, .remove 0] = some run
        ∧ run.Exact list :=
  linkedList_exact [.add 7, .addFront 3, .addAfter 0 5, .addAfter 1 7, .remove 0] (by
    decide +kernel)

/-- So many calls of `ll_add` make a list of so many nodes, by induction on the calls. -/
theorem Faithful.adds (faithful : run.Faithful) (object : ω) (count : Nat)
    : ∃ next,
        StepRuns.exec LlRun.step run (List.replicate count (.add object)) = some next
        ∧ next.Faithful ∧ next.entries.length = run.entries.length + count := by
  induction count generalizing run with
  | zero => exact ⟨run, rfl, faithful, rfl⟩
  | succ count ih =>
      obtain ⟨lists, called, rep⟩ := faithful.llAdd object
      have taken : run.step (.add object)
          = some ⟨lists, run.entries ++ [(run.lists.nodes.top, object)]⟩ := by
        rw [LlRun.step, called]
        rfl
      obtain ⟨next, reached, held, length⟩ := @ih ⟨lists, _⟩ rep
      refine ⟨next, StepRuns.exec_cons_eq_some.mpr ⟨_, taken, reached⟩, held, ?_⟩
      rw [length, List.length_append, List.length_singleton]
      omega

/-- A list of 2^32 nodes has the length 0. -/
theorem length_wraps
    : ∃ run list,
        StepRuns.AllSteps LlRun.step Belongs start (List.replicate 4294967296 (.add ()))
        ∧ StepRuns.exec LlRun.step start (List.replicate 4294967296 (.add ())) = some run
        ∧ run.lists.list = some list ∧ run.entries.length = 4294967296 ∧ list.length = 0 := by
  obtain ⟨run, reached, faithful, length⟩ := start_faithful.adds () 4294967296
  have count : run.entries.length = 4294967296 := by
    rw [length]
    rfl
  refine ⟨run, _, ?_, reached, faithful.list, count, ?_⟩
  · refine StepRuns.allSteps_iff_reached.mpr fun done input rest _ split _ => ?_
    have member : input ∈ List.replicate 4294967296 (LlCall.add ()) := by
      rw [split]
      simp
    obtain rfl := List.eq_of_mem_replicate member
    trivial
  · rw [faithful.exact.length, count]

end Runs

end LlRun

end Networks.Ctcp
