import Networks.Library.LinkedHeap

/-! Lists of cells that are linked in both directions. A piece of such a list has one link that
leads out of it at either end; cells are put in and taken out where two pieces meet.
-/

namespace LinkedHeap

variable {α β : Type*} {next prev : α → Option Nat} {view : α → β} {heap other : Heap α}

-----------------------------------------------------------------------------------------
-- Pieces
-----------------------------------------------------------------------------------------

/-- The cells at the given addresses are linked in both directions, the first one back to
`before` and the last one on to `after`.
-/
def Linked (next prev : α → Option Nat) (heap : Heap α)
    : Option Nat → List Nat → Option Nat → Prop
  | _, [], _ => True
  | before, address :: rest, after =>
      (∃ value,
        heap.cell address = some value ∧ prev value = before
        ∧ next value = rest.head?.or after)
      ∧ Linked next prev heap (some address) rest after

namespace Linked

variable {before after : Option Nat} {addresses front back : List Nat}

/-- Two pieces meet where each leads to the other. -/
theorem append_iff
    : Linked next prev heap before (front ++ back) after
      ↔ Linked next prev heap before front (back.head?.or after)
        ∧ Linked next prev heap (front.getLast?.or before) back after := by
  induction front generalizing before with
  | nil => simp [Linked]
  | cons first front ih =>
      rw [List.cons_append, Linked, Linked, ih, getLast?_cons_or, List.head?_append,
        Option.or_assoc, and_assoc]

/-- A piece that leads nowhere at its end is a chain. -/
theorem forwards (linked : Linked next prev heap before addresses none)
    : Chain next heap addresses.head? addresses := by
  induction addresses generalizing before with
  | nil => exact .nil
  | cons address rest ih =>
      obtain ⟨⟨value, found, -, link⟩, behind⟩ := linked
      rw [Option.or_none] at link
      exact .cons found (link ▸ ih behind)

/-- A piece that leads nowhere at its start is a chain backwards, by induction from its end. -/
theorem backwards (linked : Linked next prev heap none addresses after)
    : Chain prev heap addresses.getLast? addresses.reverse := by
  induction addresses using List.reverseRecOn generalizing after with
  | nil => exact .nil
  | append_singleton init last ih =>
      obtain ⟨front, ⟨value, found, link, -⟩, -⟩ := append_iff.mp linked
      rw [Option.or_none] at link
      rw [List.getLast?_concat, List.reverse_concat]
      exact .cons found (link ▸ ih front)

/-- A piece is kept by every change to other cells. -/
theorem frame (linked : Linked next prev heap before addresses after)
    (same : ∀ address ∈ addresses, other.cell address = heap.cell address)
    : Linked next prev other before addresses after := by
  induction addresses generalizing before with
  | nil => trivial
  | cons address rest ih =>
      obtain ⟨⟨value, found, links⟩, behind⟩ := linked
      refine ⟨⟨value, (same address List.mem_cons_self).trans found, links⟩, ih behind ?_⟩
      exact fun later member => same later (List.mem_cons_of_mem _ member)

/-- A piece that ends in another link, when nothing but the link of its last cell changes. -/
theorem endsIn {forth : Option Nat} (linked : Linked next prev heap before front after)
    (once : front.Nodup)
    (last
      : ∀ address, front.getLast? = some address → ∀ value, heap.cell address = some value
        → ∃ new, other.cell address = some new ∧ prev new = prev value ∧ next new = forth)
    (kept
      : ∀ address ∈ front, front.getLast? ≠ some address
        → other.cell address = heap.cell address)
    : Linked next prev other before front forth := by
  induction front generalizing before with
  | nil => trivial
  | cons address rest ih =>
      obtain ⟨⟨value, found, back, link⟩, behind⟩ := linked
      obtain ⟨apart, once⟩ := List.nodup_cons.mp once
      cases rest with
      | nil =>
          obtain ⟨new, written, same, leads⟩ := last address rfl value found
          exact ⟨⟨new, written, same.trans back, leads⟩, trivial⟩
      | cons second rest =>
          rw [List.getLast?_cons_cons] at last kept
          refine ⟨⟨value, ?_, back, link⟩,
            ih behind once last fun later member => kept later (List.mem_cons_of_mem _ member)⟩
          rw [kept address List.mem_cons_self, found]
          intro same
          exact apart (List.mem_of_getLast? same)

/-- A piece that starts from another link, when nothing but the link of its first cell
changes.
-/
theorem startsFrom {home : Option Nat} (linked : Linked next prev heap before back after)
    (once : back.Nodup)
    (first
      : ∀ address, back.head? = some address → ∀ value, heap.cell address = some value
        → ∃ new, other.cell address = some new ∧ prev new = home ∧ next new = next value)
    (kept
      : ∀ address ∈ back, back.head? ≠ some address → other.cell address = heap.cell address)
    : Linked next prev other home back after := by
  cases back with
  | nil => trivial
  | cons address rest =>
      obtain ⟨⟨value, found, -, link⟩, behind⟩ := linked
      have apart := (List.nodup_cons.mp once).1
      obtain ⟨new, written, leads, same⟩ := first address rfl value found
      refine ⟨⟨new, written, leads, same.trans link⟩, behind.frame fun later member => ?_⟩
      refine kept later (List.mem_cons_of_mem _ member) fun head => ?_
      exact apart (Option.some.inj head ▸ member)

theorem nodup (linked : Linked next prev heap before addresses none) : addresses.Nodup :=
  linked.forwards.nodup

end Linked

-----------------------------------------------------------------------------------------
-- Lists
-----------------------------------------------------------------------------------------

/-- The cells at the addresses of the entries are linked in both directions, and hold their
values.
-/
structure Doubly (next prev : α → Option Nat) (view : α → β) (heap : Heap α)
    (entries : List (Nat × β))
    : Prop where
  linked : Linked next prev heap none (entries.map Prod.fst) none
  values : ∀ entry ∈ entries, (heap.cell entry.1).map view = some entry.2

/-- The cell before a place now leads on to `forth`, the one behind it back to `back`, and all
else is kept, but for one cell.
-/
structure Relinked (next prev : α → Option Nat) (view : α → β) (heap other : Heap α)
    (before after forth back : Option Nat) (away : Nat)
    : Prop where
  forwards
    : ∀ address, before = some address → ∀ value, heap.cell address = some value
      → ∃ new,
        other.cell address = some new ∧ prev new = prev value ∧ next new = forth
        ∧ view new = view value
  backwards
    : ∀ address, after = some address → ∀ value, heap.cell address = some value
      → ∃ new,
        other.cell address = some new ∧ prev new = back ∧ next new = next value
        ∧ view new = view value
  kept
    : ∀ address, address ≠ away → before ≠ some address → after ≠ some address
      → other.cell address = heap.cell address

namespace Relinked

variable {before after forth home : Option Nat} {away : Nat}

/-- Every cell but one keeps its value. -/
theorem view_eq (relinked : Relinked next prev view heap other before after forth home away)
    {address : Nat} (apart : address ≠ away) {value : α} (found : heap.cell address = some value)
    : (other.cell address).map view = (heap.cell address).map view := by
  by_cases first : before = some address
  · obtain ⟨new, written, -, -, same⟩ := relinked.forwards address first value found
    rw [written, found, Option.map_some, Option.map_some, same]
  by_cases second : after = some address
  · obtain ⟨new, written, -, -, same⟩ := relinked.backwards address second value found
    rw [written, found, Option.map_some, Option.map_some, same]
  · rw [relinked.kept address apart first second]

/-- The pieces on both sides of a place end in the new links. -/
theorem pieces {front back : List Nat}
    (relinked
      : Relinked next prev view heap other front.getLast? back.head? forth home away)
    (onto : Linked next prev heap none front after)
    (behind : Linked next prev heap before back none)
    (once : (front ++ back).Nodup) (apart : away ∉ front ++ back)
    : Linked next prev other none front forth ∧ Linked next prev other home back none := by
  obtain ⟨frontOnce, backOnce, disjoint⟩ := List.nodup_append.mp once
  have away_ne : ∀ address ∈ front ++ back, address ≠ away :=
    fun address member same => apart (same ▸ member)
  constructor
  · refine onto.endsIn frontOnce (fun address last value found => ?_)
      fun address member inner => ?_
    · obtain ⟨new, written, same, link, -⟩ := relinked.forwards address last value found
      exact ⟨new, written, same, link⟩
    · refine relinked.kept address (away_ne address (by simp [member])) inner fun first => ?_
      exact disjoint address member address (List.mem_of_head? first) rfl
  · refine behind.startsFrom backOnce (fun address first value found => ?_)
      fun address member inner => ?_
    · obtain ⟨new, written, link, same, -⟩ := relinked.backwards address first value found
      exact ⟨new, written, link, same⟩
    · refine relinked.kept address (away_ne address (by simp [member])) (fun last => ?_) inner
      exact disjoint address (List.mem_of_getLast? last) address member rfl

end Relinked

namespace Doubly

variable {entries front back : List (Nat × β)}

theorem nil : Doubly next prev view heap [] := ⟨trivial, by simp⟩

theorem nodup (doubly : Doubly next prev view heap entries) : (entries.map Prod.fst).Nodup :=
  doubly.linked.nodup

/-- An entry is found at its address. -/
theorem found (doubly : Doubly next prev view heap entries) {entry : Nat × β}
    (member : entry ∈ entries)
    : ∃ value, heap.cell entry.1 = some value ∧ view value = entry.2 :=
  Option.map_eq_some_iff.mp (doubly.values entry member)

/-- The last entry in front of a place is not behind it. -/
theorem ahead (doubly : Doubly next prev view heap (front ++ back)) {address : Nat}
    (last : front.getLast?.map Prod.fst = some address)
    : address ∉ back.map Prod.fst ∧ ∃ value, heap.cell address = some value := by
  obtain ⟨entry, final, rfl⟩ := Option.map_eq_some_iff.mp last
  have member := List.mem_of_getLast? final
  have once := doubly.nodup
  rw [List.map_append] at once
  obtain ⟨value, found, -⟩ := doubly.found (List.mem_append_left back member)
  refine ⟨fun again => ?_, value, found⟩
  exact (List.nodup_append.mp once).2.2 _ (List.mem_map_of_mem member) _ again rfl

/-- The first entry behind a place is not in front of it. -/
theorem behind (doubly : Doubly next prev view heap (front ++ back)) {address : Nat}
    (first : back.head?.map Prod.fst = some address)
    : address ∉ front.map Prod.fst ∧ ∃ value, heap.cell address = some value := by
  obtain ⟨entry, start, rfl⟩ := Option.map_eq_some_iff.mp first
  have member := List.mem_of_head? start
  have once := doubly.nodup
  rw [List.map_append] at once
  obtain ⟨value, found, -⟩ := doubly.found (List.mem_append_right front member)
  refine ⟨fun again => ?_, value, found⟩
  exact (List.nodup_append.mp once).2.2 _ again _ (List.mem_map_of_mem member) rfl

/-- Following the links forwards lists the entries from any of them on. -/
theorem forwardsFrom (doubly : Doubly next prev view heap (front ++ back))
    : Holds next view heap (back.head?.map Prod.fst) (back.map Prod.fst)
        (back.map Prod.snd) := by
  have linked := doubly.linked
  rw [List.map_append] at linked
  refine ⟨?_, ?_⟩
  · rw [← List.head?_map]
    exact (Linked.append_iff.mp linked).2.forwards
  · rw [List.map_map, List.map_map]
    exact List.map_congr_left fun entry member =>
      doubly.values entry (List.mem_append_right front member)

/-- Following the links forwards lists the entries. -/
theorem forwards (doubly : Doubly next prev view heap entries)
    : Holds next view heap (entries.head?.map Prod.fst) (entries.map Prod.fst)
        (entries.map Prod.snd) :=
  @forwardsFrom _ _ _ _ _ _ [] entries doubly

/-- Following the links backwards lists them in the other order. -/
theorem backwards (doubly : Doubly next prev view heap entries)
    : Holds prev view heap (entries.getLast?.map Prod.fst) (entries.map Prod.fst).reverse
        (entries.map Prod.snd).reverse := by
  refine ⟨?_, ?_⟩
  · rw [← List.getLast?_map]
    exact doubly.linked.backwards
  · rw [List.map_reverse, List.map_reverse, List.map_map, List.map_map]
    exact congrArg List.reverse
      (List.map_congr_left fun entry member => doubly.values entry member)

/-- A cell is put in between two pieces. -/
theorem insert (doubly : Doubly next prev view heap (front ++ back)) {new : Nat} {value : β}
    (fresh : heap.cell new = none)
    (relinked
      : Relinked next prev view heap other (front.getLast?.map Prod.fst)
          (back.head?.map Prod.fst) (some new) (some new) new)
    (placed
      : ∃ cell,
          other.cell new = some cell ∧ prev cell = front.getLast?.map Prod.fst
          ∧ next cell = back.head?.map Prod.fst ∧ view cell = value)
    : Doubly next prev view other (front ++ (new, value) :: back) := by
  obtain ⟨cell, found, leadsBack, leadsOn, holds⟩ := placed
  have apart : ∀ entry ∈ front ++ back, entry.1 ≠ new := by
    intro entry member same
    obtain ⟨_, here, -⟩ := doubly.found member
    rw [same, fresh] at here
    cases here
  have linked := doubly.linked
  rw [List.map_append] at linked
  have outside : new ∉ front.map Prod.fst ++ back.map Prod.fst := by
    rw [← List.map_append]
    intro member
    obtain ⟨entry, inside, same⟩ := List.mem_map.mp member
    exact apart entry inside same
  rw [← List.getLast?_map, ← List.head?_map] at relinked
  obtain ⟨onto, behind⟩ := Linked.append_iff.mp linked
  obtain ⟨onto, behind⟩ := relinked.pieces onto behind linked.nodup outside
  refine ⟨?_, fun entry member => ?_⟩
  · rw [List.map_append, List.map_cons]
    refine Linked.append_iff.mpr ⟨onto, ⟨cell, found, ?_, ?_⟩, behind⟩
    · rw [leadsBack, Option.or_none, List.getLast?_map]
    · rw [leadsOn, Option.or_none, List.head?_map]
  · rcases List.mem_append.mp member with first | later
    · have inside := List.mem_append_left back first
      obtain ⟨_, here, -⟩ := doubly.found inside
      rw [relinked.view_eq (apart entry inside) here, doubly.values entry inside]
    rcases List.mem_cons.mp later with rfl | last
    · rw [found, Option.map_some, holds]
    · have inside := List.mem_append_right front last
      obtain ⟨_, here, -⟩ := doubly.found inside
      rw [relinked.view_eq (apart entry inside) here, doubly.values entry inside]

/-- A cell is taken out from between two pieces. -/
theorem remove {gone : Nat} {value : β}
    (doubly : Doubly next prev view heap (front ++ (gone, value) :: back))
    (relinked
      : Relinked next prev view heap other (front.getLast?.map Prod.fst)
          (back.head?.map Prod.fst) (back.head?.map Prod.fst) (front.getLast?.map Prod.fst)
          gone)
    : Doubly next prev view other (front ++ back) := by
  have linked := doubly.linked
  rw [List.map_append, List.map_cons] at linked
  have once := List.nodup_middle.mp linked.nodup
  rw [List.nodup_cons] at once
  rw [← List.getLast?_map, ← List.head?_map] at relinked
  obtain ⟨onto, ⟨-, behind⟩⟩ := Linked.append_iff.mp linked
  obtain ⟨onto, behind⟩ := relinked.pieces onto behind once.2 once.1
  refine ⟨?_, fun entry member => ?_⟩
  · rw [List.map_append]
    exact Linked.append_iff.mpr
      ⟨by rwa [Option.or_none], by rwa [Option.or_none]⟩
  · have inside : entry ∈ front ++ (gone, value) :: back := by
      rcases List.mem_append.mp member with first | last
      · exact List.mem_append_left _ first
      · exact List.mem_append_right _ (List.mem_cons_of_mem _ last)
    have apart : entry.1 ≠ gone := by
      rintro rfl
      rw [← List.map_append] at once
      exact once.1 (List.mem_map.mpr ⟨entry, member, rfl⟩)
    obtain ⟨_, here, -⟩ := doubly.found inside
    rw [relinked.view_eq apart here, doubly.values entry inside]

/-- The cell of an entry leads to its neighbours. -/
theorem between {address : Nat} {value : β}
    (doubly : Doubly next prev view heap (front ++ (address, value) :: back))
    : ∃ cell,
        heap.cell address = some cell ∧ view cell = value
        ∧ prev cell = front.getLast?.map Prod.fst ∧ next cell = back.head?.map Prod.fst := by
  obtain ⟨cell, found, holds⟩ :=
    doubly.found (by simp : (address, value) ∈ front ++ (address, value) :: back)
  have linked := doubly.linked
  rw [List.map_append, List.map_cons] at linked
  obtain ⟨-, ⟨same, here, leadsBack, leadsOn⟩, -⟩ := Linked.append_iff.mp linked
  obtain rfl := Option.some.inj (found.symm.trans here)
  rw [Option.or_none, List.getLast?_map] at leadsBack
  rw [Option.or_none, List.head?_map] at leadsOn
  exact ⟨cell, found, holds, leadsBack, leadsOn⟩

end Doubly

end LinkedHeap
