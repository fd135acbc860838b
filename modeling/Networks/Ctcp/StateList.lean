import Networks.Ctcp.Timers
import Networks.Library.LinkedHeap

/-! The list of connection states: `state_list`, linked forwards by connections and backwards by
the places that hold those links. Definitions follow `ctcp_init`, `ctcp_destroy` and
`ctcp_timer`.
A call of `ctcp_timer` acts on the connections whose timers ran out, except that it always
destroys the first one of the list.
-/

namespace Networks.Ctcp

open LinkedHeap StepRuns

/-- What `state->prev` points to: the variable `state_list`, or `&state->next` of another
connection.
-/
inductive StateLink
  | stateList
  | next (state : Nat)
  deriving DecidableEq

/-- `ctcp_state_t`, with its links. -/
structure StateCell where
  state : CtcpState
  prev : StateLink
  next : Option Nat

/-- `state_list` with the connection states it leads to. -/
structure StateList where
  states : Heap StateCell
  stateList : Option Nat

/-- A connection state at its address. -/
abbrev StateEntry := Nat × CtcpState

namespace StateList

def empty : StateList := ⟨.empty, none⟩

def onStates (list : StateList) (states : Option (Heap StateCell)) : Option StateList :=
  states.map fun states => { list with states := states }

/-- `if (state) state->prev = prev`. -/
def setPrev (state : Option Nat) (prev : StateLink) (states : Heap StateCell)
    : Option (Heap StateCell) :=
  match state with
  | none => some states
  | some state => states.write state fun cell => { cell with prev := prev }

/-- `ctcp_init`, for a connection that could be established. -/
def ctcpInit (cfg : CtcpConfig) (list : StateList) : Option StateList :=
  let state := list.states.top
  let states := list.states.alloc
    { state := Ctcp.ctcpInit cfg, prev := .stateList, next := list.stateList }
  (setPrev list.stateList (.next state) states).map fun states =>
    { states := states, stateList := some state }

/-- `*state->prev = state->next` of `ctcp_destroy`. -/
def relinkPrevious (cell : StateCell) (list : StateList) : Option StateList :=
  match cell.prev with
  | .stateList => some { list with stateList := cell.next }
  | .next previous =>
      list.onStates (list.states.write previous fun previous =>
        { previous with next := cell.next })

/-- `ctcp_destroy`. -/
def ctcpDestroy (state : Nat) (list : StateList) : Option StateList :=
  (list.states.cell state).bind fun cell =>
    ((list.onStates (setPrev cell.next cell.prev list.states)).bind (relinkPrevious cell)).bind
      fun list => list.onStates (list.states.free state)

/-- The loop of `ctcp_timer` from its cursor on, with the clock readings of each pass. Whichever
connection it stops at, it destroys `state_list`.
-/
def timerLoop (now : Nat → Nat → Int) : Nat → Nat → Option Nat → StateList → Option StateList
  | _, _, none, list => some list
  | 0, _, some _, _ => none
  | fuel + 1, index, some state, list =>
      (list.states.cell state).bind fun cell =>
        match timerCheck (now index) cell.state with
        | .error _ => list.stateList.bind fun first => list.ctcpDestroy first
        | .ok checked =>
            (list.onStates (list.states.write state fun cell =>
              { cell with state := checked })).bind
                (timerLoop now fuel (index + 1) cell.next)

/-- `ctcp_timer`. -/
def ctcpTimer (now : Nat → Nat → Int) (list : StateList) : Option StateList :=
  timerLoop now list.states.top 0 list.stateList list

/-- The connections that the links from `state_list` lead to. -/
def listing (list : StateList) : Option (List StateEntry) :=
  (walk StateCell.next list.states list.states.top list.stateList).map
    (List.map fun entry => (entry.1, entry.2.state))

/-- A handler that is called with a connection. -/
def handle (state : Nat) (call : Call) (list : StateList) : Option StateList :=
  (list.states.cell state).bind fun cell =>
    (Ctcp.step cell.state call).bind fun next =>
      list.onStates (list.states.write state fun cell => { cell with state := next })

end StateList

/-- What a server can do with its connections: establish one, call `ctcp_read`, `ctcp_receive` or
`ctcp_output` with one, or call `ctcp_timer`.
-/
inductive Event
  | init (cfg : CtcpConfig)
  | handle (state : Nat) (call : Call)
  | timer (now : Nat → Nat → Int)

/-- A step of a server. The timer is not a handler of a single connection. -/
def StateList.step (list : StateList) : Event → Option StateList
  | .init cfg => list.ctcpInit cfg
  | .handle _ (.timer _) => none
  | .handle state call => list.handle state call
  | .timer now => list.ctcpTimer now

-----------------------------------------------------------------------------------------
-- The connections of a list
-----------------------------------------------------------------------------------------

/-- What the cells of a list contain: each connection, with the link that leads to it. -/
def contents : StateLink → List StateEntry → List (CtcpState × StateLink)
  | _, [] => []
  | link, (address, state) :: rest => (state, link) :: contents (.next address) rest

/-- The link that leads to what follows the given connections. -/
def linkBehind (link : StateLink) (before : List StateEntry) : StateLink :=
  before.getLast?.elim link fun last => .next last.1

/-- The cells from a start on are the given connections, linked in both directions. -/
def Linked (states : Heap StateCell) (start : Option Nat) (link : StateLink)
    (conns : List StateEntry)
    : Prop :=
  Holds StateCell.next (fun cell => (cell.state, cell.prev)) states start
    (conns.map Prod.fst) (contents link conns)

/-- The list has the given connections, in this order. -/
def Listed (list : StateList) (conns : List StateEntry) : Prop :=
  Linked list.states list.stateList .stateList conns

theorem linkBehind_cons (link : StateLink) (first : StateEntry) (before : List StateEntry)
    : linkBehind link (first :: before) = linkBehind (.next first.1) before := by
  rw [linkBehind, linkBehind, List.getLast?_cons]
  cases before.getLast? <;> rfl

theorem contents_append (link : StateLink) (before rest : List StateEntry)
    : contents link (before ++ rest)
      = contents link before ++ contents (linkBehind link before) rest := by
  induction before generalizing link with
  | nil => rfl
  | cons first before ih =>
      rw [List.cons_append, contents, contents, ih, linkBehind_cons, List.cons_append]

theorem length_contents (link : StateLink) (conns : List StateEntry)
    : (contents link conns).length = conns.length := by
  induction conns generalizing link with
  | nil => rfl
  | cons first rest ih => rw [contents, List.length_cons, List.length_cons, ih]

section Lists

variable {list : StateList} {states : Heap StateCell} {start : Option Nat} {link : StateLink}
  {conns before rest : List StateEntry} {address : Nat} {state : CtcpState}

theorem Linked.nodup (linked : Linked states start link conns)
    : (conns.map Prod.fst).Nodup :=
  linked.chain.nodup

/-- The first connection of a list. -/
theorem Linked.first (linked : Linked states start link ((address, state) :: rest))
    : ∃ cell,
        start = some address ∧ states.cell address = some cell
        ∧ cell.state = state ∧ cell.prev = link
        ∧ Linked states cell.next (.next address) rest := by
  obtain ⟨same, tail, cell, starts, addresses, found, shows, behind⟩ := Holds.cons_iff.mp linked
  obtain ⟨rfl, rfl⟩ := List.cons.inj addresses
  obtain ⟨rfl, rfl⟩ := Prod.mk.inj shows
  exact ⟨cell, starts, found, rfl, rfl, behind⟩

/-- A connection further on in a list. -/
theorem Linked.found (linked : Linked states start link (before ++ (address, state) :: rest))
    : ∃ cell,
        states.cell address = some cell ∧ cell.state = state
        ∧ cell.prev = linkBehind link before ∧ cell.next = (rest.map Prod.fst).head? := by
  induction before generalizing start link with
  | nil =>
      obtain ⟨cell, _, found, same, back, behind⟩ := linked.first
      exact ⟨cell, found, same, back, behind.chain.head⟩
  | cons first before ih =>
      obtain ⟨_, _, _, _, _, behind⟩ := linked.first
      rw [linkBehind_cons]
      exact ih behind

/-- A write to the cell of one connection that keeps its link forwards. -/
theorem Linked.modify {cell : StateCell}
    (linked : Linked states start link (before ++ (address, state) :: rest))
    (found : states.cell address = some cell) (change : StateCell → StateCell)
    (keeps : (change cell).next = cell.next)
    : Holds StateCell.next (fun cell => (cell.state, cell.prev))
        (states.modify address fun cell => some (change cell)) start
        (before.map Prod.fst ++ address :: rest.map Prod.fst)
        (contents link before
          ++ ((change cell).state, (change cell).prev) :: contents (.next address) rest) := by
  have holds : Holds _ _ _ _ _ _ := linked
  rw [contents_append, List.map_append, List.map_cons, contents] at holds
  exact holds.write (by rw [List.length_map, length_contents]) found keeps

/-- A new state for one connection of a list. -/
theorem Linked.assign (linked : Linked states start link (before ++ (address, state) :: rest))
    (next : CtcpState)
    : Linked (states.modify address fun cell => some { cell with state := next }) start link
        (before ++ (address, next) :: rest) := by
  obtain ⟨cell, found, -, back, -⟩ := linked.found
  have written := linked.modify found (fun cell => { cell with state := next }) rfl
  rw [Linked, contents_append, List.map_append, List.map_cons, contents, ← back]
  exact written

/-- A new link backwards for the first connection of a list. -/
theorem Linked.relink (linked : Linked states start link ((address, state) :: rest))
    (other : StateLink)
    : Linked (states.modify address fun cell => some { cell with prev := other }) start other
        ((address, state) :: rest) := by
  obtain ⟨cell, _, found, rfl, _, _⟩ := linked.first
  have here : Linked states start _ ([] ++ (address, cell.state) :: rest) := linked
  exact here.modify found (fun cell => { cell with prev := other }) rfl

/-- A list is kept by a write to another cell. -/
theorem Linked.away (linked : Linked states start link conns)
    (outside : address ∉ conns.map Prod.fst) (change : StateCell → Option StateCell)
    : Linked (states.modify address change) start link conns := by
  refine linked.frame fun other member => cell_modify_other _ ?_
  rintro rfl
  exact outside member

theorem map_fst_contents (link : StateLink) (conns : List StateEntry)
    : (contents link conns).map Prod.fst = conns.map Prod.snd := by
  induction conns generalizing link with
  | nil => rfl
  | cons first rest ih => rw [contents, List.map_cons, List.map_cons, ih]

theorem eq_of_maps {conns others : List StateEntry}
    (addresses : conns.map Prod.fst = others.map Prod.fst)
    (states : conns.map Prod.snd = others.map Prod.snd)
    : conns = others := by
  rw [← List.zip_unzip conns, ← List.zip_unzip others, List.unzip_eq_map, List.unzip_eq_map,
    addresses, states]

/-- The connections that the links lead to are those of the list. -/
theorem Listed.listing (listed : Listed list conns) : list.listing = some conns := by
  have holds : Holds _ _ _ _ _ _ := listed
  obtain ⟨cells, walked, shown⟩ := walk_holds holds holds.chain.length_le
  obtain ⟨again, walkedAgain, addresses, -⟩ := walk_lists holds.chain holds.chain.length_le
  obtain rfl := Option.some.inj (walked.symm.trans walkedAgain)
  rw [StateList.listing, walked, Option.map_some]
  refine congrArg some (eq_of_maps ?_ ?_)
  · rw [List.map_map, ← addresses]
    rfl
  · rw [List.map_map, ← map_fst_contents .stateList conns, ← shown, List.map_map]
    rfl

-----------------------------------------------------------------------------------------
-- The operations on a list
-----------------------------------------------------------------------------------------

/-- The cells from a start on get a new link backwards. -/
theorem Linked.setPrev (linked : Linked states start link conns) (other : StateLink)
    : ∃ after,
        StateList.setPrev start other states = some after
        ∧ Linked after start other conns
        ∧ ∀ away, away ∉ conns.map Prod.fst → after.cell away = states.cell away := by
  cases conns with
  | nil =>
      obtain rfl : start = none := linked.chain.head
      exact ⟨states, rfl, linked, fun _ _ => rfl⟩
  | cons first rest =>
      obtain ⟨cell, rfl, found, -, -, -⟩ := linked.first
      refine ⟨_, write_eq found _, linked.relink other, fun away outside => ?_⟩
      exact cell_modify_other _ fun same => outside (same ▸ List.mem_cons_self)

/-- `ctcp_init` puts the new connection in front of the list. -/
theorem Listed.ctcpInit (listed : Listed list conns) (cfg : CtcpConfig)
    : ∃ after,
        list.ctcpInit cfg = some after
        ∧ Listed after ((list.states.top, Ctcp.ctcpInit cfg) :: conns) := by
  let fresh : StateCell :=
    { state := Ctcp.ctcpInit cfg, prev := .stateList, next := list.stateList }
  have holds : Holds _ _ _ _ _ _ := listed
  have old : ∀ address ∈ conns.map Prod.fst, address ≠ list.states.top := by
    intro address member
    obtain ⟨_, found⟩ := holds.chain.found member
    exact Nat.ne_of_lt (lt_top found)
  have kept : Linked (list.states.alloc fresh) list.stateList .stateList conns :=
    holds.frame fun address member => cell_alloc (old address member)
  obtain ⟨after, linked, behind, same⟩ := kept.setPrev (.next list.states.top)
  have first : after.cell list.states.top = some fresh := by
    rw [same _ fun member => old _ member rfl, cell_alloc_top]
  refine ⟨⟨after, some list.states.top⟩, ?_, ?_⟩
  · rw [StateList.ctcpInit, linked, Option.map_some]
  · exact Holds.cons_iff.mpr ⟨_, _, fresh, rfl, rfl, first, rfl, behind⟩

/-- `ctcp_destroy` of the first connection leaves the others. -/
theorem Listed.ctcpDestroy (listed : Listed list ((address, state) :: rest))
    : ∃ after, list.ctcpDestroy address = some after ∧ Listed after rest := by
  obtain ⟨cell, starts, found, rfl, back, behind⟩ := listed.first
  have once : address ∉ rest.map Prod.fst := (List.nodup_cons.mp listed.nodup).1
  obtain ⟨states, linked, relinked, same⟩ := behind.setPrev .stateList
  have still : states.cell address = some cell := (same address once).trans found
  refine ⟨⟨states.modify address fun _ => none, cell.next⟩, ?_, relinked.away once _⟩
  rw [StateList.ctcpDestroy, found, Option.bind_some, back, linked, StateList.onStates,
    Option.map_some, Option.bind_some, StateList.relinkPrevious, back]
  simp only [Option.bind_some, StateList.onStates, free_eq still, Option.map_some]

/-- A write of a state changes that connection. -/
theorem Listed.assign (listed : Listed list (before ++ (address, state) :: rest))
    (next : CtcpState)
    : ∃ after,
        list.onStates (list.states.write address fun cell => { cell with state := next })
          = some after
        ∧ Listed after (before ++ (address, next) :: rest) := by
  obtain ⟨cell, found, -, -, -⟩ := listed.found
  let assigned :=
    list.states.modify address fun cell => some { cell with state := next }
  refine ⟨⟨assigned, list.stateList⟩, ?_, Linked.assign listed next⟩
  rw [write_eq found]
  rfl

/-- A handler changes the connection it is called with. -/
theorem Listed.handle {call : Call} {after : StateList}
    (listed : Listed list (before ++ (address, state) :: rest))
    (handled : list.handle address call = some after)
    : ∃ next,
        Ctcp.step state call = some next
        ∧ Listed after (before ++ (address, next) :: rest) := by
  obtain ⟨cell, found, rfl, -, -⟩ := listed.found
  rw [StateList.handle, found, Option.bind_some, Option.bind_eq_some_iff] at handled
  obtain ⟨next, taken, written⟩ := handled
  obtain ⟨also, assigned, left⟩ := listed.assign next
  obtain rfl := Option.some.inj (assigned.symm.trans written)
  exact ⟨next, taken, left⟩

-----------------------------------------------------------------------------------------
-- The timer
-----------------------------------------------------------------------------------------

/-- The loop of `ctcp_timer` over the connections of a list. -/
def checkConns (now : Nat → Nat → Int) (index : Nat) :
    List StateEntry → List StateEntry × Option Cause
  | [] => ([], none)
  | (address, state) :: rest =>
      match timerCheck (now index) state with
      | .error cause => ((address, state) :: rest, some cause)
      | .ok checked =>
          let (left, cause) := checkConns now (index + 1) rest
          ((address, checked) :: left, cause)

/-- The connections that are left by the loop, with those it passed before. -/
def afterLoop (before : List StateEntry) : List StateEntry × Option Cause → List StateEntry
  | (left, none) => before ++ left
  | (left, some _) => (before ++ left).tail

/-- The connections that a call of `ctcp_timer` leaves. -/
def timerConns (now : Nat → Nat → Int) (conns : List StateEntry) : List StateEntry :=
  afterLoop [] (checkConns now 0 conns)

theorem afterLoop_append (before : List StateEntry) (conn : StateEntry)
    (checked : List StateEntry × Option Cause)
    : afterLoop (before ++ [conn]) checked = afterLoop before (conn :: checked.1, checked.2) := by
  obtain ⟨left, _ | cause⟩ := checked <;> simp [afterLoop]

/-- The loop over the connections of a list checks their states like the loop over states. -/
theorem map_checkConns (now : Nat → Nat → Int) (index : Nat) (conns : List StateEntry)
    : (checkConns now index conns).1.map Prod.fst = conns.map Prod.fst
      ∧ (checkConns now index conns).1.map Prod.snd = (timerLoop now index (conns.map Prod.snd)).1
      ∧ (checkConns now index conns).2 = (timerLoop now index (conns.map Prod.snd)).2 := by
  induction conns generalizing index with
  | nil => exact ⟨rfl, rfl, rfl⟩
  | cons first rest ih =>
      obtain ⟨addresses, states, cause⟩ := ih (index + 1)
      obtain ⟨address, state⟩ := first
      simp only [checkConns, timerLoop, List.map_cons]
      cases timerCheck (now index) state with
      | error cause => exact ⟨rfl, rfl, rfl⟩
      | ok checked => exact ⟨congrArg _ addresses, congrArg _ states, cause⟩

/-- The first connection of a nonempty list is destroyed. -/
theorem Listed.destroyFirst (listed : Listed list conns) (any : conns ≠ [])
    : ∃ after,
        (list.stateList.bind fun first => list.ctcpDestroy first) = some after
        ∧ Listed after conns.tail := by
  cases conns with
  | nil => exact absurd rfl any
  | cons first rest =>
      obtain ⟨_, starts, _⟩ := listed.first
      obtain ⟨after, destroyed, left⟩ := listed.ctcpDestroy
      exact ⟨after, by rw [starts, Option.bind_some, destroyed], left⟩

/-- The loop from a connection on: it checks the connections from there, and destroys the first
one of the whole list where it stops.
-/
theorem Listed.timerLoop {now : Nat → Nat → Int} {fuel : Nat} (index : Nat)
    (listed : Listed list (before ++ rest)) (enough : rest.length ≤ fuel)
    : ∃ after,
        StateList.timerLoop now fuel index (rest.map Prod.fst).head? list = some after
        ∧ Listed after (afterLoop before (checkConns now index rest)) := by
  induction rest generalizing list before fuel index with
  | nil => exact ⟨list, by cases fuel <;> rfl, listed⟩
  | cons first rest ih =>
      obtain ⟨address, state⟩ := first
      obtain ⟨fuel, rfl⟩ := Nat.exists_eq_succ_of_ne_zero
        (Nat.ne_of_gt (Nat.lt_of_lt_of_le (Nat.zero_lt_succ _) enough))
      obtain ⟨cell, found, rfl, -, next⟩ := listed.found
      simp only [List.map_cons, List.head?_cons, StateList.timerLoop, found, Option.bind_some,
        checkConns]
      cases timerCheck (now index) cell.state with
      | error cause => exact listed.destroyFirst (by simp)
      | ok checked =>
          obtain ⟨states, written, assigned⟩ := listed.assign checked
          rw [List.append_cons] at assigned
          obtain ⟨after, looped, left⟩ := ih (index + 1) assigned (by simpa using enough)
          rw [afterLoop_append] at left
          refine ⟨after, ?_, left⟩
          dsimp only
          rw [written, Option.bind_some, next, looped]

/-- A call of `ctcp_timer` leaves the connections it checked, without the first one where it
destroyed one.
-/
theorem Listed.ctcpTimer (listed : Listed list conns) (now : Nat → Nat → Int)
    : ∃ after, list.ctcpTimer now = some after ∧ Listed after (timerConns now conns) := by
  have chain := (show Holds _ _ _ _ _ _ from listed).chain
  have enough : conns.length ≤ list.states.top := by simpa using chain.length_le
  have fromStart : Listed list ([] ++ conns) := listed
  obtain ⟨after, looped, left⟩ := fromStart.timerLoop 0 enough
  rw [← chain.head] at looped
  exact ⟨after, looped, left⟩

/-- A call of `ctcp_timer` on the heap leaves the states that the call on the list of states
leaves.
-/
theorem map_timerConns (now : Nat → Nat → Int) (conns : List StateEntry)
    : (timerConns now conns).map Prod.snd = (Ctcp.ctcpTimer now (conns.map Prod.snd)).1 := by
  obtain ⟨-, states, cause⟩ := map_checkConns now 0 conns
  rw [timerConns, Ctcp.ctcpTimer]
  generalize checkConns now 0 conns = checked at states cause
  generalize Ctcp.timerLoop now 0 (conns.map Prod.snd) = looped at states cause
  obtain ⟨left, kept⟩ := checked
  obtain ⟨after, stopped⟩ := looped
  obtain rfl : left.map Prod.snd = after := states
  obtain rfl : kept = stopped := cause
  cases kept with
  | none => rfl
  | some cause => exact List.map_tail

/-- A write to a cell that is not in the list leaves the list. -/
theorem Listed.handle_away {call : Call} {after : StateList} (listed : Listed list conns)
    (outside : address ∉ conns.map Prod.fst) (handled : list.handle address call = some after)
    : Listed after conns := by
  simp only [StateList.handle, Option.bind_eq_some_iff] at handled
  obtain ⟨cell, found, next, -, written⟩ := handled
  rw [write_eq found] at written
  obtain rfl := Option.some.inj written
  exact listed.away outside _

theorem handle_of_step {call : Call} {after : StateList}
    (taken : list.step (.handle address call) = some after)
    : list.handle address call = some after := by
  cases call with
  | timer env => cases taken
  | read env offer => exact taken
  | receive env segment len => exact taken
  | output env => exact taken

/-- A run of a server keeps its connections listed. -/
theorem listed_of_exec {events : List Event}
    (reached : exec StateList.step .empty events = some list)
    : ∃ conns, Listed list conns := by
  have start : Listed .empty [] := show Holds _ _ _ none [] [] from .nil
  refine exec_invariant (fun list => ∃ conns, Listed list conns) ?_ ⟨[], start⟩ reached
  rintro list event after ⟨conns, listed⟩ taken
  cases event with
  | init cfg =>
      obtain ⟨also, begun, left⟩ := listed.ctcpInit cfg
      obtain rfl := Option.some.inj (begun.symm.trans taken)
      exact ⟨_, left⟩
  | timer now =>
      obtain ⟨also, timed, left⟩ := listed.ctcpTimer now
      obtain rfl := Option.some.inj (timed.symm.trans taken)
      exact ⟨_, left⟩
  | handle address call =>
      have handled := handle_of_step taken
      by_cases member : address ∈ conns.map Prod.fst
      · obtain ⟨⟨_, state⟩, inList, rfl⟩ := List.mem_map.mp member
        obtain ⟨before, rest, rfl⟩ := List.mem_iff_append.mp inList
        obtain ⟨next, -, left⟩ := listed.handle handled
        exact ⟨_, left⟩
      · exact ⟨conns, listed.handle_away member handled⟩

end Lists

-----------------------------------------------------------------------------------------
-- Timers and their connections
-----------------------------------------------------------------------------------------

/-- Whether the timers of a connection ask for its destruction, with the clock readings of its
pass: its teardown wait is over, or its retransmission timer ran out after five tries.
-/
def CtcpState.Due (now : Nat → Int) (state : CtcpState) : Prop :=
  state.teardownDue (now 0) ∨ state.retransDue (now 1) ∧ 5 ≤ state.sw.retransCounter

instance (now : Nat → Int) (state : CtcpState) : Decidable (state.Due now) :=
  inferInstanceAs (Decidable (_ ∨ _ ∧ _))

/-- The retransmission of `ctcp_timer`. -/
def CtcpState.retransmitted (now : Nat → Int) (state : CtcpState) : CtcpState :=
  ctcpRetrans (now 3)
    { state with
      sw.retransCounter := state.sw.retransCounter + 1
      sw.timer := now 2 }

/-- What `ctcp_timer` may do to a list: a connection that is due may go, one whose retransmission
timer ran out may retransmit, and every other one stays as and where it is.
-/
inductive OwnTimers (now : Nat → Nat → Int) : Nat → List StateEntry → List StateEntry → Prop
  | nil {index} : OwnTimers now index [] []
  | destroyed {index address state rest left} (due : state.Due (now index))
    (behind : OwnTimers now (index + 1) rest left)
    : OwnTimers now index ((address, state) :: rest) left
  | retransmitted {index address state rest left} (due : state.retransDue (now index 1))
    (behind : OwnTimers now (index + 1) rest left)
    : OwnTimers now index ((address, state) :: rest)
        ((address, state.retransmitted (now index)) :: left)
  | kept {index address state rest left} (behind : OwnTimers now (index + 1) rest left)
    : OwnTimers now index ((address, state) :: rest) ((address, state) :: left)

/-- A connection of the list is due in its pass. -/
def AnyDue (now : Nat → Nat → Int) (index : Nat) (conns : List StateEntry) : Prop :=
  ∃ (position : Nat) (conn : StateEntry),
    conns[position]? = some conn ∧ conn.2.Due (now (index + position))

theorem Listed.unique {list : StateList} {conns others : List StateEntry}
    (listed : Listed list conns) (also : Listed list others)
    : conns = others :=
  Option.some.inj (listed.listing.symm.trans also.listing)

section Timers

variable {list : StateList} {conns rest left : List StateEntry} {address : Nat} {state : CtcpState}
  {now : Nat → Nat → Int} {index : Nat}

/-- A pass of the loop stops at the connections that are due. -/
theorem timerCheck_due_cases (now : Nat → Int) (state : CtcpState)
    : (state.Due now ∧ ∃ cause, timerCheck now state = .error cause)
      ∨ (¬ state.Due now ∧ state.retransDue (now 1)
        ∧ timerCheck now state = .ok (state.retransmitted now))
      ∨ (¬ state.Due now ∧ timerCheck now state = .ok state) := by
  unfold timerCheck CtcpState.Due
  by_cases teardown : state.teardownDue (now 0)
  · exact .inl ⟨.inl teardown, .teardown, if_pos teardown⟩
  · by_cases due : state.retransDue (now 1)
    · by_cases tries : 5 ≤ state.sw.retransCounter
      · refine .inl ⟨.inr ⟨due, tries⟩, .unresponsive, ?_⟩
        rw [if_neg teardown, if_pos due, if_pos tries]
      · refine .inr (.inl ⟨by simp [teardown, tries], due, ?_⟩)
        rw [if_neg teardown, if_pos due, if_neg tries]
        rfl
    · refine .inr (.inr ⟨by simp [teardown, due], ?_⟩)
      rw [if_neg teardown, if_neg due]

theorem OwnTimers.refl (now : Nat → Nat → Int) (index : Nat) (conns : List StateEntry)
    : OwnTimers now index conns conns := by
  induction conns generalizing index with
  | nil => exact .nil
  | cons first rest ih => exact .kept (ih (index + 1))

theorem anyDue_cons
    : AnyDue now index ((address, state) :: rest)
      ↔ state.Due (now index) ∨ AnyDue now (index + 1) rest := by
  constructor
  · rintro ⟨_ | position, conn, found, due⟩
    · obtain rfl := Option.some.inj found
      exact .inl due
    · refine .inr ⟨position, conn, found, ?_⟩
      rwa [Nat.add_assoc, Nat.add_comm 1]
  · rintro (due | ⟨position, conn, found, due⟩)
    · exact ⟨0, (address, state), rfl, due⟩
    · refine ⟨position + 1, conn, found, ?_⟩
      rwa [Nat.add_assoc, Nat.add_comm 1] at due

/-- The loop runs to its end where no connection is due, and acts on each connection according
to its own timers.
-/
theorem checkConns_of_none (none : ¬ AnyDue now index conns)
    : (checkConns now index conns).2 = Option.none
      ∧ OwnTimers now index conns (checkConns now index conns).1 := by
  induction conns generalizing index with
  | nil => exact ⟨rfl, .nil⟩
  | cons first rest ih =>
      obtain ⟨address, state⟩ := first
      rw [anyDue_cons, not_or] at none
      obtain ⟨ends, behind⟩ := ih none.2
      rcases timerCheck_due_cases (now index) state with ⟨due, -⟩ | ⟨-, due, checked⟩ | ⟨-, checked⟩
      · exact absurd due none.1
      · simp only [checkConns, checked]
        exact ⟨ends, .retransmitted due behind⟩
      · simp only [checkConns, checked]
        exact ⟨ends, .kept behind⟩

/-- The loop stops somewhere where a connection is due. -/
theorem checkConns_of_any (any : AnyDue now index conns)
    : ∃ cause, (checkConns now index conns).2 = some cause := by
  induction conns generalizing index with
  | nil =>
      obtain ⟨_, _, found, _⟩ := any
      cases found
  | cons first rest ih =>
      obtain ⟨address, state⟩ := first
      rcases timerCheck_due_cases (now index) state with
        ⟨-, cause, checked⟩ | ⟨notDue, -, checked⟩ | ⟨notDue, checked⟩
      · simp only [checkConns, checked]
        exact ⟨cause, rfl⟩
      all_goals
        simp only [checkConns, checked]
        exact ih ((anyDue_cons.mp any).resolve_left notDue)

/-- A connection that is not due stays. -/
theorem OwnTimers.stays (own : OwnTimers now index ((address, state) :: rest) left)
    (notDue : ¬ state.Due (now index))
    : address ∈ left.map Prod.fst := by
  cases own with
  | destroyed due _ => exact absurd due notDue
  | retransmitted _ _ => exact List.mem_cons_self
  | kept _ => exact List.mem_cons_self

theorem timerConns_of_none (none : ¬ AnyDue now 0 conns)
    : OwnTimers now 0 conns (timerConns now conns) := by
  obtain ⟨ends, own⟩ := checkConns_of_none none
  rw [timerConns]
  generalize checkConns now 0 conns = checked at ends own
  obtain ⟨left, _⟩ := checked
  subst ends
  exact own

/-- Where a connection is due, the first one goes. -/
theorem timerConns_of_any (any : AnyDue now 0 conns)
    : (timerConns now conns).map Prod.fst = (conns.map Prod.fst).tail := by
  obtain ⟨cause, stops⟩ := checkConns_of_any any
  have addresses := (map_checkConns now 0 conns).1
  rw [timerConns]
  generalize checkConns now 0 conns = checked at stops addresses
  obtain ⟨left, _⟩ := checked
  subst stops
  rw [← addresses]
  exact List.map_tail

theorem timerConns_of_first (due : state.Due (now 0))
    : timerConns now ((address, state) :: rest) = rest := by
  rcases timerCheck_due_cases (now 0) state with ⟨-, cause, checked⟩ | ⟨notDue, -⟩ | ⟨notDue, -⟩
  · simp only [timerConns, checkConns, checked]
    rfl
  · exact absurd due notDue
  · exact absurd due notDue

/-- A call of `ctcp_timer` acts on the connections whose own timers ran out exactly if the first
connection of the list is due in case any one is: it is the first one that goes.
-/
theorem ctcpTimer_ownTimers_iff (now : Nat → Nat → Int) (listed : Listed list conns)
    : (∃ after left,
        list.ctcpTimer now = some after ∧ Listed after left ∧ OwnTimers now 0 conns left)
      ↔ (AnyDue now 0 conns → ∃ first ∈ conns.head?, first.2.Due (now 0)) := by
  obtain ⟨after, timed, listedAfter⟩ := listed.ctcpTimer now
  constructor
  · rintro ⟨also, left, timedAlso, listedLeft, own⟩ any
    obtain rfl := Option.some.inj (timed.symm.trans timedAlso)
    obtain rfl := listedAfter.unique listedLeft
    cases conns with
    | nil =>
        obtain ⟨_, _, found, _⟩ := any
        cases found
    | cons first rest =>
        obtain ⟨address, state⟩ := first
        refine ⟨(address, state), rfl, ?_⟩
        by_contra notDue
        -- It is not due but unlinked, so it would have to be in the list twice.
        have stays := own.stays notDue
        rw [timerConns_of_any any] at stays
        exact (List.nodup_cons.mp listed.nodup).1 stays
  · intro headDue
    refine ⟨after, timerConns now conns, timed, listedAfter, ?_⟩
    by_cases any : AnyDue now 0 conns
    · obtain ⟨⟨address, state⟩, isFirst, due⟩ := headDue any
      obtain ⟨rest, rfl⟩ := List.head?_eq_some_iff.mp isFirst
      rw [timerConns_of_first due]
      exact .destroyed due (.refl now 1 rest)
    · exact timerConns_of_none any

end Timers

/-- Two connections of a server, and five retransmissions of a byte that one of them was given. -/
def unanswered (address : Nat) : List Event :=
  [.init defaultConfig, .init defaultConfig, .handle address (.read (.steady 0 0) (some [0x61]))]
  ++ [201, 402, 603, 804, 1005].map (fun time => .timer fun _ _ => time)

/-- The rule where the first connection of the list has waited in vain. -/
theorem ctcpTimer_ownTimers_iff_unanswered
    : ∃ list conns after left,
        exec StateList.step .empty (unanswered 1) = some list
        ∧ Listed list conns
        ∧ list.ctcpTimer (fun _ _ => 1206) = some after
        ∧ Listed after left
        ∧ OwnTimers (fun _ _ => 1206) 0 conns left := by
  have facts : (exec StateList.step .empty (unanswered 1)).any (fun list =>
      list.listing.any (fun conns =>
        conns.head?.any (fun first => first.2.Due fun _ => 1206))) := by
    decide +kernel
  obtain ⟨list, reached, shows⟩ := (Option.any_eq_true _ _).mp facts
  obtain ⟨conns, listed⟩ := listed_of_exec reached
  rw [listed.listing, Option.any_some] at shows
  obtain ⟨first, isFirst, due⟩ := (Option.any_eq_true _ _).mp shows
  obtain ⟨after, left, timed, listedLeft, own⟩ :=
    (ctcpTimer_ownTimers_iff (fun _ _ => 1206) listed).mpr
      fun _ => ⟨first, isFirst, of_decide_eq_true due⟩
  exact ⟨list, conns, after, left, reached, listed, timed, listedLeft, own⟩

/-- Where the second one has waited in vain, the first one goes. -/
theorem unanswered_first_destroyed
    : ¬ ∀ (now : Nat → Nat → Int) (events : List Event) (list : StateList)
        (conns : List StateEntry),
        exec StateList.step .empty events = some list → Listed list conns
        → ∃ after left,
            list.ctcpTimer now = some after ∧ Listed after left
            ∧ OwnTimers now 0 conns left := by
  intro always
  have facts : (exec StateList.step .empty (unanswered 0)).any (fun list =>
      list.listing.any (fun conns =>
        conns.head?.any (fun first => first.1 = 1 ∧ ¬ first.2.Due fun _ => 1206))
      && (list.ctcpTimer fun _ _ => 1206).any (fun after =>
        after.listing.any (fun left => left.map Prod.fst = [0]))) := by
    decide +kernel
  obtain ⟨list, reached, shows⟩ := (Option.any_eq_true _ _).mp facts
  obtain ⟨conns, listed⟩ := listed_of_exec reached
  obtain ⟨after, left, timed, listedLeft, own⟩ :=
    always (fun _ _ => 1206) (unanswered 0) list conns reached listed
  rw [listed.listing, timed, Option.any_some, Option.any_some, listedLeft.listing,
    Option.any_some, Bool.and_eq_true] at shows
  obtain ⟨⟨address, state⟩, isFirst, here⟩ := (Option.any_eq_true _ _).mp shows.1
  obtain ⟨rest, rfl⟩ := List.head?_eq_some_iff.mp isFirst
  obtain ⟨one, notDue⟩ := of_decide_eq_true here
  have stays := own.stays notDue
  rw [of_decide_eq_true shows.2] at stays
  simp_all

end Networks.Ctcp
