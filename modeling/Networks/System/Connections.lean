import Networks.Ctcp.Wire
import Networks.Library.LinkedHeap
import Networks.Library.StepRuns

/-! The connections of a server: a list that is linked forwards by connections and backwards by
the places that hold those links. Definitions follow `tcp_new_connection`, `conn_add`,
`conn_remove`, `conn_free` and `delete_all_connections`, for a server.
-/

namespace Networks.System

open LinkedHeap StepRuns
open Ctcp (maxNumClients)

/-- What `conn->prev` points to: the variable `conn_list` of `conn_add`, which is gone when
`conn_add` returns, or `&conn->next` of another connection.
-/
inductive PrevLink
  | connList
  | next (conn : Nat)
  deriving DecidableEq

/-- The fields of `conn_t` that the list uses. -/
structure ConnCell where
  deleteMe : Bool
  prev : Option PrevLink
  next : Option Nat
  deriving DecidableEq

/-- `config->connections` with the connections it leads to, and `num_connected`.
`strayWrites` counts the writes through links to variables that are gone.
-/
structure Server where
  conns : Heap ConnCell
  connections : Option Nat
  numConnected : Nat
  strayWrites : Nat

namespace Server

def start : Server := ⟨.empty, none, 0, 0⟩

def onConns (server : Server) (conns : Option (Heap ConnCell)) : Option Server :=
  conns.map fun conns => { server with conns := conns }

/-- `conn_add`. -/
def connAdd (conn : Nat) (server : Server) : Option Server :=
  let connList := server.connections
  let linked :=
    if some conn ≠ connList then
      (server.onConns (server.conns.write conn fun cell =>
          { cell with prev := some .connList, next := connList })).bind fun server =>
        match connList with
        | none => some server
        | some first =>
            server.onConns (server.conns.write first fun cell =>
              { cell with prev := some (.next conn) })
    else
      some server
  linked.map fun server => { server with connections := some conn }

/-- The connection that `calloc` returns. -/
def newConn : ConnCell := { deleteMe := false, prev := none, next := none }

/-- `tcp_new_connection`, with the connection it returns. -/
def tcpNewConnection (server : Server) : Option (Option Nat × Server) :=
  if server.numConnected ≥ maxNumClients then
    some (none, server)
  else
    let conn := server.conns.top
    let server :=
      { server with
        numConnected := server.numConnected + 1
        conns := server.conns.alloc newConn }
    (server.connAdd conn).map fun server => (some conn, server)

/-- `conn_remove`. -/
def connRemove (conn : Nat) (server : Server) : Option Server :=
  server.onConns (server.conns.write conn fun cell => { cell with deleteMe := true })

/-- `if (conn->next) conn->next->prev = conn->prev` of `conn_free`. -/
def relinkNext (cell : ConnCell) (server : Server) : Option Server :=
  match cell.next with
  | none => some server
  | some next =>
      server.onConns (server.conns.write next fun next => { next with prev := cell.prev })

/-- `if (conn->prev) *conn->prev = conn->next` of `conn_free`. -/
def relinkPrevious (cell : ConnCell) (server : Server) : Option Server :=
  match cell.prev with
  | none => some server
  | some .connList => some { server with strayWrites := server.strayWrites + 1 }
  | some (.next previous) =>
      server.onConns (server.conns.write previous fun previous =>
        { previous with next := cell.next })

/-- `conn_free`. -/
def connFree (conn : Nat) (server : Server) : Option Server :=
  (server.conns.cell conn).bind fun cell =>
    ((server.relinkNext cell).bind (relinkPrevious cell)).bind fun server =>
      let server :=
        if server.connections = some conn then { server with connections := none } else server
      server.onConns (server.conns.free conn)

/-- The loop of `delete_all_connections`. -/
def deleteLoop : Nat → Option Nat → Server → Option Server
  | _, none, server => some server
  | 0, some _, _ => none
  | fuel + 1, some conn, server =>
      (server.conns.cell conn).bind fun cell =>
        (if cell.deleteMe then server.connFree conn else some server).bind
          (deleteLoop fuel cell.next)

/-- `delete_all_connections`. -/
def deleteAllConnections (server : Server) : Option Server :=
  deleteLoop server.conns.top server.connections server

/-- The connections that the links from `config->connections` lead to. -/
def listing (server : Server) : Option (List Nat) :=
  (walk ConnCell.next server.conns server.conns.top server.connections).map
    (List.map Prod.fst)

/-- Whether a connection is marked for removal. -/
def marked (server : Server) (conn : Nat) : Bool :=
  (server.conns.cell conn).any ConnCell.deleteMe

end Server

-----------------------------------------------------------------------------------------
-- Links
-----------------------------------------------------------------------------------------

/-- The link that leads to what follows the given connections. -/
def lastLink (link : PrevLink) (before : List Nat) : PrevLink :=
  before.getLast?.elim link .next

/-- Each connection of a list points back to the link that leads to it, the first one to
`link`.
-/
def LinkedBack (conns : Heap ConnCell) : PrevLink → List Nat → Prop
  | _, [] => True
  | link, conn :: rest =>
      (∃ cell, conns.cell conn = some cell ∧ cell.prev = some link)
      ∧ LinkedBack conns (.next conn) rest

/-- Connections in a list that is linked in both directions. -/
structure Strung (conns : Heap ConnCell) (listed : List Nat) : Prop where
  chain : Chain ConnCell.next conns listed.head? listed
  back : LinkedBack conns .connList listed

section Links

variable {conns other : Heap ConnCell} {link : PrevLink} {conn : Nat} {before rest : List Nat}

/-- Links back are kept by every change that keeps them. -/
theorem LinkedBack.congr (linked : LinkedBack conns link rest)
    (same
      : ∀ conn ∈ rest,
          (other.cell conn).map ConnCell.prev = (conns.cell conn).map ConnCell.prev)
    : LinkedBack other link rest := by
  induction rest generalizing link with
  | nil => trivial
  | cons conn rest ih =>
      obtain ⟨⟨cell, found, back⟩, behind⟩ := linked
      refine ⟨?_, ih behind fun later member => same later (List.mem_cons_of_mem _ member)⟩
      have kept := same conn List.mem_cons_self
      rw [found, Option.map_some] at kept
      obtain ⟨new, newFound, newBack⟩ := Option.map_eq_some_iff.mp kept
      exact ⟨new, newFound, newBack.trans back⟩

theorem linkedBack_append
    : LinkedBack conns link (before ++ rest)
      ↔ LinkedBack conns link before ∧ LinkedBack conns (lastLink link before) rest := by
  induction before generalizing link with
  | nil => simp [LinkedBack, lastLink]
  | cons first before ih =>
      have last : lastLink link (first :: before) = lastLink (.next first) before := by
        rw [lastLink, lastLink, List.getLast?_cons]
        cases before.getLast? <;> rfl
      rw [List.cons_append, LinkedBack, LinkedBack, ih, last, and_assoc]

/-- A list is kept by every change to other connections. -/
theorem Strung.frame (strung : Strung conns rest)
    (same : ∀ conn ∈ rest, other.cell conn = conns.cell conn)
    : Strung other rest :=
  ⟨strung.chain.frame same, strung.back.congr fun conn member => by rw [same conn member]⟩

/-- A list is kept by a write to another connection, and when another one is freed. -/
theorem Strung.modify (strung : Strung conns rest) (away : conn ∉ rest)
    (change : ConnCell → Option ConnCell)
    : Strung (conns.modify conn change) rest := by
  refine strung.frame fun later member => cell_modify_other _ ?_
  rintro rfl
  exact away member

/-- No listed connection is the next one to be allocated. -/
theorem Strung.top_not_mem (strung : Strung conns rest) : conns.top ∉ rest := by
  intro member
  obtain ⟨cell, found⟩ := strung.chain.found member
  exact Nat.lt_irrefl _ (lt_top found)

/-- The first connection of a list is made to point back to another link. -/
theorem LinkedBack.relink {next : Nat} {tail : List Nat} {change : ConnCell → Option ConnCell}
    (linked : LinkedBack conns link (next :: tail)) (once : next ∉ tail) {newLink : PrevLink}
    (relinks : ∀ cell, change cell = some { cell with prev := some newLink })
    : LinkedBack (conns.modify next change) newLink (next :: tail) := by
  obtain ⟨⟨cell, found, -⟩, behind⟩ := linked
  refine ⟨⟨{ cell with prev := some newLink }, ?_, rfl⟩, behind.congr ?_⟩
  · rw [cell_modify, found, Option.bind_some, relinks]
  · rintro later member
    rw [cell_modify_other]
    rintro rfl
    exact once member

/-- A change of links in existing connections keeps the marks. -/
structure Relinks (conns other : Heap ConnCell) : Prop where
  marks
    : ∀ conn,
        (other.cell conn).map ConnCell.deleteMe = (conns.cell conn).map ConnCell.deleteMe
  top : other.top = conns.top

theorem Relinks.refl (conns : Heap ConnCell) : Relinks conns conns := ⟨fun _ => rfl, rfl⟩

theorem Relinks.modify {change : ConnCell → ConnCell}
    (keeps : ∀ cell, (change cell).deleteMe = cell.deleteMe)
    : Relinks conns (conns.modify conn fun cell => some (change cell)) :=
  ⟨map_cell_modify keeps conn, rfl⟩

theorem Relinks.trans {last : Heap ConnCell} (first : Relinks conns other)
    (second : Relinks other last)
    : Relinks conns last :=
  ⟨fun conn => (second.marks conn).trans (first.marks conn), second.top.trans first.top⟩

end Links

-----------------------------------------------------------------------------------------
-- Deletion
-----------------------------------------------------------------------------------------

namespace Server

section Deletion

variable {server : Server} {conn : Nat} {cell : ConnCell} {before rest : List Nat}

theorem onConns_write (found : server.conns.cell conn = some cell) (change : ConnCell → ConnCell)
    : server.onConns (server.conns.write conn change)
      = some { server with
          conns := server.conns.modify conn fun cell => some (change cell) } := by
  rw [write_eq found]
  rfl

/-- The first write of `conn_free` makes what follows a connection point back to what comes
before it.
-/
theorem relinkNext_spec (strung : Strung server.conns (before ++ conn :: rest))
    (found : server.conns.cell conn = some cell)
    : ∃ conns,
        server.relinkNext cell = some { server with conns := conns }
        ∧ Chain ConnCell.next conns (before ++ conn :: rest).head? (before ++ conn :: rest)
        ∧ LinkedBack conns .connList (before ++ rest)
        ∧ conns.cell conn = some cell
        ∧ Relinks server.conns conns := by
  have nodup := strung.chain.nodup
  obtain ⟨same, sameFound, tail⟩ := strung.chain.behind
  obtain rfl := Option.some.inj (found.symm.trans sameFound)
  obtain ⟨backBefore, ⟨again, againFound, back⟩, backRest⟩ :=
    linkedBack_append.mp strung.back
  obtain rfl := Option.some.inj (found.symm.trans againFound)
  cases rest with
  | nil =>
      have ends : cell.next = none := tail.head
      refine ⟨server.conns, ?_, strung.chain, ?_, found, Relinks.refl _⟩
      · rw [relinkNext, ends]
      · rwa [List.append_nil]
  | cons next rest =>
      have follows : cell.next = some next := tail.head
      obtain ⟨nextCell, nextFound⟩ := tail.found List.mem_cons_self
      have once : next ∉ rest := by
        have := List.nodup_append.mp nodup
        simp_all
      have notBefore : ∀ earlier ∈ before, earlier ≠ next := by
        have := List.nodup_append.mp nodup
        simp_all
      have apart : conn ≠ next := by
        have := List.nodup_append.mp nodup
        simp_all
      let linkBack : ConnCell → ConnCell := fun next => { next with prev := cell.prev }
      have relinks : Relinks server.conns
          (server.conns.modify next fun old => some (linkBack old)) :=
        Relinks.modify fun _ => rfl
      refine ⟨_, ?_, ?_, ?_, ?_, relinks⟩
      · rw [relinkNext, follows]
        exact onConns_write nextFound linkBack
      · have sameNext : ∀ old, (linkBack old).next = old.next := fun _ => rfl
        exact strung.chain.congr fun later _ => map_cell_modify sameNext next later
      · refine linkedBack_append.mpr ⟨backBefore.congr fun earlier member => ?_, ?_⟩
        · rw [cell_modify_other _ (notBefore earlier member)]
        · exact backRest.relink once fun old => by rw [← back]
      · rw [cell_modify_other _ apart, found]

/-- The second write of `conn_free` makes what comes before a connection lead to what follows
it.
-/
theorem relinkPrevious_spec (listed : Chain ConnCell.next server.conns
      (before ++ conn :: rest).head? (before ++ conn :: rest))
    (back : LinkedBack server.conns .connList (before ++ rest))
    (found : server.conns.cell conn = some cell)
    (link : cell.prev = some (lastLink .connList before))
    : ∃ after,
        server.relinkPrevious cell = some after
        ∧ Strung after.conns (before ++ rest)
        ∧ after.conns.cell conn = some cell
        ∧ Relinks server.conns after.conns
        ∧ after.connections = server.connections
        ∧ after.numConnected = server.numConnected := by
  rcases List.eq_nil_or_concat before with rfl | ⟨init, previous, rfl⟩
  · refine ⟨{ server with strayWrites := server.strayWrites + 1 }, ?_, ⟨?_, back⟩, found,
      Relinks.refl _, rfl, rfl⟩
    · rw [relinkPrevious, link]
      rfl
    · obtain ⟨same, sameFound, tail⟩ := listed.behind
      obtain rfl := Option.some.inj (found.symm.trans sameFound)
      rwa [tail.head] at tail
  · have leads : cell.prev = some (.next previous) := by simpa [lastLink] using link
    simp only [List.concat_eq_append, List.append_assoc, List.singleton_append] at *
    let linkNext : ConnCell → ConnCell := fun previous => { previous with next := cell.next }
    have relinks : Relinks server.conns
        (server.conns.modify previous fun old => some (linkNext old)) :=
      Relinks.modify fun _ => rfl
    obtain ⟨previousCell, previousFound⟩ := listed.found (by simp : previous ∈ _)
    have sameHead : (init ++ previous :: rest).head?
        = (init ++ previous :: conn :: rest).head? := by
      cases init <;> rfl
    have apart : conn ≠ previous := by
      rintro rfl
      simpa using (List.nodup_append.mp listed.nodup).2.1
    refine ⟨{ server with conns := server.conns.modify previous fun old => some (linkNext old) },
      ?_, ⟨?_, ?_⟩, ?_, relinks, rfl, rfl⟩
    · rw [relinkPrevious, leads]
      exact onConns_write previousFound linkNext
    · rw [sameHead]
      exact listed.unlink found fun old _ => ⟨linkNext old, rfl, rfl⟩
    · have samePrev : ∀ old, (linkNext old).prev = old.prev := fun _ => rfl
      exact back.congr fun later _ => map_cell_modify samePrev previous later
    · rw [cell_modify_other _ apart, found]

/-- What deleting some connections does: their memory is freed, the others keep their marks, and
the server forgets its list where the first connection is deleted.
-/
structure Deletes (server after : Server) (gone : List Nat) : Prop where
  marks
    : ∀ conn,
        (after.conns.cell conn).map ConnCell.deleteMe
        = if conn ∈ gone then none else (server.conns.cell conn).map ConnCell.deleteMe
  first
    : ∀ conn,
        after.connections = some conn ↔ server.connections = some conn ∧ conn ∉ gone
  counted : after.numConnected = server.numConnected

theorem Deletes.refl (server : Server) : server.Deletes server [] := by
  constructor <;> simp

theorem Deletes.trans {mid after : Server} {gone more : List Nat} (one : server.Deletes mid gone)
    (two : mid.Deletes after more)
    : server.Deletes after (gone ++ more) := by
  refine ⟨fun conn => ?_, fun conn => ?_, two.counted.trans one.counted⟩
  · rw [two.marks, one.marks]
    by_cases inGone : conn ∈ gone <;> by_cases inMore : conn ∈ more <;> simp [inGone, inMore]
  · rw [two.first, one.first, List.mem_append, not_or, and_assoc]

theorem marked_eq (server : Server) (conn : Nat)
    : server.marked conn = ((server.conns.cell conn).map ConnCell.deleteMe).getD false := by
  rw [marked]
  cases server.conns.cell conn <;> rfl

theorem Deletes.marked {after : Server} {gone : List Nat} (deletes : server.Deletes after gone)
    (kept : conn ∉ gone)
    : after.marked conn = server.marked conn := by
  rw [marked_eq, marked_eq, deletes.marks, if_neg kept]

/-- Wherever a connection stands in the list, `conn_free` unlinks it from the ones around it. -/
theorem connFree_spec (strung : Strung server.conns (before ++ conn :: rest))
    : ∃ after,
        server.connFree conn = some after ∧ Strung after.conns (before ++ rest)
        ∧ server.Deletes after [conn] := by
  obtain ⟨cell, found, -⟩ := strung.chain.behind
  obtain ⟨-, ⟨again, againFound, link⟩, -⟩ := linkedBack_append.mp strung.back
  obtain rfl := Option.some.inj (found.symm.trans againFound)
  obtain ⟨conns, linksNext, listed, back, kept, relinks⟩ := relinkNext_spec strung found
  obtain ⟨mid, linksPrevious, midStrung, midFound, midRelinks, sameFirst, sameCount⟩ :=
    @relinkPrevious_spec { server with conns := conns } conn cell before rest listed back kept
      link
  have away : conn ∉ before ++ rest :=
    (List.nodup_cons.mp (List.nodup_middle.mp strung.chain.nodup)).1
  have freed := midStrung.modify away fun _ => none
  have marks : ∀ other,
      ((mid.conns.modify conn fun _ => none).cell other).map ConnCell.deleteMe
        = if other ∈ [conn] then none else (server.conns.cell other).map ConnCell.deleteMe := by
    intro other
    by_cases here : other = conn
    · rw [here, cell_modify, midFound]
      simp
    · rw [cell_modify_other _ here, (relinks.trans midRelinks).marks, if_neg (by simpa using here)]
  rw [connFree, found, Option.bind_some, linksNext, Option.bind_some, linksPrevious,
    Option.bind_some]
  dsimp only
  split
  · next first =>
      refine ⟨{ mid with connections := none, conns := mid.conns.modify conn fun _ => none },
        ?_, freed, marks, fun other => ?_, sameCount⟩
      · dsimp only
        rw [free_eq midFound]
        rfl
      · change none = some other ↔ server.connections = some other ∧ other ∉ [conn]
        have wasFirst : server.connections = some conn := sameFirst.symm.trans first
        rw [wasFirst]
        simp [eq_comm]
  · next first =>
      refine ⟨{ mid with conns := mid.conns.modify conn fun _ => none }, ?_, freed, marks,
        fun other => ?_, sameCount⟩
      · rw [free_eq midFound]
        rfl
      · change mid.connections = some other
          ↔ server.connections = some other ∧ other ∉ [conn]
        have sameList : mid.connections = server.connections := sameFirst
        rw [← sameList, List.mem_singleton]
        refine ⟨fun leads => ⟨leads, ?_⟩, And.left⟩
        rintro rfl
        exact first leads

/-- A pass over a list deletes the connections that are marked, and no others. -/
theorem deleteLoop_spec {fuel : Nat} (strung : Strung server.conns (before ++ rest))
    (enough : rest.length ≤ fuel)
    : ∃ after,
        deleteLoop fuel rest.head? server = some after
        ∧ Strung after.conns (before ++ rest.filter fun conn => ¬ server.marked conn)
        ∧ server.Deletes after (rest.filter server.marked) := by
  induction rest generalizing before server fuel with
  | nil =>
      refine ⟨server, by cases fuel <;> rfl, strung, Deletes.refl server⟩
  | cons conn rest ih =>
      obtain ⟨fuel, rfl⟩ := Nat.exists_eq_succ_of_ne_zero
        (Nat.ne_of_gt (Nat.lt_of_lt_of_le (Nat.zero_lt_succ _) enough))
      have away : conn ∉ before ++ rest :=
        (List.nodup_cons.mp (List.nodup_middle.mp strung.chain.nodup)).1
      obtain ⟨cell, found, tail⟩ := strung.chain.behind
      have loop : deleteLoop (fuel + 1) (some conn) server
          = (if cell.deleteMe then server.connFree conn else some server).bind
            (deleteLoop fuel rest.head?) := by
        rw [deleteLoop, found, Option.bind_some, tail.head]
      have marks : server.marked conn = cell.deleteMe := by rw [marked, found]; rfl
      by_cases doomed : cell.deleteMe
      · obtain ⟨mid, frees, midStrung, deletes⟩ := connFree_spec strung
        have sameMarks : ∀ later ∈ rest, mid.marked later = server.marked later := by
          intro later member
          refine deletes.marked fun same => ?_
          rw [List.mem_singleton] at same
          exact away (same ▸ List.mem_append_right _ member)
        have sameGone : rest.filter mid.marked = rest.filter server.marked :=
          List.filter_congr sameMarks
        have sameKept : (rest.filter fun conn => ¬ mid.marked conn)
            = rest.filter fun conn => ¬ server.marked conn :=
          List.filter_congr fun later member => by rw [sameMarks later member]
        obtain ⟨after, passes, afterStrung, more⟩ := ih midStrung (by simpa using enough)
        refine ⟨after, ?_, ?_, ?_⟩
        · rw [List.head?_cons, loop, if_pos doomed, frees]
          exact passes
        · rw [sameKept] at afterStrung
          simpa [marks, doomed] using afterStrung
        · rw [sameGone] at more
          simpa [marks, doomed] using deletes.trans more
      · obtain ⟨after, passes, afterStrung, more⟩ :=
          @ih server (before ++ [conn]) fuel (by simpa using strung) (by simpa using enough)
        refine ⟨after, ?_, ?_, ?_⟩
        · rw [List.head?_cons, loop, if_neg doomed]
          exact passes
        · simpa [marks, doomed] using afterStrung
        · simpa [marks, doomed] using more

/-- `delete_all_connections` deletes the connections of its list that are marked. -/
theorem deleteAllConnections_spec {listed : List Nat} (strung : Strung server.conns listed)
    (first : server.connections = listed.head?)
    : ∃ after,
        server.deleteAllConnections = some after
        ∧ Strung after.conns (listed.filter fun conn => ¬ server.marked conn)
        ∧ server.Deletes after (listed.filter server.marked) := by
  rw [deleteAllConnections, first]
  exact @deleteLoop_spec server [] listed server.conns.top strung strung.chain.length_le

end Deletion

-----------------------------------------------------------------------------------------
-- Acceptance and marks
-----------------------------------------------------------------------------------------

section Acceptance

variable {server : Server} {listed : List Nat}

/-- A list of connections is read off the links. -/
theorem listing_eq (strung : Strung server.conns listed) (first : server.connections = listed.head?)
    : server.listing = some listed := by
  obtain ⟨cells, walked, same, -⟩ := walk_lists strung.chain strung.chain.length_le
  rw [listing, first, walked, Option.map_some, same]

/-- A new connection is put in front of the list. -/
theorem connAdd_spec {conn : Nat} {cell : ConnCell} (strung : Strung server.conns listed)
    (first : server.connections = listed.head?) (found : server.conns.cell conn = some cell)
    (away : conn ∉ listed)
    : ∃ after,
        server.connAdd conn = some after
        ∧ Strung after.conns (conn :: listed)
        ∧ after.connections = some conn
        ∧ after.numConnected = server.numConnected := by
  have isNew : some conn ≠ server.connections := by
    rw [first]
    rintro same
    exact away (List.mem_of_head? same.symm)
  let link : ConnCell → ConnCell := fun cell =>
    { cell with prev := some .connList, next := server.connections }
  let mid := server.conns.modify conn fun cell => some (link cell)
  have written : server.onConns (server.conns.write conn link)
      = some { server with conns := mid } :=
    onConns_write found link
  have rest : Strung mid listed := strung.modify away fun cell => some (link cell)
  have here : mid.cell conn = some (link cell) := by
    rw [cell_modify, found, Option.bind_some]
  rw [connAdd, if_pos isNew, written, Option.bind_some]
  cases listed with
  | nil =>
      refine ⟨{ server with conns := mid, connections := some conn }, ?_,
        ⟨.cons here ?_, ⟨_, here, rfl⟩, trivial⟩, rfl, rfl⟩
      · rw [first]
        rfl
      · change Chain _ _ server.connections []
        rw [first]
        exact rest.chain
  | cons next later =>
      let linkBack : ConnCell → ConnCell := fun cell => { cell with prev := some (.next conn) }
      obtain ⟨nextCell, nextFound⟩ := rest.chain.found List.mem_cons_self
      have apart : conn ≠ next := by
        rintro rfl
        exact away List.mem_cons_self
      have once : next ∉ later := (List.nodup_cons.mp strung.chain.nodup).1
      have sameNext : ∀ old, (linkBack old).next = old.next := fun _ => rfl
      have still : (mid.modify next fun cell => some (linkBack cell)).cell conn
          = some (link cell) := by
        rw [cell_modify_other _ apart, here]
      have writtenBack :=
        @onConns_write { server with conns := mid } next nextCell nextFound linkBack
      refine ⟨{ server with
          conns := mid.modify next fun cell => some (linkBack cell), connections := some conn },
        ?_, ⟨.cons still ?_, ⟨_, still, rfl⟩, ?_⟩, rfl, rfl⟩
      · simp only [first, List.head?_cons] at writtenBack ⊢
        rw [writtenBack, Option.map_some]
      · change Chain _ _ server.connections (next :: later)
        rw [first]
        exact rest.chain.congr fun other _ => map_cell_modify sameNext next other
      · exact rest.back.relink once fun cell => rfl

/-- A client is turned away, or its connection is put in front of the list. -/
theorem tcpNewConnection_spec (strung : Strung server.conns listed)
    (first : server.connections = listed.head?)
    : (server.numConnected ≥ maxNumClients ∧ server.tcpNewConnection = some (none, server))
      ∨ server.numConnected < maxNumClients
        ∧ ∃ after,
            server.tcpNewConnection = some (some server.conns.top, after)
            ∧ Strung after.conns (server.conns.top :: listed)
            ∧ after.connections = some server.conns.top
            ∧ after.numConnected = server.numConnected + 1 := by
  by_cases full : server.numConnected ≥ maxNumClients
  · exact .inl ⟨full, if_pos full⟩
  · refine .inr ⟨Nat.not_le.mp full, ?_⟩
    have old : Strung (server.conns.alloc newConn) listed := by
      refine strung.frame fun conn member => cell_alloc ?_
      rintro rfl
      exact strung.top_not_mem member
    obtain ⟨after, adds, added, leads, counted⟩ :=
      @connAdd_spec { server with
          numConnected := server.numConnected + 1, conns := server.conns.alloc newConn }
        listed server.conns.top newConn old first (cell_alloc_top newConn) strung.top_not_mem
    refine ⟨after, ?_, added, leads, counted⟩
    rw [tcpNewConnection, if_neg full]
    dsimp only
    rw [adds, Option.map_some]

/-- A mark is no change of the list. -/
theorem connRemove_spec {conn : Nat} {after : Server} (strung : Strung server.conns listed)
    (marks : server.connRemove conn = some after)
    : Strung after.conns listed ∧ after.connections = server.connections
      ∧ after.numConnected = server.numConnected := by
  rw [connRemove, onConns, Heap.write] at marks
  split at marks
  · obtain rfl := Option.some.inj marks
    have sameNext : ∀ cell : ConnCell, { cell with deleteMe := true }.next = cell.next :=
      fun _ => rfl
    have samePrev : ∀ cell : ConnCell, { cell with deleteMe := true }.prev = cell.prev :=
      fun _ => rfl
    refine ⟨⟨?_, ?_⟩, rfl, rfl⟩
    · exact strung.chain.congr fun other _ => map_cell_modify sameNext conn other
    · exact strung.back.congr fun other _ => map_cell_modify samePrev conn other
  · cases marks

end Acceptance

end Server

-----------------------------------------------------------------------------------------
-- Runs of a server
-----------------------------------------------------------------------------------------

/-- A SYN arrives, a connection is marked by `conn_remove`, or the main loop deletes
connections.
-/
inductive Event
  | syn
  | remove (conn : Nat)
  | deleteAll
  deriving DecidableEq

/-- A server with the accepted connections that are not deleted, newest first. -/
structure ServerRun where
  server : Server
  live : List Nat

namespace ServerRun

def start : ServerRun := ⟨.start, []⟩

def step (run : ServerRun) : Event → Option ServerRun
  | .syn =>
      run.server.tcpNewConnection.map fun answer => ⟨answer.2, answer.1.toList ++ run.live⟩
  | .remove conn => (run.server.connRemove conn).map fun server => ⟨server, run.live⟩
  | .deleteAll =>
      run.server.deleteAllConnections.map fun server =>
        ⟨server, run.live.filter fun conn => (server.conns.cell conn).isSome⟩

/-- The list of connections, the counter and the refusals fit the accepted connections. -/
structure Exact (run : ServerRun) : Prop where
  listed : run.server.listing = some run.live
  once : run.live.Nodup
  counted : run.server.numConnected = run.live.length
  refuses
    : ∀ after,
        run.server.tcpNewConnection = some (none, after) → run.live.length = maxNumClients

/-- The accepted connections are linked in both directions. -/
structure Linked (run : ServerRun) : Prop where
  strung : Strung run.server.conns run.live
  first : run.server.connections = run.live.head?

/-- The accepted connections are linked and counted, and they are not too many. -/
structure Counted (run : ServerRun) : Prop extends Linked run where
  counted : run.server.numConnected = run.live.length
  few : run.live.length ≤ maxNumClients

/-- No connection is marked when connections are deleted. -/
def DeletesNone (run : ServerRun) : Event → Prop
  | .deleteAll => ∀ conn ∈ run.live, ¬ run.server.marked conn
  | _ => True

/-- Where the first connection of the list is deleted, so are the others. -/
def KeepsFirst (run : ServerRun) : Event → Prop
  | .deleteAll =>
      (∀ conn ∈ run.live.head?, ¬ run.server.marked conn)
      ∨ ∀ conn ∈ run.live, run.server.marked conn
  | _ => True

section Steps

variable {run next : ServerRun}

theorem Counted.exact (counted : run.Counted) : run.Exact := by
  refine ⟨Server.listing_eq counted.strung counted.first, counted.strung.chain.nodup,
    counted.counted, fun after refused => ?_⟩
  rw [Server.tcpNewConnection] at refused
  split at refused
  · next full => exact Nat.le_antisymm counted.few (counted.counted ▸ full)
  · obtain ⟨accepted, -, same⟩ := Option.map_eq_some_iff.mp refused
    cases same

/-- What a pass over linked connections leaves. -/
theorem Linked.deleteAll (linked : run.Linked)
    : ∃ after,
        run.server.deleteAllConnections = some after
        ∧ run.server.Deletes after (run.live.filter run.server.marked)
        ∧ Strung after.conns (run.live.filter fun conn => ¬ run.server.marked conn)
        ∧ run.step .deleteAll
          = some ⟨after, run.live.filter fun conn => ¬ run.server.marked conn⟩ := by
  obtain ⟨after, passes, strung, deletes⟩ :=
    Server.deleteAllConnections_spec linked.strung linked.first
  refine ⟨after, passes, deletes, strung, ?_⟩
  have kept : (run.live.filter fun conn => (after.conns.cell conn).isSome)
      = run.live.filter fun conn => ¬ run.server.marked conn := by
    refine List.filter_congr fun conn member => ?_
    obtain ⟨cell, found⟩ := linked.strung.chain.found member
    have mark := deletes.marks conn
    by_cases gone : run.server.marked conn
    · rw [if_pos (List.mem_filter.mpr ⟨member, gone⟩), Option.map_eq_none_iff] at mark
      simp [mark, gone]
    · rw [if_neg fun inGone => gone (List.mem_filter.mp inGone).2, found] at mark
      obtain ⟨left, leftFound, -⟩ := Option.map_eq_some_iff.mp mark
      simp [leftFound, gone]
  rw [step, passes, Option.map_some, kept]

/-- A pass that keeps the first connection, or none, leaves the others linked. -/
theorem Linked.afterDeleteAll (linked : run.Linked) (keeps : run.KeepsFirst .deleteAll)
    (passes : run.step .deleteAll = some next)
    : next.Linked := by
  obtain ⟨after, -, deletes, strung, stepped⟩ := linked.deleteAll
  obtain rfl := Option.some.inj (stepped.symm.trans passes)
  refine ⟨strung, Option.ext fun conn => ?_⟩
  rw [deletes.first, linked.first, List.mem_filter]
  rcases keeps with kept | all
  · cases split : run.live with
    | nil => simp
    | cons first rest =>
        have unmarked : ¬ run.server.marked first := kept first (by rw [split]; rfl)
        rw [List.filter_cons_of_pos (by simpa using unmarked)]
        refine ⟨And.left, fun same => ⟨same, fun gone => ?_⟩⟩
        obtain rfl := Option.some.inj same
        exact unmarked gone.2
  · have empty : (run.live.filter fun conn => ¬ run.server.marked conn) = [] :=
      List.filter_eq_nil_iff.mpr fun conn member => by simpa using all conn member
    rw [empty]
    refine iff_of_false ?_ (by simp)
    rintro ⟨isFirst, kept⟩
    have member := List.mem_of_head? isFirst
    exact kept ⟨member, all conn member⟩

/-- A pass that deletes the first connection but not the others loses those. -/
theorem Linked.loses (linked : run.Linked) (drops : ¬ run.KeepsFirst .deleteAll)
    (passes : run.step .deleteAll = some next)
    : next.server.listing = some [] ∧ next.live ≠ [] := by
  obtain ⟨after, -, deletes, strung, stepped⟩ := linked.deleteAll
  obtain rfl := Option.some.inj (stepped.symm.trans passes)
  rw [KeepsFirst, not_or] at drops
  simp only [not_forall, not_not] at drops
  obtain ⟨⟨first, isFirst, doomed⟩, left, member, unmarked⟩ := drops
  have forgotten : after.connections = none := by
    refine Option.eq_none_iff_forall_ne_some.mpr fun conn leads => ?_
    obtain ⟨leads, kept⟩ := (deletes.first conn).mp leads
    obtain rfl := Option.some.inj (leads.symm.trans (linked.first.trans isFirst))
    exact kept (List.mem_filter.mpr ⟨List.mem_of_head? isFirst, doomed⟩)
  refine ⟨?_, List.ne_nil_of_mem (List.mem_filter.mpr ⟨member, by simpa using unmarked⟩)⟩
  rw [Server.listing, forgotten, walk]
  rfl

/-- What a step other than a pass does to a linked list. -/
theorem Linked.afterOther (linked : run.Linked) {event : Event} (other : event ≠ .deleteAll)
    (stepped : run.step event = some next)
    : next.Linked
      ∧ (next.server.numConnected = run.server.numConnected ∧ next.live.length = run.live.length
        ∨ run.server.numConnected < maxNumClients
          ∧ next.server.numConnected = run.server.numConnected + 1
          ∧ next.live.length = run.live.length + 1) := by
  cases event with
  | deleteAll => exact absurd rfl other
  | remove conn =>
      obtain ⟨after, marks, rfl⟩ := Option.map_eq_some_iff.mp stepped
      obtain ⟨strung, sameFirst, sameCount⟩ := Server.connRemove_spec linked.strung marks
      exact ⟨⟨strung, sameFirst.trans linked.first⟩, .inl ⟨sameCount, rfl⟩⟩
  | syn =>
      obtain ⟨answer, accepts, rfl⟩ := Option.map_eq_some_iff.mp stepped
      rcases Server.tcpNewConnection_spec linked.strung linked.first with
        ⟨-, refused⟩ | ⟨room, after, accepted, strung, leads, counted⟩
      · obtain rfl := Option.some.inj (refused.symm.trans accepts)
        exact ⟨linked, .inl ⟨rfl, rfl⟩⟩
      · obtain rfl := Option.some.inj (accepted.symm.trans accepts)
        exact ⟨⟨strung, leads⟩, .inr ⟨room, counted, rfl⟩⟩

/-- A step that keeps the first connection leaves the accepted connections linked. -/
theorem Linked.after (linked : run.Linked) {event : Event} (keeps : run.KeepsFirst event)
    (stepped : run.step event = some next)
    : next.Linked := by
  by_cases isPass : event = .deleteAll
  · subst isPass
    exact linked.afterDeleteAll keeps stepped
  · exact (linked.afterOther isPass stepped).1

/-- A step that deletes no connection keeps the count. -/
theorem Counted.after (counted : run.Counted) {event : Event} (keeps : run.DeletesNone event)
    (stepped : run.step event = some next)
    : next.Counted := by
  by_cases isPass : event = .deleteAll
  · subst isPass
    have keepsFirst : run.KeepsFirst .deleteAll :=
      .inl fun conn isFirst => keeps conn (List.mem_of_head? isFirst)
    have linked := counted.toLinked.afterDeleteAll keepsFirst stepped
    obtain ⟨after, -, deletes, -, passes⟩ := counted.toLinked.deleteAll
    obtain rfl := Option.some.inj (passes.symm.trans stepped)
    have all : (run.live.filter fun conn => ¬ run.server.marked conn) = run.live :=
      List.filter_eq_self.mpr fun conn member => by simpa using keeps conn member
    rw [all] at linked
    rw [all]
    exact ⟨linked, deletes.counted.trans counted.counted, counted.few⟩
  · obtain ⟨linked, same | ⟨room, more⟩⟩ := counted.toLinked.afterOther isPass stepped
    · exact ⟨linked, by rw [same.1, same.2, counted.counted], same.2 ▸ counted.few⟩
    · refine ⟨linked, by rw [more.1, more.2, counted.counted], ?_⟩
      rw [more.2, ← counted.counted]
      exact room

/-- A step that leaves the list right keeps its first connection. -/
theorem Linked.keepsFirst (linked : run.Linked) {event : Event}
    (exact : ∀ next, run.step event = some next → next.server.listing = some next.live)
    : run.KeepsFirst event := by
  cases event with
  | syn => trivial
  | remove conn => trivial
  | deleteAll =>
      by_contra drops
      obtain ⟨after, -, -, -, passes⟩ := linked.deleteAll
      obtain ⟨lost, some_left⟩ := linked.loses drops passes
      exact some_left (Option.some.inj ((exact _ passes).symm.trans lost))

/-- A step that leaves the counter right deletes no connection. -/
theorem Counted.deletesNone (counted : run.Counted) {event : Event}
    (exact : ∀ next, run.step event = some next → next.Exact)
    : run.DeletesNone event := by
  cases event with
  | syn => trivial
  | remove conn => trivial
  | deleteAll =>
      obtain ⟨after, -, deletes, -, passes⟩ := counted.toLinked.deleteAll
      have same := (exact _ passes).counted
      rw [deletes.counted, counted.counted] at same
      intro conn member
      simpa using List.length_filter_eq_length_iff.mp same.symm conn member

end Steps

theorem start_counted : start.Counted :=
  ⟨⟨⟨.nil, trivial⟩, rfl⟩, rfl, Nat.zero_le _⟩

/-- The list of connections is exact in every state of a run exactly if no pass over it
deletes the first connection without the others. Witness: `Linked` is kept by every such step.
-/
theorem listing_exact_iff (events : List Event)
    : (∀ done, done <+: events →
        ∀ reached, exec step start done = some reached
          → reached.server.listing = some reached.live)
      ↔ AllSteps step KeepsFirst start events := by
  refine exec_always_iff KeepsFirst Linked _ (fun linked => ⟨fun keeps next stepped => ?_, ?_⟩)
    (fun linked keeps stepped => linked.after keeps stepped)
    (fun linked => Server.listing_eq linked.strung linked.first) start_counted.toLinked
  · have after := linked.after keeps stepped
    exact Server.listing_eq after.strung after.first
  · exact linked.keepsFirst

/-- The connection table is exact in every state of a run exactly if no connection is deleted:
`num_connected` is never decremented.
-/
theorem connections_exact_iff (events : List Event)
    : (∀ done, done <+: events →
        ∀ reached, exec step start done = some reached → reached.Exact)
      ↔ AllSteps step DeletesNone start events := by
  refine exec_always_iff DeletesNone Counted _
    (fun counted => ⟨fun keeps next stepped => ?_, ?_⟩)
    (fun counted keeps stepped => counted.after keeps stepped) (fun counted => counted.exact)
    start_counted
  · exact (counted.after keeps stepped).exact
  · exact counted.deletesNone

/-- When the newest of two connections is deleted, the list forgets the other one. When one of
ten is deleted, the next client is turned away.
-/
theorem deletion_not_exact
    : (exec step start [.syn, .syn, .remove 1, .deleteAll]).map
          (fun run => (run.live, run.server.listing, run.server.numConnected))
        = some ([0], some [], 2)
      ∧ (exec step start (List.replicate 10 .syn ++ [.remove 3, .deleteAll])).map
          (fun run => (run.live.length, run.server.tcpNewConnection.map Prod.fst))
        = some (9, some none)
      ∧ ∃ reached,
          exec step start [.syn, .syn, .remove 1, .deleteAll] = some reached
          ∧ ¬ reached.Exact := by
  have forgets : (exec step start [.syn, .syn, .remove 1, .deleteAll]).map
      (fun run => (run.live, run.server.listing, run.server.numConnected))
      = some ([0], some [], 2) := by
    decide +kernel
  refine ⟨forgets, by decide +kernel, ?_⟩
  obtain ⟨reached, runs, values⟩ := Option.map_eq_some_iff.mp forgets
  refine ⟨reached, runs, fun exact => ?_⟩
  have counted := exact.counted
  simp only [Prod.mk.injEq] at values
  rw [values.1, values.2.2] at counted
  cases counted

end ServerRun

end Networks.System
