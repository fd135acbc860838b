import Mathlib.Data.List.TakeWhile
import Networks.Library.TimedList
import Networks.Router.Sweep

/-! What a lookup in the ARP cache finds after any sequence of insertions and timeouts. The
last valid entry for an address is found, while a new one is put into the first free slot.
-/

namespace Networks.Router

open TimedList (since Steady)

/-- The valid entries for an address, in the order of their slots. -/
def entriesFor (ip : UInt32) (entries : List SrArpentry) : List SrArpentry :=
  entries.filter (fun entry => entry.valid ∧ entry.ip = ip)

theorem entriesFor_append (ip : UInt32) (before behind : List SrArpentry)
    : entriesFor ip (before ++ behind) = entriesFor ip before ++ entriesFor ip behind :=
  List.filter_append _ _

theorem entriesFor_cons (ip : UInt32) (entry : SrArpentry) (rest : List SrArpentry)
    : entriesFor ip (entry :: rest)
      = if entry.valid ∧ entry.ip = ip then entry :: entriesFor ip rest
        else entriesFor ip rest := by
  simp [entriesFor, List.filter_cons]

/-- The loop of the lookup, by induction on the entries. -/
theorem lookupLoop_eq (ip : UInt32) (entries : List SrArpentry) (start : Option SrArpentry)
    : entries.foldl
        (fun found entry => if entry.valid ∧ entry.ip = ip then some entry else found) start
      = (entriesFor ip entries).getLast?.or start := by
  induction entries generalizing start with
  | nil => rfl
  | cons entry rest ih =>
      rw [List.foldl_cons, ih, entriesFor_cons]
      by_cases fits : entry.valid ∧ entry.ip = ip
      · rw [if_pos fits, if_pos fits, List.getLast?_cons]
        cases (entriesFor ip rest).getLast? <;> rfl
      · rw [if_neg fits, if_neg fits]

/-- A lookup finds the last valid entry for an address. -/
theorem srArpcacheLookup_eq (entries : List SrArpentry) (ip : UInt32)
    : srArpcacheLookup entries ip = (entriesFor ip entries).getLast? := by
  rw [srArpcacheLookup, lookupLoop_eq, Option.or_none]

/-- A new entry is put into the first free slot. -/
theorem insertEntry_append {before behind : List SrArpentry} {free : SrArpentry}
    (new : SrArpentry) (used : ∀ entry ∈ before, entry.valid) (unused : free.valid = false)
    : insertEntry new (before ++ free :: behind) = before ++ new :: behind := by
  induction before with
  | nil => simp [insertEntry, unused]
  | cons entry rest ih =>
      have first := used entry (by simp)
      have others := ih (fun other member => used other (by simp [member]))
      simp [insertEntry, first, others]

/-- Either all slots are used, or there is a first free one. -/
theorem firstFree (entries : List SrArpentry)
    : (∀ entry ∈ entries, entry.valid)
      ∨ ∃ before free behind,
          entries = before ++ free :: behind ∧ (∀ entry ∈ before, entry.valid)
          ∧ free.valid = false := by
  induction entries with
  | nil => exact Or.inl (by simp)
  | cons entry rest ih =>
      by_cases used : entry.valid
      · rcases ih with all | ⟨before, free, behind, rfl, usedBefore, unused⟩
        · exact Or.inl (by simpa [used] using all)
        · exact Or.inr ⟨entry :: before, free, behind, rfl, by simpa [used] using usedBefore,
            unused⟩
      · exact Or.inr ⟨[], entry, rest, rfl, by simp, by simpa using used⟩

/-- What is left after a timeout are the entries that are not too old. -/
theorem entriesFor_expireEntries (ip : UInt32) (time : Int) (entries : List SrArpentry)
    : entriesFor ip (expireEntries time entries)
      = since SrArpentry.added (time - srArpcacheTo) (entriesFor ip entries) := by
  induction entries with
  | nil => rfl
  | cons entry rest ih =>
      have tail : entriesFor ip (expireEntries time (entry :: rest))
          = entriesFor ip
            ((if entry.valid ∧ time - entry.added > srArpcacheTo then
              { entry with valid := false }
            else
              entry) :: expireEntries time rest) := rfl
      rw [tail, entriesFor_cons, entriesFor_cons, ih]
      by_cases expires : entry.valid ∧ time - entry.added > srArpcacheTo
      · have old : ¬ time - srArpcacheTo ≤ entry.added := by omega
        rw [if_pos expires, if_neg (by simp)]
        split
        · rw [TimedList.since_cons, if_neg old]
        · rfl
      · rw [if_neg expires]
        split
        · next fits =>
            have recent : time - srArpcacheTo ≤ entry.added := by
              have young := not_and.mp expires fits.1
              omega
            rw [TimedList.since_cons, if_pos recent]
        · rfl

-----------------------------------------------------------------------------------------
-- Runs of the cache
-----------------------------------------------------------------------------------------

/-- A call of `sr_arpcacheinsert`, and whether its time has run out at a timeout since. -/
structure Insertion where
  ip : UInt32
  mac : Mac
  time : Int
  expired : Bool
  deriving DecidableEq

/-- The router with the calls on its cache so far. `now` is the time of the last one. -/
structure CacheRun where
  sr : SrInstance
  now : Int
  calls : List Insertion
  deriving DecidableEq

/-- A call of `sr_arpcacheinsert`, or the loop of `sr_arpcache_timeout` over the cache. -/
inductive CacheAction
  | insert (mac : Mac) (ip : UInt32)
  | timeout
  deriving DecidableEq

/-- The clock stands at the time of a call. -/
def clockAt (time : Int) : Outside := ⟨fun _ => time, fun _ _ => 0⟩

/-- A call on the cache at a time, with its effect on the list of calls. -/
def CacheRun.after (run : CacheRun) (time : Int) : CacheAction → CacheRun
  | .insert mac ip =>
      { sr := srArpcacheinsert (clockAt time) mac ip run.sr
        now := time
        calls := run.calls ++ [{ ip := ip, mac := mac, time := time, expired := false }] }
  | .timeout =>
      { sr := Action.run (clockAt time) run.sr .timeout
        now := time
        calls :=
          run.calls.map fun call =>
            { call with expired := call.expired || decide (time - call.time > srArpcacheTo) } }

/-- A step of a run. The clock does not go back. -/
def CacheRun.step (run : CacheRun) (input : Int × CacheAction) : Option CacheRun :=
  if input.1 < run.now then none else some (run.after input.1 input.2)

/-- A run from the router's start at some time. -/
def CacheRun.start (ifList : List SrIf) (routingTable : List SrRt) (time : Int) : CacheRun :=
  { sr := srInit ifList routingTable, now := time, calls := [] }

/-- The last call for an address. -/
def CacheRun.lastFor (run : CacheRun) (ip : UInt32) : Option Insertion :=
  (run.calls.filter (fun call => call.ip = ip)).getLast?

/-- From now until the next call on the cache, a lookup finds the MAC of the last call for an
address while it is at most 15 seconds old, and nothing when no call for the address is left.
-/
structure CacheRun.Current (run : CacheRun) : Prop where
  latest
    : ∀ ip time, run.now ≤ time → ∀ call ∈ run.lastFor ip, time - call.time ≤ srArpcacheTo
      → (srArpcacheLookup run.sr.entries ip).map SrArpentry.mac = some call.mac
  gone
    : ∀ ip, (∀ call ∈ run.calls, call.ip = ip → call.expired)
      → srArpcacheLookup run.sr.entries ip = none

/-- The MAC goes into the first free slot, and no valid entry for the address lies behind it
or the last of them has the same MAC. In a full cache a lookup finds the MAC already.
-/
def CacheRun.Shows (run : CacheRun) (mac : Mac) (ip : UInt32) : Prop :=
  match run.sr.entries.dropWhile (fun entry => entry.valid) with
  | [] => (srArpcacheLookup run.sr.entries ip).map SrArpentry.mac = some mac
  | _ :: behind => ∀ entry ∈ srArpcacheLookup behind ip, entry.mac = mac

/-- Each address whose last call is at most 15 seconds old has a valid entry as young. -/
def CacheRun.Holds (run : CacheRun) (time : Int) : Prop :=
  ∀ ip, ∀ call ∈ run.lastFor ip, time - call.time ≤ srArpcacheTo
    → ∃ entry ∈ run.sr.entries,
        entry.valid ∧ entry.ip = ip ∧ time - entry.added ≤ srArpcacheTo

/-- What a call needs for the cache to stay current. -/
def CacheRun.Keeps (run : CacheRun) (input : Int × CacheAction) : Prop :=
  run.now ≤ input.1
    → match input.2 with
      | .insert mac ip => run.Shows mac ip
      | .timeout => run.Holds input.1

-----------------------------------------------------------------------------------------
-- One call
-----------------------------------------------------------------------------------------

/-- What holds of a cache whatever the calls, as long as it stays current: its last entry for
an address has the MAC that any timeout leaves, and an entry stems from a call that has not
run out.
-/
structure CacheRun.Ordered (run : CacheRun) : Prop where
  steady
    : ∀ ip, ∃ mac,
        Steady SrArpentry.added SrArpentry.mac mac (entriesFor ip run.sr.entries)
  addedBefore : ∀ entry ∈ run.sr.entries, entry.valid → entry.added ≤ run.now
  called
    : ∀ entry ∈ run.sr.entries, entry.valid
      → ∃ call ∈ run.calls,
          call.ip = entry.ip ∧ call.time = entry.added ∧ call.expired = false

/-- The entry that a call of `sr_arpcacheinsert` makes. -/
def entryAt (time : Int) (mac : Mac) (ip : UInt32) : SrArpentry :=
  { mac := mac, ip := ip, added := time, valid := true }

theorem mem_entriesFor {ip : UInt32} {entries : List SrArpentry} {entry : SrArpentry}
    : entry ∈ entriesFor ip entries ↔ entry ∈ entries ∧ entry.valid ∧ entry.ip = ip := by
  simp [entriesFor]

theorem entries_srArpcacheinsert_full {outside : Outside} {mac : Mac} {ip : UInt32}
    {sr : SrInstance} (full : ∀ entry ∈ sr.entries, entry.valid)
    : (srArpcacheinsert outside mac ip sr).entries = sr.entries := by
  rw [srArpcacheinsert, if_pos (List.all_eq_true.mpr full)]

theorem entries_srArpcacheinsert_free (outside : Outside) {mac : Mac} {ip : UInt32}
    {sr : SrInstance} {before behind : List SrArpentry} {free : SrArpentry}
    (split : sr.entries = before ++ free :: behind) (used : ∀ entry ∈ before, entry.valid)
    (unused : free.valid = false)
    : (srArpcacheinsert outside mac ip sr).entries
      = before ++ entryAt (outside.clock sr.ticks) mac ip :: behind := by
  have notFull : ¬ sr.entries.all (fun entry => entry.valid) = true := by
    simp [split, unused]
  rw [srArpcacheinsert, if_neg notFull]
  simp only [split]
  exact insertEntry_append _ used unused

theorem shows_full {run : CacheRun} {mac : Mac} {ip : UInt32}
    (full : ∀ entry ∈ run.sr.entries, entry.valid)
    : run.Shows mac ip
      ↔ (srArpcacheLookup run.sr.entries ip).map SrArpentry.mac = some mac := by
  have none : run.sr.entries.dropWhile (fun entry => entry.valid) = [] :=
    List.dropWhile_eq_nil_iff.mpr full
  simp only [CacheRun.Shows, none]

theorem shows_free {run : CacheRun} {mac : Mac} {ip : UInt32}
    {before behind : List SrArpentry} {free : SrArpentry}
    (split : run.sr.entries = before ++ free :: behind)
    (used : ∀ entry ∈ before, entry.valid) (unused : free.valid = false)
    : run.Shows mac ip ↔ ∀ entry ∈ srArpcacheLookup behind ip, entry.mac = mac := by
  have rest : run.sr.entries.dropWhile (fun entry => entry.valid) = free :: behind := by
    rw [split, List.dropWhile_append_of_pos used, List.dropWhile_cons_of_neg (by simp [unused])]
  simp only [CacheRun.Shows, rest]

theorem lastFor_insert (run : CacheRun) (time : Int) (mac : Mac) (ip other : UInt32)
    : (run.after time (.insert mac ip)).lastFor other
      = if ip = other then some { ip := ip, mac := mac, time := time, expired := false }
        else run.lastFor other := by
  simp only [CacheRun.lastFor, CacheRun.after, List.filter_append]
  split
  · next same => simp [same]
  · next differs => simp [differs]

/-- A timeout does not change which call was the last one. -/
theorem lastFor_timeout (run : CacheRun) (time : Int) (ip : UInt32)
    : (run.after time .timeout).lastFor ip
      = (run.lastFor ip).map fun call =>
          { call with expired := call.expired || decide (time - call.time > srArpcacheTo) } := by
  simp only [CacheRun.lastFor, CacheRun.after, List.filter_map, List.getLast?_map]
  rfl

/-- No entry for an address is left when no call for it is. -/
theorem CacheRun.Ordered.gone {run : CacheRun} (ordered : run.Ordered) (ip : UInt32)
    (expired : ∀ call ∈ run.calls, call.ip = ip → call.expired)
    : srArpcacheLookup run.sr.entries ip = none := by
  rw [srArpcacheLookup_eq, List.getLast?_eq_none_iff, List.eq_nil_iff_forall_not_mem]
  intro entry member
  obtain ⟨listed, valid, same⟩ := mem_entriesFor.mp member
  obtain ⟨call, made, callIp, -, fresh⟩ := ordered.called entry listed valid
  have expires := expired call made (callIp.trans same)
  rw [fresh] at expires
  cases expires

theorem CacheRun.Ordered.insert_free {run : CacheRun} (ordered : run.Ordered) {time : Int}
    {mac : Mac} {ip : UInt32} {before behind : List SrArpentry} {free : SrArpentry}
    (split : run.sr.entries = before ++ free :: behind)
    (used : ∀ entry ∈ before, entry.valid) (unused : free.valid = false)
    (later : run.now ≤ time) (shown : ∀ entry ∈ srArpcacheLookup behind ip, entry.mac = mac)
    : (run.after time (.insert mac ip)).Ordered := by
  have entries : (run.after time (.insert mac ip)).sr.entries
      = before ++ entryAt time mac ip :: behind :=
    entries_srArpcacheinsert_free (clockAt time) split used unused
  have known : ∀ entry ∈ before ++ behind, entry ∈ run.sr.entries := by
    intro entry member
    rw [split]
    exact (List.sublist_append_left before [free] |>.append_right behind
      |>.trans (by simp)).subset member
  have stays : ∀ other, entriesFor other run.sr.entries
      = entriesFor other before ++ entriesFor other behind := by
    intro other
    rw [split, entriesFor_append, entriesFor_cons, if_neg (by simp [unused])]
  have young : ∀ entry ∈ before ++ behind, entry.valid → entry.added ≤ time :=
    fun entry member valid => (ordered.addedBefore entry (known entry member) valid).trans later
  refine ⟨fun other => ?_, fun entry member valid => ?_, fun entry member valid => ?_⟩
  · obtain ⟨current, steady⟩ := ordered.steady other
    rw [stays] at steady
    rw [entries, entriesFor_append, entriesFor_cons]
    by_cases same : ip = other
    · subst same
      rw [if_pos ⟨rfl, rfl⟩]
      refine ⟨mac, Steady.insert steady (fun entry member => ?_) (fun entry ends => ?_)⟩
      · rw [← entriesFor_append] at member
        obtain ⟨listed, valid, -⟩ := mem_entriesFor.mp member
        exact young entry listed valid
      · rw [← srArpcacheLookup_eq] at ends
        exact shown entry ends
    · rw [if_neg (fun fits => same fits.2)]
      exact ⟨current, steady⟩
  · rw [entries] at member
    rcases List.mem_append.mp member with first | last
    · exact young entry (List.mem_append_left _ first) valid
    · rcases List.mem_cons.mp last with rfl | behindIt
      · exact le_rfl
      · exact young entry (List.mem_append_right _ behindIt) valid
  · rw [entries] at member
    have old : entry ∈ before ++ behind
        → ∃ call ∈ (run.after time (.insert mac ip)).calls,
            call.ip = entry.ip ∧ call.time = entry.added ∧ call.expired = false := by
      intro listed
      obtain ⟨call, made, same⟩ := ordered.called entry (known entry listed) valid
      exact ⟨call, List.mem_append_left _ made, same⟩
    rcases List.mem_append.mp member with first | last
    · exact old (List.mem_append_left _ first)
    · rcases List.mem_cons.mp last with rfl | behindIt
      · exact ⟨_, List.mem_append_right _ (List.mem_singleton_self _), rfl, rfl, rfl⟩
      · exact old (List.mem_append_right _ behindIt)

theorem CacheRun.Ordered.insert_full {run : CacheRun} (ordered : run.Ordered) {time : Int}
    {mac : Mac} {ip : UInt32} (full : ∀ entry ∈ run.sr.entries, entry.valid)
    (later : run.now ≤ time)
    : (run.after time (.insert mac ip)).Ordered := by
  have entries : (run.after time (.insert mac ip)).sr.entries = run.sr.entries :=
    entries_srArpcacheinsert_full full
  refine ⟨fun other => ?_, fun entry member valid => ?_, fun entry member valid => ?_⟩
  · rw [entries]
    exact ordered.steady other
  · rw [entries] at member
    exact (ordered.addedBefore entry member valid).trans later
  · rw [entries] at member
    obtain ⟨call, made, same⟩ := ordered.called entry member valid
    exact ⟨call, List.mem_append_left _ made, same⟩

theorem CacheRun.Ordered.timeout {run : CacheRun} (ordered : run.Ordered) {time : Int}
    (later : run.now ≤ time)
    : (run.after time .timeout).Ordered := by
  have kept : ∀ entry ∈ (run.after time .timeout).sr.entries, entry.valid
      → entry ∈ run.sr.entries ∧ time - entry.added ≤ srArpcacheTo := by
    intro entry member valid
    have listed : entry ∈ entriesFor entry.ip (expireEntries time run.sr.entries) :=
      mem_entriesFor.mpr ⟨member, valid, rfl⟩
    rw [entriesFor_expireEntries] at listed
    obtain ⟨before, young⟩ := List.mem_filter.mp listed
    have recent := of_decide_eq_true young
    exact ⟨(mem_entriesFor.mp before).1, by omega⟩
  refine ⟨fun other => ?_, fun entry member valid => ?_, fun entry member valid => ?_⟩
  · obtain ⟨current, steady⟩ := ordered.steady other
    have entries : entriesFor other (run.after time .timeout).sr.entries
        = since SrArpentry.added (time - srArpcacheTo) (entriesFor other run.sr.entries) :=
      entriesFor_expireEntries other time run.sr.entries
    rw [entries]
    exact ⟨current, steady.since _⟩
  · obtain ⟨listed, -⟩ := kept entry member valid
    exact (ordered.addedBefore entry listed valid).trans later
  · obtain ⟨listed, young⟩ := kept entry member valid
    obtain ⟨call, made, sameIp, sameTime, fresh⟩ := ordered.called entry listed valid
    refine ⟨_, List.mem_map_of_mem made, sameIp, sameTime, ?_⟩
    have recent : ¬ time - call.time > srArpcacheTo := by omega
    simp [fresh, recent]

theorem lookup_other {before behind : List SrArpentry} {free new : SrArpentry} {ip : UInt32}
    (unused : free.valid = false) (other : new.ip ≠ ip)
    : srArpcacheLookup (before ++ new :: behind) ip
      = srArpcacheLookup (before ++ free :: behind) ip := by
  rw [srArpcacheLookup_eq, srArpcacheLookup_eq, entriesFor_append, entriesFor_append,
    entriesFor_cons, entriesFor_cons, if_neg (fun fits => other fits.2),
    if_neg (by simp [unused])]

/-- The new entry is found exactly if no entry behind it hides it. -/
theorem lookup_new (before behind : List SrArpentry) (time : Int) (mac : Mac) (ip : UInt32)
    : (srArpcacheLookup (before ++ entryAt time mac ip :: behind) ip).map SrArpentry.mac
        = some mac
      ↔ ∀ entry ∈ srArpcacheLookup behind ip, entry.mac = mac := by
  rw [srArpcacheLookup_eq, srArpcacheLookup_eq, entriesFor_append, entriesFor_cons,
    if_pos ⟨rfl, rfl⟩, List.getLast?_append, List.getLast?_cons, Option.some_or]
  cases last : (entriesFor ip behind).getLast? with
  | none => simp [entryAt]
  | some entry => simp

/-- A cache with a free slot learns the MAC for an unknown address. -/
theorem srArpcacheinsert_learns (outside : Outside) {mac : Mac} {ip : UInt32} {sr : SrInstance}
    (unknown : srArpcacheLookup sr.entries ip = none)
    (free : ¬ ∀ entry ∈ sr.entries, entry.valid)
    : (srArpcacheLookup (srArpcacheinsert outside mac ip sr).entries ip).map SrArpentry.mac
      = some mac := by
  rcases firstFree sr.entries with full | ⟨before, slot, behind, split, used, unused⟩
  · exact absurd full free
  · rw [entries_srArpcacheinsert_free outside split used unused, lookup_new]
    rw [srArpcacheLookup_eq, List.getLast?_eq_none_iff, split, entriesFor_append,
      List.append_eq_nil_iff, entriesFor_cons, if_neg (by simp [unused])] at unknown
    rw [srArpcacheLookup_eq, unknown.2]
    simp

theorem current_insert_iff {run : CacheRun} (ordered : run.Ordered) (current : run.Current)
    {time : Int} {mac : Mac} {ip : UInt32} (later : run.now ≤ time)
    : run.Shows mac ip ↔ (run.after time (.insert mac ip)).Current := by
  have justNow : time - time ≤ srArpcacheTo := by
    rw [Int.sub_self]
    decide
  have made : (run.after time (.insert mac ip)).lastFor ip
      = some { ip := ip, mac := mac, time := time, expired := false } := by
    rw [lastFor_insert, if_pos rfl]
  -- For all other addresses a lookup finds what it found before
  have upTo (next : (run.after time (.insert mac ip)).Ordered)
      (found
        : (srArpcacheLookup (run.after time (.insert mac ip)).sr.entries ip).map SrArpentry.mac
          = some mac)
      (others
        : ∀ other, ip ≠ other
          → srArpcacheLookup (run.after time (.insert mac ip)).sr.entries other
            = srArpcacheLookup run.sr.entries other)
      : (run.after time (.insert mac ip)).Current := by
    refine ⟨fun other at' notBefore call last young => ?_, next.gone⟩
    by_cases same : ip = other
    · subst same
      rw [made, Option.mem_def, Option.some.injEq] at last
      rw [found, ← last]
    · rw [lastFor_insert, if_neg same] at last
      rw [others other same]
      exact current.latest other at' (later.trans notBefore) call last young
  rcases firstFree run.sr.entries with full | ⟨before, free, behind, split, used, unused⟩
  · have entries : (run.after time (.insert mac ip)).sr.entries = run.sr.entries :=
      entries_srArpcacheinsert_full full
    rw [shows_full full]
    constructor
    · intro shown
      exact upTo (ordered.insert_full full later) (entries ▸ shown) (fun _ _ => by rw [entries])
    · intro next
      have found := next.latest ip time le_rfl _ made justNow
      rw [entries] at found
      exact found
  · have entries : (run.after time (.insert mac ip)).sr.entries
        = before ++ entryAt time mac ip :: behind :=
      entries_srArpcacheinsert_free (clockAt time) split used unused
    rw [shows_free split used unused]
    constructor
    · intro shown
      refine upTo (ordered.insert_free split used unused later shown) ?_ (fun other differs => ?_)
      · rw [entries]
        exact (lookup_new before behind time mac ip).mpr shown
      · rw [entries, split]
        exact lookup_other unused differs
    · intro next
      have found := next.latest ip time le_rfl _ made justNow
      rw [entries] at found
      exact (lookup_new before behind time mac ip).mp found

theorem current_timeout_iff {run : CacheRun} (ordered : run.Ordered) (current : run.Current)
    {time : Int} (later : run.now ≤ time)
    : run.Holds time ↔ (run.after time .timeout).Current := by
  have found (ip : UInt32)
      : srArpcacheLookup (run.after time .timeout).sr.entries ip
        = (since SrArpentry.added (time - srArpcacheTo)
            (entriesFor ip run.sr.entries)).getLast? := by
    rw [srArpcacheLookup_eq]
    exact congrArg List.getLast? (entriesFor_expireEntries ip time run.sr.entries)
  have young {ip : UInt32} {entry : SrArpentry}
      : entry ∈ since SrArpentry.added (time - srArpcacheTo) (entriesFor ip run.sr.entries)
        ↔ entry ∈ run.sr.entries ∧ entry.valid ∧ entry.ip = ip
          ∧ time - entry.added ≤ srArpcacheTo := by
    rw [since, List.mem_filter, mem_entriesFor, decide_eq_true_iff, and_assoc, and_assoc]
    have same : time - srArpcacheTo ≤ entry.added ↔ time - entry.added ≤ srArpcacheTo := by omega
    rw [same]
  constructor
  · intro holds
    refine ⟨fun ip at' notBefore call last recent => ?_, (ordered.timeout later).gone⟩
    have notBefore : time ≤ at' := notBefore
    rw [lastFor_timeout] at last
    obtain ⟨was, wasLast, rfl⟩ := Option.mem_map.mp last
    have recent : time - was.time ≤ srArpcacheTo := by
      have recent : at' - was.time ≤ srArpcacheTo := recent
      omega
    -- The entry that is left has the MAC of the entry that was found before
    obtain ⟨kept, listed, valid, sameIp, age⟩ := holds ip was wasLast recent
    obtain ⟨mac, steady⟩ := ordered.steady ip
    have before := current.latest ip time later was wasLast recent
    obtain ⟨old, oldFound, oldMac⟩ := Option.map_eq_some_iff.mp before
    rw [srArpcacheLookup_eq] at oldFound
    cases left : (since SrArpentry.added (time - srArpcacheTo)
        (entriesFor ip run.sr.entries)).getLast? with
    | none =>
        rw [List.getLast?_eq_none_iff, List.eq_nil_iff_forall_not_mem] at left
        exact absurd (young.mpr ⟨listed, valid, sameIp, age⟩) (left kept)
    | some entry =>
        rw [found, left]
        have sameMac : entry.mac = was.mac := by
          rw [steady _ entry left, ← oldMac, steady.last oldFound]
        exact congrArg some sameMac
  · intro next ip call last recent
    have shown := next.latest ip time le_rfl
      { call with expired := call.expired || decide (time - call.time > srArpcacheTo) }
      (by rw [lastFor_timeout]; exact Option.mem_map_of_mem _ last) recent
    rw [found] at shown
    obtain ⟨entry, ends, -⟩ := Option.map_eq_some_iff.mp shown
    obtain ⟨listed, valid, sameIp, age⟩ := young.mp (List.mem_of_getLast? ends)
    exact ⟨entry, listed, valid, sameIp, age⟩

/-- A call keeps the cache current exactly if it meets its condition. -/
theorem keeps_iff {run : CacheRun} (ordered : run.Ordered) (current : run.Current)
    (input : Int × CacheAction)
    : run.Keeps input ↔ ∀ next, run.step input = some next → next.Current := by
  obtain ⟨time, action⟩ := input
  by_cases late : time < run.now
  · simp [CacheRun.Keeps, CacheRun.step, late]
  · have later : run.now ≤ time := Int.not_lt.mp late
    cases action with
    | insert mac ip =>
        simpa [CacheRun.Keeps, CacheRun.step, late, later]
          using current_insert_iff ordered current later
    | timeout =>
        simpa [CacheRun.Keeps, CacheRun.step, late, later]
          using current_timeout_iff ordered current later

theorem CacheRun.Ordered.step {run next : CacheRun} {input : Int × CacheAction}
    (ordered : run.Ordered) (keeps : run.Keeps input) (taken : run.step input = some next)
    : next.Ordered := by
  obtain ⟨time, action⟩ := input
  rw [CacheRun.step, Option.ite_none_left_eq_some, Option.some.injEq] at taken
  obtain ⟨late, rfl⟩ := taken
  have later : run.now ≤ time := Int.not_lt.mp late
  cases action with
  | insert mac ip =>
      have shows : run.Shows mac ip := keeps later
      rcases firstFree run.sr.entries with full | ⟨before, free, behind, split, used, unused⟩
      · exact ordered.insert_full full later
      · exact ordered.insert_free split used unused later
          ((shows_free split used unused).mp shows)
  | timeout => exact ordered.timeout later

theorem start_ordered (ifList : List SrIf) (routingTable : List SrRt) (time : Int)
    : (CacheRun.start ifList routingTable time).Ordered := by
  have unused : ∀ entry ∈ (CacheRun.start ifList routingTable time).sr.entries,
      ¬ entry.valid := by
    intro entry member
    rw [List.eq_of_mem_replicate member]
    exact Bool.false_ne_true
  refine ⟨fun ip => ⟨Vector.replicate 6 0, ?_⟩, fun entry member valid => ?_,
    fun entry member valid => ?_⟩
  · have none : entriesFor ip (CacheRun.start ifList routingTable time).sr.entries = [] :=
      List.filter_eq_nil_iff.mpr (fun entry member => by simp [unused entry member])
    rw [none]
    exact TimedList.steady_nil _
  · exact absurd valid (unused entry member)
  · exact absurd valid (unused entry member)

/-- Along a run the cache is current exactly if each call meets its condition. -/
theorem cache_current_iff (ifList : List SrIf) (routingTable : List SrRt) (time : Int)
    (calls : List (Int × CacheAction))
    : (∀ done, done <+: calls → ∀ reached,
        StepRuns.exec CacheRun.step (CacheRun.start ifList routingTable time) done = some reached
        → reached.Current)
      ↔ StepRuns.AllSteps CacheRun.step CacheRun.Keeps
          (CacheRun.start ifList routingTable time) calls := by
  have ordered := start_ordered ifList routingTable time
  have current : (CacheRun.start ifList routingTable time).Current :=
    ⟨fun ip at' _ call last => by simp [CacheRun.lastFor, CacheRun.start] at last, ordered.gone⟩
  refine StepRuns.exec_always_iff CacheRun.Keeps (fun run => run.Ordered ∧ run.Current)
    CacheRun.Current (fun held => keeps_iff held.1 held.2 _) (fun held keeps taken => ?_)
    (fun held => held.2) ⟨ordered, current⟩
  exact ⟨held.1.step keeps taken, (keeps_iff held.1 held.2 _).mp keeps _ taken⟩

/-- A slot that became free in front of an entry takes the new MAC of a host, and lookups find
the old one.
-/
theorem new_mac_hidden
    : ¬ ∀ (ifList : List SrIf) (routingTable : List SrRt) (time : Int)
          (calls : List (Int × CacheAction)) (reached : CacheRun),
        StepRuns.exec CacheRun.step (CacheRun.start ifList routingTable time) calls = some reached
        → reached.Current := by
  intro always
  let calls : List (Int × CacheAction) :=
    [(0, .insert (Vector.replicate 6 1) 7), (10, .insert (Vector.replicate 6 2) 8),
      (16, .timeout), (16, .insert (Vector.replicate 6 3) 8)]
  have ends : ∃ reached,
      StepRuns.exec CacheRun.step (CacheRun.start [] [] 0) calls = some reached
      ∧ reached.now = 16
      ∧ reached.lastFor 8
        = some { ip := 8, mac := Vector.replicate 6 3, time := 16, expired := false }
      ∧ (srArpcacheLookup reached.sr.entries 8).map SrArpentry.mac
          = some (Vector.replicate 6 2) := by
    refine ⟨_, rfl, ?_⟩
    decide +kernel
  obtain ⟨reached, run, now, last, found⟩ := ends
  have shown := (always [] [] 0 calls reached run).latest 8 16 (by rw [now]) _ last (by decide)
  rw [found] at shown
  exact absurd shown (by decide)

end Networks.Router
