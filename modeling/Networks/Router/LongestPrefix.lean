import Mathlib.Data.List.MinMax
import Mathlib.Data.Nat.SuccPred
import Mathlib.Order.Interval.Set.Monotone
import Networks.Router.State

/-! Longest prefix match. The loop of `longestprefixmatch` keeps the first matching entry
whose mask is the largest number, and for masks of the form of a prefix the number grows with
the length of the prefix although it is read in the wrong byte order.
-/

namespace Networks.Router

open Ctcp (htonl)

-----------------------------------------------------------------------------------------
-- The first maximum of the matching entries
-----------------------------------------------------------------------------------------

/-- The masked destination of an entry is the masked target. -/
def SrRt.Matches (targetIp : UInt32) (route : SrRt) : Prop :=
  route.mask &&& route.dest = route.mask &&& targetIp

instance (targetIp : UInt32) (route : SrRt) : Decidable (route.Matches targetIp) :=
  inferInstanceAs (Decidable (_ = _))

/-- The matching entries of a table, in its order. -/
def matching (targetIp : UInt32) (table : List SrRt) : List SrRt :=
  table.filter (fun route => route.Matches targetIp)

theorem mem_matching {targetIp : UInt32} {table : List SrRt} {route : SrRt}
    : route ∈ matching targetIp table ↔ route ∈ table ∧ route.Matches targetIp := by
  simp [matching]

/-- The mask of an entry, read as a number. -/
def SrRt.maskNumber (route : SrRt) : Nat := route.mask.toNat

/-- One pass of the loop. -/
theorem longestprefixmatchLoop_cons (targetIp longest : UInt32) (nexthop : Option SrRt)
    (next : SrRt) (rest : List SrRt)
    : longestprefixmatchLoop targetIp nexthop longest (next :: rest)
      = if next.Matches targetIp ∧ (nexthop = none ∨ next.mask > longest) then
          longestprefixmatchLoop targetIp (some next) next.mask rest
        else
          longestprefixmatchLoop targetIp nexthop longest rest := rfl

/-- From the best entry so far, the loop finds the first entry with the largest mask, by
induction on the entries that are left.
-/
theorem longestprefixmatchLoop_eq_argmax {targetIp longest : UInt32} {nexthop : Option SrRt}
    {done rest : List SrRt} (best : nexthop = (matching targetIp done).argmax SrRt.maskNumber)
    (mask : ∀ route, nexthop = some route → longest = route.mask)
    : longestprefixmatchLoop targetIp nexthop longest rest
      = (matching targetIp (done ++ rest)).argmax SrRt.maskNumber := by
  induction rest generalizing nexthop longest done with
  | nil => simpa [longestprefixmatchLoop] using best
  | cons next rest ih =>
      rw [List.append_cons]
      by_cases matched : next.Matches targetIp
      · have grown : matching targetIp (done ++ [next]) = matching targetIp done ++ [next] := by
          simp [matching, matched]
        cases nexthop with
        | none =>
            have first : (matching targetIp (done ++ [next])).argmax SrRt.maskNumber
                = some next := by
              rw [grown, List.argmax_concat, ← best]
            rw [longestprefixmatchLoop_cons, if_pos ⟨matched, Or.inl rfl⟩]
            exact ih first.symm (by simp)
        | some route =>
            obtain rfl := mask route rfl
            have later : (matching targetIp (done ++ [next])).argmax SrRt.maskNumber
                = if route.maskNumber < next.maskNumber then some next else some route := by
              rw [grown, List.argmax_concat, ← best]
            by_cases larger : route.maskNumber < next.maskNumber
            · rw [longestprefixmatchLoop_cons,
                if_pos ⟨matched, Or.inr (UInt32.lt_iff_toNat_lt.mpr larger)⟩]
              exact ih (later.trans (if_pos larger)).symm (by simp)
            · have kept : ¬ (next.Matches targetIp
                  ∧ (some route = none ∨ next.mask > route.mask)) := by
                rintro ⟨-, absent | greater⟩
                · cases absent
                · exact larger (UInt32.lt_iff_toNat_lt.mp greater)
              rw [longestprefixmatchLoop_cons, if_neg kept]
              exact ih (later.trans (if_neg larger)).symm mask
      · have same : matching targetIp (done ++ [next]) = matching targetIp done := by
          simp [matching, matched]
        have skipped : ¬ (next.Matches targetIp ∧ (nexthop = none ∨ next.mask > longest)) :=
          fun taken => matched taken.1
        rw [longestprefixmatchLoop_cons, if_neg skipped]
        exact ih (by rw [same]; exact best) mask

/-- `longestprefixmatch` is the first matching entry whose mask is the largest number. -/
theorem longestprefixmatch_eq_argmax (sr : SrInstance) (targetIp : UInt32)
    : sr.longestprefixmatch targetIp
      = (matching targetIp sr.routingTable).argmax SrRt.maskNumber := by
  have start : longestprefixmatchLoop targetIp none 0 sr.routingTable
      = (matching targetIp ([] ++ sr.routingTable)).argmax SrRt.maskNumber :=
    longestprefixmatchLoop_eq_argmax rfl (by simp)
  exact start

-----------------------------------------------------------------------------------------
-- Masks of prefixes
-----------------------------------------------------------------------------------------

/-- The mask of a prefix as it lies in memory: that many one bits, then zero bits, in network
byte order.
-/
def prefixMask (length : Nat) : UInt32 := htonl (.ofNat (2 ^ 32 - 2 ^ (32 - length)))

/-- The number of one bits of a mask. -/
def prefixLength (mask : UInt32) : Nat :=
  (List.range 32).countP (fun bit => mask.toNat.testBit bit)

/-- The mask of some prefix. -/
def Contiguous (mask : UInt32) : Prop := ∃ length ≤ 32, mask = prefixMask length

/-- The mask of a prefix tells its length. -/
theorem prefixLength_prefixMask : ∀ length ≤ 32, prefixLength (prefixMask length) = length := by
  decide +kernel

/-- One more bit makes the mask a larger number, whichever byte the bit is in. -/
theorem prefixMask_lt_succ : ∀ length < 32, prefixMask length < prefixMask (length + 1) := by
  decide +kernel

/-- The masks of longer prefixes are larger numbers. -/
theorem prefixMask_strictMonoOn
    : StrictMonoOn (fun length => (prefixMask length).toNat) (Set.Iic 32) := by
  refine strictMonoOn_Iic_of_lt_succ fun length short => ?_
  rw [Order.succ_eq_add_one]
  exact UInt32.lt_iff_toNat_lt.mp (prefixMask_lt_succ length short)

/-- Masks of prefixes compare as the lengths of the prefixes. -/
theorem Contiguous.le_iff {mask other : UInt32} (contiguous : Contiguous mask)
    (otherContiguous : Contiguous other)
    : mask.toNat ≤ other.toNat ↔ prefixLength mask ≤ prefixLength other := by
  obtain ⟨length, short, rfl⟩ := contiguous
  obtain ⟨otherLength, otherShort, rfl⟩ := otherContiguous
  rw [prefixLength_prefixMask length short, prefixLength_prefixMask otherLength otherShort]
  exact prefixMask_strictMonoOn.le_iff_le short otherShort

-----------------------------------------------------------------------------------------
-- The entry that is found
-----------------------------------------------------------------------------------------

/-- Of two elements that pass a filter, the first one in the list is the first one in the
filtered list, by induction on the list.
-/
theorem idxOf_filter_le_iff {α : Type*} [DecidableEq α] {good : α → Bool} {first second : α}
    {list : List α} (passes : good first = true) (secondPasses : good second = true)
    : (list.filter good).idxOf first ≤ (list.filter good).idxOf second
      ↔ list.idxOf first ≤ list.idxOf second := by
  induction list with
  | nil => simp
  | cons head rest ih =>
      by_cases isFirst : head = first
      · simp [isFirst, passes]
      · by_cases isSecond : head = second
        · simp [isSecond, secondPasses, isSecond ▸ isFirst]
        · by_cases kept : good head = true
          · simp [kept, isFirst, isSecond, ih]
          · simp [kept, isFirst, isSecond, ih]

/-- An entry is the longest match for a target: it matches, no matching entry has a longer
prefix, and those with a prefix of its length stand behind it.
-/
structure LongestMatch (table : List SrRt) (targetIp : UInt32) (route : SrRt) : Prop where
  listed : route ∈ table
  matched : route.Matches targetIp
  longest
    : ∀ other ∈ table,
        other.Matches targetIp → prefixLength other.mask ≤ prefixLength route.mask
  earliest
    : ∀ other ∈ table,
        other.Matches targetIp → prefixLength other.mask = prefixLength route.mask
        → table.idxOf route ≤ table.idxOf other

/-- For every table of prefixes, `longestprefixmatch` returns `NULL` exactly when no entry
matches, and otherwise the longest match.
-/
theorem longestprefixmatch_correct (sr : SrInstance)
    (contiguous : ∀ route ∈ sr.routingTable, Contiguous route.mask) (targetIp : UInt32)
    : (sr.longestprefixmatch targetIp = none
        ↔ ∀ route ∈ sr.routingTable, ¬ route.Matches targetIp)
      ∧ ∀ nexthop,
          sr.longestprefixmatch targetIp = some nexthop
          ↔ LongestMatch sr.routingTable targetIp nexthop := by
  rw [longestprefixmatch_eq_argmax]
  constructor
  · rw [List.argmax_eq_none, matching, List.filter_eq_nil_iff]
    simp
  · intro nexthop
    rw [List.argmax_eq_some_iff]
    constructor
    · rintro ⟨found, largest, first⟩
      obtain ⟨listed, matched⟩ := mem_matching.mp found
      refine ⟨listed, matched, ?_, ?_⟩
      · intro other otherListed otherMatched
        have smaller := largest other (mem_matching.mpr ⟨otherListed, otherMatched⟩)
        exact ((contiguous other otherListed).le_iff (contiguous nexthop listed)).mp smaller
      · intro other otherListed otherMatched same
        have larger : nexthop.maskNumber ≤ other.maskNumber :=
          ((contiguous nexthop listed).le_iff (contiguous other otherListed)).mpr same.ge
        have order := first other (mem_matching.mpr ⟨otherListed, otherMatched⟩) larger
        exact (idxOf_filter_le_iff (by simpa using matched) (by simpa using otherMatched)).mp order
    · rintro ⟨listed, matched, longest, earliest⟩
      refine ⟨mem_matching.mpr ⟨listed, matched⟩, ?_, ?_⟩
      · intro other member
        obtain ⟨otherListed, otherMatched⟩ := mem_matching.mp member
        have shorter := longest other otherListed otherMatched
        exact ((contiguous other otherListed).le_iff (contiguous nexthop listed)).mpr shorter
      · intro other member larger
        obtain ⟨otherListed, otherMatched⟩ := mem_matching.mp member
        have longer :=
          ((contiguous nexthop listed).le_iff (contiguous other otherListed)).mp larger
        have same := Nat.le_antisymm (longest other otherListed otherMatched) longer
        have order := earliest other otherListed otherMatched same
        exact (idxOf_filter_le_iff (by simpa using matched) (by simpa using otherMatched)).mpr order

/-- The routing table that comes with the router. -/
def rtable : List SrRt :=
  [⟨0, 1677787146, 0, "eth3"⟩, ⟨33728704, 33728704, 4294967295, "eth1"⟩,
    ⟨167985324, 167985324, 4294967295, "eth2"⟩]

/-- With the routing table that comes with the router, the default route is only taken when
no other entry matches.
-/
theorem longestprefixmatch_rtable
    : let sr := srInit [] rtable
      (sr.longestprefixmatch 33728704 = none
        ↔ ∀ route ∈ sr.routingTable, ¬ route.Matches 33728704)
      ∧ ∀ nexthop,
          sr.longestprefixmatch 33728704 = some nexthop
          ↔ LongestMatch sr.routingTable 33728704 nexthop := by
  refine longestprefixmatch_correct (srInit [] rtable) ?_ 33728704
  have masks : ∀ route ∈ rtable, route.mask = prefixMask 0 ∨ route.mask = prefixMask 32 := by
    decide +kernel
  intro route listed
  rcases masks route listed with zero | full
  · exact ⟨0, by decide, zero⟩
  · exact ⟨32, by decide, full⟩

end Networks.Router
