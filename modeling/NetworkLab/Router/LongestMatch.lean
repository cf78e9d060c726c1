import NetworkLab.Lib.FirstMax
import NetworkLab.Lib.PrefixMask
import NetworkLab.Router.ArpCache

/-!
# The longest match of the router

The running maximum of `longest_prefix_match` starts at 0 and is compared strictly, so that the
default route, whose mask is 0, is never found.
-/
set_option autoImplicit false

namespace NetworkLab.Router

open Lib

def RtEntry.Matches (dst : UInt32) (entry : RtEntry) : Prop :=
  entry.dest &&& entry.mask = dst &&& entry.mask

instance (dst : UInt32) (entry : RtEntry) : Decidable (entry.Matches dst) :=
  inferInstanceAs (Decidable (_ = _))

structure FindsLongest (rtable : List RtEntry) (dst : UInt32) : Prop where
  found : ∀ entry, longestPrefixMatch rtable dst = some entry →
    entry ∈ rtable ∧ entry.Matches dst ∧
      ∀ other ∈ rtable, other.Matches dst → maskLength other.mask ≤ maskLength entry.mask
  none : longestPrefixMatch rtable dst = none → ∀ entry ∈ rtable, ¬ entry.Matches dst

/-- There is no default route, or the address does not need it. -/
def NeedsNoDefault (rtable : List RtEntry) (dst : UInt32) : Prop :=
  (∀ entry ∈ rtable, entry.mask ≠ 0) ∨ ∃ entry ∈ rtable, entry.Matches dst ∧ entry.mask ≠ 0

section Search

variable {rtable : List RtEntry} {dst : UInt32}

theorem matches_default {entry : RtEntry} (isDefault : entry.mask = 0) (dst : UInt32) :
    entry.Matches dst := by
  rw [RtEntry.Matches, isDefault, UInt32.and_zero, UInt32.and_zero]

/-- The number that the search compares. -/
def RtEntry.rank (entry : RtEntry) : Nat := entry.mask.toNat

def candidates (rtable : List RtEntry) (dst : UInt32) : List RtEntry :=
  rtable.filter fun entry => entry.Matches dst ∧ 0 < entry.mask

theorem mem_candidates {entry : RtEntry} :
    entry ∈ candidates rtable dst ↔ entry ∈ rtable ∧ entry.Matches dst ∧ entry.mask ≠ 0 := by
  simp [candidates, UInt32.pos_iff_ne_zero]

def runningMax (best : Option RtEntry) : UInt32 × Option RtEntry :=
  ((best.map RtEntry.mask).getD 0, best)

theorem runningMax_next (best : Option RtEntry) (pos : RtEntry) :
    (if pos.Matches dst ∧ (runningMax best).1 < pos.mask then (pos.mask, some pos)
      else runningMax best) =
    runningMax (if pos.Matches dst ∧ 0 < pos.mask then keepGreater RtEntry.rank best pos
      else best) := by
  by_cases passes : pos.Matches dst
  · cases best with
    | none =>
        by_cases positive : 0 < pos.mask <;>
          simp [runningMax, keepGreater, passes, positive]
    | some b =>
        have same : b.rank < pos.rank ↔ b.mask < pos.mask := UInt32.lt_iff_toNat_lt.symm
        by_cases greater : b.mask < pos.mask
        · have positive : 0 < pos.mask := by
            rw [UInt32.lt_iff_toNat_lt] at greater ⊢
            exact Nat.zero_lt_of_lt greater
          simp [runningMax, keepGreater, passes, same, greater, positive]
        · simp [runningMax, keepGreater, passes, same, greater]
  · simp [passes]

theorem longestPrefixMatch_eq (rtable : List RtEntry) (dst : UInt32) :
    longestPrefixMatch rtable dst = firstMax RtEntry.rank (candidates rtable dst) := by
  suffices scanned : ∀ best, rtable.foldl
      (fun running pos =>
        if pos.dest &&& pos.mask = dst &&& pos.mask ∧ running.1 < pos.mask then
          (pos.mask, some pos)
        else running)
      (runningMax best) =
      runningMax (rtable.foldl (fun best pos =>
        if pos.Matches dst ∧ 0 < pos.mask then keepGreater RtEntry.rank best pos else best) best) by
    rw [firstMax, candidates, List.foldl_filter]
    simp only [decide_eq_true_eq]
    exact congrArg Prod.snd (scanned none)
  induction rtable with
  | nil => exact fun best => rfl
  | cons pos rest ih =>
      intro best
      rw [List.foldl_cons, List.foldl_cons, ← ih]
      exact congrArg (rest.foldl _) (runningMax_next best pos)

theorem longestPrefixMatch_found (prefixes : ∀ entry ∈ rtable, IsPrefixMask entry.mask)
    {entry : RtEntry} (found : longestPrefixMatch rtable dst = some entry) :
    entry ∈ rtable ∧ entry.Matches dst ∧
      ∀ other ∈ rtable, other.Matches dst → maskLength other.mask ≤ maskLength entry.mask := by
  rw [longestPrefixMatch_eq] at found
  have greatest := isFirstMax_of_firstMax found
  obtain ⟨member, passes, positive⟩ := mem_candidates.mp greatest.mem
  refine ⟨member, passes, fun other memberOther passesOther => ?_⟩
  rw [← (prefixes other memberOther).le_iff (prefixes entry member)]
  by_cases isDefault : other.mask = 0
  · rw [isDefault]
    exact UInt32.zero_le
  · have le := greatest.le (mem_candidates.mpr ⟨memberOther, passesOther, isDefault⟩)
    exact UInt32.le_iff_toNat_le.mpr le

/-- Nothing is found where only default routes match. -/
theorem longestPrefixMatch_eq_none : longestPrefixMatch rtable dst = none ↔
    ∀ entry ∈ rtable, entry.Matches dst → entry.mask = 0 := by
  rw [longestPrefixMatch_eq, firstMax_eq_none, List.eq_nil_iff_forall_not_mem]
  constructor
  · intro empty entry member passes
    by_contra positive
    exact empty entry (mem_candidates.mpr ⟨member, passes, positive⟩)
  · intro default entry candidate
    obtain ⟨member, passes, positive⟩ := mem_candidates.mp candidate
    exact positive (default entry member passes)

end Search

/-- The search returns a longest match for exactly the addresses that need no default route. -/
theorem finds_longest_iff {rtable : List RtEntry}
    (prefixes : ∀ entry ∈ rtable, IsPrefixMask entry.mask) (dst : UInt32) :
    FindsLongest rtable dst ↔ NeedsNoDefault rtable dst := by
  constructor
  · intro finds
    by_cases nothing : longestPrefixMatch rtable dst = none
    · left
      intro entry member isDefault
      exact finds.none nothing entry member (matches_default isDefault dst)
    · right
      simpa only [longestPrefixMatch_eq_none, not_forall, exists_prop] using nothing
  · intro noDefault
    refine ⟨fun entry found => longestPrefixMatch_found prefixes found, ?_⟩
    intro nothing entry member passes
    rw [longestPrefixMatch_eq_none] at nothing
    rcases noDefault with noZero | ⟨other, memberOther, passesOther, positive⟩
    · exact noZero entry member (nothing entry member passes)
    · exact positive (nothing other memberOther passesOther)

def uplink : IfaceInfo := { index := 0, mac := noMac, ip := 0x0A000101 }

def localRoute : RtEntry := { dest := 0x0A000100, mask := prefixMask 24, gw := 0, iface := uplink }

def defaultRoute : RtEntry := { dest := 0, mask := prefixMask 0, gw := 0x0A000101, iface := uplink }

theorem finds_longest_local : FindsLongest [defaultRoute, localRoute] 0x0A000163 :=
  (finds_longest_iff (by
    intro entry member
    rcases List.mem_pair.mp member with rfl | rfl
    · exact ⟨0, by decide, rfl⟩
    · exact ⟨24, by decide, rfl⟩) 0x0A000163).mpr
    (.inr ⟨localRoute, by simp, by decide, by decide⟩)

theorem default_route_never_found : ¬ FindsLongest [defaultRoute, localRoute] 0x08080808 := by
  intro finds
  have nothing : longestPrefixMatch [defaultRoute, localRoute] 0x08080808 = none := by
    simp [longestPrefixMatch, defaultRoute, localRoute]
    decide
  exact finds.none nothing defaultRoute (by simp) (by decide)

end NetworkLab.Router
