import Mathlib.Order.Filter.AtTopBot.Basic
import Mathlib.Order.Filter.Finite
import Mathlib.Order.OrderIsoNat
import NetworkLab.Lib.Run

/-!
# Runs that never end

A state and an event for every moment.  What no step raises comes to rest when the
order is well founded, and finitely many things that come to rest do so together.
-/
set_option autoImplicit false

namespace Lib.Run

variable {State Event : Type*} {step : State → Event → Option State} {initial : State}
  {state : Nat → State} {event : Nat → Event}

structure EndlessRun (step : State → Event → Option State) (initial : State)
    (state : Nat → State) (event : Nat → Event) : Prop where
  start : state 0 = initial
  next : ∀ n, step (state n) (event n) = some (state (n + 1))

/-- What a step keeps under a condition on the state it starts from holds forever, when every
step meets the condition. -/
theorem EndlessRun.invariant {holds : State → Prop} {condition : State → Event → Prop}
    (endless : EndlessRun step initial state event)
    (kept : ∀ s e next, holds s → condition s e → step s e = some next → holds next)
    (first : holds initial) (guarded : ∀ n, condition (state n) (event n)) (n : Nat) :
    holds (state n) := by
  induction n with
  | zero =>
      rw [endless.start]
      exact first
  | succ n ih => exact kept _ _ _ ih (guarded n) (endless.next n)

theorem exists_at_rest {Rank : Type*} [PartialOrder Rank] [WellFoundedLT Rank] {rank : Nat → Rank}
    (falls : ∀ n, rank (n + 1) ≤ rank n) :
    ∃ N, ∀ n, N ≤ n → ∀ later, n ≤ later → rank later = rank n := by
  obtain ⟨N, same⟩ := WellFoundedLT.antitone_chain_condition (antitone_nat_of_succ_le falls)
  refine ⟨N, ?_⟩
  intro n late later after
  rw [← same n late, ← same later (le_trans late after)]

/-- A number that never rises, and falls some time as long as it is not zero, comes to zero. -/
theorem exists_zero {rank : Nat → Nat} {first : Nat}
    (falls : ∀ n, first ≤ n → rank (n + 1) ≤ rank n)
    (less : ∀ n, first ≤ n → 0 < rank n → ∃ later, n ≤ later ∧ rank later < rank n) :
    ∃ N, ∀ n, N ≤ n → rank n = 0 := by
  let shifted : Nat → Nat := fun n => rank (first + n)
  have fallsFrom : ∀ n, shifted (n + 1) ≤ shifted n :=
    fun n => falls (first + n) (Nat.le_add_right first n)
  obtain ⟨N, rest⟩ := exists_at_rest fallsFrom
  refine ⟨first + N, ?_⟩
  intro n late
  by_contra positive
  obtain ⟨later, after, smaller⟩ := less n (by omega) (Nat.pos_of_ne_zero positive)
  have same : rank (first + (later - first)) = rank (first + (n - first)) :=
    rest (n - first) (by omega) (later - first) (by omega)
  rw [show first + (later - first) = later by omega, show first + (n - first) = n by omega] at same
  omega

theorem exists_together {ι : Type*} [Finite ι] {holds : ι → Nat → Prop}
    (each : ∀ i, ∃ N, ∀ n, N ≤ n → holds i n) : ∃ N, ∀ n, N ≤ n → ∀ i, holds i n := by
  rw [← Filter.eventually_atTop, Filter.eventually_all]
  exact fun i => Filter.eventually_atTop.mpr (each i)

end Lib.Run
