import Mathlib.Logic.Relation
import NetworkLab.Lib.Walk

/-!
# Devices joined by cables

A frame that leaves a device by a port arrives at the other end of the cable, and goes on by
another port of the device there.  Where no such way comes back to its first port, a frame
enters every device by one port only.
-/
set_option autoImplicit false

namespace Lib

open Relation

/-- The device of every port, and the port at the other end of its cable. -/
structure Cabling (Device Port : Type*) where
  device : Port → Device
  cable : Port → Option Port
  cable_symm : ∀ p q, cable p = some q → cable q = some p
  cable_ne : ∀ p, cable p ≠ some p

namespace Cabling

variable {Device Port : Type*} (C : Cabling Device Port)

/-- A frame that left by `p` goes on by another port of the device it came to. -/
def Onward (p next : Port) : Prop :=
  ∃ q, C.cable p = some q ∧ C.device next = C.device q ∧ next ≠ q

/-- A frame from the device may leave by this port. -/
def Leaves (source : Device) (p : Port) : Prop :=
  ∃ first, C.device first = source ∧ ReflTransGen C.Onward first p

/-- No way from the device comes to one of its ports again. -/
def LoopFree (source : Device) : Prop := ∀ p, C.Leaves source p → ¬ TransGen C.Onward p p

def Enters (p : Port) (d : Device) : Prop := ∃ q, C.cable p = some q ∧ C.device q = d

def Adjacent (u v : Device) : Prop := ∃ p, C.device p = u ∧ C.Enters p v

variable {C}

theorem cable_injective {p p' q : Port} (joined : C.cable p = some q)
    (joined' : C.cable p' = some q) : p = p' := by
  have back := C.cable_symm _ _ joined
  rw [C.cable_symm _ _ joined'] at back
  exact (Option.some.inj back).symm

theorem Leaves.first (p : Port) : C.Leaves (C.device p) p := ⟨p, rfl, .refl⟩

theorem Leaves.next {source : Device} {p next : Port} (leaves : C.Leaves source p)
    (onward : C.Onward p next) : C.Leaves source next := by
  obtain ⟨first, fromSource, way⟩ := leaves
  exact ⟨first, fromSource, way.tail onward⟩

/-- A port by which a frame leaves is one of the source, or of a device that it came to. -/
theorem Leaves.cases {source : Device} {p : Port} (leaves : C.Leaves source p) :
    C.device p = source ∨ ∃ before, C.Leaves source before ∧ C.Onward before p := by
  obtain ⟨first, fromSource, way⟩ := leaves
  cases way with
  | refl => exact Or.inl fromSource
  | tail earlier onward => exact Or.inr ⟨_, ⟨first, fromSource, earlier⟩, onward⟩

theorem Onward.enters {p next : Port} (onward : C.Onward p next) :
    C.Enters p (C.device next) := by
  obtain ⟨q, joined, sameDevice, -⟩ := onward
  exact ⟨q, joined, sameDevice.symm⟩

/-- The way back leads over the other ends of the cables, in reverse order. -/
theorem exists_way_back {p last z : Port} (way : ReflTransGen C.Onward p last)
    (joined : C.cable last = some z) :
    ∃ q, C.cable p = some q ∧ ReflTransGen C.Onward z q := by
  induction way using ReflTransGen.head_induction_on with
  | refl => exact ⟨z, joined, .refl⟩
  | head onward _ ih =>
      obtain ⟨back, ahead, wayBack⟩ := ih
      obtain ⟨q, joinedHere, sameDevice, other⟩ := onward
      exact ⟨q, joinedHere, wayBack.tail
        ⟨_, C.cable_symm _ _ ahead, sameDevice.symm, Ne.symm other⟩⟩

section LoopFree

variable {source : Device} (loopFree : C.LoopFree source)

include loopFree

/-- Without loops a frame does not come back to a device that it left. -/
theorem LoopFree.not_back {n : Nat} {p last : Port} (leaves : C.Leaves source p)
    (walk : Walk C.Onward n p last) : ¬ C.Enters last (C.device p) := by
  induction n using Nat.strong_induction_on generalizing p last with
  | _ n ih =>
      rintro ⟨y, joined, sameDevice⟩
      by_cases same : y = p
      · -- it came back by the cable it left by, so the way between does as well
        subst same
        have ahead := C.cable_symm _ _ joined
        match n, walk with
        | 0, walk =>
            cases walk
            exact C.cable_ne _ joined
        | 1, ⟨w, ⟨q, joined', _, other⟩, arrives⟩ =>
            cases arrives
            exact other (Option.some.inj (ahead.symm.trans joined'))
        | n + 2, ⟨w, onward, rest⟩ =>
            obtain ⟨before, inner, onto⟩ := rest.last_step
            refine ih n (by omega) (leaves.next onward) inner ?_
            obtain ⟨q, joined', fromDevice, -⟩ := onward
            obtain ⟨q', beforeJoined, lastDevice, -⟩ := onto
            cases Option.some.inj (ahead.symm.trans joined')
            exact ⟨q', beforeJoined, lastDevice.symm.trans fromDevice.symm⟩
      · exact loopFree p leaves (.tail' walk.reaches ⟨y, joined, sameDevice.symm, Ne.symm same⟩)

theorem LoopFree.not_back_of_enters {n : Nat} {p w last : Port} {d : Device}
    (leaves : C.Leaves source p) (onward : C.Onward p w) (rest : Walk C.Onward n w last)
    (enters : C.Enters p d) : ¬ C.Enters last d := by
  obtain ⟨q, joined, onDevice, -⟩ := id onward
  obtain ⟨x, joined', sameDevice⟩ := enters
  cases Option.some.inj (joined.symm.trans joined')
  rw [← sameDevice, ← onDevice]
  exact loopFree.not_back (leaves.next onward) rest

/-- Ways from two ports of a device do not meet, as one would lead back by the other. -/
theorem LoopFree.apart {p p' last last' : Port} {d : Device} (leaves : C.Leaves source p)
    (together : C.device p = C.device p') (apart : p ≠ p')
    (way : ReflTransGen C.Onward p last) (way' : ReflTransGen C.Onward p' last')
    (enters : C.Enters last d) (enters' : C.Enters last' d) : last = last' := by
  obtain ⟨x, joined, onDevice⟩ := enters
  obtain ⟨y, joined', onDevice'⟩ := enters'
  by_contra other
  obtain ⟨z, first, wayBack⟩ := exists_way_back way' joined'
  have turns : C.Onward last y :=
    ⟨x, joined, onDevice'.trans onDevice.symm, fun same =>
      other (cable_injective joined (same ▸ joined'))⟩
  have closes : C.Onward z p := ⟨p', C.cable_symm _ _ first, together, apart⟩
  exact loopFree p leaves (.tail' ((way.tail turns).trans wayBack) closes)

theorem LoopFree.same_entry {n m : Nat} {p p' last last' : Port} {d : Device}
    (leaves : C.Leaves source p) (leaves' : C.Leaves source p')
    (together : C.device p = C.device p') (walk : Walk C.Onward n p last)
    (walk' : Walk C.Onward m p' last') (enters : C.Enters last d) (enters' : C.Enters last' d) :
    last = last' := by
  induction n generalizing m p p' with
  | zero =>
      by_cases same : p = p'
      · subst same
        cases walk
        match m, walk' with
        | 0, walk' => exact walk'
        | m + 1, ⟨w, onward, rest⟩ =>
            exact absurd enters' (loopFree.not_back_of_enters leaves onward rest enters)
      · exact loopFree.apart leaves together same walk.reaches walk'.reaches enters enters'
  | succ n ih =>
      by_cases same : p = p'
      · subst same
        obtain ⟨w, onward, rest⟩ := walk
        match m, walk' with
        | 0, walk' =>
            cases walk'
            exact absurd enters (loopFree.not_back_of_enters leaves onward rest enters')
        | m + 1, ⟨w', onward', rest'⟩ =>
            obtain ⟨q, joined, onDevice, -⟩ := id onward
            obtain ⟨q', joined', onDevice', -⟩ := id onward'
            cases Option.some.inj (joined.symm.trans joined')
            exact ih (leaves.next onward) (leaves.next onward') (onDevice.trans onDevice'.symm)
              rest rest'
      · exact loopFree.apart leaves together same walk.reaches walk'.reaches enters enters'

theorem LoopFree.entry_unique {p p' : Port} {d : Device} (leaves : C.Leaves source p)
    (leaves' : C.Leaves source p') (enters : C.Enters p d) (enters' : C.Enters p' d) :
    p = p' := by
  obtain ⟨first, fromSource, way⟩ := leaves
  obtain ⟨first', fromSource', way'⟩ := leaves'
  obtain ⟨n, walk⟩ := exists_walk_of_reaches way
  obtain ⟨m, walk'⟩ := exists_walk_of_reaches way'
  exact loopFree.same_entry ⟨first, fromSource, .refl⟩ ⟨first', fromSource', .refl⟩
    (fromSource.trans fromSource'.symm) walk walk' enters enters'

theorem LoopFree.source_not_entered {p : Port} (leaves : C.Leaves source p) :
    ¬ C.Enters p source := by
  obtain ⟨first, fromSource, way⟩ := leaves
  obtain ⟨n, walk⟩ := exists_walk_of_reaches way
  rw [← fromSource]
  exact loopFree.not_back ⟨first, fromSource, .refl⟩ walk

end LoopFree

def Endless (C : Cabling Device Port) (p : Port) : Prop :=
  ∃ turn, ReflTransGen C.Onward p turn ∧ TransGen C.Onward turn turn

theorem Endless.next {p : Port} (endless : C.Endless p) :
    ∃ next, C.Onward p next ∧ C.Endless next := by
  obtain ⟨turn, way, loop⟩ := endless
  rcases ReflTransGen.cases_head way with rfl | ⟨next, onward, rest⟩
  · obtain ⟨next, onward, rest⟩ := TransGen.head'_iff.mp loop
    exact ⟨next, onward, p, rest, loop⟩
  · exact ⟨next, onward, turn, rest, loop⟩

theorem exists_endless {source : Device} (loops : ¬ C.LoopFree source) :
    ∃ p, C.device p = source ∧ C.Endless p := by
  simp only [LoopFree, not_forall, not_not] at loops
  obtain ⟨turn, ⟨first, fromSource, way⟩, loop⟩ := loops
  exact ⟨first, fromSource, turn, way, loop⟩

/-- No loops where every way goes down. -/
theorem loopFree_of_rank (source : Device) (rank : Port → Nat)
    (descends : ∀ p next, C.Onward p next → rank next < rank p) : C.LoopFree source := by
  intro p _ loop
  have lower : ∀ q, TransGen C.Onward p q → rank q < rank p := by
    intro q way
    induction way with
    | single onward => exact descends _ _ onward
    | tail _ onward ih => exact (descends _ _ onward).trans ih
  exact lt_irrefl _ (lower p loop)

/-- A device with a chain of cables to the source is one that a frame can come to. -/
theorem exists_enters {source d : Device} (connected : ReflTransGen C.Adjacent source d)
    (other : d ≠ source) : ∃ p, C.Leaves source p ∧ C.Enters p d := by
  induction connected with
  | refl => exact absurd rfl other
  | tail _ adjacent ih =>
      obtain ⟨p, onDevice, enters⟩ := adjacent
      rename_i before after _
      by_cases same : before = source
      · exact ⟨p, same ▸ onDevice ▸ Leaves.first p, enters⟩
      · obtain ⟨earlier, leaves, x, joined, onBefore⟩ := ih same
        by_cases back : p = x
        · -- the cable leads to where the frame came from
          subst back
          obtain ⟨q, joined', onAfter⟩ := enters
          cases Option.some.inj ((C.cable_symm _ _ joined).symm.trans joined')
          rcases leaves.cases with fromSource | ⟨still, leaves, onward⟩
          · exact absurd (onAfter.symm.trans fromSource) other
          · exact ⟨still, leaves, onAfter ▸ onward.enters⟩
        · exact ⟨p, leaves.next ⟨x, joined, onDevice.trans onBefore.symm, back⟩, enters⟩

end Cabling

end Lib
