import Mathlib.Algebra.Order.Field.Basic
import Mathlib.Algebra.Order.Floor.Semifield
import Mathlib.Data.List.Sort
import Mathlib.Tactic.Linarith
import Mathlib.Tactic.Ring

/-!
# Waits truncated step by step

A schedule is followed by waiting before each instant for the step since the one
before it, scaled by a divisor and truncated; steps back are not waited for.
Each step loses less than one unit, so the waits before an instant fall short of
the scaled time since the first by less than their number, and never exceed it
where the instants do not go back.
-/

namespace TickForge.TruncatedWaits

set_option autoImplicit false

variable {K : Type*} [Field K] [LinearOrder K] [IsStrictOrderedRing K] [FloorSemiring K]

section Steps

/-- The wait for one step; the floor of a step back is zero. -/
def stepWait (divisor earlier later : K) : Nat := ⌊(later - earlier) / divisor⌋₊

theorem step_wait_lower (divisor earlier later : K) :
    (later - earlier) / divisor - 1 ≤ stepWait divisor earlier later := by
  exact (Nat.sub_one_lt_floor _).le

theorem step_wait_upper {divisor earlier later : K} (positive : 0 < divisor)
    (forwards : earlier ≤ later) :
    (stepWait divisor earlier later : K) ≤ (later - earlier) / divisor := by
  exact Nat.floor_le (div_nonneg (sub_nonneg.mpr forwards) positive.le)

theorem step_wait_back {divisor earlier later : K} (positive : 0 < divisor)
    (back : later ≤ earlier) : stepWait divisor earlier later = 0 := by
  exact Nat.floor_of_nonpos (div_nonpos_of_nonpos_of_nonneg (sub_nonpos.mpr back) positive.le)

/-- An undivided whole step is waited for in full. -/
theorem step_wait_whole (earlier : K) (gap : Nat) : stepWait 1 earlier (earlier + gap) = gap := by
  rw [stepWait, div_one, add_sub_cancel_left, Nat.floor_natCast]

end Steps

section Totals

/-- All waits of a schedule. -/
def totalWait (divisor : K) : List K → Nat
  | [] => 0
  | [_] => 0
  | earlier :: later :: rest => stepWait divisor earlier later + totalWait divisor (later :: rest)

omit [IsStrictOrderedRing K] in
/-- The induction rule: what holds of an empty wait, and extends by a step of the
schedule at the front, holds of the waits up to any instant. -/
theorem total_wait_induction {divisor : K} (Step : K → K → Prop) (Within : K → K → Nat → Nat → Prop)
    (start : ∀ instant, Within instant instant 0 0)
    (extend : ∀ earlier later last waited steps, Step earlier later →
      Within later last waited steps →
        Within earlier last (stepWait divisor earlier later + waited) (steps + 1))
    (index : Nat) {instants : List K} (steps : (instants.take (index + 1)).IsChain Step)
    {first last : K} (begins : instants[0]? = some first) (ends : instants[index]? = some last) :
    Within first last (totalWait divisor (instants.take (index + 1))) index := by
  induction index generalizing instants first with
  | zero =>
      cases instants with
      | nil => cases begins
      | cons head rest =>
          cases begins
          cases ends
          exact start _
  | succ index ih =>
      cases instants with
      | nil => cases begins
      | cons earlier rest =>
          cases rest with
          | nil => cases ends
          | cons later rest =>
              cases begins
              have chained := List.isChain_cons_cons.mp steps
              have laterChained : ((later :: rest).take (index + 1)).IsChain Step := chained.2
              exact extend first later last _ index chained.1 (ih laterChained rfl ends)

variable {instants : List K} {index : Nat} {first last : K}

theorem total_wait_lower (divisor : K) (begins : instants[0]? = some first)
    (ends : instants[index]? = some last) :
    (last - first) / divisor - index ≤ totalWait divisor (instants.take (index + 1)) := by
  apply total_wait_induction (fun _ _ => True)
    (fun earlier last waited steps => (last - earlier) / divisor - steps ≤ (waited : K))
    (by simp) ?_ index ?_ begins ends
  · intro earlier later last waited steps _ within
    have stepped := step_wait_lower divisor earlier later
    have split : (last - earlier) / divisor =
        (last - later) / divisor + (later - earlier) / divisor := by ring
    push_cast
    linarith
  · exact List.isChain_iff_getElem.mpr fun _ _ => trivial

theorem total_wait_upper {divisor : K} (positive : 0 < divisor)
    (forwards : (instants.take (index + 1)).SortedLE) (begins : instants[0]? = some first)
    (ends : instants[index]? = some last) :
    (totalWait divisor (instants.take (index + 1)) : K) ≤ (last - first) / divisor := by
  apply total_wait_induction (· ≤ ·)
    (fun earlier last waited _ => (waited : K) ≤ (last - earlier) / divisor)
    (by simp) ?_ index forwards.isChain begins ends
  intro earlier later last waited _ forward within
  have stepped := step_wait_upper positive forward
  have split : (last - earlier) / divisor =
      (last - later) / divisor + (later - earlier) / divisor := by ring
  push_cast
  linarith

theorem total_wait_whole (begins : instants[0]? = some first)
    (whole : (instants.take (index + 1)).IsChain fun earlier later : K =>
      ∃ gap : Nat, later = earlier + gap) (ends : instants[index]? = some last) :
    (totalWait 1 (instants.take (index + 1)) : K) = last - first := by
  apply total_wait_induction (fun earlier later : K => ∃ gap : Nat, later = earlier + gap)
    (fun earlier last waited _ => (waited : K) = last - earlier) (by simp) ?_ index whole begins ends
  intro earlier later last waited _ step within
  rcases step with ⟨gap, rfl⟩
  rw [step_wait_whole]
  push_cast
  linarith

end Totals

end TickForge.TruncatedWaits
